/-
The durable tables, and those that the connection sees over them.

A statement leaves the rows of `fixes` in their places and all their values but `seq` and `synced`
(`Touches`), so tables only grow by it (`Grows`), and the tables that the connection sees have
grown from the durable ones.  A rollback takes the connection back to them, and a crash too, but
nothing takes away what is durable.
-/
import SrtGateway.Store.Connection

namespace SrtGateway.Store

open SrtGateway.Protocol

/-! ### Tables that grow -/

/-- The values of a row that no statement changes. -/
def FixRow.lasting (r : FixRow) : FixRow := { r with seq := none, synced := false }

lemma FixRow.id_of_lasting {r r' : FixRow} (h : r'.lasting = r.lasting) : r'.id = r.id :=
  (congrArg FixRow.id h : r'.lasting.id = r.lasting.id)

/-- The rows stay in their places with their values, a synced one stays synced, and an id that
has a letter keeps having one. -/
structure Grows (db db' : Db) : Prop where
  rows : ∀ (i : ℕ) (r : FixRow), db.fixes[i]? = some r → ∃ r' : FixRow, db'.fixes[i]? = some r' ∧
    r'.lasting = r.lasting ∧ (r.synced = true → r'.synced = true)
  letters : ∀ id, (db.deadLetter id).isSome → (db'.deadLetter id).isSome

lemma Grows.refl (db : Db) : Grows db db where
  rows _ r hr := ⟨r, hr, rfl, fun h => h⟩
  letters _ h := h

lemma Grows.trans {db db' db'' : Db} (h : Grows db db') (h' : Grows db' db'') :
    Grows db db'' where
  rows i r hr := by
    obtain ⟨r', hr', hlasting, hsynced⟩ := h.rows i r hr
    obtain ⟨r'', hr'', hlasting', hsynced'⟩ := h'.rows i r' hr'
    exact ⟨r'', hr'', hlasting'.trans hlasting, hsynced' ∘ hsynced⟩
  letters id := h'.letters id ∘ h.letters id

lemma Grows.of_eq {db db' : Db} (h : db' = db) : Grows db db' := h ▸ .refl db

/-- The ids stay in their order. -/
lemma Grows.ordered {db db' : Db} (h : Grows db db') (hordered : db'.Ordered) : db.Ordered := by
  refine List.pairwise_iff_getElem.mpr fun i j hi hj hlt => ?_
  obtain ⟨r, hr, hlasting, -⟩ := h.rows i _ (List.getElem?_eq_getElem hi)
  obtain ⟨r', hr', hlasting', -⟩ := h.rows j _ (List.getElem?_eq_getElem hj)
  obtain ⟨hi', rfl⟩ := List.getElem?_eq_some_iff.mp hr
  obtain ⟨hj', rfl⟩ := List.getElem?_eq_some_iff.mp hr'
  rw [← FixRow.id_of_lasting hlasting, ← FixRow.id_of_lasting hlasting']
  exact List.pairwise_iff_getElem.mp hordered i j hi' hj' hlt

/-- A row that there was is still there. -/
lemma Grows.mem {db db' : Db} (h : Grows db db') {r : FixRow} (hr : r ∈ db.fixes) :
    ∃ r' ∈ db'.fixes, r'.lasting = r.lasting ∧ (r.synced = true → r'.synced = true) := by
  obtain ⟨i, hi⟩ := List.mem_iff_getElem?.mp hr
  obtain ⟨r', hr', hlater⟩ := h.rows i r hi
  exact ⟨r', List.mem_of_getElem? hr', hlater⟩

/-! ### What a statement does -/

/-- What a statement does to the tables that marks the fixes with the given ids, and may insert
fixes or retire them. -/
structure Touches (marks : List ℕ) (db db' : Db) : Prop where
  rows : ∃ (f : FixRow → FixRow) (new : List FixRow), db'.fixes = db.fixes.map f ++ new ∧
    (∀ r, (f r).lasting = r.lasting ∧ ((f r).synced = true ↔ r.synced = true ∨ r.id ∈ marks)) ∧
      ∀ r ∈ new, r.synced = false
  ordered : db.Ordered → db'.Ordered
  letters : db'.deadLetter = db.deadLetter

variable {db db' : Db} {marks : List ℕ} {u : Uplink}

lemma Touches.grows (h : Touches marks db db') : Grows db db' where
  rows i r hr := by
    obtain ⟨f, new, hfixes, hf, -⟩ := h.rows
    refine ⟨f r, ?_, (hf r).1, fun hsynced => (hf r).2.mpr (.inl hsynced)⟩
    have hlt := (List.getElem?_eq_some_iff.mp hr).1
    rw [hfixes, List.getElem?_append_left (by rwa [List.length_map]), List.getElem?_map, hr]
    rfl
  letters id hid := by rwa [h.letters]

/-- A statement on other tables. -/
lemma Touches.of_eq (hfixes : db'.fixes = db.fixes) (hletters : db'.deadLetter = db.deadLetter) :
    Touches [] db db' where
  rows := ⟨id, [], by simp [hfixes], fun r => ⟨rfl, by simp⟩, by simp⟩
  ordered h := by rwa [Db.Ordered, hfixes]
  letters := hletters

lemma markSynced_touches (db : Db) (ids : List ℕ) : Touches ids db (db.markSynced ids) where
  rows := by
    refine ⟨fun r => if r.id ∈ ids then { r with synced := true } else r, [],
      (List.append_nil _).symm, fun r => ?_, by simp⟩
    dsimp only
    split_ifs with h <;> simp [FixRow.lasting, h]
  ordered h := h.map (fun r => by split <;> rfl) rfl
  letters := rfl

lemma retire_touches (db : Db) (id : ℕ) : Touches [] db (db.retire id) where
  rows := by
    refine ⟨fun r => if r.id = id then { r with seq := none } else r, [],
      (List.append_nil _).symm, fun r => ?_, by simp⟩
    dsimp only
    split_ifs <;> simp [FixRow.lasting]
  ordered h := h.map (retire_id id) rfl
  letters := rfl

/-- A new fix, at the end. -/
lemma append_touches (db : Db) (u : Uplink) :
    Touches [] db { db with fixes := db.fixes ++ [rowOf db.nextId u] } where
  rows := ⟨id, [rowOf db.nextId u], by simp, fun r => ⟨rfl, by simp⟩, by simp [rowOf]⟩
  ordered h := by
    refine List.pairwise_append.mpr ⟨h, List.pairwise_singleton _ _, fun r hr r' hr' => ?_⟩
    rw [List.mem_singleton.mp hr']
    exact lt_nextId hr
  letters := rfl

lemma insertRow_touches (h : db.insertRow u = .ok db') : Touches [] db db' := by
  rw [(insertRow_eq_ok h).2]
  exact append_touches db u

lemma insertOrIgnore_touches {inserted : Bool} (h : db.insertOrIgnore u = .ok (inserted, db')) :
    Touches [] db db' := by
  cases hslot : db.selectSlot u.nodeId u.sequence with
  | none =>
    rw [(insertOrIgnore_eq_ok hslot h).2.2]
    exact append_touches db u
  | some row =>
    obtain ⟨_, -, h⟩ := bind_eq_ok.mp h
    rw [hslot] at h
    obtain ⟨-, rfl⟩ := Prod.mk.inj (Except.ok.inj h)
    exact .of_eq rfl rfl

lemma upsertNodeFromFix_touches (h : db.upsertNodeFromFix u = .ok db') : Touches [] db db' := by
  obtain ⟨nodes, rfl⟩ := upsertNodeFromFix_eq_ok h
  exact .of_eq rfl rfl

/-! ### What a step does -/

/-- What the threads beside the uplinker do on the store. -/
inductive Job where
  | insertFix (u : Uplink)
  | upsertRace (raceId : ℤ) (race : RaceRow)
  | storeFingerprint (fp : List Char) (appliedMs : ℤ)

def Job.op : Job → Op
  | .insertFix u => .insertFix u
  | .upsertRace raceId race => .write (.upsertRace raceId race)
  | .storeFingerprint fp appliedMs => .write (.storeFingerprint fp appliedMs)

/-- Thread `t` gets one more thing to do. -/
def Conn.give (s : Conn) (t : ℕ) (job : Job) : Conn :=
  let th := s.threads t
  { s with threads := Function.update s.threads t { th with todo := th.todo ++ [job.op] } }

lemma give_todo {s : Conn} {t i : ℕ} {job : Job} {op : Op}
    (h : op ∈ ((s.give t job).threads i).todo) : op ∈ (s.threads i).todo ∨ op = job.op := by
  rw [Conn.give] at h
  dsimp only at h
  by_cases hi : i = t
  · subst hi
    rw [Function.update_self] at h
    exact (List.mem_append.mp h).imp_right List.mem_singleton.mp
  · rw [Function.update_of_ne hi] at h
    exact .inl h

/-- A call of `insert_fix` has raised, and the rollback is next. -/
def Pc.isFailed : Pc → Bool
  | .failed _ _ => true
  | _ => false

/-- What a step of a thread does to the durable tables and to those that the connection sees,
which are `d` and `w` after it. -/
inductive Moves (s : Conn) (t : ℕ) (d w : Db) : Prop where
  | stays (durable : d = s.durable) (working : w = s.working)
  | writes (durable : d = s.durable) (working : Touches [] s.working w)
  | commits (durable : d = s.working) (working : w = s.working)
  | rollsBack (failed : (s.threads t).pc.isFailed) (durable : d = s.durable)
      (working : w = s.durable)

variable {s : Conn} {t : ℕ}

lemma insertWrite_moves {writes : ℕ} {raises : Bool} {result : Except PyErr Db} {next : Pc}
    (h : ∀ db', result = .ok db' → Touches [] s.working db') :
    Moves s t (s.insertWrite t u writes raises result next).durable
      (s.insertWrite t u writes raises result next).working := by
  unfold Conn.insertWrite
  split
  · exact .writes rfl (h _ rfl)
  · exact .stays rfl rfl

lemma begin_moves (h : ∀ op ∈ (s.threads t).todo, ∃ job : Job, job.op = op) :
    Moves s t (s.begin_ t).durable (s.begin_ t).working := by
  unfold Conn.begin_
  dsimp only
  split
  · exact .stays rfl rfl
  · split <;> exact .stays rfl rfl
  · rename_i w rest htodo
    split
    · exact .stays rfl rfl
    · refine .writes rfl ?_
      obtain ⟨job, hjob⟩ := h (.write w) (by rw [htodo]; exact List.mem_cons_self)
      cases job with
      | insertFix => cases hjob
      | upsertRace | storeFingerprint =>
        cases hjob
        exact .of_eq rfl rfl

/-- **A step of a thread that is not the uplinker.** -/
lemma step_moves (h : ∀ op ∈ (s.threads t).todo, ∃ job : Job, job.op = op) (raises : Bool) :
    Moves s t (s.step t raises).durable (s.step t raises).working := by
  cases hpc : (s.threads t).pc with
  | idle =>
    simp only [Conn.step, hpc]
    exact begin_moves h
  | written w =>
    simp only [Conn.step, hpc]
    exact .commits rfl rfl
  | locked u =>
    simp only [Conn.step, hpc]
    split <;> exact .stays rfl rfl
  | selected u slot =>
    cases slot with
    | none =>
      simp only [Conn.step, hpc]
      refine insertWrite_moves fun db' hdb' => ?_
      obtain ⟨⟨inserted, db''⟩, hinsert, rfl⟩ := map_eq_ok.mp hdb'
      exact insertOrIgnore_touches hinsert
    | some row =>
      simp only [Conn.step, hpc]
      split
      · exact insertWrite_moves fun db' => upsertNodeFromFix_touches
      · refine insertWrite_moves fun db' hdb' => ?_
        rw [← Except.ok.inj hdb']
        exact retire_touches _ _
  | retired u =>
    simp only [Conn.step, hpc]
    exact insertWrite_moves fun db' => insertRow_touches
  | inserted u writes =>
    simp only [Conn.step, hpc]
    exact insertWrite_moves fun db' => upsertNodeFromFix_touches
  | summarised u writes =>
    simp only [Conn.step, hpc]
    split
    · exact .stays rfl rfl
    · exact .commits rfl rfl
  | failed u writes =>
    simp only [Conn.step, hpc]
    exact .rollsBack (by rw [hpc]; rfl) rfl rfl
  | committed u | rolledBack u =>
    simp only [Conn.step, hpc]
    exact .stays rfl rfl

/-- A step of a thread leaves the other threads as they are. -/
lemma step_threads (s : Conn) (t : ℕ) (raises : Bool) :
    ∃ th, (s.step t raises).threads = Function.update s.threads t th ∧
      th.todo ⊆ (s.threads t).todo := by
  have hsame : ∀ pc, ∃ th, (s.goto t pc).threads = Function.update s.threads t th ∧
      th.todo ⊆ (s.threads t).todo :=
    fun pc => ⟨_, rfl, List.Subset.refl _⟩
  have hwrite : ∀ u writes result next, ∃ th,
      (s.insertWrite t u writes raises result next).threads = Function.update s.threads t th ∧
        th.todo ⊆ (s.threads t).todo := by
    intro u writes result next
    unfold Conn.insertWrite
    split <;> exact hsame _
  have hstays : ∃ th, s.threads = Function.update s.threads t th ∧ th.todo ⊆ (s.threads t).todo :=
    ⟨_, (Function.update_eq_self t s.threads).symm, List.Subset.refl _⟩
  cases hpc : (s.threads t).pc with
  | idle =>
    simp only [Conn.step, hpc, Conn.begin_]
    split
    · exact hstays
    · rename_i u rest htodo
      split
      · exact ⟨_, rfl, htodo ▸ List.subset_cons_self _ rest⟩
      · exact hstays
    · rename_i w rest htodo
      split <;> exact ⟨_, rfl, htodo ▸ List.subset_cons_self _ rest⟩
  | written w | committed u =>
    simp only [Conn.step, hpc]
    exact ⟨_, rfl, List.Subset.refl _⟩
  | locked u | summarised u writes =>
    simp only [Conn.step, hpc]
    split <;> exact hsame _
  | selected u slot =>
    cases slot with
    | none =>
      simp only [Conn.step, hpc]
      exact hwrite _ _ _ _
    | some row =>
      simp only [Conn.step, hpc]
      split <;> exact hwrite _ _ _ _
  | retired u | inserted u writes =>
    simp only [Conn.step, hpc]
    exact hwrite _ _ _ _
  | failed u writes | rolledBack u =>
    simp only [Conn.step, hpc]
    exact hsame _

end SrtGateway.Store
