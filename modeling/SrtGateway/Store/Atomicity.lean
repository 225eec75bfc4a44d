/-
Atomicity of the operations on the shared connection.

An order of the operations is built along the run: a `Write` takes its place at its
statement, an `insert_fix` at its INSERT (or, for a resend, at the upsert of the node), since
its other statements commute with whatever other threads write in between.  What the
connection sees is then the replay of this order, up to the statements that the holder of the
lock has made early or has still to make (`InsertState`).  A rollback keeps to the order as
long as it discards the writes of the raising `insert_fix`, all of them, and nothing else; so
runs whose rollbacks are all clean are serializable (`serializable_of_clean_rollbacks`).
-/
import SrtGateway.Store.Connection

namespace SrtGateway.Store

open SrtGateway.Protocol

/-! ### Statements that commute -/

/-- What the SELECT of `insert_fix` reads of a row. -/
def FixRow.key (r : FixRow) : ℕ × ℤ := (r.id, r.tsMs)

lemma exec_retire (w : Write) (db : Db) (id : ℕ) :
    w.exec (db.retire id) = (w.exec db).retire id := by
  cases w with
  | markSynced ids =>
    simp only [Write.exec, Db.markSynced, Db.retire, List.map_map]
    congr 1
    refine List.map_congr_left fun r _ => ?_
    by_cases h1 : r.id = id <;> by_cases h2 : r.id ∈ ids <;> simp [h1, h2] <;> simp_all
  | _ => rfl

lemma exec_selectSlot (w : Write) (db : Db) (nodeId seq : ℤ) :
    ((w.exec db).selectSlot nodeId seq).map FixRow.key =
      (db.selectSlot nodeId seq).map FixRow.key := by
  cases w with
  | markSynced ids =>
    have hkey : ∀ r : FixRow, (if r.id ∈ ids then { r with synced := true } else r).key = r.key ∧
        (if r.id ∈ ids then { r with synced := true } else r).nodeId = r.nodeId ∧
        (if r.id ∈ ids then { r with synced := true } else r).seq = r.seq := by
      intro r
      split <;> exact ⟨rfl, rfl, rfl⟩
    simp only [Write.exec, Db.markSynced, Db.selectSlot, List.find?_map, Option.map_map,
      Function.comp_def, hkey]
  | _ => rfl

lemma exec_upsertNode (w : Write) {db db' : Db} {u : Uplink}
    (h : db.upsertNodeFromFix u = .ok db') :
    (w.exec db).upsertNodeFromFix u = .ok (w.exec db') := by
  obtain ⟨_, hbind, h⟩ := bind_eq_ok.mp h
  obtain rfl := Except.ok.inj h
  refine bind_eq_ok.mpr ⟨_, hbind, ?_⟩
  cases w <;> rfl

lemma exec_of_skips {w : Write} (h : w.skips = true) (db : Db) : w.exec db = db := by
  cases w with
  | markSynced ids =>
    obtain rfl : ids = [] := by simpa [Write.skips] using h
    simp [Write.exec, Db.markSynced]
  | _ => simp [Write.skips] at h

/-! ### `insert_fix` from its statements -/

lemma bindParams_subset {ps qs : List ℤ} {x : Unit} (h : bindParams ps = .ok x) (hsub : qs ⊆ ps) :
    bindParams qs = .ok () := by
  have hall := bindParams_ok h
  rw [bindParams, if_pos]
  simpa using fun n hn => hall n (hsub hn)

/-- The upsert of the node raises only for parameters for which the INSERT has raised. -/
lemma exists_upsertNode {u : Uplink} {x : Unit} (h : bindParams (insertParams u) = .ok x)
    (db : Db) : ∃ db', db.upsertNodeFromFix u = .ok db' :=
  ⟨_, bind_eq_ok.mpr ⟨_, bindParams_subset h (by simp [insertParams]), rfl⟩⟩

section

variable {db mid db' : Db} {u : Uplink} {x : Unit}

lemma insertFix_of_fresh (hbind : bindParams [u.nodeId, u.sequence] = .ok x)
    (hslot : db.selectSlot u.nodeId u.sequence = none) {inserted : Bool}
    (hinsert : db.insertOrIgnore u = .ok (inserted, mid))
    (hnode : mid.upsertNodeFromFix u = .ok db') : (db.insertFix u).2 = db' := by
  have hbody : db.insertFixBody u = .ok (inserted, db') := by
    refine bind_eq_ok.mpr ⟨x, hbind, bind_eq_ok.mpr ⟨(inserted, mid), ?_, ?_⟩⟩
    · rw [Db.insertUnlessResend, hslot, hinsert]
    · exact bind_eq_ok.mpr ⟨db', hnode, rfl⟩
  rw [Db.insertFix, hbody]

lemma insertFix_of_wrapped (hbind : bindParams [u.nodeId, u.sequence] = .ok x) {row : FixRow}
    (hslot : db.selectSlot u.nodeId u.sequence = some row) (hstale : isResend u row = false)
    (hinsert : (db.retire row.id).insertRow u = .ok mid)
    (hnode : mid.upsertNodeFromFix u = .ok db') : (db.insertFix u).2 = db' := by
  have hbody : db.insertFixBody u = .ok (true, db') := by
    refine bind_eq_ok.mpr ⟨x, hbind, bind_eq_ok.mpr ⟨(true, mid), ?_, ?_⟩⟩
    · rw [Db.insertUnlessResend, hslot]
      simp [hstale, hinsert, Except.map]
    · exact bind_eq_ok.mpr ⟨db', hnode, rfl⟩
  rw [Db.insertFix, hbody]

lemma insertFix_of_resend (hbind : bindParams [u.nodeId, u.sequence] = .ok x) {row : FixRow}
    (hslot : db.selectSlot u.nodeId u.sequence = some row) (hrecent : isResend u row = true)
    (hnode : db.upsertNodeFromFix u = .ok db') : (db.insertFix u).2 = db' := by
  have hbody : db.insertFixBody u = .ok (false, db') := by
    refine bind_eq_ok.mpr ⟨x, hbind, bind_eq_ok.mpr ⟨(false, db), ?_, ?_⟩⟩
    · rw [Db.insertUnlessResend, hslot]
      simp [hrecent]
    · exact bind_eq_ok.mpr ⟨db', hnode, rfl⟩
  rw [Db.insertFix, hbody]

end

/-! ### Orders -/

@[simp] lemma replay_concat (db : Db) (order : List (ℕ × Op)) (t : ℕ) (op : Op) :
    replay db (order ++ [(t, op)]) = op.apply (replay db order) := by
  simp [replay]

lemma opsOf_concat_self (t : ℕ) (order : List (ℕ × Op)) (op : Op) :
    opsOf t (order ++ [(t, op)]) = opsOf t order ++ [op] := by
  simp [opsOf]

lemma opsOf_concat_of_ne {t t' : ℕ} (h : t' ≠ t) (order : List (ℕ × Op)) (op : Op) :
    opsOf t (order ++ [(t', op)]) = opsOf t order := by
  simp [opsOf, h]

lemma mem_opsOf {order : List (ℕ × Op)} {op : ℕ × Op} (h : op ∈ order) : op.2 ∈ opsOf op.1 order :=
  List.mem_map_of_mem (List.mem_filter.mpr ⟨h, by simp⟩)

/-- An order in which only one thread has operations is that of the thread. -/
lemma map_snd_eq_opsOf {t : ℕ} {order : List (ℕ × Op)} (h : ∀ t' ≠ t, opsOf t' order = []) :
    order.map Prod.snd = opsOf t order := by
  have hfilter : order.filter (fun op => op.1 = t) = order := by
    refine List.filter_eq_self.mpr fun op hop => ?_
    by_contra hne
    have hmem := mem_opsOf hop
    rw [h op.1 (by simpa using hne)] at hmem
    exact List.not_mem_nil hmem
  rw [opsOf, hfilter]

/-! ### The invariant -/

/-- The operations that a thread has finished with, except that it has not returned. -/
def Pc.placed : Pc → List Op
  | .written w => [.write w]
  | .inserted u _ => [.insertFix u]
  | .summarised u _ => [.insertFix u]
  | .committed u => [.insertFix u]
  | _ => []

/-- The thread has yet to end the transaction in which it may have written. -/
def Pc.inTxn : Pc → Bool
  | .written _ => true
  | .retired _ => true
  | .inserted _ _ => true
  | .summarised _ _ => true
  | .failed _ _ => true
  | _ => false

/-- If the open transaction is just the `writes` of thread `t`, a rollback gives the replay of
the order without its `insert_fix`. -/
def Undoable (db : Db) (s : Conn) (t : ℕ) (u : Uplink) (writes : ℕ) (order : List (ℕ × Op)) :
    Prop :=
  s.txn = List.replicate writes t →
    ∃ order', opsOf t order = opsOf t order' ++ [.insertFix u] ∧
      (∀ t' ≠ t, opsOf t' order' = opsOf t' order) ∧ s.durable = replay db order'

/-- Where thread `t`, which holds the lock, has brought the tables from the replay of the
order. -/
def InsertState (db : Db) (s : Conn) (t : ℕ) (order : List (ℕ × Op)) : Pc → Prop
  | .locked _ => s.working = replay db order
  | .selected u slot => s.working = replay db order ∧
      bindParams [u.nodeId, u.sequence] = .ok () ∧
        ((replay db order).selectSlot u.nodeId u.sequence).map FixRow.key = slot.map FixRow.key
  | .retired u => bindParams [u.nodeId, u.sequence] = .ok () ∧
      (∃ row, s.working = (replay db order).retire row.id ∧ isResend u row = false ∧
        ((replay db order).selectSlot u.nodeId u.sequence).map FixRow.key = some row.key) ∧
      (s.txn = [t] → s.durable = replay db order)
  | .inserted u writes => writes ≠ 0 ∧ s.working.upsertNodeFromFix u = .ok (replay db order) ∧
      Undoable db s t u writes order
  | .summarised u writes => writes ≠ 0 ∧ s.working = replay db order ∧
      Undoable db s t u writes order
  | .committed _ => s.working = replay db order
  | .failed _ writes => (writes = 0 ∧ s.working = replay db order) ∨
      (writes ≠ 0 ∧ s.txn = List.replicate writes t ∧ s.durable = replay db order)
  | .rolledBack _ => s.working = replay db order
  | .idle => False
  | .written _ => False

/-- The invariant, for an order of the operations so far. -/
structure Ordered (db : Db) (s : Conn) (order : List (ℕ × Op)) : Prop where
  ops : ∀ t, opsOf t order = (s.threads t).returned ++ (s.threads t).pc.placed
  free : s.lock = none → s.working = replay db order
  held : ∀ t, s.lock = some t → InsertState db s t order (s.threads t).pc
  others : ∀ t, s.lock ≠ some t →
    (s.threads t).pc = .idle ∨ ∃ w, (s.threads t).pc = .written w
  closed : s.txn = [] → s.durable = s.working
  inTxn : ∀ t ∈ s.txn, (s.threads t).pc.inTxn = true

/-- An `insert_fix` has raised after writing, and the open transaction is not its own: the
rollback that must come cannot be clean. -/
structure Doomed (s : Conn) (t : ℕ) (u : Uplink) (writes : ℕ) : Prop where
  pc : (s.threads t).pc = .failed u writes
  wrote : writes ≠ 0
  mixed : s.txn ≠ List.replicate writes t
  lock : s.lock = some t
  others : ∀ t' ≠ t, (s.threads t').pc = .idle ∨ ∃ w, (s.threads t').pc = .written w

variable {db : Db} {s s' : Conn} {order order' : List (ℕ × Op)} {t : ℕ}

/-- What is to be shown when the step of a thread takes it to `th`. -/
lemma Ordered.update {th : Thread} (h : Ordered db s order)
    (hthreads : s'.threads = Function.update s.threads t th)
    (hops : opsOf t order' = th.returned ++ th.pc.placed)
    (hopsOther : ∀ t' ≠ t, opsOf t' order' = opsOf t' order)
    (hfree : s'.lock = none → s'.working = replay db order')
    (hself : s'.lock = some t → InsertState db s' t order' th.pc)
    (hholder : ∀ t' ≠ t, s'.lock = some t' → InsertState db s' t' order' (s.threads t').pc)
    (hwriter : s'.lock ≠ some t → th.pc = .idle ∨ ∃ w, th.pc = .written w)
    (hlock : ∀ t' ≠ t, s.lock = some t' → s'.lock = some t')
    (hclosed : s'.txn = [] → s'.durable = s'.working)
    (hinTxn : t ∈ s'.txn → th.pc.inTxn = true) (htxn : ∀ t' ≠ t, t' ∈ s'.txn → t' ∈ s.txn) :
    Ordered db s' order' := by
  have hself' : s'.threads t = th := by rw [hthreads, Function.update_self]
  have hother : ∀ t' ≠ t, s'.threads t' = s.threads t' := fun t' hne => by
    rw [hthreads, Function.update_of_ne hne]
  -- each clause for the thread itself, and for the others
  refine ⟨fun t' => ?_, hfree, fun t' hl => ?_, fun t' hl => ?_, hclosed, fun t' hmem => ?_⟩
  all_goals by_cases hne : t' = t
  · rw [hne, hself', hops]
  · rw [hother t' hne, hopsOther t' hne, h.ops t']
  · rw [hne] at hl ⊢
    rw [hself']
    exact hself hl
  · rw [hother t' hne]
    exact hholder t' hne hl
  · rw [hne] at hl ⊢
    rw [hself']
    exact hwriter hl
  · rw [hother t' hne]
    exact h.others t' fun hs => hl (hlock t' hne hs)
  · rw [hne] at hmem ⊢
    rw [hself']
    exact hinTxn hmem
  · rw [hother t' hne]
    exact h.inTxn t' (htxn t' hne hmem)

/-! ### Steps of threads that do not hold the lock -/

lemma replicate_ne_concat {t t' writes : ℕ} (h : t' ≠ t) (txn : List ℕ) :
    txn ++ [t'] ≠ List.replicate writes t := by
  intro heq
  have hmem : t' ∈ List.replicate writes t :=
    heq ▸ List.mem_append_right _ (List.mem_singleton_self _)
  exact h (List.eq_of_mem_replicate hmem)

/-- Another thread's statement moves the tables and the replay alike. -/
lemma InsertState.foreign_write {t t' : ℕ} (hne : t' ≠ t) {pc : Pc}
    (h : InsertState db s t order pc) (w : Write) (hfailed : ∀ u k, pc = .failed u k → k = 0) :
    InsertState db (s.write t' (w.exec s.working)) t (order ++ [(t', .write w)]) pc := by
  have hreplay : replay db (order ++ [(t', .write w)]) = w.exec (replay db order) := by
    rw [replay_concat, Op.apply]
  have hundo : ∀ u k, Undoable db (s.write t' (w.exec s.working)) t u k
      (order ++ [(t', .write w)]) := fun u k htxn => absurd htxn (replicate_ne_concat hne s.txn)
  cases pc with
  | locked u => exact (congrArg w.exec h).trans hreplay.symm
  | committed u => exact (congrArg w.exec h).trans hreplay.symm
  | rolledBack u => exact (congrArg w.exec h).trans hreplay.symm
  | selected u slot =>
    obtain ⟨hw, hbind, hslot⟩ := h
    refine ⟨(congrArg w.exec hw).trans hreplay.symm, hbind, ?_⟩
    rw [hreplay, exec_selectSlot, hslot]
  | retired u =>
    -- the row that was chosen is still the one of this slot, whatever else changed in it
    obtain ⟨hbind, ⟨row, hw, hstale, hslot⟩, -⟩ := h
    refine ⟨hbind, ⟨row, ?_, hstale, ?_⟩, fun htxn => ?_⟩
    · rw [hreplay, ← exec_retire, ← hw]
      rfl
    · rw [hreplay, exec_selectSlot, hslot]
    · have hown : s.txn ++ [t'] ≠ List.replicate 1 t := replicate_ne_concat hne s.txn
      exact absurd htxn hown
  | inserted u k =>
    obtain ⟨hk, hnode, -⟩ := h
    refine ⟨hk, ?_, hundo u k⟩
    rw [hreplay]
    exact exec_upsertNode w hnode
  | summarised u k =>
    obtain ⟨hk, hw, -⟩ := h
    exact ⟨hk, (congrArg w.exec hw).trans hreplay.symm, hundo u k⟩
  | failed u k =>
    obtain ⟨-, hw⟩ | ⟨hk, -⟩ := h
    · exact .inl ⟨hfailed u k rfl, (congrArg w.exec hw).trans hreplay.symm⟩
    · exact absurd (hfailed u k rfl) hk
  | idle => exact h
  | written => exact h

/-- Another thread's commit leaves the tables as the connection sees them. -/
lemma InsertState.foreign_commit {pc : Pc} (h : InsertState db s t order pc)
    (hfailed : ∀ u k, pc = .failed u k → k = 0) : InsertState db s.commit t order pc := by
  have hundo : ∀ u k, k ≠ 0 → Undoable db s.commit t u k order := fun u k hk htxn =>
    absurd (List.replicate_eq_nil_iff t |>.mp htxn.symm) hk
  cases pc with
  | retired u => exact ⟨h.1, h.2.1, fun htxn => absurd htxn (by simp [Conn.commit])⟩
  | inserted u k => exact ⟨h.1, h.2.1, hundo u k h.1⟩
  | summarised u k => exact ⟨h.1, h.2.1, hundo u k h.1⟩
  | failed u k =>
    obtain hw | ⟨hk, -⟩ := h
    · exact .inl hw
    · exact absurd (hfailed u k rfl) hk
  | _ => exact h

/-- A `Write` that returns at once has a place anywhere in the order. -/
lemma InsertState.foreign_skip {t' : ℕ} (hne : t' ≠ t) {pc : Pc} (h : InsertState db s t order pc)
    {w : Write} (hskips : w.skips = true) :
    InsertState db s t (order ++ [(t', .write w)]) pc := by
  have hreplay : ∀ order, replay db (order ++ [(t', .write w)]) = replay db order := fun order => by
    simp [Op.apply, exec_of_skips hskips]
  have hundo : ∀ u k, Undoable db s t u k order →
      Undoable db s t u k (order ++ [(t', .write w)]) := by
    intro u k hundo htxn
    -- it skips in the order without the `insert_fix` as well
    obtain ⟨order', hself, hothers, hdurable⟩ := hundo htxn
    refine ⟨order' ++ [(t', .write w)], ?_, fun t'' hne' => ?_, hdurable.trans (hreplay _).symm⟩
    · rw [opsOf_concat_of_ne hne, opsOf_concat_of_ne hne, hself]
    · by_cases heq : t'' = t'
      · rw [heq] at hne' ⊢
        rw [opsOf_concat_self, opsOf_concat_self, hothers t' hne']
      · rw [opsOf_concat_of_ne (Ne.symm heq), opsOf_concat_of_ne (Ne.symm heq), hothers t'' hne']
  cases pc with
  | inserted u k => exact ⟨h.1, (hreplay order).symm ▸ h.2.1, hundo u k h.2.2⟩
  | summarised u k => exact ⟨h.1, (hreplay order).symm ▸ h.2.1, hundo u k h.2.2⟩
  | idle => exact h
  | written => exact h
  | _ => simpa only [InsertState, hreplay] using h

/-! ### Steps of the thread that holds the lock -/

/-- An order of the operations exists, as long as the rollback to come can be clean. -/
def Sound (db : Db) (s : Conn) : Prop :=
  (∃ order, Ordered db s order) ∨ ∃ t u writes, Doomed s t u writes

/-- Only the tables and the transaction matter. -/
lemma InsertState.congr {pc : Pc} (h : InsertState db s t order pc)
    (hworking : s'.working = s.working) (htxn : s'.txn = s.txn)
    (hdurable : s'.durable = s.durable) : InsertState db s' t order pc := by
  cases pc with
  | idle => exact h
  | written => exact h
  | _ => simpa only [InsertState, Undoable, hworking, htxn, hdurable] using h

lemma Ordered.held_at (h : Ordered db s order) (hlock : s.lock = some t) {pc : Pc}
    (hpc : (s.threads t).pc = pc) : InsertState db s t order pc :=
  hpc ▸ h.held t hlock

/-- What is to be shown when the holder keeps the lock. -/
lemma Ordered.hold (h : Ordered db s order) (hlock : s.lock = some t) {pc : Pc}
    (hthreads : s'.threads = Function.update s.threads t { s.threads t with pc := pc })
    (hlock' : s'.lock = some t) (hops : opsOf t order' = (s.threads t).returned ++ pc.placed)
    (hothers : ∀ t' ≠ t, opsOf t' order' = opsOf t' order) (hstate : InsertState db s' t order' pc)
    (hclosed : s'.txn = [] → s'.durable = s'.working)
    (hinTxn : t ∈ s'.txn → pc.inTxn = true) (htxn : ∀ t' ≠ t, t' ∈ s'.txn → t' ∈ s.txn) :
    Ordered db s' order' := by
  refine h.update hthreads hops hothers ?_ (fun _ => hstate) ?_ ?_ ?_ hclosed hinTxn htxn
  · exact fun hfree => absurd (hlock'.symm.trans hfree) (by simp)
  · exact fun t' hne hheld => absurd (Option.some.inj (hlock'.symm.trans hheld)).symm hne
  · exact fun hl => absurd hlock' hl
  · exact fun t' hne hheld => absurd (Option.some.inj (hlock.symm.trans hheld)).symm hne

/-- The holder ends the transaction. -/
lemma Ordered.end_txn (h : Ordered db s order) (hlock : s.lock = some t) {pc : Pc}
    (hthreads : s'.threads = Function.update s.threads t { s.threads t with pc := pc })
    (hlock' : s'.lock = some t) (hops : opsOf t order = (s.threads t).returned ++ pc.placed)
    (hstate : InsertState db s' t order pc) (htxn : s'.txn = [])
    (hclosed : s'.durable = s'.working) : Ordered db s' order := by
  have hnone : ∀ t', t' ∉ s'.txn := fun t' => htxn ▸ List.not_mem_nil
  exact h.hold hlock hthreads hlock' hops (fun _ _ => rfl) hstate (fun _ => hclosed)
    (fun hmem => absurd hmem (hnone t)) (fun t' _ hmem => absurd hmem (hnone t'))

lemma Ordered.goto (h : Ordered db s order) (hlock : s.lock = some t) {pc : Pc}
    (hops : opsOf t order' = (s.threads t).returned ++ pc.placed)
    (hothers : ∀ t' ≠ t, opsOf t' order' = opsOf t' order) (hstate : InsertState db s t order' pc)
    (hinTxn : (s.threads t).pc.inTxn = true → pc.inTxn = true) :
    Ordered db (s.goto t pc) order' :=
  h.hold hlock rfl hlock hops hothers (hstate.congr rfl rfl rfl) h.closed
    (fun hmem => hinTxn (h.inTxn t hmem)) fun _ _ hmem => hmem

/-- A statement of one thread brings no other one into the transaction. -/
lemma mem_txn_of_write {t' : ℕ} (hne : t' ≠ t) (hmem : t' ∈ s.txn ++ [t]) : t' ∈ s.txn := by
  rcases List.mem_append.mp hmem with hmem | hmem
  · exact hmem
  · exact absurd (List.mem_singleton.mp hmem) hne

lemma Ordered.write_goto (h : Ordered db s order) (hlock : s.lock = some t) {db' : Db} {pc : Pc}
    (hops : opsOf t order' = (s.threads t).returned ++ pc.placed)
    (hothers : ∀ t' ≠ t, opsOf t' order' = opsOf t' order)
    (hstate : InsertState db (s.write t db') t order' pc) (hinTxn : pc.inTxn = true) :
    Ordered db ((s.write t db').goto t pc) order' := by
  refine h.hold hlock rfl hlock hops hothers (hstate.congr rfl rfl rfl) ?_ (fun _ => hinTxn) ?_
  · exact fun htxn => absurd htxn (by simp [Conn.write, Conn.goto])
  · exact fun t' hne hmem => mem_txn_of_write hne hmem

/-- The holder places its `insert_fix` with a statement that changes data. -/
lemma Ordered.place (h : Ordered db s order) (hlock : s.lock = some t) {u : Uplink} {db' : Db}
    {pc : Pc} (hbefore : (s.threads t).pc.placed = []) (hpc : pc.placed = [.insertFix u])
    (hstate : InsertState db (s.write t db') t (order ++ [(t, .insertFix u)]) pc)
    (hinTxn : pc.inTxn = true) : Sound db ((s.write t db').goto t pc) := by
  refine .inl ⟨_, h.write_goto hlock ?_ (fun t' hne => opsOf_concat_of_ne hne.symm _ _) hstate
    hinTxn⟩
  rw [opsOf_concat_self, h.ops t, hbefore, hpc, List.append_nil]

/-- An `insert_fix` that raises before it has changed anything. -/
lemma Ordered.fail_early (h : Ordered db s order) (hlock : s.lock = some t) (u : Uplink)
    (hplaced : (s.threads t).pc.placed = []) (hworking : s.working = replay db order) :
    Sound db (s.goto t (.failed u 0)) := by
  refine .inl ⟨order, h.goto hlock ?_ (fun _ _ => rfl) (.inl ⟨rfl, hworking⟩) fun _ => rfl⟩
  rw [h.ops t, hplaced]
  rfl

/-- An `insert_fix` that raises after it has changed something. -/
lemma Ordered.fail_late (h : Ordered db s order) (hlock : s.lock = some t) (u : Uplink)
    {writes : ℕ} (hwrites : writes ≠ 0)
    (hundo : s.txn = List.replicate writes t → ∃ order', opsOf t order' = (s.threads t).returned ∧
      (∀ t' ≠ t, opsOf t' order' = opsOf t' order) ∧ s.durable = replay db order') :
    Sound db (s.goto t (.failed u writes)) := by
  by_cases htxn : s.txn = List.replicate writes t
  · obtain ⟨order', hself, hothers, hdurable⟩ := hundo htxn
    refine .inl ⟨order', h.goto hlock ?_ hothers (.inr ⟨hwrites, htxn, hdurable⟩) fun _ => rfl⟩
    rw [hself]
    exact (List.append_nil _).symm
  · -- someone else has written in the transaction, or has committed it
    refine .inr ⟨t, u, writes, by simp [Conn.goto], hwrites, htxn, hlock, fun t' hne => ?_⟩
    have hthread : (s.goto t (.failed u writes)).threads t' = s.threads t' :=
      Function.update_of_ne hne _ _
    rw [hthread]
    exact h.others t' fun hheld => hne (Option.some.inj (hheld.symm.trans hlock))

/-- An `insert_fix` that raises after it was placed. -/
lemma Ordered.fail_placed (h : Ordered db s order) (hlock : s.lock = some t) (u : Uplink)
    {writes : ℕ} (hwrites : writes ≠ 0) (hplaced : (s.threads t).pc.placed = [.insertFix u])
    (hundo : Undoable db s t u writes order) : Sound db (s.goto t (.failed u writes)) := by
  refine h.fail_late hlock u hwrites fun htxn => ?_
  obtain ⟨order', hself, hothers, hdurable⟩ := hundo htxn
  refine ⟨order', List.append_cancel_right (hself.symm.trans ?_), hothers, hdurable⟩
  rw [h.ops t, hplaced]

lemma sound_insertWrite {u : Uplink} {writes : ℕ} {raises : Bool} {result : Except PyErr Db}
    {next : Pc} (hfail : Sound db (s.goto t (.failed u writes)))
    (hok : ∀ db', result = .ok db' → Sound db ((s.write t db').goto t next)) :
    Sound db (s.insertWrite t u writes raises result next) := by
  unfold Conn.insertWrite
  split
  · exact hok _ rfl
  · exact hfail

lemma txn_of_write {db' : Db} {writes : ℕ}
    (h : (s.write t db').txn = List.replicate (writes + 1) t) :
    s.txn = List.replicate writes t := by
  rw [List.replicate_succ'] at h
  exact List.append_cancel_right h

/-- The first write of a transaction can be undone. -/
lemma Ordered.undoable_first (h : Ordered db s order) {u : Uplink} {db' : Db}
    (hworking : s.working = replay db order) :
    Undoable db (s.write t db') t u 1 (order ++ [(t, .insertFix u)]) := by
  intro htxn
  have hempty : s.txn = List.replicate 0 t := txn_of_write htxn
  exact ⟨order, opsOf_concat_self t order _, fun t' hne => (opsOf_concat_of_ne hne.symm _ _).symm,
    (h.closed hempty).trans hworking⟩

lemma Ordered.step_locked (h : Ordered db s order) {u : Uplink} (hpc : (s.threads t).pc = .locked u)
    (hlock : s.lock = some t) (raises : Bool) : Sound db (s.step t raises) := by
  have hworking : s.working = replay db order := h.held_at hlock hpc
  have hfail := h.fail_early hlock u (by rw [hpc]; rfl) hworking
  simp only [Conn.step, hpc]
  split
  · rename_i hbind
    refine .inl ⟨order, h.goto hlock ?_ (fun _ _ => rfl) ⟨hworking, hbind, by rw [hworking]⟩ ?_⟩
    · rw [h.ops t, hpc]
      rfl
    · simp [hpc, Pc.inTxn]
  · exact hfail

/-- What the SELECT returned, in terms of the row that is there now. -/
lemma exists_slot {db : Db} {nodeId seq : ℤ} {row : FixRow}
    (h : (db.selectSlot nodeId seq).map FixRow.key = some row.key) (u : Uplink) :
    ∃ row', db.selectSlot nodeId seq = some row' ∧ row'.id = row.id ∧
      isResend u row' = isResend u row := by
  obtain ⟨row', hslot, hkey⟩ := Option.map_eq_some_iff.mp h
  obtain ⟨hid, hts⟩ := Prod.mk.inj hkey
  exact ⟨row', hslot, hid, by rw [isResend, isResend, hts]⟩

lemma Ordered.step_selected (h : Ordered db s order) {u : Uplink} {slot : Option FixRow}
    (hpc : (s.threads t).pc = .selected u slot) (hlock : s.lock = some t) (raises : Bool) :
    Sound db (s.step t raises) := by
  obtain ⟨hworking, hbind, hslot⟩ : InsertState db s t order (.selected u slot) :=
    h.held_at hlock hpc
  have hplaced : (s.threads t).pc.placed = [] := by rw [hpc]; rfl
  have hfail := h.fail_early hlock u hplaced hworking
  cases slot with
  | none =>
    -- the parameters of the INSERT were fine, so those of the upsert are
    simp only [Conn.step, hpc]
    refine sound_insertWrite hfail fun mid hmid => ?_
    obtain ⟨⟨inserted, mid⟩, hinsert, rfl⟩ := map_eq_ok.mp hmid
    obtain ⟨_, hparams, -⟩ := bind_eq_ok.mp hinsert
    obtain ⟨db', hnode⟩ := exists_upsertNode hparams mid
    refine h.place hlock hplaced rfl ⟨one_ne_zero, ?_, h.undoable_first hworking⟩ rfl
    rw [replay_concat, Op.apply, insertFix_of_fresh hbind (Option.map_eq_none_iff.mp hslot)
      (hworking ▸ hinsert) hnode]
    exact hnode
  | some row =>
    obtain ⟨row', hrow', hid, hresend⟩ := exists_slot hslot u
    simp only [Conn.step, hpc]
    split
    · rename_i hrecent
      refine sound_insertWrite hfail fun db' hnode => ?_
      refine h.place hlock hplaced rfl ⟨one_ne_zero, ?_, h.undoable_first hworking⟩ rfl
      rw [replay_concat, Op.apply, insertFix_of_resend hbind hrow' (hresend.trans hrecent)
        (hworking ▸ hnode)]
      rfl
    · -- the retirement is early: the `insert_fix` takes its place with the INSERT
      rename_i hstale
      refine sound_insertWrite hfail fun db' hretire => ?_
      obtain rfl := Except.ok.inj hretire
      refine .inl ⟨order, h.write_goto hlock ?_ (fun _ _ => rfl)
        ⟨hbind, ⟨row, ?_, ?_, hslot⟩, ?_⟩ rfl⟩
      · rw [h.ops t, hplaced]
        rfl
      · rw [← hworking]
        rfl
      · exact Bool.eq_false_iff.mpr hstale
      · intro htxn
        have hempty : s.txn = List.replicate 0 t := txn_of_write htxn
        exact (h.closed hempty).trans hworking

lemma Ordered.step_retired (h : Ordered db s order) {u : Uplink}
    (hpc : (s.threads t).pc = .retired u) (hlock : s.lock = some t) (raises : Bool) :
    Sound db (s.step t raises) := by
  obtain ⟨hbind, ⟨row, hworking, hstale, hslot⟩, hundo⟩ : InsertState db s t order (.retired u) :=
    h.held_at hlock hpc
  have hplaced : (s.threads t).pc.placed = [] := by rw [hpc]; rfl
  have hops : opsOf t order = (s.threads t).returned := by
    rw [h.ops t, hplaced, List.append_nil]
  obtain ⟨row', hrow', hid, hresend⟩ := exists_slot hslot u
  simp only [Conn.step, hpc]
  refine sound_insertWrite ?_ fun mid hinsert => ?_
  · exact h.fail_late hlock u one_ne_zero fun htxn => ⟨order, hops, fun _ _ => rfl, hundo htxn⟩
  · obtain ⟨_, hparams, -⟩ := bind_eq_ok.mp hinsert
    obtain ⟨db', hnode⟩ := exists_upsertNode hparams mid
    refine h.place hlock hplaced rfl ⟨two_ne_zero, ?_, fun htxn => ?_⟩ rfl
    · rw [replay_concat, Op.apply, insertFix_of_wrapped hbind hrow' (hresend.trans hstale)
        (hid ▸ hworking ▸ hinsert) hnode]
      exact hnode
    · have hown : s.txn = List.replicate 1 t := txn_of_write htxn
      exact ⟨order, opsOf_concat_self t order _,
        fun t' hne => (opsOf_concat_of_ne hne.symm _ _).symm, hundo hown⟩

lemma Ordered.step_inserted (h : Ordered db s order) {u : Uplink} {writes : ℕ}
    (hpc : (s.threads t).pc = .inserted u writes) (hlock : s.lock = some t) (raises : Bool) :
    Sound db (s.step t raises) := by
  obtain ⟨hwrites, hnode, hundo⟩ : InsertState db s t order (.inserted u writes) :=
    h.held_at hlock hpc
  have hplaced : (s.threads t).pc.placed = [.insertFix u] := by rw [hpc]; rfl
  simp only [Conn.step, hpc]
  refine sound_insertWrite (h.fail_placed hlock u hwrites hplaced hundo) fun db' hdb' => ?_
  obtain rfl := Except.ok.inj (hnode.symm.trans hdb')
  refine .inl ⟨order, h.write_goto hlock ?_ (fun _ _ => rfl) ⟨writes.succ_ne_zero, rfl, ?_⟩ rfl⟩
  · rw [h.ops t, hplaced]
    rfl
  · intro htxn
    exact hundo (txn_of_write htxn)

lemma Ordered.step_summarised (h : Ordered db s order) {u : Uplink} {writes : ℕ}
    (hpc : (s.threads t).pc = .summarised u writes) (hlock : s.lock = some t) (raises : Bool) :
    Sound db (s.step t raises) := by
  obtain ⟨hwrites, hworking, hundo⟩ : InsertState db s t order (.summarised u writes) :=
    h.held_at hlock hpc
  have hplaced : (s.threads t).pc.placed = [.insertFix u] := by rw [hpc]; rfl
  simp only [Conn.step, hpc]
  cases raises with
  | true => exact h.fail_placed hlock u hwrites hplaced hundo
  | false =>
    have hnext : Ordered db (s.commit.goto t (.committed u)) order := by
      refine h.end_txn hlock rfl hlock ?_ hworking rfl rfl
      rw [h.ops t, hplaced]
      rfl
    exact .inl ⟨order, hnext⟩

/-- The holder releases the lock with the tables as the order has them. -/
lemma Ordered.release (h : Ordered db s order) (hlock : s.lock = some t)
    (hworking : s.working = replay db order) (hinTxn : (s.threads t).pc.inTxn = false)
    {returned : List Op} (hops : (s.threads t).returned ++ (s.threads t).pc.placed = returned)
    (hthreads : s'.threads = Function.update s.threads t ⟨(s.threads t).todo, .idle, returned⟩)
    (hs' : s' = { s with lock := none, threads := s'.threads }) : Ordered db s' order := by
  have hmem : t ∉ s.txn := fun hmem => by simpa [hinTxn] using h.inTxn t hmem
  rw [hs'] at hthreads ⊢
  refine h.update hthreads ?_ (fun _ _ => rfl) (fun _ => hworking) ?_ ?_ (fun _ => .inl rfl) ?_
    h.closed (fun hm => absurd hm hmem) (fun _ _ hm => hm)
  · rw [h.ops t, hops]
    exact (List.append_nil _).symm
  · exact fun hheld => nomatch hheld
  · exact fun _ _ hheld => nomatch hheld
  · exact fun t' hne hheld => absurd (Option.some.inj (hlock.symm.trans hheld)).symm hne

lemma Ordered.step_committed (h : Ordered db s order) {u : Uplink}
    (hpc : (s.threads t).pc = .committed u) (hlock : s.lock = some t) (raises : Bool) :
    Sound db (s.step t raises) := by
  have hworking : s.working = replay db order := h.held_at hlock hpc
  simp only [Conn.step, hpc]
  exact .inl ⟨order, h.release hlock hworking (by rw [hpc]; rfl) (by rw [hpc]; rfl) rfl rfl⟩

lemma Ordered.step_rolledBack (h : Ordered db s order) {u : Uplink}
    (hpc : (s.threads t).pc = .rolledBack u) (hlock : s.lock = some t) (raises : Bool) :
    Sound db (s.step t raises) := by
  have hworking : s.working = replay db order := h.held_at hlock hpc
  simp only [Conn.step, hpc]
  exact .inl ⟨order, h.release hlock hworking (by rw [hpc]; rfl)
    (by rw [hpc]; exact List.append_nil _) rfl rfl⟩

lemma Ordered.step_failed (h : Ordered db s order) {u : Uplink} {writes : ℕ}
    (hpc : (s.threads t).pc = .failed u writes) (hlock : s.lock = some t)
    (hclean : CleanRollback s t) (raises : Bool) : Sound db (s.step t raises) := by
  have hstate : InsertState db s t order (.failed u writes) := h.held_at hlock hpc
  have hdurable : s.durable = replay db order := by
    -- an `insert_fix` that has not written finds no transaction open when it rolls back
    obtain ⟨rfl, hworking⟩ | ⟨-, -, hdurable⟩ := hstate
    · exact (h.closed (hclean u 0 hpc)).trans hworking
    · exact hdurable
  simp only [Conn.step, hpc]
  have hnext : Ordered db (s.rollback.goto t (.rolledBack u)) order := by
    refine h.end_txn hlock rfl hlock ?_ hdurable rfl rfl
    rw [h.ops t, hpc]
    rfl
  exact .inl ⟨order, hnext⟩

/-! ### All steps -/

/-- The steps of a thread that does not hold the lock. -/
inductive ForeignStep (s : Conn) (t : ℕ) : Conn → Prop where
  | stay : ForeignStep s t s
  | acquire (u : Uplink) (rest : List Op) (idle : (s.threads t).pc = .idle) (free : s.lock = none) :
      ForeignStep s t { s with
        lock := some t,
        threads := Function.update s.threads t ⟨rest, .locked u, (s.threads t).returned⟩ }
  | skip (w : Write) (rest : List Op) (idle : (s.threads t).pc = .idle) (skips : w.skips = true) :
      ForeignStep s t { s with
        threads := Function.update s.threads t
          ⟨rest, .idle, (s.threads t).returned ++ [.write w]⟩ }
  | statement (w : Write) (rest : List Op) (idle : (s.threads t).pc = .idle) :
      ForeignStep s t { s.write t (w.exec s.working) with
        threads := Function.update s.threads t ⟨rest, .written w, (s.threads t).returned⟩ }
  | commit (w : Write) (written : (s.threads t).pc = .written w) :
      ForeignStep s t (s.commit.return_ t (.write w))

lemma foreignStep_of (hpc : (s.threads t).pc = .idle ∨ ∃ w, (s.threads t).pc = .written w)
    (raises : Bool) : ForeignStep s t (s.step t raises) := by
  obtain hidle | ⟨w, hwritten⟩ := hpc
  · simp only [Conn.step, hidle, Conn.begin_]
    cases (s.threads t).todo with
    | nil => exact .stay
    | cons op rest =>
      cases op with
      | insertFix u =>
        dsimp only
        split
        · exact .acquire u rest hidle ‹_›
        · exact .stay
      | write w =>
        dsimp only
        split
        · exact .skip w rest hidle ‹_›
        · exact .statement w rest hidle
  · simp only [Conn.step, hwritten]
    exact .commit w hwritten

/-- A holder that has raised after its writes stays so. -/
lemma doomed_of_failed {t' : ℕ} {u : Uplink} {writes : ℕ} {th : Thread} (hne : t' ≠ t)
    (hpc : (s.threads t').pc = .failed u writes) (hwrites : writes ≠ 0) (hlock : s.lock = some t')
    (hothers : ∀ t'' ≠ t', (s.threads t'').pc = .idle ∨ ∃ w, (s.threads t'').pc = .written w)
    (hthreads : s'.threads = Function.update s.threads t th) (hlock' : s'.lock = s.lock)
    (hwriter : th.pc = .idle ∨ ∃ w, th.pc = .written w)
    (hmixed : s'.txn ≠ List.replicate writes t') : Doomed s' t' u writes := by
  refine ⟨?_, hwrites, hmixed, hlock'.trans hlock, fun t'' hne' => ?_⟩
  · rw [hthreads, Function.update_of_ne hne]
    exact hpc
  · by_cases heq : t'' = t
    · rw [hthreads, heq, Function.update_self]
      exact hwriter
    · rw [hthreads, Function.update_of_ne heq]
      exact hothers t'' hne'

lemma Doomed.step {t' : ℕ} {u : Uplink} {writes : ℕ} (h : Doomed s t' u writes)
    (hclean : CleanRollback s t) (raises : Bool) : Doomed (s.step t raises) t' u writes := by
  -- the holder itself could only make a rollback that is not clean
  have hne : t' ≠ t := by
    rintro rfl
    exact h.mixed (hclean u writes h.pc)
  have hstep := foreignStep_of (h.others t hne.symm) raises
  generalize s.step t raises = s' at hstep ⊢
  cases hstep with
  | stay => exact h
  | acquire u rest idle free => exact absurd (h.lock.symm.trans free) (by simp)
  | skip w rest =>
    exact doomed_of_failed hne h.pc h.wrote h.lock h.others rfl rfl (.inl rfl) h.mixed
  | statement w rest =>
    exact doomed_of_failed hne h.pc h.wrote h.lock h.others rfl rfl (.inr ⟨w, rfl⟩)
      (replicate_ne_concat hne.symm s.txn)
  | commit w =>
    exact doomed_of_failed hne h.pc h.wrote h.lock h.others rfl rfl (.inl rfl)
      fun htxn => h.wrote (List.replicate_eq_nil_iff t' |>.mp htxn.symm)

/-- A holder that has raised after its writes is doomed by what another thread does to the
transaction. -/
lemma Ordered.doom {t' : ℕ} {u : Uplink} {writes : ℕ} {th : Thread} (h : Ordered db s order)
    (hlock : s.lock = some t') (hne : t' ≠ t) (hpc : (s.threads t').pc = .failed u writes)
    (hwrites : writes ≠ 0) (hthreads : s'.threads = Function.update s.threads t th)
    (hlock' : s'.lock = s.lock) (hwriter : th.pc = .idle ∨ ∃ w, th.pc = .written w)
    (hmixed : s'.txn ≠ List.replicate writes t') : Sound db s' :=
  .inr ⟨t', u, writes, doomed_of_failed hne hpc hwrites hlock
    (fun t'' hne' => h.others t'' fun hheld => hne' (Option.some.inj (hheld.symm.trans hlock)))
    hthreads hlock' hwriter hmixed⟩

lemma Ordered.acquire (h : Ordered db s order) (u : Uplink) (rest : List Op)
    (idle : (s.threads t).pc = .idle) (free : s.lock = none) :
    Ordered db { s with
      lock := some t,
      threads := Function.update s.threads t ⟨rest, .locked u, (s.threads t).returned⟩ } order := by
  refine h.update rfl ?_ (fun _ _ => rfl) ?_ (fun _ => h.free free) ?_ ?_ ?_ h.closed ?_
    fun _ _ hmem => hmem
  · rw [h.ops t, idle]
    rfl
  · exact fun hnone => nomatch hnone
  · exact fun t' hne hheld => absurd (Option.some.inj hheld).symm hne
  · exact fun hl => absurd rfl hl
  · exact fun t' hne hheld => absurd (hheld.symm.trans free) (by simp)
  · exact fun hmem => absurd (h.inTxn t hmem) (by simp [idle, Pc.inTxn])

lemma Ordered.skip (h : Ordered db s order) (hlock : s.lock ≠ some t) {w : Write} (rest : List Op)
    (idle : (s.threads t).pc = .idle) (skips : w.skips = true) :
    Ordered db { s with
      threads := Function.update s.threads t ⟨rest, .idle, (s.threads t).returned ++ [.write w]⟩ }
      (order ++ [(t, .write w)]) := by
  refine h.update rfl ?_ ?_ (fun hfree => ?_) (fun hl => absurd hl hlock) ?_ (fun _ => .inl rfl)
    (fun _ _ hl => hl) h.closed ?_ fun _ _ hmem => hmem
  · rw [opsOf_concat_self, h.ops t, idle]
    simp [Pc.placed]
  · exact fun t' hne => opsOf_concat_of_ne hne.symm _ _
  · rw [replay_concat, Op.apply, exec_of_skips skips]
    exact h.free hfree
  · exact fun t' hne hheld => ((h.held t' hheld).foreign_skip hne.symm skips).congr rfl rfl rfl
  · exact fun hmem => absurd (h.inTxn t hmem) (by simp [idle, Pc.inTxn])

lemma Ordered.statement (h : Ordered db s order) (hlock : s.lock ≠ some t) (w : Write)
    (rest : List Op) (idle : (s.threads t).pc = .idle)
    (hfailed : ∀ t', s.lock = some t' → ∀ u k, (s.threads t').pc = .failed u k → k = 0) :
    Ordered db { s.write t (w.exec s.working) with
      threads := Function.update s.threads t ⟨rest, .written w, (s.threads t).returned⟩ }
      (order ++ [(t, .write w)]) := by
  refine h.update rfl ?_ ?_ (fun hfree => ?_) (fun hl => absurd hl hlock) ?_
    (fun _ => .inr ⟨w, rfl⟩) (fun _ _ hl => hl) ?_ (fun _ => rfl) ?_
  · rw [opsOf_concat_self, h.ops t, idle]
    simp [Pc.placed]
  · exact fun t' hne => opsOf_concat_of_ne hne.symm _ _
  · rw [replay_concat, ← h.free hfree]
    rfl
  · intro t' hne hheld
    exact ((h.held t' hheld).foreign_write hne.symm w (hfailed t' hheld)).congr rfl rfl rfl
  · exact fun htxn => absurd htxn (by simp [Conn.write])
  · exact fun t' hne hmem => mem_txn_of_write hne hmem

lemma Ordered.commit (h : Ordered db s order) (hlock : s.lock ≠ some t) {w : Write}
    (written : (s.threads t).pc = .written w)
    (hfailed : ∀ t', s.lock = some t' → ∀ u k, (s.threads t').pc = .failed u k → k = 0) :
    Ordered db (s.commit.return_ t (.write w)) order := by
  refine h.update rfl ?_ (fun _ _ => rfl) h.free (fun hl => absurd hl hlock) ?_ (fun _ => .inl rfl)
    (fun _ _ hl => hl) (fun _ => rfl) ?_ ?_
  · rw [h.ops t, written]
    exact (List.append_nil _).symm
  · intro t' _ hheld
    exact ((h.held t' hheld).foreign_commit (hfailed t' hheld)).congr rfl rfl rfl
  · exact fun hmem => absurd hmem List.not_mem_nil
  · exact fun t' _ hmem => absurd hmem List.not_mem_nil

lemma Ordered.step_foreign (h : Ordered db s order) (hlock : s.lock ≠ some t) (raises : Bool) :
    Sound db (s.step t raises) := by
  have hstep := foreignStep_of (h.others t hlock) raises
  generalize s.step t raises = s' at hstep ⊢
  -- what other threads write or commit matters to a holder that is about to roll back
  by_cases hfailed : ∀ t', s.lock = some t' → ∀ u k, (s.threads t').pc = .failed u k → k = 0
  · cases hstep with
    | stay => exact .inl ⟨order, h⟩
    | acquire u rest idle free => exact .inl ⟨order, h.acquire u rest idle free⟩
    | skip w rest idle skips => exact .inl ⟨_, h.skip hlock rest idle skips⟩
    | statement w rest idle => exact .inl ⟨_, h.statement hlock w rest idle hfailed⟩
    | commit w written => exact .inl ⟨order, h.commit hlock written hfailed⟩
  · push Not at hfailed
    obtain ⟨t', hheld, u, k, hpc, hk⟩ := hfailed
    have hne : t' ≠ t := fun heq => hlock (heq ▸ hheld)
    cases hstep with
    | stay => exact .inl ⟨order, h⟩
    | acquire u rest idle free => exact .inl ⟨order, h.acquire u rest idle free⟩
    | skip w rest idle skips => exact .inl ⟨_, h.skip hlock rest idle skips⟩
    | statement w rest idle =>
      exact h.doom hheld hne hpc hk rfl rfl (.inr ⟨w, rfl⟩) (replicate_ne_concat hne.symm s.txn)
    | commit w written =>
      exact h.doom hheld hne hpc hk rfl rfl (.inl rfl)
        fun htxn => hk (List.replicate_eq_nil_iff t' |>.mp htxn.symm)

lemma Sound.step (h : Sound db s) (hclean : CleanRollback s t) (raises : Bool) :
    Sound db (s.step t raises) := by
  obtain ⟨order, h⟩ | ⟨t', u, writes, h⟩ := h
  · by_cases hlock : s.lock = some t
    · cases hpc : (s.threads t).pc with
      | idle => exact (h.held_at hlock hpc).elim
      | written w => exact (h.held_at hlock hpc).elim
      | locked u => exact h.step_locked hpc hlock raises
      | selected u slot => exact h.step_selected hpc hlock raises
      | retired u => exact h.step_retired hpc hlock raises
      | inserted u writes => exact h.step_inserted hpc hlock raises
      | summarised u writes => exact h.step_summarised hpc hlock raises
      | committed u => exact h.step_committed hpc hlock raises
      | failed u writes => exact h.step_failed hpc hlock hclean raises
      | rolledBack u => exact h.step_rolledBack hpc hlock raises
    · exact h.step_foreign hlock raises
  · exact .inr ⟨t', u, writes, h.step hclean raises⟩

/-! ### Runs -/

lemma Ordered.start (db : Db) (todo : ℕ → List Op) : Ordered db (.start db todo) [] where
  ops _ := rfl
  free _ := rfl
  held _ hl := nomatch hl
  others _ _ := .inl rfl
  closed _ := rfl
  inTxn _ hmem := absurd hmem List.not_mem_nil

lemma Sound.run (h : Sound db s) {schedule : List (ℕ × Bool)} (hclean : CleanRollbacks s schedule) :
    Sound db (s.run schedule) := by
  induction schedule generalizing s with
  | nil => exact h
  | cons st schedule ih => exact ih (h.step hclean.1 st.2) hclean.2

/-- Once everything has finished, nothing is open. -/
lemma Sound.serializable (h : Sound db s) (hfin : s.Finished) : Serializable db s := by
  obtain ⟨order, h⟩ | ⟨t, u, writes, h⟩ := h
  · have hfree : s.lock = none := by
      cases hlock : s.lock with
      | none => rfl
      | some t => exact (h.held_at hlock (hfin t).2).elim
    have hempty : s.txn = [] := by
      refine List.eq_nil_iff_forall_not_mem.mpr fun t hmem => ?_
      simpa [(hfin t).2, Pc.inTxn] using h.inTxn t hmem
    refine ⟨order, fun t => ?_, (h.closed hempty).trans (h.free hfree)⟩
    rw [h.ops t, (hfin t).2]
    exact List.append_nil _
  · exact absurd (h.pc.symm.trans (hfin t).2) (by simp)

/-- In a run whose rollbacks are all clean the operations are atomic. -/
theorem serializable_of_clean_rollbacks (db : Db) (todo : ℕ → List Op)
    (schedule : List (ℕ × Bool)) (hclean : CleanRollbacks (.start db todo) schedule)
    (hfin : ((Conn.start db todo).run schedule).Finished) :
    Serializable db ((Conn.start db todo).run schedule) := by
  have hstart : Sound db (.start db todo) := .inl ⟨[], .start db todo⟩
  exact (hstart.run hclean).serializable hfin

/-! ### An update that is undone -/

instance (s : Conn) (t : ℕ) : Decidable (CleanRollback s t) :=
  match hpc : (s.threads t).pc with
  | .failed u writes =>
    decidable_of_iff (s.txn = List.replicate writes t) (by simp [CleanRollback, hpc])
  | .idle | .written _ | .locked _ | .selected _ _ | .retired _ | .inserted _ _
  | .summarised _ _ | .committed _ | .rolledBack _ => .isTrue (by simp [CleanRollback, hpc])

/-- Fixes of node 1. -/
def fixOfNode (sequence : ℤ) : Uplink :=
  { version := 1, nodeId := 1, sequence := sequence, lat := 0, lon := 0, speedCms := 0,
    courseCdeg := 0, batteryMv := 0, gpsTime := 0, subsecMs := 0, flags := 0, rssiDbm := 0,
    snrDb := 0, rxTimeMs := 0, tsMs := 0 }

/-- The fix with the sequence number 5 after a wrap. -/
def afterWrap : Uplink := { fixOfNode 5 with tsMs := 2 * DEDUP_WINDOW_MS }

/-- A store with one fix, which is not uploaded yet. -/
def oneFix : Db := { Db.empty with fixes := [rowOf 1 (fixOfNode 5)] }

/-- Thread 0 is to insert the next fix, thread 1 to mark the first one as synced. -/
def insertAndMark : ℕ → List Op
  | 0 => [.insertFix (fixOfNode 6)]
  | 1 => [.write (.markSynced [1])]
  | _ => []

/-- The theorem at a run in which the INSERT raises after thread 1 has committed. -/
theorem serializable_after_commit :
    Serializable oneFix ((Conn.start oneFix insertAndMark).run
      [(0, false), (0, false), (1, false), (1, false), (0, true), (0, false), (0, false)]) := by
  refine serializable_of_clean_rollbacks oneFix insertAndMark _ ?_ fun t => ?_
  · exact ⟨by decide +kernel, by decide +kernel, by decide +kernel, by decide +kernel,
      by decide +kernel, by decide +kernel, by decide +kernel, trivial⟩
  · match t with
    | 0 => exact ⟨rfl, rfl⟩
    | 1 => exact ⟨rfl, rfl⟩
    | _ + 2 => exact ⟨rfl, rfl⟩

/-- The INSERT raises between the statement of thread 1 and its commit: `mark_synced` returns
normally, and the row is not synced. -/
theorem rollback_undoes_mark_synced :
    let s := (Conn.start oneFix insertAndMark).run
      [(0, false), (0, false), (1, false), (0, true), (0, false), (0, false), (1, false)]
    s.Finished ∧ ¬ Serializable oneFix s := by
  intro s
  refine ⟨fun t => ?_, ?_⟩
  · match t with
    | 0 => exact ⟨rfl, rfl⟩
    | 1 => exact ⟨rfl, rfl⟩
    | _ + 2 => exact ⟨rfl, rfl⟩
  · rintro ⟨order, hops, hdurable⟩
    -- thread 1 is the only one with an operation to place
    have hothers : ∀ t ≠ 1, opsOf t order = [] := by
      intro t ht
      rw [hops t]
      match t with
      | 0 => rfl
      | 1 => exact absurd rfl ht
      | _ + 2 => rfl
    have hself : order.map Prod.snd = [.write (.markSynced [1])] :=
      (map_snd_eq_opsOf hothers).trans (hops 1)
    obtain ⟨op, rfl, hop⟩ := List.map_eq_singleton_iff.mp hself
    have hsynced : (replay oneFix [op]).fixes.map FixRow.synced = [true] := by
      rw [replay, List.foldl_cons, hop]
      decide +kernel
    rw [← hdurable] at hsynced
    exact absurd hsynced (by decide +kernel)

end SrtGateway.Store
