/-
The `fixes` table as a function of what has been stored.

The history of a run is the list of the fixes whose `insert_fix` has returned `True`.  Up to
the `synced` flags the table is determined by it (`tableOf`): the rows are those of the fixes
in their order, and a row keeps its `seq` until a later fix with the same
`(node_id, sequence)` is stored.  So the row that `insert_fix` finds in the slot of a fix is
that of the latest fix stored with this pair (`Records.selectSlot`).
-/
import SrtGateway.Store.Alone

namespace SrtGateway.Store

open SrtGateway.Protocol

/-! ### The table of a history -/

/-- What `UNIQUE (node_id, seq)` is about. -/
def pairOf (u : Uplink) : ℤ × ℤ := (u.nodeId, u.sequence)

/-- The row of a fix before which `i` others have been stored, and after it `later`. -/
def storedRow (later : List Uplink) (i : ℕ) (u : Uplink) : FixRow :=
  { rowOf (i + 1) u with seq := if pairOf u ∈ later.map pairOf then none else some u.sequence }

def tableOf (stored : List Uplink) : List FixRow :=
  stored.mapIdx fun i u => storedRow (stored.drop (i + 1)) i u

/-- The fix stored last of those with a pair, and how many have been stored before it. -/
def latest (stored : List Uplink) (p : ℤ × ℤ) : Option (Uplink × ℕ) :=
  stored.zipIdx.reverse.find? fun x => pairOf x.1 = p

/-- The row holds the slot of the pair. -/
def FixRow.holds (r : FixRow) (p : ℤ × ℤ) : Bool := r.nodeId = p.1 ∧ r.seq = some p.2

/-- What storing another fix makes of a row. -/
def FixRow.giveUp (u : Uplink) (r : FixRow) : FixRow :=
  if r.holds (pairOf u) then { r with seq := none } else r

lemma latest_concat (stored : List Uplink) (u : Uplink) (p : ℤ × ℤ) :
    latest (stored ++ [u]) p =
      if pairOf u = p then some (u, stored.length) else latest stored p := by
  simp only [latest, List.zipIdx_append, List.zipIdx_singleton, List.reverse_append,
    List.reverse_singleton, List.singleton_append, List.find?_cons]
  by_cases h : pairOf u = p <;> simp [h]

lemma FixRow.holds_iff {r : FixRow} {p : ℤ × ℤ} :
    r.holds p = true ↔ r.nodeId = p.1 ∧ r.seq = some p.2 := by
  simp [FixRow.holds]

/-- A row holds the slot of one pair at most. -/
lemma FixRow.holds_unique {r : FixRow} {p q : ℤ × ℤ} (hp : r.holds p = true)
    (hq : r.holds q = true) : p = q := by
  obtain ⟨hnode, hseq⟩ := FixRow.holds_iff.mp hp
  obtain ⟨hnode', hseq'⟩ := FixRow.holds_iff.mp hq
  exact Prod.ext (hnode.symm.trans hnode') (Option.some.inj (hseq.symm.trans hseq'))

lemma holds_rowOf (i : ℕ) (u : Uplink) (p : ℤ × ℤ) :
    (rowOf i u).holds p = true ↔ pairOf u = p := by
  simp [FixRow.holds_iff, rowOf, pairOf, Prod.ext_iff]

lemma holds_storedRow (later : List Uplink) (i : ℕ) (u : Uplink) (p : ℤ × ℤ) :
    (storedRow later i u).holds p = true ↔ pairOf u = p ∧ pairOf u ∉ later.map pairOf := by
  unfold storedRow
  split_ifs with hlater
  · simp [FixRow.holds_iff, hlater]
  · rw [and_iff_left hlater]
    exact holds_rowOf (i + 1) u p

lemma storedRow_concat (later : List Uplink) (i : ℕ) (u v : Uplink) :
    storedRow (later ++ [u]) i v = (storedRow later i v).giveUp u := by
  unfold FixRow.giveUp
  simp only [holds_storedRow]
  by_cases hlater : pairOf v ∈ later.map pairOf
  · simp [storedRow, hlater]
  · by_cases hv : pairOf v = pairOf u
    · simp [storedRow, hv]
    · simp [storedRow, hlater, hv]

lemma tableOf_concat (stored : List Uplink) (u : Uplink) :
    tableOf (stored ++ [u]) =
      (tableOf stored).map (FixRow.giveUp u) ++ [rowOf (stored.length + 1) u] := by
  rw [tableOf, List.mapIdx_concat]
  congr 1
  · refine List.ext_getElem (by simp [tableOf]) fun i hi _ => ?_
    have hlt : i + 1 ≤ stored.length := by simpa using hi
    simp only [tableOf, List.getElem_mapIdx, List.getElem_map, List.drop_append_of_le_length hlt]
    exact storedRow_concat _ i u _
  · simp [storedRow]
    rfl

lemma holds_giveUp (u : Uplink) (r : FixRow) (p : ℤ × ℤ) :
    (r.giveUp u).holds p = true ↔ r.holds p = true ∧ pairOf u ≠ p := by
  unfold FixRow.giveUp
  split_ifs with hr
  · refine ⟨fun h => ?_, fun ⟨hp, hne⟩ => absurd (FixRow.holds_unique hr hp) hne⟩
    simp [FixRow.holds_iff] at h
  · exact ⟨fun hp => ⟨hp, fun heq => hr (heq ▸ hp)⟩, And.left⟩

lemma giveUp_of_holds {u : Uplink} {r : FixRow} {p : ℤ × ℤ} (hr : r.holds p = true)
    (hu : pairOf u ≠ p) : r.giveUp u = r :=
  if_neg fun h => hu (FixRow.holds_unique h hr)

/-- The rows that hold the slot of a pair: only that of the fix stored last. -/
lemma filter_tableOf (stored : List Uplink) (p : ℤ × ℤ) :
    (tableOf stored).filter (FixRow.holds · p) =
      ((latest stored p).map fun x => rowOf (x.2 + 1) x.1).toList := by
  induction stored using List.reverseRecOn with
  | nil => rfl
  | append_singleton stored u ih =>
    rw [tableOf_concat, latest_concat, List.filter_append, List.filter_map]
    by_cases hu : pairOf u = p
    · have hnone : (tableOf stored).filter ((FixRow.holds · p) ∘ FixRow.giveUp u) = [] := by
        refine List.filter_eq_nil_iff.mpr fun r _ hr => ?_
        exact ((holds_giveUp u r p).mp hr).2 hu
      simp [hnone, hu, (holds_rowOf (stored.length + 1) u p).mpr hu]
    · have hsame : (tableOf stored).filter ((FixRow.holds · p) ∘ FixRow.giveUp u) =
          (tableOf stored).filter (FixRow.holds · p) := by
        refine List.filter_congr fun r _ => ?_
        rw [Bool.eq_iff_iff, Function.comp_apply, holds_giveUp]
        exact and_iff_left hu
      have hkeep : ((tableOf stored).filter (FixRow.holds · p)).map (FixRow.giveUp u) =
          (tableOf stored).filter (FixRow.holds · p) :=
        (List.map_congr_left fun r hr => giveUp_of_holds (List.mem_filter.mp hr).2 hu).trans
          (List.map_id _)
      have hnew : ¬ (rowOf (stored.length + 1) u).holds p = true := by
        rwa [holds_rowOf]
      rw [hsame, hkeep, ih]
      simp [hnew, hu]

/-! ### Tables that record a history -/

/-- The row without its `synced` flag. -/
def FixRow.unmark (r : FixRow) : FixRow := { r with synced := false }

/-- The table is that of the history, up to the `synced` flags. -/
def Records (db : Db) (stored : List Uplink) : Prop := db.fixes.map FixRow.unmark = tableOf stored

/-- The fix is a resend of the one that holds its slot. -/
def isRepeat (stored : List Uplink) (u : Uplink) : Bool :=
  (latest stored (pairOf u)).any fun x => |u.tsMs - x.1.tsMs| ≤ DEDUP_WINDOW_MS

@[simp] lemma holds_unmark (r : FixRow) (p : ℤ × ℤ) : r.unmark.holds p = r.holds p := rfl

lemma Records.empty : Records Db.empty [] := rfl

variable {db : Db} {stored : List Uplink} {u : Uplink} {r r' : FixRow} {p : ℤ × ℤ}

lemma Records.congr (h : Records db stored) {db' : Db}
    (hfixes : db'.fixes.map FixRow.unmark = db.fixes.map FixRow.unmark) : Records db' stored :=
  hfixes.trans h

/-- The rows that hold the slot of a pair. -/
lemma Records.filter (h : Records db stored) (p : ℤ × ℤ) :
    (db.fixes.filter (FixRow.holds · p)).map FixRow.unmark =
      ((latest stored p).map fun x => rowOf (x.2 + 1) x.1).toList := by
  rw [← filter_tableOf, ← h, List.filter_map]
  rfl

lemma selectSlot_eq (db : Db) (u : Uplink) :
    db.selectSlot u.nodeId u.sequence = db.fixes.find? (FixRow.holds · (pairOf u)) := rfl

lemma selectSlot_eq_some (h : db.selectSlot u.nodeId u.sequence = some r) :
    r ∈ db.fixes ∧ r.holds (pairOf u) = true := by
  rw [selectSlot_eq] at h
  exact ⟨List.mem_of_find?_eq_some h, by simpa using List.find?_some h⟩

lemma Records.selectSlot (h : Records db stored) (u : Uplink) :
    (db.selectSlot u.nodeId u.sequence).map FixRow.unmark =
      (latest stored (pairOf u)).map fun x => rowOf (x.2 + 1) x.1 := by
  rw [selectSlot_eq, ← List.head?_filter, ← List.head?_map, h.filter, Option.head?_toList]

lemma Records.ids (h : Records db stored) :
    db.fixes.map FixRow.id = (List.range stored.length).map (· + 1) := by
  have hunmark : db.fixes.map FixRow.id = (db.fixes.map FixRow.unmark).map FixRow.id := by
    rw [List.map_map]
    rfl
  rw [hunmark, h]
  refine List.ext_getElem (by simp [tableOf]) fun i _ _ => ?_
  simp [tableOf, storedRow, rowOf]

/-- Ids are given without gaps. -/
lemma Records.nextId (h : Records db stored) : db.nextId = stored.length + 1 := by
  have hmax : ∀ n, ((List.range n).map (· + 1)).foldl max 0 = n := by
    intro n
    induction n with
    | zero => rfl
    | succ n ih => simp [List.range_succ, ih]
  rw [Db.nextId, h.ids, hmax]

lemma Records.eq_of_id (h : Records db stored) (hr : r ∈ db.fixes) (hr' : r' ∈ db.fixes)
    (hid : r.id = r'.id) : r = r' := by
  have hnodup : (db.fixes.map FixRow.id).Nodup := by
    rw [h.ids]
    exact List.nodup_range.map (add_left_injective 1)
  exact List.inj_on_of_nodup_map hnodup hr hr' hid

/-- The slots are unique. -/
lemma Records.eq_of_holds (h : Records db stored) (hr : r ∈ db.fixes) (hr' : r' ∈ db.fixes)
    (hp : r.holds p = true) (hp' : r'.holds p = true) : r = r' := by
  have hlength : (db.fixes.filter (FixRow.holds · p)).length ≤ 1 := by
    rw [← List.length_map FixRow.unmark, h.filter]
    cases latest stored p <;> simp
  have hmem : r ∈ db.fixes.filter (FixRow.holds · p) := List.mem_filter.mpr ⟨hr, hp⟩
  have hmem' : r' ∈ db.fixes.filter (FixRow.holds · p) := List.mem_filter.mpr ⟨hr', hp'⟩
  obtain ⟨i, hi, rfl⟩ := List.getElem_of_mem hmem
  obtain ⟨j, hj, rfl⟩ := List.getElem_of_mem hmem'
  congr 1
  omega

/-- No row holds the slot of the fix. -/
lemma Records.append (h : Records db stored) (hslot : db.selectSlot u.nodeId u.sequence = none)
    {db' : Db} (hfixes : db'.fixes = db.fixes ++ [rowOf db.nextId u]) :
    Records db' (stored ++ [u]) := by
  have hnone : ∀ r ∈ tableOf stored, r.giveUp u = r := by
    intro r hr
    refine if_neg fun hholds => ?_
    rw [← h] at hr
    obtain ⟨r', hr', rfl⟩ := List.mem_map.mp hr
    rw [selectSlot_eq] at hslot
    exact List.find?_eq_none.mp hslot r' hr' hholds
  have hmap : (tableOf stored).map (FixRow.giveUp u) = tableOf stored :=
    (List.map_congr_left hnone).trans (List.map_id _)
  rw [Records, hfixes, List.map_append, h, tableOf_concat, hmap, h.nextId]
  rfl

lemma Records.retire (h : Records db stored) {row : FixRow}
    (hslot : db.selectSlot u.nodeId u.sequence = some row) :
    (db.retire row.id).fixes.map FixRow.unmark = (tableOf stored).map (FixRow.giveUp u) := by
  obtain ⟨hrow, hholds⟩ := selectSlot_eq_some hslot
  rw [← h, Db.retire, List.map_map, List.map_map]
  refine List.map_congr_left fun r hr => ?_
  rw [Function.comp_apply, Function.comp_apply, FixRow.giveUp, holds_unmark]
  by_cases hid : r.id = row.id
  · obtain rfl := h.eq_of_id hr hrow hid
    rw [if_pos rfl, if_pos hholds]
    rfl
  · have hother : ¬ r.holds (pairOf u) = true := fun hr' =>
      hid (congrArg FixRow.id (h.eq_of_holds hr hrow hr' hholds))
    rw [if_neg hid, if_neg hother]

/-- A row of an earlier cycle gives up the slot. -/
lemma Records.wrap (h : Records db stored) {row : FixRow}
    (hslot : db.selectSlot u.nodeId u.sequence = some row) {db' : Db}
    (hfixes : db'.fixes = (db.retire row.id).fixes ++ [rowOf db.nextId u]) :
    Records db' (stored ++ [u]) := by
  rw [Records, hfixes, List.map_append, h.retire hslot, tableOf_concat, h.nextId]
  rfl

/-- After that the slot is free. -/
lemma Records.selectSlot_retire (h : Records db stored) {row : FixRow}
    (hslot : db.selectSlot u.nodeId u.sequence = some row) :
    (db.retire row.id).selectSlot u.nodeId u.sequence = none := by
  rw [selectSlot_eq, List.find?_eq_none]
  intro r hr hholds
  have hmem : r.unmark ∈ (tableOf stored).map (FixRow.giveUp u) :=
    h.retire hslot ▸ List.mem_map_of_mem hr
  obtain ⟨r', -, hr'⟩ := List.mem_map.mp hmem
  rw [← holds_unmark, ← hr'] at hholds
  exact ((holds_giveUp u r' (pairOf u)).mp hholds).2 rfl

/-! ### `insert_fix` on them -/

/-- An `insert_fix` either returns `True` and adds the fix to the history, or leaves the table
as it is. -/
lemma Records.insertFix (h : Records db stored) (u : Uplink) :
    ((db.insertFix u).1 = .ok true ∧ Records (db.insertFix u).2 (stored ++ [u])) ∨
      ((db.insertFix u).1 ≠ .ok true ∧ (db.insertFix u).2.fixes = db.fixes) := by
  rcases hcase : db.insertFix u with ⟨outcome, db'⟩
  cases hcase ▸ insertFix_cases db u with
  | raised x => exact .inr ⟨nofun, rfl⟩
  | resend row nodes slot recent => exact .inr ⟨nofun, rfl⟩
  | fresh nodes slot => exact .inl ⟨rfl, h.append slot rfl⟩
  | wrapped row nodes slot stale => exact .inl ⟨rfl, h.wrap slot rfl⟩

lemma Records.isRepeat_eq (h : Records db stored) (u : Uplink) :
    isRepeat stored u = (db.selectSlot u.nodeId u.sequence).any (isResend u) := by
  have hmap : isRepeat stored u =
      ((latest stored (pairOf u)).map fun x => rowOf (x.2 + 1) x.1).any (isResend u) := by
    rw [Option.any_map]
    rfl
  rw [hmap, ← h.selectSlot, Option.any_map]
  rfl

/-- Nothing raises if the parameters can be bound. -/
lemma Records.insertFix_ok (h : Records db stored) {x : Unit}
    (hfit : bindParams (insertParams u) = .ok x) :
    ∃ inserted, (db.insertFix u).1 = .ok inserted := by
  obtain ⟨⟨inserted, mid⟩, hmid⟩ : ∃ result, db.insertUnlessResend u = .ok result := by
    unfold Db.insertUnlessResend
    cases hslot : db.selectSlot u.nodeId u.sequence with
    | none =>
      refine ⟨(true, { db with fixes := db.fixes ++ [rowOf db.nextId u] }), ?_⟩
      rw [Db.insertOrIgnore, hfit, hslot]
      rfl
    | some row =>
      dsimp only
      split
      · exact ⟨_, rfl⟩
      · rw [Db.insertRow, hfit, h.selectSlot_retire hslot]
        exact ⟨_, rfl⟩
  obtain ⟨db', hnode⟩ := exists_upsertNode hfit mid
  have hbody : db.insertFixBody u = .ok (inserted, db') :=
    bind_eq_ok.mpr ⟨_, bindParams_subset hfit (by simp [insertParams]),
      bind_eq_ok.mpr ⟨_, hmid, bind_eq_ok.mpr ⟨_, hnode, rfl⟩⟩⟩
  exact ⟨inserted, by rw [Db.insertFix, hbody]⟩

/-- `insert_fix` returns whether the fix is not a resend of the one that holds its slot. -/
lemma Records.insertFix_eq (h : Records db stored) {x : Unit}
    (hfit : bindParams (insertParams u) = .ok x) :
    (db.insertFix u).1 = .ok (!isRepeat stored u) := by
  obtain ⟨inserted, hok⟩ := h.insertFix_ok hfit
  rw [h.isRepeat_eq u]
  rcases hcase : db.insertFix u with ⟨outcome, db'⟩
  cases hcase ▸ insertFix_cases db u with
  | raised x =>
    rw [hcase] at hok
    exact nomatch hok
  | resend row nodes slot recent => simp [slot, recent]
  | fresh nodes slot => simp [slot]
  | wrapped row nodes slot stale => simp [slot, stale]

/-- What has been inserted fits. -/
lemma bindParams_of_inserted (h : (db.insertFix u).1 = .ok true) :
    bindParams (insertParams u) = .ok () := by
  cases hbody : db.insertFixBody u with
  | error x => simp [Db.insertFix, hbody] at h
  | ok result =>
    obtain ⟨inserted, db'⟩ := result
    obtain rfl : inserted = true := by simpa [Db.insertFix, hbody] using h
    obtain ⟨mid, nodes, hfix, -⟩ := insertFixBody_eq_ok hbody
    obtain ⟨row, -, -, hinserted, -⟩ | ⟨hbind, -⟩ := insertUnlessResend_eq_ok hfix
    · exact absurd hinserted.symm Bool.false_ne_true
    · exact hbind

/-! ### Runs -/

/-- The store after a run. -/
def Db.attempts (db : Db) (run : List Attempt) : Db := run.foldl Db.attempt db

/-- The fixes that a run stores, in this order. -/
def Db.storedIn : Db → List Attempt → List Uplink
  | _, [] => []
  | db, a :: run => (db.storedBy a).toList ++ (db.attempt a).storedIn run

lemma markSynced_unmark (db : Db) (ids : List ℕ) :
    (db.markSynced ids).fixes.map FixRow.unmark = db.fixes.map FixRow.unmark := by
  rw [Db.markSynced, List.map_map]
  refine List.map_congr_left fun r _ => ?_
  by_cases hr : r.id ∈ ids <;> simp [hr, FixRow.unmark]

lemma exec_unmark (w : Write) (db : Db) :
    (w.exec db).fixes.map FixRow.unmark = db.fixes.map FixRow.unmark := by
  cases w with
  | markSynced ids => exact markSynced_unmark db ids
  | _ => rfl

/-- What an attempt comes to. -/
inductive StoreStep (db : Db) (a : Attempt) : Option Uplink → Db → Prop where
  | inserts (u : Uplink) (insert : a.op = .insertFix u) (inserted : (db.insertFix u).1 = .ok true) :
      StoreStep db a (some u) (db.insertFix u).2
  | keeps (u : Uplink) (insert : a.op = .insertFix u) (db' : Db) (same : db'.fixes = db.fixes) :
      StoreStep db a none db'
  | writes (w : Write) (write : a.op = .write w) : StoreStep db a none (w.exec db)

lemma Records.storeStep (h : Records db stored) (a : Attempt) :
    StoreStep db a (db.storedBy a) (db.attempt a) := by
  have hcases := attempt_cases db a
  unfold Db.storedBy
  generalize ((Conn.alone db a).threads 0).returned = returned at hcases ⊢
  generalize db.attempt a = db' at hcases ⊢
  obtain ⟨op, raises⟩ := a
  cases hcases with
  | raised u hop =>
    dsimp only at hop
    subst hop
    exact .keeps u rfl db rfl
  | returned =>
    cases op with
    | write w => exact .writes w rfl
    | insertFix u =>
      dsimp only [Op.apply]
      obtain ⟨hok, -⟩ | ⟨hno, hsame⟩ := h.insertFix u
      · rw [hok]
        exact .inserts u rfl hok
      · split
        · exact absurd ‹_› hno
        · exact .keeps u rfl _ hsame

/-- A step of a run. -/
lemma Records.attempt (h : Records db stored) (a : Attempt) :
    Records (db.attempt a) (stored ++ (db.storedBy a).toList) := by
  have hstep := h.storeStep a
  generalize db.storedBy a = stores, db.attempt a = db' at hstep ⊢
  cases hstep with
  | inserts u hop hok =>
    obtain ⟨-, hrec⟩ | ⟨hno, -⟩ := h.insertFix u
    · exact hrec
    · exact absurd hok hno
  | keeps u hop db' hsame =>
    rw [Option.toList_none, List.append_nil]
    exact h.congr (congrArg _ hsame)
  | writes w hop =>
    rw [Option.toList_none, List.append_nil]
    exact h.congr (exec_unmark w db)

lemma Records.run (h : Records db stored) (run : List Attempt) :
    Records (db.attempts run) (stored ++ db.storedIn run) := by
  induction run generalizing db stored with
  | nil => rwa [Db.storedIn, List.append_nil]
  | cons a run ih =>
    rw [Db.storedIn, ← List.append_assoc]
    exact ih (h.attempt a)

/-- After a run from the empty store the table is that of what the run has stored. -/
lemma records_run (run : List Attempt) :
    Records (Db.empty.attempts run) (Db.empty.storedIn run) := Records.empty.run run

end SrtGateway.Store
