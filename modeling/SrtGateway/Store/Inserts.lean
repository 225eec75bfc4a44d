/-
When `insert_fix` returns, and what it then leaves in the tables.

A `(node_id, seq)` slot is held by one row at most (`Db.UniqueSlots`), so no INSERT meets its
UNIQUE constraint, and `insert_fix` returns just when the integers that it binds fit in 64 bits
(`insertFix_ok_iff`); for a resend these are not all of them.  The node of the fix is then
summarised anew, whichever branch was taken (`insertFix_nodes`).
-/
import SrtGateway.Store.Atomicity

namespace SrtGateway.Store

open SrtGateway.Protocol

/-! ### Slots -/

/-- `UNIQUE (node_id, seq)` forbids the two rows; NULLs are distinct. -/
def FixRow.Conflicts (r r' : FixRow) : Prop :=
  r.nodeId = r'.nodeId ∧ r.seq = r'.seq ∧ r.seq ≠ none

def Db.UniqueSlots (db : Db) : Prop := db.fixes.Pairwise fun r r' => ¬ r.Conflicts r'

instance : Std.Symm fun r r' : FixRow => ¬ r.Conflicts r' where
  symm _ _ h h' := h ⟨h'.1.symm, h'.2.1.symm, h'.2.1 ▸ h'.2.2⟩

lemma uniqueSlots_empty : Db.empty.UniqueSlots := List.Pairwise.nil

/-- Two rows in one slot are the same. -/
lemma Db.UniqueSlots.eq_of_seq {db : Db} (h : db.UniqueSlots) {r r' : FixRow} {seq : ℤ}
    (hr : r ∈ db.fixes) (hr' : r' ∈ db.fixes) (hnode : r.nodeId = r'.nodeId)
    (hseq : r.seq = some seq) (hseq' : r'.seq = some seq) : r = r' := by
  by_contra hne
  refine h.forall hr hr' hne ⟨hnode, hseq.trans hseq'.symm, ?_⟩
  rw [hseq]
  exact Option.some_ne_none seq

lemma Db.UniqueSlots.congr {db db' : Db} (h : db.UniqueSlots) (hfixes : db'.fixes = db.fixes) :
    db'.UniqueSlots := by
  rwa [Db.UniqueSlots, hfixes]

/-- Rows whose slots stay or are given up. -/
lemma Db.UniqueSlots.map {db db' : Db} (h : db.UniqueSlots) {f : FixRow → FixRow}
    (hnode : ∀ r, (f r).nodeId = r.nodeId) (hseq : ∀ r, (f r).seq = r.seq ∨ (f r).seq = none)
    (hdb' : db'.fixes = db.fixes.map f) : db'.UniqueSlots := by
  rw [Db.UniqueSlots, hdb', List.pairwise_map]
  refine h.imp fun {r r'} hrr' hconflict => hrr' ?_
  obtain ⟨heq, hslot, hne⟩ := hconflict
  rw [hnode, hnode] at heq
  have hr := (hseq r).resolve_right hne
  have hr' := (hseq r').resolve_right (hslot ▸ hne)
  exact ⟨heq, by rw [← hr, hslot, hr'], hr ▸ hne⟩

lemma Db.UniqueSlots.retire {db : Db} (h : db.UniqueSlots) (id : ℕ) :
    (db.retire id).UniqueSlots := by
  refine h.map (fun r => ?_) (fun r => ?_) rfl
  · split <;> rfl
  · split
    · exact .inr rfl
    · exact .inl rfl

/-- A row in a slot that nobody holds. -/
lemma Db.UniqueSlots.append {db db' : Db} (h : db.UniqueSlots) {row : FixRow} {seq : ℤ}
    (hseq : row.seq = some seq) (hslot : db.selectSlot row.nodeId seq = none)
    (hdb' : db'.fixes = db.fixes ++ [row]) : db'.UniqueSlots := by
  rw [Db.UniqueSlots, hdb', List.pairwise_append]
  refine ⟨h, List.pairwise_singleton _ _, fun r hr r' hr' hconflict => ?_⟩
  obtain rfl := List.mem_singleton.mp hr'
  obtain ⟨hnode, heq, -⟩ := hconflict
  have hnot := List.find?_eq_none.mp hslot r hr
  exact hnot (decide_eq_true ⟨hnode, heq.trans hseq⟩)

lemma mem_of_selectSlot {db : Db} {nodeId seq : ℤ} {row : FixRow}
    (h : db.selectSlot nodeId seq = some row) :
    row ∈ db.fixes ∧ row.nodeId = nodeId ∧ row.seq = some seq :=
  ⟨List.mem_of_find?_eq_some h, by simpa using List.find?_some h⟩

/-- Once the row that held a slot is retired, nobody holds it. -/
lemma Db.UniqueSlots.selectSlot_retire {db : Db} (h : db.UniqueSlots) {nodeId seq : ℤ}
    {row : FixRow} (hrow : db.selectSlot nodeId seq = some row) :
    (db.retire row.id).selectSlot nodeId seq = none := by
  obtain ⟨hmem, hnode, hseq⟩ := mem_of_selectSlot hrow
  refine List.find?_eq_none.mpr fun r hr => ?_
  obtain ⟨r₀, hr₀, rfl⟩ := List.mem_map.mp hr
  rw [decide_eq_true_eq]
  split_ifs with hid
  · rintro ⟨-, hnull⟩
    cases hnull
  · rintro ⟨hnode₀, hseq₀⟩
    exact hid (congrArg FixRow.id (h.eq_of_seq hr₀ hmem (hnode₀.trans hnode.symm) hseq₀ hseq))

lemma Db.UniqueSlots.insertFix {db : Db} (h : db.UniqueSlots) (u : Uplink) :
    (db.insertFix u).2.UniqueSlots := by
  rcases hcase : db.insertFix u with ⟨outcome, db'⟩
  cases hcase ▸ insertFix_cases db u with
  | raised => exact h
  | resend => exact h.congr rfl
  | fresh nodes slot => exact h.append rfl slot rfl
  | wrapped row nodes slot stale =>
    exact (h.retire row.id).append rfl (h.selectSlot_retire slot) rfl

/-! ### When it returns -/

/-- Whether `insert_fix` takes the fix for a resend. -/
def Db.knows (db : Db) (u : Uplink) : Bool :=
  (db.selectSlot u.nodeId u.sequence).any (isResend u)

/-- The integers that `insert_fix` binds, in the store that it finds. -/
def Db.boundBy (db : Db) (u : Uplink) : List ℤ :=
  if db.knows u then [u.nodeId, u.sequence, u.tsMs, u.batteryMv, u.rssiDbm] else insertParams u

/-- They fit in 64 bits. -/
def Db.CanBind (db : Db) (u : Uplink) : Prop := ∀ n ∈ db.boundBy u, -2 ^ 63 ≤ n ∧ n < 2 ^ 63

lemma bindParams_eq_ok {params : List ℤ} {x : Unit} :
    bindParams params = .ok x ↔ ∀ n ∈ params, -2 ^ 63 ≤ n ∧ n < 2 ^ 63 := by
  refine ⟨bindParams_ok, fun h => ?_⟩
  rw [bindParams, if_pos]
  simpa using h

/-- The table after `_upsert_node_from_fix`. -/
def Db.summarise (db : Db) (u : Uplink) : Db :=
  { db with
    nodes := Function.update db.nodes u.nodeId (some (nodeFromFix (db.nodes u.nodeId) u)) }

lemma upsertNodeFromFix_iff {db db' : Db} {u : Uplink} :
    db.upsertNodeFromFix u = .ok db' ↔
      bindParams [u.nodeId, u.tsMs, u.batteryMv, u.rssiDbm] = .ok () ∧ db' = db.summarise u := by
  constructor
  · intro h
    obtain ⟨_, hbind, h⟩ := bind_eq_ok.mp h
    exact ⟨hbind, (Except.ok.inj h).symm⟩
  · rintro ⟨hbind, rfl⟩
    exact bind_eq_ok.mpr ⟨_, hbind, rfl⟩

/-- The statements of an `insert_fix` that returns, and what it leaves. -/
lemma insertFix_eq_ok {db db' : Db} {u : Uplink} {inserted : Bool} :
    db.insertFix u = (.ok inserted, db') ↔
      bindParams [u.nodeId, u.sequence] = .ok () ∧
        bindParams [u.nodeId, u.tsMs, u.batteryMv, u.rssiDbm] = .ok () ∧
          ∃ mid, db.insertUnlessResend u = .ok (inserted, mid) ∧ db' = mid.summarise u := by
  have hbody : db.insertFix u = (.ok inserted, db') ↔
      db.insertFixBody u = .ok (inserted, db') := by
    rw [Db.insertFix]
    cases db.insertFixBody u with
    | error x => simp
    | ok result => simp [Prod.ext_iff]
  rw [hbody]
  constructor
  · intro h
    obtain ⟨_, hbind, h⟩ := bind_eq_ok.mp h
    obtain ⟨⟨_, mid⟩, hmid, h⟩ := bind_eq_ok.mp h
    obtain ⟨_, hnode, h⟩ := bind_eq_ok.mp h
    obtain ⟨rfl, rfl⟩ := Prod.mk.inj (Except.ok.inj h)
    obtain ⟨hbind', hdb'⟩ := upsertNodeFromFix_iff.mp hnode
    exact ⟨hbind, hbind', mid, hmid, hdb'⟩
  · rintro ⟨hbind, hbind', mid, hmid, rfl⟩
    have hnode : mid.upsertNodeFromFix u = .ok (mid.summarise u) :=
      upsertNodeFromFix_iff.mpr ⟨hbind', rfl⟩
    exact bind_eq_ok.mpr ⟨_, hbind, bind_eq_ok.mpr ⟨_, hmid, bind_eq_ok.mpr ⟨_, hnode, rfl⟩⟩⟩

lemma insertFix_fst_eq_ok {db : Db} {u : Uplink} {inserted : Bool} :
    (db.insertFix u).1 = .ok inserted ↔
      db.insertFix u = (.ok inserted, (db.insertFix u).2) := by
  simp [Prod.ext_iff]

lemma insertUnlessResend_ok_iff {db : Db} (h : db.UniqueSlots) (u : Uplink) :
    (∃ result, db.insertUnlessResend u = .ok result) ↔
      db.knows u = true ∨ bindParams (insertParams u) = .ok () := by
  rw [Db.insertUnlessResend, Db.knows]
  cases hslot : db.selectSlot u.nodeId u.sequence with
  | none =>
    rw [Db.insertOrIgnore, hslot]
    cases hbind : bindParams (insertParams u) with
    | error x => simp [bind, Except.bind]
    | ok _ => simp [bind, Except.bind]
  | some row =>
    cases hrecent : isResend u row with
    | true => simp [hrecent]
    | false =>
      simp only [hrecent, Bool.false_eq_true, if_false, Db.insertRow, h.selectSlot_retire hslot]
      cases hbind : bindParams (insertParams u) with
      | error x => simp [hrecent, bind, Except.bind, Except.map]
      | ok _ => simp [hrecent, bind, Except.bind, Except.map]

/-- **`insert_fix` returns just when what it binds fits in 64 bits.** -/
lemma insertFix_ok_iff {db : Db} (h : db.UniqueSlots) (u : Uplink) :
    (∃ inserted, (db.insertFix u).1 = .ok inserted) ↔ db.CanBind u := by
  have hresult : (∃ inserted mid, db.insertUnlessResend u = .ok (inserted, mid)) ↔
      db.knows u = true ∨ bindParams (insertParams u) = .ok () :=
    Prod.exists.symm.trans (insertUnlessResend_ok_iff h u)
  have hok : (∃ inserted, (db.insertFix u).1 = .ok inserted) ↔
      bindParams [u.nodeId, u.sequence] = .ok () ∧
        bindParams [u.nodeId, u.tsMs, u.batteryMv, u.rssiDbm] = .ok () ∧
          ∃ inserted mid, db.insertUnlessResend u = .ok (inserted, mid) := by
    constructor
    · rintro ⟨inserted, hok⟩
      obtain ⟨hbind, hbind', mid, hmid, -⟩ := insertFix_eq_ok.mp (insertFix_fst_eq_ok.mp hok)
      exact ⟨hbind, hbind', inserted, mid, hmid⟩
    · rintro ⟨hbind, hbind', inserted, mid, hmid⟩
      exact ⟨inserted, by rw [insertFix_eq_ok.mpr ⟨hbind, hbind', mid, hmid, rfl⟩]⟩
  rw [hok, hresult]
  simp only [bindParams_eq_ok, Db.CanBind, Db.boundBy]
  cases db.knows u with
  | true =>
    simp only [true_or, and_true, if_true, List.forall_mem_cons]
    constructor
    · rintro ⟨⟨hnode, hseq, -⟩, -, hts, hbattery, hrssi, hnil⟩
      exact ⟨hnode, hseq, hts, hbattery, hrssi, hnil⟩
    · rintro ⟨hnode, hseq, hts, hbattery, hrssi, hnil⟩
      exact ⟨⟨hnode, hseq, hnil⟩, hnode, hts, hbattery, hrssi, hnil⟩
  | false =>
    -- the INSERT binds all of them
    simp only [Bool.false_eq_true, false_or, if_false]
    refine ⟨fun h => h.2.2, fun h => ⟨fun n hn => h n ?_, fun n hn => h n ?_, h⟩⟩
    · exact (by simp [insertParams] : [u.nodeId, u.sequence] ⊆ insertParams u) hn
    · exact (by simp [insertParams] :
        [u.nodeId, u.tsMs, u.batteryMv, u.rssiDbm] ⊆ insertParams u) hn

/-! ### The fix -/

/-- There is a row with the fix's `(node_id, seq)` that is recent enough. -/
def Db.Holds (db : Db) (u : Uplink) : Prop :=
  ∃ r ∈ db.fixes, r.nodeId = u.nodeId ∧ r.seq = some u.sequence ∧
    |r.tsMs - u.tsMs| ≤ DEDUP_WINDOW_MS

lemma Db.UniqueSlots.knows_iff {db : Db} (h : db.UniqueSlots) (u : Uplink) :
    db.knows u = true ↔ db.Holds u := by
  rw [Db.knows, Option.any_eq_true]
  constructor
  · rintro ⟨row, hrow, hrecent⟩
    obtain ⟨hmem, hnode, hseq⟩ := mem_of_selectSlot hrow
    rw [isResend, decide_eq_true_eq, abs_sub_comm] at hrecent
    exact ⟨row, hmem, hnode, hseq, hrecent⟩
  · rintro ⟨r, hr, hnode, hseq, hrecent⟩
    cases hslot : db.selectSlot u.nodeId u.sequence with
    | none => exact absurd (decide_eq_true ⟨hnode, hseq⟩) (List.find?_eq_none.mp hslot r hr)
    | some row =>
      obtain ⟨hmem, hnode', hseq'⟩ := mem_of_selectSlot hslot
      obtain rfl := h.eq_of_seq hr hmem (hnode.trans hnode'.symm) hseq hseq'
      refine ⟨r, rfl, ?_⟩
      rwa [isResend, decide_eq_true_eq, abs_sub_comm]

/-- **An `insert_fix` that returns has the fix in the table**, or a recent row in its place; one
that raises changes nothing. -/
lemma insertFix_holds_iff {db : Db} (h : db.UniqueSlots) (u : Uplink) :
    (db.insertFix u).2.Holds u ↔ db.CanBind u ∨ db.Holds u := by
  have hrow : |(rowOf db.nextId u).tsMs - u.tsMs| ≤ DEDUP_WINDOW_MS := by
    simp [rowOf, DEDUP_WINDOW_MS]
  have hok := insertFix_ok_iff h u
  rw [← hok]
  rcases hcase : db.insertFix u with ⟨outcome, db'⟩
  cases hcase ▸ insertFix_cases db u with
  | raised x => simp
  | resend row nodes slot recent =>
    refine iff_of_true ?_ (.inl ⟨false, rfl⟩)
    exact (h.knows_iff u).mp (by rw [Db.knows, slot]; exact recent)
  | fresh nodes slot =>
    exact iff_of_true ⟨_, List.mem_append_right _ (List.mem_singleton_self _), rfl, rfl, hrow⟩
      (.inl ⟨true, rfl⟩)
  | wrapped row nodes slot stale =>
    exact iff_of_true ⟨_, List.mem_append_right _ (List.mem_singleton_self _), rfl, rfl, hrow⟩
      (.inl ⟨true, rfl⟩)

/-! ### The node -/

/-- **Every branch of `insert_fix` summarises the node anew.** -/
lemma insertFix_nodes {db : Db} {u : Uplink} {inserted : Bool}
    (h : (db.insertFix u).1 = .ok inserted) :
    (db.insertFix u).2.nodes =
      Function.update db.nodes u.nodeId (some (nodeFromFix (db.nodes u.nodeId) u)) := by
  obtain ⟨-, -, mid, hmid, hdb'⟩ := insertFix_eq_ok.mp (insertFix_fst_eq_ok.mp h)
  have hnodes : mid.nodes = db.nodes := by
    obtain ⟨_, -, -, -, rfl⟩ | ⟨-, -, ⟨-, rfl⟩ | ⟨_, -, -, rfl⟩⟩ := insertUnlessResend_eq_ok hmid
    · rfl
    · rfl
    · rfl
  rw [hdb', Db.summarise, hnodes]

end SrtGateway.Store
