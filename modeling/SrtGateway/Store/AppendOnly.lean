/-
The `fixes` table is append-only, and its slots are sound.

`Extends` is what one operation may do to the rows; that a row keeps the values it was
inserted with over a whole run, and which row holds a slot, follows from the history of the run
(`Records`).
-/
import SrtGateway.Store.Resends

namespace SrtGateway.Store

open SrtGateway.Protocol

/-- What an operation may make of a row. -/
structure Kept (op : Op) (r r' : FixRow) : Prop where
  fields : r' = { r with seq := r'.seq, synced := r'.synced }
  seq : r'.seq = r.seq ∨ r'.seq = none
  synced : r'.synced = r.synced ∨
    r.synced = false ∧ r'.synced = true ∧ ∃ ids, op = .write (.markSynced ids) ∧ r.id ∈ ids

/-- The rows stay in their places, and new ones come after them. -/
def Extends (op : Op) (db db' : Db) : Prop :=
  ∃ kept new, db'.fixes = kept ++ new ∧ List.Forall₂ (Kept op) db.fixes kept ∧
    ∀ r ∈ db.fixes, ∀ r' ∈ new, r.id < r'.id

/-- Which row holds a slot, given what has been stored. -/
structure SlotsSound (db : Db) (stored : List Uplink) : Prop where
  /-- The rows have the values that were stored, up to `synced` and to `seq` set to NULL. -/
  records : Records db stored
  unique : ∀ r ∈ db.fixes, ∀ r' ∈ db.fixes, r.nodeId = r'.nodeId → r.seq = r'.seq →
    r.seq ≠ none → r = r'
  /-- The slot of a pair ever stored is held by the row of the fix stored last with it. -/
  holder : ∀ u ∈ stored, ∃ v i r, latest stored (pairOf u) = some (v, i) ∧
    db.fixes.filter (fun r => r.nodeId = u.nodeId ∧ r.seq = some u.sequence) = [r] ∧
      r = { rowOf (i + 1) v with synced := r.synced }

variable {db db' : Db} {op : Op} {u : Uplink}

lemma Kept.refl (op : Op) (r : FixRow) : Kept op r r := ⟨rfl, .inl rfl, .inl rfl⟩

lemma Extends.of_map {f : FixRow → FixRow} {new : List FixRow}
    (hfixes : db'.fixes = db.fixes.map f ++ new) (hf : ∀ r ∈ db.fixes, Kept op r (f r))
    (hnew : ∀ r' ∈ new, r'.id = db.nextId) : Extends op db db' := by
  refine ⟨db.fixes.map f, new, hfixes, ?_, fun r hr r' hr' => ?_⟩
  · exact List.forall₂_map_right_iff.mpr (List.forall₂_same.mpr hf)
  · rw [hnew r' hr']
    exact lt_nextId hr

lemma Extends.of_eq (hfixes : db'.fixes = db.fixes) : Extends op db db' := by
  refine Extends.of_map ?_ (fun r _ => Kept.refl op r) (fun r' hr' => absurd hr' List.not_mem_nil)
  rw [List.map_id', List.append_nil, hfixes]

lemma insertFix_extends (db : Db) (u : Uplink) : Extends op db (db.insertFix u).2 := by
  have hnew : ∀ r' ∈ [rowOf db.nextId u], r'.id = db.nextId := by simp [rowOf]
  rcases hcase : db.insertFix u with ⟨outcome, db'⟩
  cases hcase ▸ insertFix_cases db u with
  | raised x => exact .of_eq rfl
  | resend row nodes slot recent => exact .of_eq rfl
  | fresh nodes slot =>
    refine .of_map ?_ (fun r _ => Kept.refl op r) hnew
    rw [List.map_id']
  | wrapped row nodes slot stale =>
    refine .of_map rfl (fun r _ => ?_) hnew
    split
    · exact ⟨rfl, .inr rfl, .inl rfl⟩
    · exact Kept.refl op r

lemma exec_extends (w : Write) (db : Db) : Extends (.write w) db (w.exec db) := by
  cases w with
  | markSynced ids =>
    refine .of_map (List.append_nil _).symm (fun r _ => ?_) fun _ h => absurd h List.not_mem_nil
    split_ifs with hr
    · refine ⟨rfl, .inl rfl, ?_⟩
      cases hsynced : r.synced with
      | true => exact .inl rfl
      | false => exact .inr ⟨rfl, rfl, ids, rfl, hr⟩
    · exact Kept.refl _ r
  | _ => exact .of_eq rfl

lemma Records.slotsSound {stored : List Uplink} (h : Records db stored) : SlotsSound db stored where
  records := h
  unique r hr r' hr' hnode hseq hlive := by
    obtain ⟨seq, hseq'⟩ := Option.ne_none_iff_exists'.mp hlive
    exact h.eq_of_holds hr hr' (FixRow.holds_iff (p := (r.nodeId, seq)).mpr ⟨rfl, hseq'⟩)
      (FixRow.holds_iff.mpr ⟨hnode.symm, hseq ▸ hseq'⟩)
  holder u hu := by
    obtain ⟨v, i, hlatest, -, -⟩ := exists_latest hu
    have hfilter := h.filter (pairOf u)
    rw [hlatest] at hfilter
    obtain ⟨r, hr, hrow⟩ := List.map_eq_singleton_iff.mp hfilter
    have hunmark : rowOf (i + 1) v = r.unmark := hrow.symm
    exact ⟨v, i, r, hlatest, hr, by rw [hunmark]; rfl⟩

/-- Whatever has been inserted and written, with or without failures: the next operation
extends the table, and the slots are sound. -/
theorem fixes_append_only (run : List Attempt) (a : Attempt) :
    Extends a.op (Db.empty.attempts run) ((Db.empty.attempts run).attempt a) ∧
      SlotsSound (Db.empty.attempts run) (Db.empty.storedIn run) := by
  refine ⟨?_, (records_run run).slotsSound⟩
  have hstep := (records_run run).storeStep a
  generalize (Db.empty.attempts run).storedBy a = stores at hstep
  generalize (Db.empty.attempts run).attempt a = db' at hstep ⊢
  cases hstep with
  | inserts u insert inserted => exact insertFix_extends _ u
  | keeps u insert db' same => exact .of_eq same
  | writes w write => exact write ▸ exec_extends w _

end SrtGateway.Store
