/-
What ingest makes of the store: the fixes, less their flags, and the nodes.

Nothing that ingest does depends on the flags or on the other tables, so forgetting these
commutes with every operation of ingest (`insertFix_ingested`, `upsertNode_ingested`), and the
other operations of the store are forgotten altogether.
-/
import SrtGateway.Store.History
import SrtGateway.Store.Nodes

namespace SrtGateway.Store

open SrtGateway.Protocol

/-- The store with only what ingest has made of it. -/
def Db.ingested (db : Db) : Db :=
  { Db.empty with fixes := db.fixes.map FixRow.unmark, nodes := db.nodes }

variable (db : Db)

/-! ### Ingest -/

lemma selectSlot_ingested (nodeId seq : ℤ) :
    db.ingested.selectSlot nodeId seq = (db.selectSlot nodeId seq).map FixRow.unmark := by
  simp only [Db.selectSlot, Db.ingested, List.find?_map]
  rfl

lemma nextId_ingested : db.ingested.nextId = db.nextId := by
  rw [Db.nextId, Db.nextId, Db.ingested, List.map_map]
  rfl

lemma retire_ingested (id : ℕ) : db.ingested.retire id = (db.retire id).ingested := by
  simp only [Db.retire, Db.ingested, List.map_map, Db.mk.injEq, and_true]
  refine List.map_congr_left fun r _ => ?_
  by_cases h : r.id = id <;> simp [FixRow.unmark, h]

lemma append_ingested (u : Uplink) :
    ({ db.ingested with fixes := db.ingested.fixes ++ [rowOf db.ingested.nextId u] } : Db) =
      ({ db with fixes := db.fixes ++ [rowOf db.nextId u] } : Db).ingested := by
  rw [nextId_ingested]
  simp [Db.ingested, FixRow.unmark, rowOf]

lemma insertRow_ingested (u : Uplink) :
    db.ingested.insertRow u = (db.insertRow u).map Db.ingested := by
  simp only [Db.insertRow, selectSlot_ingested, Option.isSome_map, append_ingested]
  cases bindParams (insertParams u) with
  | error x => rfl
  | ok _ =>
    simp only [Except.bind, bind]
    split <;> rfl

lemma insertOrIgnore_ingested (u : Uplink) : db.ingested.insertOrIgnore u =
    (db.insertOrIgnore u).map fun result => (result.1, result.2.ingested) := by
  simp only [Db.insertOrIgnore, selectSlot_ingested, Option.isSome_map, append_ingested]
  cases bindParams (insertParams u) with
  | error x => rfl
  | ok _ =>
    simp only [Except.bind, bind]
    split <;> rfl

lemma insertUnlessResend_ingested (u : Uplink) : db.ingested.insertUnlessResend u =
    (db.insertUnlessResend u).map fun result => (result.1, result.2.ingested) := by
  unfold Db.insertUnlessResend
  rw [selectSlot_ingested]
  cases db.selectSlot u.nodeId u.sequence with
  | none => exact insertOrIgnore_ingested db u
  | some row =>
    have hrecent : isResend u row.unmark = isResend u row := rfl
    have hid : row.unmark.id = row.id := rfl
    simp only [Option.map_some, hrecent, hid, retire_ingested, insertRow_ingested]
    split
    · rfl
    · cases (db.retire row.id).insertRow u <;> rfl

/-- **Inserting a fix** depends on nothing that is forgotten. -/
lemma insertFix_ingested (u : Uplink) :
    db.ingested.insertFix u = ((db.insertFix u).1, (db.insertFix u).2.ingested) := by
  unfold Db.insertFix Db.insertFixBody
  cases bindParams [u.nodeId, u.sequence] with
  | error x => rfl
  | ok _ =>
    simp only [Except.bind, bind, insertUnlessResend_ingested]
    rcases db.insertUnlessResend u with x | ⟨inserted, mid⟩
    · rfl
    · simp only [Except.map, Db.upsertNodeFromFix, bind, Except.bind]
      cases bindParams [u.nodeId, u.tsMs, u.batteryMv, u.rssiDbm] <;> rfl

lemma upsertNode_ingested (nodeId : ℤ) (given : NodeRow) :
    db.ingested.upsertNode nodeId given = (db.upsertNode nodeId given).map Db.ingested := by
  unfold Db.upsertNode
  cases bindParams (upsertParams nodeId given) <;> rfl

/-- The operations of ingest. -/
def StoreOp.OfIngest : StoreOp → Prop
  | .op (.insertFix _) | .upsertNode _ _ => True
  | .op (.write _) => False

lemma apply_ingested {op : StoreOp} (h : op.OfIngest) :
    op.apply db.ingested = (op.apply db).ingested := by
  cases op with
  | upsertNode nodeId given =>
    rw [StoreOp.apply, StoreOp.apply, upsertNode_ingested]
    cases db.upsertNode nodeId given <;> rfl
  | op o =>
    cases o with
    | insertFix u => exact congrArg Prod.snd (insertFix_ingested db u)
    | write w => exact h.elim

lemma run_ingested {ops : List StoreOp} (h : ∀ op ∈ ops, op.OfIngest) :
    db.ingested.run ops = (db.run ops).ingested := by
  induction ops generalizing db with
  | nil => rfl
  | cons op ops ih =>
    rw [List.forall_mem_cons] at h
    have hrest := ih (op.apply db) h.2
    rw [← apply_ingested db h.1] at hrest
    exact hrest

/-! ### What is known -/

lemma holds_ingested (u : Uplink) : db.ingested.Holds u ↔ db.Holds u := by
  simp [Db.Holds, Db.ingested, FixRow.unmark]

lemma uniqueSlots_ingested : db.ingested.UniqueSlots ↔ db.UniqueSlots := by
  rw [Db.UniqueSlots, Db.UniqueSlots, Db.ingested, List.pairwise_map]
  rfl

/-! ### The other operations -/

/-- **Marking rows and writing to the other tables** changes nothing of what ingest has made. -/
lemma exec_ingested (w : Write) : (w.exec db).ingested = db.ingested := by
  cases w with
  | markSynced ids =>
    simp only [Write.exec, Db.markSynced, Db.ingested, List.map_map, Db.mk.injEq, and_true]
    refine List.map_congr_left fun r _ => ?_
    by_cases h : r.id ∈ ids <;> simp [FixRow.unmark, h]
  | quarantine | setSyncCursor | upsertRace | storeFingerprint => rfl

end SrtGateway.Store
