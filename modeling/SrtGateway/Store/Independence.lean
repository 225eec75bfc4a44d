/-
The tables that `insert_fix` works on.

What `insert_fix` returns, and what it does to `fixes`, depends on `fixes` alone: the other
tables may hold anything, and of them it changes only `nodes` (`insertFix_over`).
-/
import SrtGateway.Store.Tables

namespace SrtGateway.Store

open SrtGateway.Protocol

/-- The store with the other tables of another one. -/
def Db.over (db other : Db) : Db :=
  { db with nodes := other.nodes, races := other.races, downlinkState := other.downlinkState }

lemma insertRow_over (db other : Db) (u : Uplink) :
    (db.over other).insertRow u = (db.insertRow u).map fun d => d.over other := by
  unfold Db.insertRow
  cases bindParams (insertParams u) with
  | error x => rfl
  | ok _ =>
    show (if (db.selectSlot u.nodeId u.sequence).isSome = true then _ else _) =
      Except.map _ (if (db.selectSlot u.nodeId u.sequence).isSome = true then _ else _)
    split <;> rfl

lemma insertOrIgnore_over (db other : Db) (u : Uplink) :
    (db.over other).insertOrIgnore u =
      (db.insertOrIgnore u).map fun result => (result.1, result.2.over other) := by
  unfold Db.insertOrIgnore
  cases bindParams (insertParams u) with
  | error x => rfl
  | ok _ =>
    show (if (db.selectSlot u.nodeId u.sequence).isSome = true then _ else _) =
      Except.map _ (if (db.selectSlot u.nodeId u.sequence).isSome = true then _ else _)
    split <;> rfl

lemma insertUnlessResend_over (db other : Db) (u : Uplink) :
    (db.over other).insertUnlessResend u =
      (db.insertUnlessResend u).map fun result => (result.1, result.2.over other) := by
  have hslot : (db.over other).selectSlot u.nodeId u.sequence =
      db.selectSlot u.nodeId u.sequence := rfl
  unfold Db.insertUnlessResend
  rw [hslot]
  cases db.selectSlot u.nodeId u.sequence with
  | none => exact insertOrIgnore_over db other u
  | some row =>
    dsimp only
    split
    · rfl
    · have hrow := insertRow_over (db.retire row.id) other u
      have hretire : (db.over other).retire row.id = (db.retire row.id).over other := rfl
      rw [hretire, hrow]
      cases (db.retire row.id).insertRow u <;> rfl

/-- **`insert_fix` does not depend on the other tables**, and of them it changes only `nodes`. -/
lemma insertFix_over (db other : Db) (u : Uplink) : ∃ nodes,
    (db.over other).insertFix u =
      ((db.insertFix u).1, (db.insertFix u).2.over { other with nodes := nodes }) := by
  unfold Db.insertFix Db.insertFixBody
  cases bindParams [u.nodeId, u.sequence] with
  | error x => exact ⟨other.nodes, rfl⟩
  | ok _ =>
    simp only [Except.bind, bind, insertUnlessResend_over]
    rcases db.insertUnlessResend u with x | ⟨inserted, mid⟩
    · exact ⟨other.nodes, rfl⟩
    · simp only [Except.map, Db.upsertNodeFromFix, bind, Except.bind]
      cases bindParams [u.nodeId, u.tsMs, u.batteryMv, u.rssiDbm] with
      | error x => exact ⟨other.nodes, rfl⟩
      | ok _ => exact ⟨_, rfl⟩

end SrtGateway.Store
