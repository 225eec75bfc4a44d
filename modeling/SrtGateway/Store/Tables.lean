/-
The local store (`schema.sql`, `store.py`): its tables and the operations on them.

An operation is a function on the whole store here, as if it ran alone; how operations of
different threads share the connection is the subject of `SrtGateway.Store.Connection`.
The `fixes` table is the list of its rows in the order of their ids; the tables with a key
are functions of the key.
-/
import Mathlib.Algebra.Order.Field.Rat
import Mathlib.Logic.Function.Basic
import SrtGateway.Protocol.Telemetry

namespace SrtGateway.Store

open SrtGateway.Protocol

/-! ### Tables -/

/-- A row of `fixes`, less `boat_id` and `race_id`, which are always NULL. -/
structure FixRow where
  id : ℕ
  nodeId : ℤ
  tsMs : ℤ
  lat : ℚ
  lon : ℚ
  sog : ℚ
  cog : ℚ
  batteryMv : ℤ
  /-- NULL once the row is retired. -/
  seq : Option ℤ
  rssi : ℤ
  snr : ℚ
  flags : ℤ
  synced : Bool
  rxTimeMs : ℤ
deriving DecidableEq

structure NodeRow where
  slot : Option ℤ
  lastSeen : Option ℤ
  lastBatteryMv : Option ℤ
  lastRssi : Option ℤ
  fwVersion : Option String

structure RaceRow where
  name : Option String
  state : Option String
  startedMs : Option ℤ

structure DeadLetter where
  statusCode : ℤ
  body : String
  quarantinedMs : ℤ

structure Db where
  fixes : List FixRow
  nodes : ℤ → Option NodeRow
  races : ℤ → Option RaceRow
  syncState : String → Option ℤ
  deadLetter : ℕ → Option DeadLetter
  /-- The `applied` row of `downlink_state`: the fingerprint and when it was written. -/
  downlinkState : Option (List Char × ℤ)

/-- The store of a gateway that has never run. -/
def Db.empty : Db :=
  { fixes := [], nodes := fun _ => none, races := fun _ => none, syncState := fun _ => none,
    deadLetter := fun _ => none, downlinkState := none }

/-! ### Statements -/

/-- Binding parameters raises for an integer that does not fit in 64 bits. -/
def bindParams (params : List ℤ) : Except PyErr Unit :=
  if params.all fun n => -2 ^ 63 ≤ n ∧ n < 2 ^ 63 then .ok () else .error .overflowError

def DEDUP_WINDOW_MS : ℤ := 60 * 60 * 1000

/-- `SELECT id, ts_ms FROM fixes WHERE node_id=? AND seq=?`; the pair is unique. -/
def Db.selectSlot (db : Db) (nodeId seq : ℤ) : Option FixRow :=
  db.fixes.find? fun r => r.nodeId = nodeId ∧ r.seq = some seq

/-- `UPDATE fixes SET seq=NULL WHERE id=?`. -/
def Db.retire (db : Db) (id : ℕ) : Db :=
  { db with fixes := db.fixes.map fun r => if r.id = id then { r with seq := none } else r }

/-- The id that SQLite gives to the next row of `fixes`. -/
def Db.nextId (db : Db) : ℕ := (db.fixes.map FixRow.id).foldl max 0 + 1

/-- The row that `insert_fix` makes of an uplink. -/
def rowOf (id : ℕ) (u : Uplink) : FixRow :=
  { id := id, nodeId := u.nodeId, tsMs := u.tsMs, lat := u.lat, lon := u.lon,
    sog := u.speedCms / 100, cog := u.courseCdeg / 100, batteryMv := u.batteryMv,
    seq := some u.sequence, rssi := u.rssiDbm, snr := u.snrDb, flags := u.flags,
    synced := false, rxTimeMs := u.rxTimeMs }

/-- The integer parameters of the two INSERT statements. -/
def insertParams (u : Uplink) : List ℤ :=
  [u.nodeId, u.tsMs, u.batteryMv, u.sequence, u.rssiDbm, u.flags, u.rxTimeMs]

/-- The INSERT after a row was retired. -/
def Db.insertRow (db : Db) (u : Uplink) : Except PyErr Db := do
  bindParams (insertParams u)
  if (db.selectSlot u.nodeId u.sequence).isSome then .error .integrityError
  else .ok { db with fixes := db.fixes ++ [rowOf db.nextId u] }

/-- The INSERT with `ON CONFLICT(node_id, seq) DO NOTHING`, and whether it inserted. -/
def Db.insertOrIgnore (db : Db) (u : Uplink) : Except PyErr (Bool × Db) := do
  bindParams (insertParams u)
  if (db.selectSlot u.nodeId u.sequence).isSome then .ok (false, db)
  else .ok (true, { db with fixes := db.fixes ++ [rowOf db.nextId u] })

/-- The row of `nodes` after a fix: it advances only when the fix is not older than what is
recorded; a comparison with NULL is not true, and the maximum with NULL is NULL. -/
def nodeFromFix (old : Option NodeRow) (u : Uplink) : NodeRow :=
  match old with
  | none => { slot := none, lastSeen := some u.tsMs, lastBatteryMv := some u.batteryMv,
              lastRssi := some u.rssiDbm, fwVersion := none }
  | some n =>
    let newer : Bool := match n.lastSeen with
      | some t => t ≤ u.tsMs
      | none => false
    { n with lastBatteryMv := if newer then some u.batteryMv else n.lastBatteryMv,
             lastRssi := if newer then some u.rssiDbm else n.lastRssi,
             lastSeen := n.lastSeen.map (max · u.tsMs) }

/-- `_upsert_node_from_fix`. -/
def Db.upsertNodeFromFix (db : Db) (u : Uplink) : Except PyErr Db := do
  bindParams [u.nodeId, u.tsMs, u.batteryMv, u.rssiDbm]
  let row := nodeFromFix (db.nodes u.nodeId) u
  .ok { db with nodes := Function.update db.nodes u.nodeId (some row) }

/-! ### Operations -/

/-- A row with the fix's `(node_id, seq)` that is recent enough for the fix to be a
resend. -/
def isResend (u : Uplink) (row : FixRow) : Bool := |u.tsMs - row.tsMs| ≤ DEDUP_WINDOW_MS

/-- The part of `insert_fix` that inserts the fix, and whether it did. -/
def Db.insertUnlessResend (db : Db) (u : Uplink) : Except PyErr (Bool × Db) :=
  match db.selectSlot u.nodeId u.sequence with
  | some row =>
    if isResend u row then .ok (false, db)
    else ((db.retire row.id).insertRow u).map fun db => (true, db)
  | none => db.insertOrIgnore u

/-- The body of `insert_fix`, up to its commit. -/
def Db.insertFixBody (db : Db) (u : Uplink) : Except PyErr (Bool × Db) := do
  bindParams [u.nodeId, u.sequence]
  let (inserted, db) ← db.insertUnlessResend u
  let db ← db.upsertNodeFromFix u
  return (inserted, db)

/-- `insert_fix`: an exception rolls everything back. -/
def Db.insertFix (db : Db) (u : Uplink) : Except PyErr Bool × Db :=
  match db.insertFixBody u with
  | .ok (inserted, db') => (.ok inserted, db')
  | .error x => (.error x, db)

/-- `get_unsynced`. -/
def Db.getUnsynced (db : Db) (limit : ℕ) : List FixRow :=
  (db.fixes.filter fun r => !r.synced).take limit

/-- `mark_synced`. -/
def Db.markSynced (db : Db) (ids : List ℕ) : Db :=
  { db with fixes := db.fixes.map fun r => if r.id ∈ ids then { r with synced := true } else r }

/-- `get_sync_cursor`. -/
def Db.getSyncCursor (db : Db) (key : String) (default : ℤ) : ℤ :=
  (db.syncState key).getD default

/-- `set_sync_cursor`. -/
def Db.setSyncCursor (db : Db) (key : String) (value : ℤ) : Db :=
  { db with syncState := Function.update db.syncState key (some value) }

/-- `_quarantine` of the uplinker. -/
def Db.quarantine (db : Db) (id : ℕ) (letter : DeadLetter) : Db :=
  { db with deadLetter := Function.update db.deadLetter id (some letter) }

/-- `upsert_race`; a field that is not given keeps its value. -/
def Db.upsertRace (db : Db) (raceId : ℤ) (race : RaceRow) : Db :=
  let row := match db.races raceId with
    | none => race
    | some old => { name := race.name.or old.name, state := race.state.or old.state,
                    startedMs := race.startedMs.or old.startedMs }
  { db with races := Function.update db.races raceId (some row) }

/-- `_store_cached_fingerprint` of the downlinker. -/
def Db.storeFingerprint (db : Db) (fp : List Char) (appliedMs : ℤ) : Db :=
  { db with downlinkState := some (fp, appliedMs) }

/-! ### What the operations do -/

lemma bindParams_ok {params : List ℤ} {x : Unit} (h : bindParams params = .ok x) :
    ∀ n ∈ params, -2 ^ 63 ≤ n ∧ n < 2 ^ 63 := by
  unfold bindParams at h
  split_ifs at h with hall
  simpa using hall

lemma insertRow_eq_ok {db db' : Db} {u : Uplink} (h : db.insertRow u = .ok db') :
    bindParams (insertParams u) = .ok () ∧
      db' = { db with fixes := db.fixes ++ [rowOf db.nextId u] } := by
  obtain ⟨_, hbind, h⟩ := bind_eq_ok.mp h
  split_ifs at h
  exact ⟨hbind, (Except.ok.inj h).symm⟩

lemma insertOrIgnore_eq_ok {db db' : Db} {u : Uplink} {inserted : Bool}
    (hslot : db.selectSlot u.nodeId u.sequence = none)
    (h : db.insertOrIgnore u = .ok (inserted, db')) :
    bindParams (insertParams u) = .ok () ∧ inserted = true ∧
      db' = { db with fixes := db.fixes ++ [rowOf db.nextId u] } := by
  obtain ⟨_, hbind, h⟩ := bind_eq_ok.mp h
  rw [hslot] at h
  obtain ⟨rfl, rfl⟩ := Prod.mk.inj (Except.ok.inj h)
  exact ⟨hbind, rfl, rfl⟩

lemma upsertNodeFromFix_eq_ok {db db' : Db} {u : Uplink} (h : db.upsertNodeFromFix u = .ok db') :
    ∃ nodes, db' = { db with nodes := nodes } := by
  obtain ⟨_, -, h⟩ := bind_eq_ok.mp h
  exact ⟨_, (Except.ok.inj h).symm⟩

lemma nextId_retire (db : Db) (id : ℕ) : (db.retire id).nextId = db.nextId := by
  have hids : (db.retire id).fixes.map FixRow.id = db.fixes.map FixRow.id := by
    rw [Db.retire, List.map_map]
    refine List.map_congr_left fun r _ => ?_
    simp only [Function.comp_apply]
    split <;> rfl
  rw [Db.nextId, hids, Db.nextId]

/-- A resend changes nothing; any other fix is bound and gets a row, and the row that had its
slot is retired. -/
lemma insertUnlessResend_eq_ok {db db' : Db} {u : Uplink} {inserted : Bool}
    (h : db.insertUnlessResend u = .ok (inserted, db')) :
    (∃ row, db.selectSlot u.nodeId u.sequence = some row ∧ isResend u row = true ∧
      inserted = false ∧ db' = db) ∨
    (bindParams (insertParams u) = .ok () ∧ inserted = true ∧
      ((db.selectSlot u.nodeId u.sequence = none ∧
          db' = { db with fixes := db.fixes ++ [rowOf db.nextId u] }) ∨
        ∃ row, db.selectSlot u.nodeId u.sequence = some row ∧ isResend u row = false ∧
          db' = { db with fixes := (db.retire row.id).fixes ++ [rowOf db.nextId u] })) := by
  unfold Db.insertUnlessResend at h
  cases hslot : db.selectSlot u.nodeId u.sequence with
  | none =>
    rw [hslot] at h
    obtain ⟨hbind, rfl, rfl⟩ := insertOrIgnore_eq_ok hslot h
    exact .inr ⟨hbind, rfl, .inl ⟨rfl, rfl⟩⟩
  | some row =>
    rw [hslot] at h
    dsimp only at h
    split_ifs at h with hrecent
    · obtain ⟨rfl, rfl⟩ := Prod.mk.inj (Except.ok.inj h)
      exact .inl ⟨row, rfl, hrecent, rfl, rfl⟩
    · obtain ⟨db₁, hrow, heq⟩ := map_eq_ok.mp h
      obtain ⟨rfl, rfl⟩ := Prod.mk.inj heq
      obtain ⟨hbind, rfl⟩ := insertRow_eq_ok hrow
      rw [nextId_retire]
      exact .inr ⟨hbind, rfl, .inr ⟨row, rfl, by simpa using hrecent, rfl⟩⟩

lemma insertFixBody_eq_ok {db db' : Db} {u : Uplink} {inserted : Bool}
    (h : db.insertFixBody u = .ok (inserted, db')) :
    ∃ mid nodes, db.insertUnlessResend u = .ok (inserted, mid) ∧
      db' = { mid with nodes := nodes } := by
  obtain ⟨_, -, h⟩ := bind_eq_ok.mp h
  obtain ⟨⟨inserted, mid⟩, hfix, h⟩ := bind_eq_ok.mp h
  obtain ⟨_, hnode, h⟩ := bind_eq_ok.mp h
  obtain ⟨rfl, rfl⟩ := Prod.mk.inj (Except.ok.inj h)
  obtain ⟨nodes, rfl⟩ := upsertNodeFromFix_eq_ok hnode
  exact ⟨mid, nodes, hfix, rfl⟩

/-- The ways an `insert_fix` can go. -/
inductive InsertCase (db : Db) (u : Uplink) : Except PyErr Bool × Db → Prop where
  | raised (x : PyErr) : InsertCase db u (.error x, db)
  | resend (row : FixRow) (nodes : ℤ → Option NodeRow)
      (slot : db.selectSlot u.nodeId u.sequence = some row) (recent : isResend u row = true) :
      InsertCase db u (.ok false, { db with nodes := nodes })
  | fresh (nodes : ℤ → Option NodeRow) (slot : db.selectSlot u.nodeId u.sequence = none) :
      InsertCase db u
        (.ok true, { db with fixes := db.fixes ++ [rowOf db.nextId u], nodes := nodes })
  | wrapped (row : FixRow) (nodes : ℤ → Option NodeRow)
      (slot : db.selectSlot u.nodeId u.sequence = some row) (stale : isResend u row = false) :
      InsertCase db u
        (.ok true, { db with fixes := (db.retire row.id).fixes ++ [rowOf db.nextId u],
                             nodes := nodes })

lemma insertFix_cases (db : Db) (u : Uplink) : InsertCase db u (db.insertFix u) := by
  rw [Db.insertFix]
  cases hbody : db.insertFixBody u with
  | error x => exact .raised x
  | ok result =>
    obtain ⟨inserted, db'⟩ := result
    obtain ⟨mid, nodes, hfix, rfl⟩ := insertFixBody_eq_ok hbody
    obtain ⟨row, hslot, hrecent, rfl, rfl⟩ | ⟨-, rfl, ⟨hslot, rfl⟩ | ⟨row, hslot, hstale, rfl⟩⟩ :=
      insertUnlessResend_eq_ok hfix
    · exact .resend row nodes hslot hrecent
    · exact .fresh nodes hslot
    · exact .wrapped row nodes hslot hstale

/-! ### Ids -/

/-- The rows of `fixes` are in the order of their ids. -/
def Db.Ordered (db : Db) : Prop := db.fixes.Pairwise fun r r' => r.id < r'.id

lemma lt_nextId {db : Db} {r : FixRow} (hr : r ∈ db.fixes) : r.id < db.nextId := by
  have hmax : ∀ (l : List ℕ) (m : ℕ), m ≤ l.foldl max m ∧ ∀ n ∈ l, n ≤ l.foldl max m := by
    intro l
    induction l with
    | nil => simp
    | cons a l ih =>
      intro m
      obtain ⟨h1, h2⟩ := ih (max m a)
      refine ⟨(le_max_left m a).trans h1, fun n hn => ?_⟩
      rcases List.mem_cons.mp hn with rfl | hn
      · exact (le_max_right m n).trans h1
      · exact h2 n hn
  have := (hmax (db.fixes.map FixRow.id) 0).2 r.id (List.mem_map_of_mem hr)
  rw [Db.nextId]
  omega

/-- Two rows with the same id are the same. -/
lemma Db.Ordered.eq_of_id {db : Db} (h : db.Ordered) {r r' : FixRow} (hr : r ∈ db.fixes)
    (hr' : r' ∈ db.fixes) (hid : r.id = r'.id) : r = r' := by
  have hnodup : (db.fixes.map FixRow.id).Nodup :=
    (List.pairwise_map.mpr h).imp fun hlt => hlt.ne
  exact List.inj_on_of_nodup_map hnodup hr hr' hid

/-- Rows that keep their ids keep their order. -/
lemma Db.Ordered.map {db : Db} (h : db.Ordered) {f : FixRow → FixRow}
    (hf : ∀ r, (f r).id = r.id) {db' : Db} (hdb' : db'.fixes = db.fixes.map f) : db'.Ordered := by
  rw [Db.Ordered, hdb', List.pairwise_map]
  exact h.imp fun hlt => by rwa [hf, hf]

lemma retire_id (id : ℕ) (r : FixRow) :
    (if r.id = id then { r with seq := none } else r).id = r.id := by
  split <;> rfl

lemma insertFix_ordered {db : Db} (h : db.Ordered) (u : Uplink) : (db.insertFix u).2.Ordered := by
  have happend : ∀ rows : List FixRow, rows.Pairwise (fun r r' => r.id < r'.id) →
      (∀ r ∈ rows, r.id < db.nextId) →
      (rows ++ [rowOf db.nextId u]).Pairwise fun r r' => r.id < r'.id := by
    intro rows hrows hlt
    exact List.pairwise_append.mpr ⟨hrows, by simp, fun r hr r' hr' => by
      rw [List.mem_singleton.mp hr']
      exact hlt r hr⟩
  rcases hcase : db.insertFix u with ⟨outcome, db'⟩
  cases hcase ▸ insertFix_cases db u with
  | raised => exact h
  | resend => exact h
  | fresh => exact happend _ h fun r hr => lt_nextId hr
  | wrapped row =>
    have hretired : (db.retire row.id).Ordered := h.map (retire_id row.id) rfl
    refine happend _ hretired fun r hr => ?_
    rw [← nextId_retire db row.id]
    exact lt_nextId hr

end SrtGateway.Store
