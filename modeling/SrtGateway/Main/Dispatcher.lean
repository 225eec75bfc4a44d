/-
Frame dispatch (`main.py`): where a decoded frame goes.

Whatever frames come, the store that they leave is one that some operations leave
(`onFrame_store`).  An UPLINK frame reaches the store unless `insert_fix` raises, for the
dispatcher only logs that; of the fields of a payload only `rx_time_ms` can be too large to be
bound (`uplink_reaches_store_iff`).
-/
import SrtGateway.Protocol.Payload
import SrtGateway.Store.Nodes

namespace SrtGateway.Main

open SrtGateway.Protocol SrtGateway.Store

/-! ### The dispatcher -/

/-- What the downlinker keeps of ACK frames. -/
structure AckLog where
  lastAcks : ℕ → Option Ack
  lastError : Option String

/-- `record_ack`. -/
def AckLog.recordAck (l : AckLog) : Decoded → AckLog
  | .ack a =>
    { lastAcks := Function.update l.lastAcks a.refType (some a),
      lastError := if a.code ≠ 0 then
          some ("ACK rejected: " ++ a.refName ++ " " ++ a.result)
        else l.lastError }
  | _ => l

/-- A `FrameDispatcher`, with the store and the downlinker behind it. -/
structure FrameDispatcher where
  store : Db
  downlinker : Option AckLog
  baseHealth : Option Decoded
  counts : ℕ → ℕ

namespace FrameDispatcher

/-- `_on_uplink`; an exception of `insert_fix` ends in the log. -/
def onUplink (d : FrameDispatcher) : Decoded → FrameDispatcher
  | .uplink u => { d with store := (d.store.insertFix u).2 }
  | _ => d

def onHealth (d : FrameDispatcher) (decoded : Decoded) : FrameDispatcher :=
  { d with baseHealth := some decoded }

def onAck (d : FrameDispatcher) (decoded : Decoded) : FrameDispatcher :=
  { d with downlinker := d.downlinker.map (·.recordAck decoded) }

/-- The operation that `_on_node_stats` makes of an entry. -/
def upsertOf (entry : NodeStatsEntry) : StoreOp :=
  .upsertNode entry.nodeId
    { slot := none, lastSeen := some entry.lastHeardMs, lastBatteryMv := none,
      lastRssi := some entry.lastRssiDbm, fwVersion := none }

/-- `_on_node_stats`; an exception of `upsert_node` ends in the log, and the loop goes on. -/
def onNodeStats (d : FrameDispatcher) : Decoded → FrameDispatcher
  | .nodeStats s => { d with store := d.store.run (s.entries.map upsertOf) }
  | _ => d

/-- `on_frame`. -/
def onFrame (d : FrameDispatcher) (frameType : ℕ) (decoded : Decoded) : FrameDispatcher :=
  let d := { d with counts := Function.update d.counts frameType (d.counts frameType + 1) }
  if frameType = T_UPLINK then d.onUplink decoded
  else if frameType = T_HEALTH then d.onHealth decoded
  else if frameType = T_ACK then d.onAck decoded
  else if frameType = T_NODE_STATS then d.onNodeStats decoded
  -- a LOG frame, and a frame of any other type, is only logged
  else d

end FrameDispatcher

/-- The operations that a frame comes to. -/
def opsOfFrame (frameType : ℕ) : Decoded → List StoreOp
  | .uplink u => if frameType = T_UPLINK then [.op (.insertFix u)] else []
  | .nodeStats s =>
    if frameType = T_NODE_STATS then s.entries.map FrameDispatcher.upsertOf else []
  | _ => []

/-- **A frame does to the store what its operations do.** -/
lemma onFrame_store (d : FrameDispatcher) (frameType : ℕ) (decoded : Decoded) :
    (d.onFrame frameType decoded).store = d.store.run (opsOfFrame frameType decoded) := by
  unfold FrameDispatcher.onFrame
  split_ifs with huplink hhealth hack hstats
  · subst huplink
    cases decoded <;> rfl
  · subst hhealth
    cases decoded <;> rfl
  · subst hack
    cases decoded <;> rfl
  · subst hstats
    cases decoded <;> rfl
  · cases decoded with
    | uplink u => rw [opsOfFrame, if_neg huplink]; rfl
    | nodeStats s => rw [opsOfFrame, if_neg hstats]; rfl
    | raw | ack | health | log => rfl

/-! ### UPLINK frames -/

/-- What is bound of a decoded payload fits in 64 bits, but for `rx_time_ms`. -/
lemma decoded_fits {payload : List UInt8} {u : Uplink} (h : decodeUplink payload = some u) :
    (∀ n ∈ [u.nodeId, u.tsMs, u.batteryMv, u.sequence, u.rssiDbm, u.flags],
      -2 ^ 63 ≤ n ∧ n < 2 ^ 63) ∧ 0 ≤ u.rxTimeMs := by
  unfold decodeUplink at h
  split_ifs at h
  obtain rfl := Option.some.inj h
  have hnode := unsignedAt_lt payload 1 2
  have hseq := unsignedAt_lt payload 3 2
  have hbattery := unsignedAt_lt payload 17 2
  have hgps := unsignedAt_lt payload 19 4
  have hsubsec := unsignedAt_lt payload 23 2
  have hflags := unsignedAt_lt payload 25 1
  have hrssi := unsignedAt_lt payload 26 2
  refine ⟨?_, (unsignedAt_lt payload 30 8).1⟩
  norm_num at hnode hseq hbattery hgps hsubsec hflags hrssi
  simp only [List.forall_mem_cons, List.not_mem_nil, false_implies, implies_true, and_true,
    signedAt]
  norm_num
  refine ⟨?_, ?_, ?_, ?_, ?_, ?_⟩
  all_goals omega

/-- `insert_fix` of a decoded payload returns just when it is a resend or `rx_time_ms` fits. -/
lemma canBind_or_holds_iff {db : Db} (hdb : db.UniqueSlots) {payload : List UInt8} {u : Uplink}
    (h : decodeUplink payload = some u) :
    db.CanBind u ∨ db.Holds u ↔ u.rxTimeMs < 2 ^ 63 ∨ db.Holds u := by
  obtain ⟨hfits, hrx⟩ := decoded_fits h
  by_cases hholds : db.Holds u
  · simp [hholds]
  · have hknows : db.knows u = false := by
      rw [← Bool.not_eq_true, hdb.knows_iff]
      exact hholds
    have hbound : db.boundBy u =
        [u.nodeId, u.tsMs, u.batteryMv, u.sequence, u.rssiDbm, u.flags] ++ [u.rxTimeMs] := by
      rw [Db.boundBy, hknows]
      rfl
    rw [or_iff_left hholds, or_iff_left hholds, Db.CanBind, hbound]
    constructor
    · intro hall
      exact (hall u.rxTimeMs (List.mem_append_right _ (List.mem_singleton_self _))).2
    · intro hlt n hn
      rcases List.mem_append.mp hn with hn | hn
      · exact hfits n hn
      · obtain rfl := List.mem_singleton.mp hn
        exact ⟨by omega, hlt⟩

/-- The frame's fix is in the store, or a recent one with its `(node_id, seq)`. -/
def ReachesStore (d : FrameDispatcher) (payload : List UInt8) : Prop :=
  ∃ u, decodeUplink payload = some u ∧
    (d.onFrame T_UPLINK (decodePayload T_UPLINK payload)).store.Holds u

lemma onFrame_uplink (d : FrameDispatcher) {payload : List UInt8} {u : Uplink}
    (h : decodeUplink payload = some u) :
    (d.onFrame T_UPLINK (decodePayload T_UPLINK payload)).store = (d.store.insertFix u).2 := by
  have hdecoded : decodePayload T_UPLINK payload = .uplink u := by
    rw [decodePayload, if_neg (by decide), if_neg (by decide), if_pos rfl, h]
    rfl
  rw [onFrame_store, hdecoded]
  rfl

/-- **An UPLINK frame reaches the store** just when its `rx_time_ms` can be bound, or the store
holds the fix already. -/
theorem uplink_reaches_store_iff (d : FrameDispatcher) (hd : Reachable d.store)
    (payload : List UInt8) (hlen : payload.length = 38) :
    ∃ u, decodeUplink payload = some u ∧
      (ReachesStore d payload ↔ u.rxTimeMs < 2 ^ 63 ∨ d.store.Holds u) := by
  obtain ⟨u, hu⟩ : ∃ u, decodeUplink payload = some u := by
    rw [decodeUplink, if_neg (not_not_intro hlen)]
    exact ⟨_, rfl⟩
  refine ⟨u, hu, ?_⟩
  have hreaches : ReachesStore d payload ↔ (d.store.insertFix u).2.Holds u := by
    rw [ReachesStore, hu, ← onFrame_uplink d hu]
    simp
  rw [hreaches, insertFix_holds_iff hd.uniqueSlots, canBind_or_holds_iff hd.uniqueSlots hu]

/-! ### A frame that is dropped -/

/-- The dispatcher of a gateway that has never run. -/
def FrameDispatcher.init : FrameDispatcher :=
  { store := .empty, downlinker := none, baseHealth := none, counts := fun _ => 0 }

lemma reachable_init : Reachable FrameDispatcher.init.store := ⟨[], rfl⟩

/-- An UPLINK payload with the given `rx_time_ms`, and zeros. -/
def payloadReceivedAt (rxTimeMs : ℕ) : List UInt8 :=
  List.replicate 30 0 ++ Bytes.packLE 8 rxTimeMs

/-- From `2 ^ 63` on, a time of reception keeps the fix from being stored. -/
theorem uplink_dropped :
    (payloadReceivedAt (2 ^ 63)).length = 38 ∧
      ¬ ReachesStore .init (payloadReceivedAt (2 ^ 63)) := by
  refine ⟨by decide, ?_⟩
  rintro ⟨u, -, r, hr, -⟩
  have hnone : (FrameDispatcher.init.onFrame T_UPLINK
      (decodePayload T_UPLINK (payloadReceivedAt (2 ^ 63)))).store.fixes = [] := by
    decide +kernel
  rw [hnone] at hr
  exact List.not_mem_nil hr

/-- The theorem at the last time of reception that can be bound. -/
theorem uplink_reaches_store_iff_last :
    ∃ u, decodeUplink (payloadReceivedAt (2 ^ 63 - 1)) = some u ∧
      (ReachesStore .init (payloadReceivedAt (2 ^ 63 - 1)) ↔
        u.rxTimeMs < 2 ^ 63 ∨ FrameDispatcher.init.store.Holds u) :=
  uplink_reaches_store_iff .init reachable_init _ (by decide)

end SrtGateway.Main
