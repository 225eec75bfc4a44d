/-
Decoded telemetry (`protocol.py`): the frames of the base node other than UPLINK, and
`decode_payload`.

A `none` stands for the dict with only `raw`, as for UPLINK.
-/
import SrtGateway.Protocol.Control
import SrtGateway.Protocol.Telemetry

namespace SrtGateway.Protocol

open SrtGateway.Bytes

def T_UPLINK : ℕ := 0x01
def T_HEALTH : ℕ := 0x02
def T_LOG : ℕ := 0x03
def T_ACK : ℕ := 0x05
def T_NODE_STATS : ℕ := 0x06

/-- `"0x%02x" % n`, for a byte. -/
def hexByte (n : ℕ) : String :=
  "0x" ++ String.ofList [Nat.digitChar (n / 16), Nat.digitChar (n % 16)]

/-- `TYPE_NAMES`, and the name of a type that it lacks. -/
def typeName (t : ℕ) : String :=
  if t = T_UPLINK then "UPLINK"
  else if t = T_HEALTH then "HEALTH"
  else if t = T_LOG then "LOG"
  else if t = T_ACK then "ACK"
  else if t = T_NODE_STATS then "NODE_STATS"
  else if t = T_SET_ARMED then "SET_ARMED"
  else if t = T_SET_EPOCH then "SET_EPOCH"
  else if t = T_SET_SLOTMAP then "SET_SLOTMAP"
  else if t = T_SET_TIMING then "SET_TIMING"
  else if t = T_PING then "PING"
  else hexByte t

structure Ack where
  refType : ℕ
  refName : String
  code : ℕ
  result : String
deriving DecidableEq

/-- `decode_ack`. -/
def decodeAck (payload : List UInt8) : Option Ack :=
  if payload.length ≠ 2 then none
  else
    let refType := (byteAt payload 0).toNat
    let code := (byteAt payload 1).toNat
    some { refType := refType, refName := typeName refType, code := code,
           result := if code = 0 then "applied" else "rejected(" ++ toString code ++ ")" }

structure Health where
  fwVersion : String
  uptimeS : ℤ
  packetsRxTotal : ℤ
  crcErrorsTotal : ℤ
  ppsHz : ℚ
  gpsFix : ℤ
  ppsLocked : ℤ
  sats : ℤ
  slotCount : ℤ
  armed : ℤ
  frameEpochMs : ℤ
  lastBeaconMs : ℤ
deriving DecidableEq

/-- `decode_health`: the struct `<IIIIHBBBBBBQQ`. -/
def decodeHealth (payload : List UInt8) : Option Health :=
  if payload.length ≠ 40 then none
  else
    let fwVersion := unpackLE (slice payload 0 4)
    let fw := toString (fwVersion / 65536 % 256) ++ "." ++ toString (fwVersion / 256 % 256) ++
      "." ++ toString (fwVersion % 256)
    some
      { fwVersion := fw, uptimeS := unsignedAt payload 4 4,
        packetsRxTotal := unsignedAt payload 8 4, crcErrorsTotal := unsignedAt payload 12 4,
        ppsHz := unsignedAt payload 16 2 / 100, gpsFix := unsignedAt payload 18 1,
        ppsLocked := unsignedAt payload 19 1, sats := unsignedAt payload 20 1,
        slotCount := unsignedAt payload 21 1, armed := unsignedAt payload 22 1,
        frameEpochMs := unsignedAt payload 24 8, lastBeaconMs := unsignedAt payload 32 8 }

structure NodeStatsEntry where
  nodeId : ℤ
  lastRssiDbm : ℤ
  packets : ℤ
  lastHeardMs : ℤ
deriving DecidableEq

structure NodeStats where
  count : ℕ
  entries : List NodeStatsEntry
deriving DecidableEq

/-- The entry at an offset: the struct `<HhIQ`. -/
def nodeStatsEntryAt (payload : List UInt8) (off : ℕ) : NodeStatsEntry :=
  { nodeId := unsignedAt payload off 2, lastRssiDbm := signedAt payload (off + 2) 2,
    packets := unsignedAt payload (off + 4) 4, lastHeardMs := unsignedAt payload (off + 8) 8 }

/-- The loop of `decode_node_stats`; it stops at an entry that is not all there. -/
def nodeStatsEntries (payload : List UInt8) : ℕ → ℕ → List NodeStatsEntry
  | 0, _ => []
  | n + 1, off =>
    if off + 16 > payload.length then []
    else nodeStatsEntryAt payload off :: nodeStatsEntries payload n (off + 16)

/-- `decode_node_stats`. -/
def decodeNodeStats (payload : List UInt8) : Option NodeStats :=
  if payload.length < 1 then none
  else
    let count := (byteAt payload 0).toNat
    some { count := count, entries := nodeStatsEntries payload count 1 }

/-- A decoded payload. -/
inductive Decoded where
  | raw (payload : List UInt8)
  | ack (a : Ack)
  | health (h : Health)
  | uplink (u : Uplink)
  | nodeStats (s : NodeStats)
  /-- The bytes of the text, which is only logged. -/
  | log (text : List UInt8)
deriving DecidableEq

/-- `decode_payload`. -/
def decodePayload (frameType : ℕ) (payload : List UInt8) : Decoded :=
  let orRaw (decoded : Option Decoded) := decoded.getD (.raw payload)
  if frameType = T_ACK then orRaw ((decodeAck payload).map .ack)
  else if frameType = T_HEALTH then orRaw ((decodeHealth payload).map .health)
  else if frameType = T_UPLINK then orRaw ((decodeUplink payload).map .uplink)
  else if frameType = T_NODE_STATS then orRaw ((decodeNodeStats payload).map .nodeStats)
  else if frameType = T_LOG then .log payload
  else .raw payload

end SrtGateway.Protocol
