/-
Decoded telemetry (`protocol.py`): the UPLINK frame, a boat's position fix.

The floats of the decoded dict are exact rationals here.
-/
import Mathlib.Algebra.Order.Field.Rat
import SrtGateway.Protocol.Framing

namespace SrtGateway.Protocol

open SrtGateway.Bytes

/-- What `decode_uplink` returns for a well-formed payload. -/
structure Uplink where
  version : ℤ
  nodeId : ℤ
  sequence : ℤ
  lat : ℚ
  lon : ℚ
  speedCms : ℤ
  courseCdeg : ℤ
  batteryMv : ℤ
  gpsTime : ℤ
  subsecMs : ℤ
  flags : ℤ
  rssiDbm : ℤ
  snrDb : ℚ
  rxTimeMs : ℤ
  tsMs : ℤ
deriving DecidableEq

/-- An unsigned field of `width` bytes. -/
def unsignedAt (payload : List UInt8) (offset width : ℕ) : ℤ :=
  unpackLE (slice payload offset (offset + width))

/-- A signed field of `width` bytes, in two's complement. -/
def signedAt (payload : List UInt8) (offset width : ℕ) : ℤ :=
  let n := unsignedAt payload offset width
  if n < 2 ^ (8 * width - 1) then n else n - 2 ^ (8 * width)

/-- `decode_uplink`: the struct `<BHHiiHHHIHBhhQ`; `none` stands for the dict with only
`raw` that a payload of another length gives. -/
def decodeUplink (payload : List UInt8) : Option Uplink :=
  if payload.length ≠ 38 then none
  else
    let gpsTime := unsignedAt payload 19 4
    let subsecMs := unsignedAt payload 23 2
    some
      { version := unsignedAt payload 0 1, nodeId := unsignedAt payload 1 2,
        sequence := unsignedAt payload 3 2, lat := signedAt payload 5 4 / 10000000,
        lon := signedAt payload 9 4 / 10000000, speedCms := unsignedAt payload 13 2,
        courseCdeg := unsignedAt payload 15 2, batteryMv := unsignedAt payload 17 2,
        gpsTime := gpsTime, subsecMs := subsecMs, flags := unsignedAt payload 25 1,
        rssiDbm := signedAt payload 26 2, snrDb := signedAt payload 28 2 / 100,
        rxTimeMs := unsignedAt payload 30 8, tsMs := gpsTime * 1000 + subsecMs }

lemma unsignedAt_lt (payload : List UInt8) (offset width : ℕ) :
    0 ≤ unsignedAt payload offset width ∧ unsignedAt payload offset width < 256 ^ width := by
  have hlen : (slice payload offset (offset + width)).length ≤ width := by
    simp [slice]
  have hlt := unpackLE_lt (slice payload offset (offset + width))
  have hpow : 256 ^ (slice payload offset (offset + width)).length ≤ 256 ^ width :=
    Nat.pow_le_pow_right (by decide) hlen
  refine ⟨Int.natCast_nonneg _, ?_⟩
  unfold unsignedAt
  exact_mod_cast hlt.trans_le hpow

/-- A decoded sequence number is a `u16`. -/
lemma decodeUplink_sequence {payload : List UInt8} {u : Uplink}
    (h : decodeUplink payload = some u) : 0 ≤ u.sequence ∧ u.sequence < 65536 := by
  unfold decodeUplink at h
  split_ifs at h
  obtain rfl := Option.some.inj h
  exact unsignedAt_lt payload 3 2

end SrtGateway.Protocol
