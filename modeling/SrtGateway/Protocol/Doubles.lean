/-
Decoded payloads in doubles.

The floats that `decode_uplink` and `decode_health` return are quotients of a field and a scale,
rounded.  Multiplied with the scale again they give the field back (`rescaled_trueDiv`), so the
rounding loses nothing that the rationals keep (`decode_in_doubles`).
-/
import SrtGateway.Floats.Nearest
import SrtGateway.Protocol.Kernel

namespace SrtGateway.Protocol

open SrtGateway.Bytes SrtGateway.Floats

/-! ### The floats -/

/-- `n / scale`, for an int and a float. -/
def trueDiv (n : ℤ) (scale : ℚ) : ℚ := double (double n / scale)

/-- `round(x * scale)`, for floats. -/
def rescaled (x scale : ℚ) : ℤ := roundEven (double (x * scale))

lemma trueDiv_eq {n : ℤ} (h : |n| < 2 ^ 53) (scale : ℚ) :
    trueDiv n scale = double (n / scale) := by
  rw [trueDiv, double, double, nearest_intCast h, double]

lemma rescaled_trueDiv {n : ℤ} (h : |n| < 2 ^ 50) {scale : ℚ} (hscale : scale ≠ 0) :
    rescaled (trueDiv n scale) scale = n := by
  rw [trueDiv_eq (h.trans (by norm_num))]
  exact roundEven_nearest_mul (by omega) hscale

lemma abs_unsignedAt_lt (payload : List UInt8) (offset : ℕ) :
    |unsignedAt payload offset 2| < 2 ^ 50 := by
  have := unsignedAt_lt payload offset 2
  rw [abs_of_nonneg this.1]
  exact this.2.trans (by norm_num)

lemma abs_signedAt_lt (payload : List UInt8) (offset : ℕ) {width : ℕ} (h : width ≤ 4) :
    |signedAt payload offset width| < 2 ^ 50 := by
  have hlt := unsignedAt_lt payload offset width
  have hcard : (256 : ℤ) ^ width ≤ 256 ^ 4 := pow_le_pow_right₀ (by norm_num) h
  have hpow : (0 : ℤ) < 2 ^ (8 * width) ∧ (2 : ℤ) ^ (8 * width) ≤ 256 ^ 4 := by
    rw [pow_mul]
    exact ⟨by positivity, hcard⟩
  rw [signedAt, abs_lt]
  split <;> constructor <;> omega

/-! ### The decoders -/

/-- The dict that `decode_uplink` makes of the values, in floats. -/
def UplinkWire.recordInDoubles (w : UplinkWire) : Uplink :=
  { w.record with
    lat := trueDiv w.latE7 10000000
    lon := trueDiv w.lonE7 10000000
    snrDb := trueDiv w.snrCdb 100 }

/-- `decode_uplink`. -/
def decodeUplinkInDoubles (payload : List UInt8) : Option Uplink :=
  if payload.length ≠ 38 then none else some (wireOf payload).recordInDoubles

/-- `decode_health`. -/
def decodeHealthInDoubles (payload : List UInt8) : Option Health :=
  (decodeHealth payload).map fun h => { h with ppsHz := trueDiv (unsignedAt payload 16 2) 100 }

/-- `decode_payload`. -/
def decodePayloadInDoubles (frameType : ℕ) (payload : List UInt8) : Decoded :=
  if frameType = T_HEALTH then
    ((decodeHealthInDoubles payload).map Decoded.health).getD (.raw payload)
  else if frameType = T_UPLINK then
    ((decodeUplinkInDoubles payload).map Decoded.uplink).getD (.raw payload)
  else decodePayload frameType payload

/-- The fields of the dict, rescaled and packed in the layout of the payload. -/
def packUplinkInDoubles (u : Uplink) : Option (List UInt8) :=
  pack UPLINK_FORMAT
    [u.version, u.nodeId, u.sequence, rescaled u.lat 10000000, rescaled u.lon 10000000,
      u.speedCms, u.courseCdeg, u.batteryMv, u.gpsTime, u.subsecMs, u.flags, u.rssiDbm,
      rescaled u.snrDb 100, u.rxTimeMs]

section Payload

variable (payload : List UInt8)

lemma rescaled_lat :
    rescaled (wireOf payload).recordInDoubles.lat 10000000 = signedAt payload 5 4 := by
  simp only [UplinkWire.recordInDoubles, wireOf]
  exact rescaled_trueDiv (abs_signedAt_lt payload 5 le_rfl) (by norm_num)

lemma rescaled_lon :
    rescaled (wireOf payload).recordInDoubles.lon 10000000 = signedAt payload 9 4 := by
  simp only [UplinkWire.recordInDoubles, wireOf]
  exact rescaled_trueDiv (abs_signedAt_lt payload 9 le_rfl) (by norm_num)

lemma rescaled_snr :
    rescaled (wireOf payload).recordInDoubles.snrDb 100 = signedAt payload 28 2 := by
  simp only [UplinkWire.recordInDoubles, wireOf]
  exact rescaled_trueDiv (abs_signedAt_lt payload 28 (by norm_num)) (by norm_num)

end Payload

/-- **A payload can be had again from its dict.** -/
lemma packUplinkInDoubles_record {payload : List UInt8} (h : payload.length = 38) :
    packUplinkInDoubles (wireOf payload).recordInDoubles = some payload := by
  have hvalues : packUplinkInDoubles (wireOf payload).recordInDoubles =
      pack UPLINK_FORMAT (wireOf payload).values := by
    rw [packUplinkInDoubles, rescaled_lat, rescaled_lon, rescaled_snr, UplinkWire.values]
    simp only [UplinkWire.recordInDoubles, UplinkWire.record, wireOf]
  rw [hvalues, ← unpack_eq_values, pack_unpack (h.trans size_UPLINK_FORMAT.symm)]

lemma decodeUplinkInDoubles_eq_iff {p q : List UInt8} :
    decodeUplinkInDoubles p = decodeUplinkInDoubles q ↔ decodeUplink p = decodeUplink q := by
  by_cases hp : p.length = 38 <;> by_cases hq : q.length = 38
  · have hdoubles : decodeUplinkInDoubles p = decodeUplinkInDoubles q → p = q := by
      simp only [decodeUplinkInDoubles, hp, hq, ne_eq, not_true, if_false, Option.some_inj]
      intro h
      exact Option.some.inj
        ((packUplinkInDoubles_record hp).symm.trans (h ▸ packUplinkInDoubles_record hq))
    exact ⟨fun h => congrArg _ (hdoubles h), fun h => congrArg _ (decodeUplink_inj hp hq h)⟩
  all_goals simp [decodeUplinkInDoubles, decodeUplink, hp, hq]

lemma decodeHealthInDoubles_eq_iff {p q : List UInt8} :
    decodeHealthInDoubles p = decodeHealthInDoubles q ↔ decodeHealth p = decodeHealth q := by
  by_cases hp : p.length = 40 <;> by_cases hq : q.length = 40
  · have hpps : trueDiv (unsignedAt p 16 2) 100 = trueDiv (unsignedAt q 16 2) 100 ↔
        (unsignedAt p 16 2 / 100 : ℚ) = unsignedAt q 16 2 / 100 := by
      rw [div_left_inj' (by norm_num), Int.cast_inj]
      refine ⟨fun h => ?_, congrArg (trueDiv · 100)⟩
      have hint := congrArg (rescaled · 100) h
      rwa [rescaled_trueDiv (abs_unsignedAt_lt p 16) (by norm_num),
        rescaled_trueDiv (abs_unsignedAt_lt q 16) (by norm_num)] at hint
    rw [decodeHealthInDoubles, decodeHealthInDoubles, decodeHealth_eq hp, decodeHealth_eq hq]
    simp only [Option.map_some, Option.some_inj, Health.mk.injEq, hpps]
  all_goals simp [decodeHealthInDoubles, decodeHealth, hp, hq]

/-- Decoders that fail together and agree together decode alike. -/
lemma orRaw_congr {α : Type} {wrap : α → Decoded} (hwrap : Function.Injective wrap)
    (hraw : ∀ a bs, wrap a ≠ .raw bs) {x y x' y' : Option α} {p q : List UInt8}
    (hx : x.isSome = x'.isSome) (hy : y.isSome = y'.isSome) (h : x = y ↔ x' = y') :
    (x.map wrap).getD (.raw p) = (y.map wrap).getD (.raw q) ↔
      (x'.map wrap).getD (.raw p) = (y'.map wrap).getD (.raw q) := by
  rw [orRaw_eq_iff hwrap hraw, orRaw_eq_iff hwrap hraw, h, hx,
    ← Option.not_isSome_iff_eq_none, ← Option.not_isSome_iff_eq_none, hx, hy,
    Option.not_isSome_iff_eq_none, Option.not_isSome_iff_eq_none]

/-- **The rounding loses nothing.**  Every UPLINK payload can be had again, field by field, from
the floats of its dict; and payloads of any type have the same dict in floats just when they
have in rationals. -/
theorem decode_in_doubles :
    (∀ payload : List UInt8, payload.length = 38 →
      ∃ u, decodeUplinkInDoubles payload = some u ∧ packUplinkInDoubles u = some payload) ∧
    ∀ (frameType : ℕ) (p q : List UInt8),
      decodePayloadInDoubles frameType p = decodePayloadInDoubles frameType q ↔
        decodePayload frameType p = decodePayload frameType q := by
  refine ⟨fun payload hlen => ⟨_, by rw [decodeUplinkInDoubles, if_neg (not_not_intro hlen)],
    packUplinkInDoubles_record hlen⟩, fun frameType p q => ?_⟩
  unfold decodePayloadInDoubles
  split_ifs with hhealth huplink
  · subst hhealth
    have hsome : ∀ p, (decodeHealthInDoubles p).isSome = (decodeHealth p).isSome :=
      fun p => Option.isSome_map
    simpa [decodePayload, T_ACK, T_HEALTH] using
      orRaw_congr (fun _ _ h => Decoded.health.inj h) (fun _ _ h => by cases h) (hsome p) (hsome q)
        decodeHealthInDoubles_eq_iff
  · subst huplink
    have hsome : ∀ p, (decodeUplinkInDoubles p).isSome = (decodeUplink p).isSome := by
      intro p
      by_cases hlen : p.length = 38 <;> simp [decodeUplinkInDoubles, decodeUplink, hlen]
    simpa [decodePayload, T_ACK, T_HEALTH, T_UPLINK] using
      orRaw_congr (fun _ _ h => Decoded.uplink.inj h) (fun _ _ h => by cases h) (hsome p) (hsome q)
        decodeUplinkInDoubles_eq_iff
  · rfl

end SrtGateway.Protocol
