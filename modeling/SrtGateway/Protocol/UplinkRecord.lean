/-
The UPLINK record behind its decoded form.

`decode_uplink` reads fourteen integers from 38 bytes and rescales three of them.  Packing the
fields of the decoded form again gives the payload back, and every tuple of values that fit the
record is what its packed form decodes to, so decoding loses nothing (`uplink_lossless`).
-/
import SrtGateway.Bytes.Struct
import SrtGateway.Protocol.Telemetry

namespace SrtGateway.Protocol

open SrtGateway.Bytes

/-- The field of a format character. -/
def fieldOf : Char → Option Field
  | 'B' => some ⟨false, 1⟩
  | 'H' => some ⟨false, 2⟩
  | 'h' => some ⟨true, 2⟩
  | 'I' => some ⟨false, 4⟩
  | 'i' => some ⟨true, 4⟩
  | 'Q' => some ⟨false, 8⟩
  | _ => none

/-- The format string after its `<`. -/
def formatOf (s : String) : List Field := s.toList.filterMap fieldOf

def UPLINK_FORMAT : List Field := formatOf "BHHiiHHHIHBhhQ"

/-- The values that `struct.unpack` gives for an UPLINK payload. -/
structure UplinkWire where
  version : ℤ
  nodeId : ℤ
  sequence : ℤ
  latE7 : ℤ
  lonE7 : ℤ
  speedCms : ℤ
  courseCdeg : ℤ
  batteryMv : ℤ
  gpsTime : ℤ
  subsecMs : ℤ
  flags : ℤ
  rssiDbm : ℤ
  snrCdb : ℤ
  rxTimeMs : ℤ

def UplinkWire.values (w : UplinkWire) : List ℤ :=
  [w.version, w.nodeId, w.sequence, w.latE7, w.lonE7, w.speedCms, w.courseCdeg, w.batteryMv,
    w.gpsTime, w.subsecMs, w.flags, w.rssiDbm, w.snrCdb, w.rxTimeMs]

/-- The dict that `decode_uplink` makes of the values. -/
def UplinkWire.record (w : UplinkWire) : Uplink :=
  { version := w.version, nodeId := w.nodeId, sequence := w.sequence, lat := w.latE7 / 10000000,
    lon := w.lonE7 / 10000000, speedCms := w.speedCms, courseCdeg := w.courseCdeg,
    batteryMv := w.batteryMv, gpsTime := w.gpsTime, subsecMs := w.subsecMs, flags := w.flags,
    rssiDbm := w.rssiDbm, snrDb := w.snrCdb / 100, rxTimeMs := w.rxTimeMs,
    tsMs := w.gpsTime * 1000 + w.subsecMs }

/-- The integer of which `q` is the part by `scale`. -/
def rescale (q : ℚ) (scale : ℕ) : Option ℤ :=
  if (q * scale).den = 1 then some (q * scale).num else none

/-- The fields of the dict, rescaled and packed in the layout of the payload. -/
def packUplink (u : Uplink) : Option (List UInt8) := do
  let latE7 ← rescale u.lat 10000000
  let lonE7 ← rescale u.lon 10000000
  let snrCdb ← rescale u.snrDb 100
  pack UPLINK_FORMAT
    [u.version, u.nodeId, u.sequence, latE7, lonE7, u.speedCms, u.courseCdeg, u.batteryMv,
      u.gpsTime, u.subsecMs, u.flags, u.rssiDbm, snrCdb, u.rxTimeMs]

lemma size_UPLINK_FORMAT : size UPLINK_FORMAT = 38 := by decide

lemma rescale_div (n : ℤ) {scale : ℕ} (h : scale ≠ 0) : rescale (n / scale) scale = some n := by
  have hcast : (n / scale : ℚ) * scale = (n : ℚ) :=
    div_mul_cancel₀ _ (Nat.cast_ne_zero.mpr h)
  rw [rescale, hcast, if_pos (Rat.den_intCast n), Rat.num_intCast]

/-- Packing the dict is packing the values that it was made of. -/
lemma packUplink_record (w : UplinkWire) : packUplink w.record = pack UPLINK_FORMAT w.values := by
  have hlat := rescale_div w.latE7 (show 10000000 ≠ 0 by decide)
  have hlon := rescale_div w.lonE7 (show 10000000 ≠ 0 by decide)
  have hsnr := rescale_div w.snrCdb (show 100 ≠ 0 by decide)
  push_cast at hlat hlon hsnr
  simp [packUplink, UplinkWire.record, UplinkWire.values, hlat, hlon, hsnr]

lemma UplinkWire.eq_of_values {w w' : UplinkWire} (h : w.values = w'.values) : w = w' := by
  cases w
  cases w'
  simpa [UplinkWire.values] using h

/-- The values in a payload. -/
def wireOf (payload : List UInt8) : UplinkWire :=
  { version := unsignedAt payload 0 1, nodeId := unsignedAt payload 1 2,
    sequence := unsignedAt payload 3 2, latE7 := signedAt payload 5 4,
    lonE7 := signedAt payload 9 4, speedCms := unsignedAt payload 13 2,
    courseCdeg := unsignedAt payload 15 2, batteryMv := unsignedAt payload 17 2,
    gpsTime := unsignedAt payload 19 4, subsecMs := unsignedAt payload 23 2,
    flags := unsignedAt payload 25 1, rssiDbm := signedAt payload 26 2,
    snrCdb := signedAt payload 28 2, rxTimeMs := unsignedAt payload 30 8 }

lemma decodeUplink_eq {payload : List UInt8} (h : payload.length = 38) :
    decodeUplink payload = some (wireOf payload).record := by
  rw [decodeUplink, if_neg (not_not_intro h), UplinkWire.record, wireOf]

lemma decode_unsigned (payload : List UInt8) (offset width : ℕ) :
    (⟨false, width⟩ : Field).decode ((payload.drop offset).take width) =
      unsignedAt payload offset width := by
  have hlt := (unsignedAt_lt payload offset width).2
  rw [unsignedAt, slice_add] at hlt ⊢
  rw [Field.decode, if_pos]
  simpa [Field.low, Field.card] using hlt

lemma decode_signed (payload : List UInt8) (offset : ℕ) {width : ℕ} (h : 0 < width) :
    (⟨true, width⟩ : Field).decode ((payload.drop offset).take width) =
      signedAt payload offset width := by
  have hcard : (256 : ℕ) ^ width = 2 * 2 ^ (8 * width - 1) := by
    rw [← pow_succ', Nat.sub_add_cancel (by omega), pow_mul]
    norm_num
  have hpow : (2 : ℤ) ^ (8 * width) = 2 * 2 ^ (8 * width - 1) := by
    rw [← pow_succ', Nat.sub_add_cancel (by omega)]
  have hhigh : (⟨true, width⟩ : Field).low + (⟨true, width⟩ : Field).card =
      2 ^ (8 * width - 1) := by
    rw [Field.low, if_pos rfl, Field.card, hcard, Nat.mul_div_cancel_left _ (by decide)]
    push_cast
    omega
  rw [Field.decode, signedAt, unsignedAt, slice_add, hhigh, hpow, Field.card, hcard]
  push_cast
  rfl

/-- The format reads the payload where `decode_uplink` does. -/
lemma unpack_eq_values (payload : List UInt8) :
    unpack UPLINK_FORMAT payload = (wireOf payload).values := by
  have hformat : UPLINK_FORMAT = [⟨false, 1⟩, ⟨false, 2⟩, ⟨false, 2⟩, ⟨true, 4⟩, ⟨true, 4⟩,
      ⟨false, 2⟩, ⟨false, 2⟩, ⟨false, 2⟩, ⟨false, 4⟩, ⟨false, 2⟩, ⟨false, 1⟩, ⟨true, 2⟩, ⟨true, 2⟩,
      ⟨false, 8⟩] := by decide
  have hversion : (⟨false, 1⟩ : Field).decode (payload.take 1) = unsignedAt payload 0 1 :=
    decode_unsigned payload 0 1
  have hsigned4 := fun offset => decode_signed payload offset (show 0 < 4 by decide)
  have hsigned2 := fun offset => decode_signed payload offset (show 0 < 2 by decide)
  simp only [hformat, unpack, List.drop_drop, Nat.reduceAdd, decode_unsigned, hversion, hsigned4,
    hsigned2, UplinkWire.values, wireOf]

/-- **UPLINK decoding loses nothing.**  The decoded form of a payload packs to the payload;
values that fit the record decode from their packed form; different payloads decode to
different records. -/
theorem uplink_lossless :
    (∀ payload : List UInt8, payload.length = 38 →
      ∃ u, decodeUplink payload = some u ∧ packUplink u = some payload) ∧
    (∀ w : UplinkWire, List.Forall₂ Field.InRange UPLINK_FORMAT w.values →
      ∃ payload, pack UPLINK_FORMAT w.values = some payload ∧ payload.length = 38 ∧
        decodeUplink payload = some w.record) ∧
    ∀ payload payload' : List UInt8, payload.length = 38 → payload'.length = 38 →
      decodeUplink payload = decodeUplink payload' → payload = payload' := by
  have hback : ∀ payload : List UInt8, payload.length = 38 →
      packUplink (wireOf payload).record = some payload := by
    intro payload hlen
    rw [packUplink_record, ← unpack_eq_values, pack_unpack (hlen.trans size_UPLINK_FORMAT.symm)]
  refine ⟨fun payload hlen => ⟨_, decodeUplink_eq hlen, hback payload hlen⟩, fun w hw => ?_,
    fun payload payload' hlen hlen' heq => ?_⟩
  · obtain ⟨payload, hpack⟩ := Option.isSome_iff_exists.mp (pack_isSome_iff.mpr hw)
    obtain ⟨hvalues, hlen⟩ := unpack_pack hpack
    rw [size_UPLINK_FORMAT] at hlen
    have hwire : wireOf payload = w :=
      UplinkWire.eq_of_values ((unpack_eq_values payload).symm.trans hvalues)
    exact ⟨payload, hpack, hlen, by rw [decodeUplink_eq hlen, hwire]⟩
  · rw [decodeUplink_eq hlen, decodeUplink_eq hlen', Option.some.injEq] at heq
    have hpack := hback payload hlen
    rw [heq, hback payload' hlen'] at hpack
    exact (Option.some.inj hpack).symm

end SrtGateway.Protocol
