/-
Corrupted frames.

A frame whose MAGIC and LEN arrive intact is judged by its CRC alone, as soon as its bytes are
there: it is returned exactly when the CRC is right (`returnsFirst_iff`).  An odd number of
flipped bits, or two, never leaves the CRC right (`odd_and_two_bit_errors_detected`).
-/
import SrtGateway.Protocol.Crc
import SrtGateway.Protocol.Recovery

namespace SrtGateway.Protocol

open SrtGateway.Bytes SrtGateway.Scan SrtGateway.Gf2

/-! ### The frame at the first byte -/

/-- A fresh parser that is pushed these chunks returns a frame that starts at the first byte. -/
def ReturnsFirst (chunks : List (List UInt8)) : Prop :=
  ∃ blocks last f, Deframes chunks.flatten blocks last (FrameParser.new.pushAll chunks).2.buf ∧
    (FrameParser.new.pushAll chunks).1 = blocks.map Prod.snd ∧ (0, f) ∈ frameStarts 0 blocks

/-- A frame at the first byte is what the first look takes. -/
lemma returnsFirst_iff_take (chunks : List (List UInt8)) :
    ReturnsFirst chunks ↔ ∃ f n, frameLook chunks.flatten = .take f n := by
  constructor
  · rintro ⟨blocks, last, f, hd, -, hstart⟩
    exact ⟨f, frameAt_iff.mp (hd.mem_frameStarts_iff.mp hstart).2.1⟩
  · rintro ⟨f, hlook⟩
    obtain ⟨blocks, last, hd, hframes, -⟩ := exists_deframes chunks
    refine ⟨blocks, last, f, hd, hframes, hd.mem_frameStarts_iff.mpr ⟨.start, ?_, fun q hq => ?_⟩⟩
    · exact frameAt_iff.mpr hlook
    · exact absurd hq (Nat.not_lt_zero q)

/-- A refuted MAGIC byte at the start is counted. -/
lemma crcErrors_pos_of_drop {chunks : List (List UInt8)}
    (h : frameLook chunks.flatten = .drop true) :
    1 ≤ (FrameParser.new.pushAll chunks).2.crcErrors := by
  obtain ⟨ps, r, hs, hpush⟩ := pushAll_new chunks
  rw [hpush]
  generalize chunks.flatten = s at hs h
  cases hs with
  | wait hwait => exact absurd (h.symm.trans hwait) (by simp)
  | @drop b l r fault ps hdrop _ =>
    obtain rfl : true = fault := by simpa using h.symm.trans hdrop
    show 1 ≤ faultsOf (Piece.junk b true :: ps)
    rw [faultsOf_junk, Bool.toNat_true]
    omega
  | take htake _ => exact absurd (h.symm.trans htake) (by simp)

/-! ### A frame that arrives changed -/

/-- The bytes `f'` arrive for `f`, with MAGIC and LEN intact. -/
structure Corrupts (f f' : List UInt8) : Prop where
  length : f'.length = f.length
  magic : byteAt f' 0 = byteAt f 0
  lenLow : byteAt f' 2 = byteAt f 2
  lenHigh : byteAt f' 3 = byteAt f 3

/-- The number of bits in which two strings of bytes differ. -/
def bitErrors (f f' : List UInt8) : ℕ := (xorBits (bitsOf f) (bitsOf f')).count true

section Frame

variable {t : ℕ} {payload f f' : List UInt8} (hf : encodeFrame t payload = .ok f)
  (hcorrupts : Corrupts f f')

include hcorrupts in
lemma Corrupts.lenField_eq : lenField f' 0 = lenField f 0 := by
  rw [lenField, lenField, hcorrupts.lenLow, hcorrupts.lenHigh]

include hf

/-- What is known of an encoded frame. -/
lemma encoded_facts :
    byteAt f 0 = MAGIC ∧ lenField f 0 ≤ SERIAL_MAX_PAYLOAD ∧
      f.length = lenField f 0 + SERIAL_OVERHEAD ∧ crcCalc f = crcField f := by
  have htake := frameLook_encode hf []
  rw [List.append_nil] at htake
  obtain ⟨hmagic, hmax, -, hcrc, -, hlen⟩ := frameLook_take htake
  exact ⟨hmagic, hmax, hlen, hcrc⟩

include hcorrupts

/-- **A frame that arrives with MAGIC and LEN intact is judged by its CRC.** -/
lemma look_corrupted (m : List UInt8) :
    frameLook (f' ++ m) = .drop true ∧ crcCalc f' ≠ crcField f' ∨
      (∃ frame n, frameLook (f' ++ m) = .take frame n) ∧ crcCalc f' = crcField f' := by
  obtain ⟨hmagic, hmax, hlen, -⟩ := encoded_facts hf
  have hlen' : lenField f' 0 + SERIAL_OVERHEAD = f'.length := by
    rw [hcorrupts.lenField_eq, hcorrupts.length, hlen]
  have h4 : 4 ≤ f'.length := by
    simp only [SERIAL_OVERHEAD] at hlen'
    omega
  have h4m : 4 ≤ (f' ++ m).length := by
    rw [List.length_append]
    omega
  have hm : byteAt (f' ++ m) 0 = MAGIC := by
    rw [byteAt_append_left m (by omega), hcorrupts.magic, hmagic]
  rw [frameLook_header hm h4m, lenField_append m h4, crcCalc_append m h4 hlen'.le,
    crcField_append m h4 hlen'.le, if_neg (by rw [hcorrupts.lenField_eq]; omega),
    if_neg (by rw [hlen', List.length_append]; omega)]
  by_cases hcrc : crcCalc f' = crcField f'
  · rw [if_pos hcrc]
    exact .inr ⟨⟨_, _, rfl⟩, hcrc⟩
  · rw [if_neg hcrc]
    exact .inl ⟨rfl, hcrc⟩

/-- It is returned exactly when its CRC is right. -/
lemma returnsFirst_iff {m : List UInt8} {chunks : List (List UInt8)}
    (hchunks : chunks.flatten = f' ++ m) :
    ReturnsFirst chunks ↔ crcCalc f' = crcField f' := by
  rw [returnsFirst_iff_take, hchunks]
  rcases look_corrupted hf hcorrupts m with ⟨hdrop, hcrc⟩ | ⟨htake, hcrc⟩
  · refine iff_of_false ?_ hcrc
    rintro ⟨frame, n, htake⟩
    exact absurd (hdrop.symm.trans htake) (by simp)
  · exact iff_of_true htake hcrc

lemma valid_iff_errors :
    crcCalc f' = crcField f' ↔ value crcRoot (xorBits (codeword f) (codeword f')) = 0 := by
  obtain ⟨-, -, hlen, hcrc⟩ := encoded_facts hf
  have hlen' := hcorrupts.length
  exact valid_iff hlen.ge (by rw [hcorrupts.lenField_eq]; omega) hcorrupts.lenField_eq hcrc

end Frame

/-! ### Where the flipped bits are -/

lemma bits_le16 (lo hi : UInt8) : bits 16 (le16 lo hi) = bits 8 hi.toNat ++ bits 8 lo.toNat := by
  have hlo : lo.toNat < 256 := lo.toNat_lt
  have hvalue : le16 lo hi = lo.toNat + 256 * hi.toNat := by
    rw [le16_eq]
    simp [unpackLE]
  have hhigh : le16 lo hi >>> 8 = hi.toNat := by
    rw [hvalue, Nat.shiftRight_eq_div_pow]
    omega
  have hlow : le16 lo hi % 2 ^ 8 = lo.toNat := by
    rw [hvalue]
    omega
  rw [bits_append 8 8, hhigh, ← bits_mod 8 (le16 lo hi), hlow]

/-- The code of a frame from its fields. -/
lemma codeword_frameHead (t : ℕ) {p : List UInt8} (lo hi : UInt8)
    (hp : p.length ≤ SERIAL_MAX_PAYLOAD) :
    codeword (frameHead t p ++ [lo, hi]) =
      bits 8 (UInt8.ofNat (t &&& 0xFF)).toNat ++ (bitsOf (packLE 2 p.length) ++
        (bitsOf p ++ (bits 8 hi.toNat ++ bits 8 lo.toNat))) := by
  have hslice : slice (frameHead t p ++ [lo, hi]) 1 (4 + p.length) =
      UInt8.ofNat (t &&& 0xFF) :: (packLE 2 p.length ++ p) := by
    rw [slice_append_left _ (by rw [length_frameHead])]
    simp [slice, frameHead]
  rw [codeword, lenField_frameHead t _ hp, hslice, crcField_frameHead t lo hi [] hp, bits_le16,
    bitsOf_cons, bitsOf_append, List.append_assoc, List.append_assoc]

/-- The bits flipped in the payload, in wire order. -/
def payloadErrors (p p' : List UInt8) : List Bool := xorBits (bitsOf p) (bitsOf p')

/-- The bits flipped in one byte. -/
def byteErrors (b b' : UInt8) : List Bool := xorBits (bits 8 b.toNat) (bits 8 b'.toNat)

section Parts

variable (t t' : ℕ) {p p' : List UInt8} (lo lo' hi hi' : UInt8)
  (hp : p.length ≤ SERIAL_MAX_PAYLOAD) (hlen : p'.length = p.length)

include hp hlen in
/-- The flipped bits in the order of the code: those of LEN are none. -/
lemma xorBits_codeword :
    xorBits (codeword (frameHead t p ++ [lo, hi])) (codeword (frameHead t' p' ++ [lo', hi'])) =
      byteErrors (UInt8.ofNat (t &&& 0xFF)) (UInt8.ofNat (t' &&& 0xFF)) ++
        (List.replicate 16 false ++
          (payloadErrors p p' ++ (byteErrors hi hi' ++ byteErrors lo lo'))) := by
  rw [codeword_frameHead t lo hi hp, codeword_frameHead t' lo' hi' (hlen.trans_le hp), hlen]
  rw [xorBits_append (by simp), xorBits_append (by simp), xorBits_append (by simp [hlen]),
    xorBits_append (by simp), xorBits_self, length_bitsOf, length_packLE]
  rfl

include hlen in
/-- The number of flipped bits. -/
lemma bitErrors_frameHead :
    bitErrors (frameHead t p ++ [lo, hi]) (frameHead t' p' ++ [lo', hi']) =
      (byteErrors (UInt8.ofNat (t &&& 0xFF)) (UInt8.ofNat (t' &&& 0xFF)) ++
        (List.replicate 16 false ++
          (payloadErrors p p' ++ (byteErrors hi hi' ++ byteErrors lo lo')))).count true := by
  have hbits : ∀ (t : ℕ) (p : List UInt8) (lo hi : UInt8), bitsOf (frameHead t p ++ [lo, hi]) =
      bits 8 MAGIC.toNat ++ (bits 8 (UInt8.ofNat (t &&& 0xFF)).toNat ++
        (bitsOf (packLE 2 p.length) ++ (bitsOf p ++ (bits 8 lo.toNat ++ bits 8 hi.toNat)))) := by
    intro t p lo hi
    simp [frameHead, bitsOf_cons, bitsOf_append]
    rfl
  rw [bitErrors, hbits, hbits, hlen]
  rw [xorBits_append (by simp), xorBits_append (by simp), xorBits_append (by simp),
    xorBits_append (by simp [hlen]), xorBits_append (by simp), xorBits_self, xorBits_self]
  simp only [List.count_append, List.count_replicate, payloadErrors, byteErrors]
  simp
  omega

end Parts

/-- The fields of a frame, and those it arrives with. -/
lemma Corrupts.parts {t : ℕ} {payload f f' : List UInt8} (hf : encodeFrame t payload = .ok f)
    (hcorrupts : Corrupts f f') :
    payload.length ≤ SERIAL_MAX_PAYLOAD ∧ ∃ lo hi lo' hi' p', p'.length = payload.length ∧
      f = frameHead t payload ++ [lo, hi] ∧
      f' = frameHead (byteAt f' 1).toNat p' ++ [lo', hi'] := by
  obtain ⟨hp, heq⟩ := encodeFrame_eq_ok.mp hf
  obtain ⟨hmagic, -, hlen, -⟩ := encoded_facts hf
  obtain ⟨lo, hi, hcrc⟩ := List.length_eq_two.mp
    (length_packLE 2 (crc16CcittFalse (frameHead t payload) 1 (frameHead t payload).length))
  have hfield : lenField f 0 = payload.length := by
    rw [heq, lenField_frameHead t _ hp]
  have hlen' : f'.length = lenField f' 0 + SERIAL_OVERHEAD := by
    rw [hcorrupts.lenField_eq, hcorrupts.length, hlen]
  obtain ⟨lo', hi', heq'⟩ := exists_frameHead (hcorrupts.magic.trans hmagic) hlen'
  refine ⟨hp, lo, hi, lo', hi', _, ?_, by rw [heq, hcrc], heq'⟩
  rw [← hfield, ← hcorrupts.lenField_eq, slice, List.length_take, List.length_drop, hlen',
    SERIAL_OVERHEAD]
  omega

/-- Two flipped bits of the code of a frame make its CRC wrong. -/
lemma value_crcRoot_ne_zero {l : List Bool} (hcount : l.count true = 2) (hlen : l.length ≤ 32767) :
    value crcRoot l ≠ 0 := by
  obtain ⟨i, j, hij, hj, hvalue⟩ := value_of_count_two crcRoot hcount
  rw [hvalue]
  intro hzero
  obtain ⟨k, rfl⟩ := Nat.exists_eq_add_of_lt hij
  have hpow : crcRoot ^ i * crcRoot ^ (k + 1) = crcRoot ^ i * 1 := by
    rw [← pow_add, mul_one]
    exact eq_of_add_eq_zero hzero
  have hone := (crcRoot_isUnit.pow i).mul_left_cancel hpow
  have hdvd := orderOf_dvd_of_pow_eq_one hone
  rw [orderOf_crcRoot] at hdvd
  have := Nat.le_of_dvd (Nat.succ_pos k) hdvd
  omega

/-- **Odd and two-bit errors are detected.**  If for an encoded frame bytes arrive that differ
from it in exactly two bits, or in an odd number of bits, none of them in MAGIC or LEN, then
whatever follows and in whatever chunks, no frame is returned that starts at the first byte,
and `crc_errors` is at least 1. -/
theorem odd_and_two_bit_errors_detected {t : ℕ} {payload f f' : List UInt8}
    (hf : encodeFrame t payload = .ok f) (hcorrupts : Corrupts f f')
    (herrors : bitErrors f f' = 2 ∨ Odd (bitErrors f f')) (chunks : List (List UInt8))
    (m : List UInt8) (hchunks : chunks.flatten = f' ++ m) :
    ¬ ReturnsFirst chunks ∧ 1 ≤ (FrameParser.new.pushAll chunks).2.crcErrors := by
  obtain ⟨-, hmax, hlen, hvalid⟩ := encoded_facts hf
  have hlen' : lenField f' 0 + SERIAL_OVERHEAD ≤ f'.length := by
    rw [hcorrupts.lenField_eq, hcorrupts.length, hlen]
  have hcount : (xorBits (codeword f) (codeword f')).count true = bitErrors f f' := by
    obtain ⟨hp, lo, hi, lo', hi', p', hp', rfl, heq'⟩ := hcorrupts.parts hf
    rw [heq', xorBits_codeword _ _ lo lo' hi hi' hp hp', bitErrors_frameHead _ _ lo lo' hi hi' hp']
  have hcrc : crcCalc f' ≠ crcField f' := by
    intro hvalid'
    rcases herrors with htwo | hodd
    · have hzero := (valid_iff_errors hf hcorrupts).mp hvalid'
      refine value_crcRoot_ne_zero (hcount.trans htwo) ?_ hzero
      rw [length_xorBits (by rw [length_codeword hlen.ge, length_codeword hlen',
        hcorrupts.lenField_eq]), length_codeword hlen.ge]
      simp only [SERIAL_MAX_PAYLOAD] at hmax
      omega
    · have hzero :=
        value_xor_of_valid hlen.ge hlen' hcorrupts.lenField_eq one_isRoot hvalid hvalid'
      rw [value_one, hcount, ZMod.natCast_eq_zero_iff_even] at hzero
      exact Nat.not_even_iff_odd.mpr hodd hzero
  refine ⟨fun hfirst => hcrc ((returnsFirst_iff hf hcorrupts hchunks).mp hfirst), ?_⟩
  rcases look_corrupted hf hcorrupts m with ⟨hdrop, -⟩ | ⟨-, hvalid'⟩
  · exact crcErrors_pos_of_drop (hchunks ▸ hdrop)
  · exact absurd hvalid' hcrc

/-- The theorem at a frame with two flipped bits, one in its type and one in its CRC. -/
theorem two_bit_error_detected :
    ¬ ReturnsFirst [[0xA5, 0x84, 0, 0, 54], [29, 0xA5]] ∧
      1 ≤ (FrameParser.new.pushAll [[0xA5, 0x84, 0, 0, 54], [29, 0xA5]]).2.crcErrors :=
  @odd_and_two_bit_errors_detected 0x85 [] [0xA5, 0x85, 0, 0, 54, 28] [0xA5, 0x84, 0, 0, 54, 29]
    (by decide +kernel) ⟨rfl, rfl, rfl, rfl⟩ (.inl (by decide +kernel)) _ [0xA5] rfl

end SrtGateway.Protocol
