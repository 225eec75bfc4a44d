/-
Bursts.

The CRC follows the payload with its low byte first, so a burst that reaches from the payload
into the CRC is not one for the code, and twelve of them leave the CRC right
(`undetectedBursts`).  Every other burst of at most 16 bits in the payload and the CRC makes it
wrong (`short_bursts_detected_iff`).
-/
import SrtGateway.Protocol.Corruption

namespace SrtGateway.Protocol

open SrtGateway.Bytes SrtGateway.Gf2

/-- Some bits are set, all of them within 16 consecutive ones. -/
def IsBurst (l : List Bool) : Prop :=
  ∃ k window j, window.length = 16 ∧ true ∈ window ∧
    l = List.replicate k false ++ (window ++ List.replicate j false)

/-- The flipped bits of the PAYLOAD and CRC bytes, in wire order. -/
def wireErrors (f f' : List UInt8) : List Bool := xorBits (bitsOf (f.drop 4)) (bitsOf (f'.drop 4))

/-- The flips of the payload bits, as one number: the last bit of the payload is its lowest. -/
def payloadFlips (f f' : List UInt8) : ℕ :=
  ofBits (payloadErrors (slice f 4 (4 + lenField f 0)) (slice f' 4 (4 + lenField f 0)))

/-- The flips of the value of the CRC field. -/
def crcFlips (f f' : List UInt8) : ℕ := crcField f ^^^ crcField f'

/-- The bursts that leave the CRC right: the flips of the payload, and of the CRC. -/
def undetectedBursts : List (ℕ × ℕ) :=
  [(0x1, 0x1021), (0x2, 0x2042), (0x3, 0x3063), (0x4, 0x4084), (0x5, 0x50A5), (0x6, 0x60C6),
    (0x7, 0x70E7), (0x89, 0xA1), (0x235, 0x94), (0x8C5, 0x40), (0x118A, 0x80), (0x194F, 0xC0)]

instance (a c : ℕ) : Decidable ((a, c) ∈ undetectedBursts) := inferInstance

/-! ### Bursts across the boundary -/

/-- A CRC with its two bytes the other way round, as on the wire. -/
def swapBytes (c : ℕ) : ℕ := c % 256 * 256 + c / 256

/-- The flips `a` are in the last `i` bits of the payload, and the flips `c` in the first
`16 - i` bits of the CRC on the wire. -/
def Straddles (i a c : ℕ) : Prop := 0 < a ∧ a < 2 ^ i ∧ swapBytes c % 2 ^ i = 0

instance (i a c : ℕ) : Decidable (Straddles i a c) := inferInstanceAs (Decidable (_ ∧ _ ∧ _))

/-- The flips that `c` undoes: `c` divided by the sixteenth power of the root. -/
def flipsFor (c : ℕ) : ℕ := mulMod 15 0x1021 0x9D71 (bits 16 c)

lemma undetectedBursts_spec : ∀ b ∈ undetectedBursts,
    0 < b.1 ∧ b.1 < 2 ^ 16 ∧ 0 < b.2 ∧ crcShift^[16] b.1 = b.2 := by
  decide +kernel

/-- The bursts with at most 8 bits in the payload. -/
lemma low_flips : ∀ i < 9, ∀ a < 256, Straddles i a (crcShift^[16] a) →
    (a, crcShift^[16] a) ∈ undetectedBursts := by
  decide +kernel

/-- The bursts with at most 7 bits in the CRC. -/
lemma high_flips : ∀ i < 16, ∀ c < 256, Straddles i (flipsFor c) c →
    i < 9 ∨ (flipsFor c, c) ∈ undetectedBursts := by
  decide +kernel

lemma shift_eq_iff {a c : ℕ} (hc : c < 2 ^ 16) :
    crcShift^[16] a = c ↔ crcRoot ^ 16 * valueOf crcRoot 16 a = valueOf crcRoot 16 c := by
  have hshift : crcShift = shift 15 0x1021 := funext crcShift_eq
  have hlt : (shift 15 0x1021)^[16] a < 2 ^ 16 := by
    rw [Function.iterate_succ_apply']
    exact shift_lt 15 0x1021 _
  rw [hshift, ← valueOf_iterate crcRoot_isRoot]
  constructor
  · intro h
    rw [h]
  · exact valueOf_root_inj hlt hc

lemma crcRoot_pow_inverse : valueOf crcRoot 16 0x9D71 * crcRoot ^ 16 = 1 := by
  have hpow := valueOf_rootPow crcRoot_isRoot (bits 15 32751)
  have hregister : rootPow 15 0x1021 (bits 15 32751) = 0x9D71 := by decide +kernel
  have hexponent : ofBits (bits 15 32751) = 32751 := by decide +kernel
  have horder : 32751 + 16 = orderOf crcRoot := by rw [orderOf_crcRoot]
  rw [hregister, hexponent] at hpow
  rw [hpow, ← pow_add, horder, pow_orderOf_eq_one]

lemma eq_flipsFor {a c : ℕ} (ha : a < 2 ^ 16) (hc : c < 2 ^ 16) (h : crcShift^[16] a = c) :
    a = flipsFor c := by
  refine valueOf_root_inj (g := 0x1021) ha (mulMod_lt (by norm_num) _) ?_
  rw [flipsFor, valueOf_mulMod crcRoot_isRoot, ← valueOf, ← (shift_eq_iff hc).mp h, ← mul_assoc,
    crcRoot_pow_inverse, one_mul]

/-- **Flips on both sides of the boundary** that leave the CRC right. -/
lemma mem_undetectedBursts {i a c : ℕ} (hi : i < 16) (hc : c < 2 ^ 16) (h : Straddles i a c)
    (hshift : crcShift^[16] a = c) : (a, c) ∈ undetectedBursts := by
  obtain ⟨hpos, ha, hdvd⟩ := h
  rcases Nat.lt_or_ge i 9 with hlow | hhigh
  · have hle : 2 ^ i ≤ 2 ^ 8 := Nat.pow_le_pow_right (by norm_num) (by omega)
    rw [← hshift] at hdvd ⊢
    exact low_flips i hlow a (ha.trans_le hle) ⟨hpos, ha, hdvd⟩
  · -- the last byte on the wire is intact
    have hpow : 2 ^ 8 ∣ swapBytes c :=
      (Nat.pow_dvd_pow 2 (by omega)).trans (Nat.dvd_of_mod_eq_zero hdvd)
    have hlt : c < 256 := by
      rw [swapBytes] at hpow
      omega
    have hle : 2 ^ i ≤ 2 ^ 16 := Nat.pow_le_pow_right (by norm_num) hi.le
    obtain rfl := eq_flipsFor (ha.trans_le hle) hc hshift
    exact (high_flips i hi c hlt ⟨hpos, ha, hdvd⟩).resolve_left (by omega)

/-! ### Bursts anywhere -/

section Flips

variable {P L H : List Bool} (hL : L.length = 8) (hH : H.length = 8)

include hL hH

lemma ofBits_crc_lt : ofBits (H ++ L) < 2 ^ 16 := by
  have hlt := ofBits_lt (H ++ L)
  rwa [List.length_append, hL, hH] at hlt

lemma swapBytes_ofBits : swapBytes (ofBits (H ++ L)) = ofBits (L ++ H) := by
  have hlow := ofBits_lt L
  have hhigh := ofBits_lt H
  rw [hL] at hlow
  rw [hH] at hhigh
  rw [ofBits_append, ofBits_append, hL, hH, swapBytes]
  omega

/-- The flipped bits in the order of the code leave the CRC right. -/
lemma value_flips_iff :
    value crcRoot (P ++ (H ++ L)) = 0 ↔
      crcRoot ^ 16 * value crcRoot P = valueOf crcRoot 16 (ofBits (H ++ L)) := by
  rw [value_append, value_ofBits crcRoot (ofBits_crc_lt hL hH), List.length_append, hL, hH]
  constructor
  · exact eq_of_add_eq_zero
  · intro h
    rw [h, add_self]

/-- A burst flips some bit of the CRC, if it leaves the CRC right. -/
lemma crc_flipped (hburst : IsBurst (P ++ (L ++ H))) (hzero : value crcRoot (P ++ (H ++ L)) = 0) :
    ofBits (H ++ L) ≠ 0 := by
  intro hcrc
  obtain ⟨k, window, j, hwindow, hset, heq⟩ := hburst
  have hclear : true ∉ L ++ H := by
    have := ofBits_eq_zero_iff.mp hcrc
    rwa [List.mem_append, or_comm, ← List.mem_append] at this
  have hvalue := (value_flips_iff hL hH).mp hzero
  rw [hcrc, valueOf_zero] at hvalue
  -- the value of the string on the wire, read off both of its descriptions
  have hwire : value crcRoot (P ++ (L ++ H)) = 0 := by
    rw [value_append, List.length_append, hL, hH, hvalue,
      value_of_count_zero _ (List.count_eq_zero.mpr hclear), add_zero]
  have hlt := ofBits_lt window
  rw [hwindow] at hlt
  rw [heq, value_append, value_append, value_replicate_false, value_replicate_false,
    List.length_replicate, mul_zero, zero_add, add_zero,
    (crcRoot_isUnit.pow j).mul_right_eq_zero, value_ofBits crcRoot hlt,
    ← valueOf_zero crcRoot 16] at hwire
  exact ofBits_eq_zero_iff.mp (valueOf_root_inj hlt (by norm_num) hwire) hset

/-- A burst flips some bit of the payload, if it leaves the CRC right. -/
lemma payload_flipped (hburst : IsBurst (P ++ (L ++ H)))
    (hzero : value crcRoot (P ++ (H ++ L)) = 0) : ofBits P ≠ 0 := by
  intro hpayload
  have hclear := ofBits_eq_zero_iff.mp hpayload
  have hvalue := (value_flips_iff hL hH).mp hzero
  rw [value_of_count_zero _ (List.count_eq_zero.mpr hclear), mul_zero,
    ← valueOf_zero crcRoot 16] at hvalue
  refine crc_flipped hL hH hburst hzero ?_
  exact (valueOf_root_inj (by norm_num) (ofBits_crc_lt hL hH) hvalue).symm

/-- A burst that reaches both sides of the boundary. -/
lemma exists_straddles (hburst : IsBurst (P ++ (L ++ H))) (hP : ofBits P ≠ 0)
    (hcrc : ofBits (H ++ L) ≠ 0) : ∃ i < 16, Straddles i (ofBits P) (ofBits (H ++ L)) := by
  obtain ⟨k, window, j, hwindow, -, heq⟩ := hburst
  have hclear : ∀ n, true ∉ List.replicate n false := by
    intro n hmem
    exact absurd (List.eq_of_mem_replicate hmem) (by simp)
  have hset : true ∈ L ++ H := by
    have hmem := not_not.mp (ofBits_eq_zero_iff.not.mp hcrc)
    rwa [List.mem_append, or_comm, ← List.mem_append] at hmem
  rcases List.append_eq_append_iff.mp heq with ⟨as, hk, -⟩ | ⟨bs, rfl, hrest⟩
  · -- the burst starts in the CRC
    have hset' := not_not.mp (ofBits_eq_zero_iff.not.mp hP)
    exact absurd (hk ▸ List.mem_append_left as hset') (hclear k)
  rcases List.append_eq_append_iff.mp hrest with ⟨cs, -, hj⟩ | ⟨ds, rfl, hC⟩
  · -- the burst ends in the payload
    exact absurd (hj ▸ List.mem_append_right cs hset) (hclear j)
  · have hlen := congrArg List.length hC
    simp only [List.length_append, List.length_replicate, hL, hH] at hlen hwindow
    have hj : j ≠ 16 := by
      rintro rfl
      obtain rfl := List.length_eq_zero_iff.mp (show ds.length = 0 by omega)
      rw [hC, List.nil_append] at hset
      exact hclear 16 hset
    have hlt := ofBits_lt bs
    rw [show bs.length = j by omega] at hlt
    have hpayload : ofBits (List.replicate k false ++ bs) = ofBits bs := by
      rw [ofBits_append, ofBits_replicate_false, mul_zero, zero_add]
    refine ⟨j, by omega, Nat.pos_of_ne_zero hP, hpayload ▸ hlt, ?_⟩
    rw [swapBytes_ofBits hL hH, hC, ofBits_append, ofBits_replicate_false, List.length_replicate,
      add_zero, Nat.mul_mod_right]

/-- **Which bursts leave the CRC right.** -/
lemma burst_undetected_iff (hburst : IsBurst (P ++ (L ++ H))) :
    value crcRoot (P ++ (H ++ L)) = 0 ↔ (ofBits P, ofBits (H ++ L)) ∈ undetectedBursts := by
  have hcrclt := ofBits_crc_lt hL hH
  constructor
  · intro hzero
    have hcrc := crc_flipped hL hH hburst hzero
    have hpayload := payload_flipped hL hH hburst hzero
    obtain ⟨i, hi, hstraddles⟩ := exists_straddles hL hH hburst hpayload hcrc
    have hlt : ofBits P < 2 ^ 16 :=
      hstraddles.2.1.trans (Nat.pow_lt_pow_right (by norm_num) hi)
    refine mem_undetectedBursts hi hcrclt hstraddles ((shift_eq_iff hcrclt).mpr ?_)
    rw [← value_ofBits crcRoot hlt]
    exact (value_flips_iff hL hH).mp hzero
  · intro hmem
    obtain ⟨-, hlt, -, hshift⟩ := undetectedBursts_spec _ hmem
    rw [value_flips_iff hL hH, value_ofBits crcRoot hlt]
    exact (shift_eq_iff hcrclt).mp hshift

end Flips

/-! ### Frames that arrive with a burst -/

lemma byteAt_take {l : List UInt8} {n i : ℕ} (h : i < n) : byteAt (l.take n) i = byteAt l i := by
  simp [byteAt, List.getD_eq_getElem?_getD, h]

/-- Bytes that arrive with the header intact. -/
lemma corrupts_of_take {f f' : List UInt8} (hlen : f'.length = f.length)
    (hhead : f'.take 4 = f.take 4) : Corrupts f f' ∧ byteAt f' 1 = byteAt f 1 := by
  have hbyte : ∀ i < 4, byteAt f' i = byteAt f i := by
    intro i hi
    rw [← byteAt_take hi, hhead, byteAt_take hi]
  exact ⟨⟨hlen, hbyte 0 (by norm_num), hbyte 2 (by norm_num), hbyte 3 (by norm_num)⟩,
    hbyte 1 (by norm_num)⟩

section Parts

variable (t t' : ℕ) {p p' : List UInt8} (lo lo' hi hi' : UInt8)
  (hp : p.length ≤ SERIAL_MAX_PAYLOAD) (hlen : p'.length = p.length)

include hp

lemma crcFlips_frameHead (hp' : p'.length ≤ SERIAL_MAX_PAYLOAD) :
    crcFlips (frameHead t p ++ [lo, hi]) (frameHead t' p' ++ [lo', hi']) =
      ofBits (byteErrors hi hi' ++ byteErrors lo lo') := by
  have hlt : crcFlips (frameHead t p ++ [lo, hi]) (frameHead t' p' ++ [lo', hi']) < 2 ^ 16 :=
    Nat.xor_lt_two_pow (crcField_lt _) (crcField_lt _)
  rw [← ofBits_bits hlt, crcFlips, bits_xor, crcField_frameHead t lo hi [] hp,
    crcField_frameHead t' lo' hi' [] hp', bits_le16, bits_le16, xorBits_append (by simp)]
  rfl

include hlen

lemma payloadFlips_frameHead :
    payloadFlips (frameHead t p ++ [lo, hi]) (frameHead t' p' ++ [lo', hi']) =
      ofBits (payloadErrors p p') := by
  have hslice := slice_frameHead t' p' [lo', hi']
  rw [hlen] at hslice
  rw [payloadFlips, lenField_frameHead t _ hp, slice_frameHead, hslice]

omit hp in
lemma wireErrors_frameHead :
    wireErrors (frameHead t p ++ [lo, hi]) (frameHead t' p' ++ [lo', hi']) =
      payloadErrors p p' ++ (byteErrors lo lo' ++ byteErrors hi hi') := by
  have hbits : ∀ (t : ℕ) (p : List UInt8) (lo hi : UInt8),
      bitsOf ((frameHead t p ++ [lo, hi]).drop 4) =
        bitsOf p ++ (bits 8 lo.toNat ++ bits 8 hi.toNat) := by
    intro t p lo hi
    have hdrop : (frameHead t p ++ [lo, hi]).drop 4 = p ++ [lo, hi] := rfl
    rw [hdrop, bitsOf_append, bitsOf_cons, bitsOf_cons]
    simp [bitsOf]
  rw [wireErrors, hbits, hbits, xorBits_append (by simp [hlen]), xorBits_append (by simp)]
  rfl

end Parts

/-- **A short burst is detected unless it is one of twelve.**  If for an encoded frame bytes
arrive with a burst within 16 consecutive bits of the PAYLOAD and CRC bytes, then whatever
follows and in whatever chunks, a frame is returned that starts at the first byte if and only
if the flips of the payload and of the CRC are in `undetectedBursts`. -/
theorem short_bursts_detected_iff {t : ℕ} {payload f f' : List UInt8}
    (hf : encodeFrame t payload = .ok f) (hlen : f'.length = f.length)
    (hhead : f'.take 4 = f.take 4) (hburst : IsBurst (wireErrors f f'))
    (chunks : List (List UInt8)) (m : List UInt8) (hchunks : chunks.flatten = f' ++ m) :
    ReturnsFirst chunks ↔ (payloadFlips f f', crcFlips f f') ∈ undetectedBursts := by
  obtain ⟨hcorrupts, htype⟩ := corrupts_of_take hlen hhead
  rw [returnsFirst_iff hf hcorrupts hchunks, valid_iff_errors hf hcorrupts]
  obtain ⟨hp, lo, hi, lo', hi', p', hp', rfl, heq'⟩ := hcorrupts.parts hf
  generalize (byteAt f' 1).toNat = t' at heq'
  subst heq'
  have htype' : UInt8.ofNat (t' &&& 0xFF) = UInt8.ofNat (t &&& 0xFF) := htype
  rw [wireErrors_frameHead t t' lo lo' hi hi' hp'] at hburst
  rw [payloadFlips_frameHead t t' lo lo' hi hi' hp hp',
    crcFlips_frameHead t t' lo lo' hi hi' hp (hp'.trans_le hp),
    xorBits_codeword t t' lo lo' hi hi' hp hp', htype', byteErrors, xorBits_self,
    value_append, value_append, value_replicate_false, value_replicate_false, mul_zero, mul_zero,
    zero_add, zero_add]
  refine burst_undetected_iff ?_ ?_ hburst
  · rw [byteErrors, length_xorBits (by simp), length_bits]
  · rw [byteErrors, length_xorBits (by simp), length_bits]

/-- The theorem at a frame whose last payload bit is flipped. -/
theorem one_bit_burst_detected : ¬ ReturnsFirst [[0xA5, 0x85, 1, 0, 1], [141, 210, 0]] := by
  have hburst : IsBurst (wireErrors [0xA5, 0x85, 1, 0, 0, 141, 210]
      [0xA5, 0x85, 1, 0, 1, 141, 210]) :=
    ⟨7, true :: List.replicate 15 false, 1, by decide, by decide, by decide +kernel⟩
  refine (@short_bursts_detected_iff 0x85 [0] [0xA5, 0x85, 1, 0, 0, 141, 210]
    [0xA5, 0x85, 1, 0, 1, 141, 210] (by decide +kernel) rfl rfl hburst _ [0] rfl).not.mpr ?_
  decide +kernel

/-- The last bit of the payload and three bits of the CRC, all within 13 bits: the frame is
returned with another payload. -/
theorem short_burst_undetected :
    ∃ f f', encodeFrame 0x85 [0] = .ok f ∧ f'.length = f.length ∧ f'.take 4 = f.take 4 ∧
      IsBurst (wireErrors f f') ∧ ReturnsFirst [f'] ∧
      (FrameParser.new.push f').1 = [(0x85, [1])] := by
  refine ⟨[0xA5, 0x85, 1, 0, 0, 141, 210], [0xA5, 0x85, 1, 0, 1, 172, 194], by decide +kernel,
    rfl, rfl, ?_, ?_, by decide +kernel⟩
  · exact ⟨7, [true, false, false, true, false, false, false, false, true, false, false, false,
      true, false, false, false], 1, by decide, by decide, by decide +kernel⟩
  · exact (returnsFirst_iff_take _).mpr ⟨(0x85, [1]), 7, by decide +kernel⟩

end SrtGateway.Protocol
