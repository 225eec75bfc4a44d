/-
What the de-framer makes of a byte stream.

`Deframes s blocks last rest` describes, without reference to the parser, a stream cut into
gaps, encoded frames and an undecided rest.  A stream has exactly one such description, and
it is the one the parser finds, in whatever chunks the stream arrives:

* `pushAll_eq_push`: the chunks leave no trace;
* `pushAll_deframes`: the parser finds the only description of the stream;
* `stream_round_trip`: what was encoded, with bytes other than MAGIC around the frames, is
  what is found.
-/
import SrtGateway.Protocol.Deframer

namespace SrtGateway.Protocol

open SrtGateway.Bytes SrtGateway.Scan

/-- **Chunking invariance.**  From every state that a parser reaches (by the chunks
`before`), pushing chunks one after the other returns the frames of one push of all their
bytes, and leaves the same buffer and error count. -/
theorem pushAll_eq_push (before chunks : List (List UInt8)) :
    (FrameParser.new.pushAll before).2.pushAll chunks =
      (FrameParser.new.pushAll before).2.push chunks.flatten := by
  have hp : (FrameParser.new.pushAll before).2.Settled := by
    obtain ⟨ps, r, hs, hpush⟩ := pushAll_new before
    rw [hpush]
    exact hs.rest_wait
  obtain ⟨ps, r, hs, hpush⟩ := pushAll_scans hp chunks
  obtain ⟨qs, r', hs', hpush'⟩ := push_scans (FrameParser.new.pushAll before).2 chunks.flatten
  obtain ⟨rfl, rfl⟩ := hs.unique hs'
  rw [hpush, hpush']

/-! ### Encoded frames -/

lemma byteAt_frameHead_zero (t : ℕ) (p m : List UInt8) : byteAt (frameHead t p ++ m) 0 = MAGIC :=
  rfl

lemma byteAt_frameHead_one (t : ℕ) (p m : List UInt8) :
    byteAt (frameHead t p ++ m) 1 = UInt8.ofNat (t &&& 0xFF) := rfl

/-- A type of one byte survives the mask. -/
lemma typeByte_toNat (t : UInt8) : UInt8.ofNat (t.toNat &&& 0xFF) = t := by
  rw [Nat.and_two_pow_sub_one_eq_mod t.toNat 8, Nat.mod_eq_of_lt t.toNat_lt]
  simp

lemma length_frameHead (t : ℕ) (p : List UInt8) : (frameHead t p).length = 4 + p.length := by
  simp [frameHead]
  omega

lemma lenField_frameHead (t : ℕ) {p : List UInt8} (m : List UInt8)
    (hp : p.length ≤ SERIAL_MAX_PAYLOAD) : lenField (frameHead t p ++ m) 0 = p.length := by
  have hlt : p.length < 256 ^ 2 := lt_of_le_of_lt hp (by decide)
  rw [← le16_packLE hlt]
  rfl

lemma slice_frameHead (t : ℕ) (p m : List UInt8) :
    slice (frameHead t p ++ m) 4 (4 + p.length) = p := by
  rw [slice_append_left m (by rw [length_frameHead])]
  simp [slice, frameHead, packLE]

lemma crcCalc_frameHead (t : ℕ) {p : List UInt8} (m : List UInt8)
    (hp : p.length ≤ SERIAL_MAX_PAYLOAD) :
    crcCalc (frameHead t p ++ m) = crc16CcittFalse (frameHead t p) 1 (frameHead t p).length := by
  have h4 : 4 + p.length = 1 + (3 + p.length) := by omega
  rw [crcCalc, lenField_frameHead t m hp, length_frameHead, h4]
  exact crc16_append_left _ (by rw [length_frameHead]; omega)

lemma crcField_frameHead (t : ℕ) {p : List UInt8} (lo hi : UInt8) (m : List UInt8)
    (hp : p.length ≤ SERIAL_MAX_PAYLOAD) :
    crcField (frameHead t p ++ lo :: hi :: m) = le16 lo hi := by
  have h4 : 4 + p.length = (frameHead t p).length + 0 := by rw [length_frameHead]; rfl
  have h5 : 5 + p.length = (frameHead t p).length + 1 := by rw [length_frameHead]; omega
  rw [crcField, lenField_frameHead t _ hp, h4, h5, byteAt_append_right, byteAt_append_right]
  rfl

/-- An encoding is the head and the CRC of the head. -/
lemma encodeFrame_eq_ok {t : ℕ} {p w : List UInt8} :
    encodeFrame t p = .ok w ↔ p.length ≤ SERIAL_MAX_PAYLOAD ∧
      w = frameHead t p ++ packLE 2 (crc16CcittFalse (frameHead t p) 1 (frameHead t p).length) := by
  unfold encodeFrame
  split_ifs with h
  · simp [not_le.mpr h]
  · simp [not_lt.mp h, eq_comm]

/-- The encoder accepts every payload up to the limit. -/
lemma exists_encodeFrame (t : ℕ) {p : List UInt8} (hp : p.length ≤ SERIAL_MAX_PAYLOAD) :
    ∃ w, encodeFrame t p = .ok w := ⟨_, encodeFrame_eq_ok.mpr ⟨hp, rfl⟩⟩

/-- **The de-framer accepts an encoded frame**, whatever follows it. -/
lemma frameLook_encode {t : ℕ} {p w : List UInt8} (h : encodeFrame t p = .ok w)
    (m : List UInt8) : frameLook (w ++ m) = .take (UInt8.ofNat (t &&& 0xFF), p) w.length := by
  obtain ⟨hp, rfl⟩ := encodeFrame_eq_ok.mp h
  set crc := crc16CcittFalse (frameHead t p) 1 (frameHead t p).length with hcrc
  obtain ⟨lo, hi, hbytes⟩ := List.length_eq_two.mp (length_packLE 2 crc)
  have hvalue : le16 lo hi = crc := by
    have hread := le16_packLE (crc16_lt (frameHead t p) 1 (frameHead t p).length)
    rwa [← hcrc, hbytes] at hread
  rw [hbytes, List.append_assoc]
  have hl := lenField_frameHead t ([lo, hi] ++ m) hp
  have hlen : (frameHead t p ++ ([lo, hi] ++ m)).length = 4 + p.length + (2 + m.length) := by
    simp only [List.length_append, length_frameHead, List.length_cons, List.length_nil]
  have hvalid : crcCalc (frameHead t p ++ ([lo, hi] ++ m)) =
      crcField (frameHead t p ++ ([lo, hi] ++ m)) :=
    (crcCalc_frameHead t _ hp).trans (hvalue.symm.trans (crcField_frameHead t lo hi m hp).symm)
  rw [frameLook_frame (byteAt_frameHead_zero t p _) (by omega) (by rw [hl]; exact hp)
    (by rw [hl, hlen]; simp only [SERIAL_OVERHEAD]; omega) hvalid, hl, byteAt_frameHead_one,
    slice_frameHead]
  congr 1
  simp only [List.length_append, length_frameHead, List.length_cons, List.length_nil,
    SERIAL_OVERHEAD]
  omega

/-- Bytes as many as their LEN field announces are a head and two more bytes. -/
lemma exists_frameHead {w : List UInt8} (hm : byteAt w 0 = MAGIC)
    (hlen : w.length = lenField w 0 + SERIAL_OVERHEAD) :
    ∃ lo hi, w = frameHead (byteAt w 1).toNat (slice w 4 (4 + lenField w 0)) ++ [lo, hi] := by
  rcases w with _ | ⟨b0, _ | ⟨b1, _ | ⟨b2, _ | ⟨b3, body⟩⟩⟩⟩
  case cons.cons.cons.cons =>
    set n := lenField (b0 :: b1 :: b2 :: b3 :: body) 0 with hn
    have hbody : body.length = n + 2 := by
      simp only [List.length_cons, SERIAL_OVERHEAD] at hlen
      omega
    have hrest : (body.drop n).length = 2 := by rw [List.length_drop, hbody]; omega
    obtain ⟨lo, hi, hcrc⟩ := List.length_eq_two.mp hrest
    refine ⟨lo, hi, ?_⟩
    have hslice : slice (b0 :: b1 :: b2 :: b3 :: body) 4 (4 + n) = body.take n := by
      simp [slice]
    have hfield : packLE 2 (body.take n).length = [b2, b3] := by
      rw [List.length_take, hbody, min_eq_left (by omega), ← packLE_le16 b2 b3]
      rfl
    have hb0 : b0 = MAGIC := hm
    rw [hslice, frameHead, hfield, hb0, ← hcrc]
    show _ = MAGIC :: UInt8.ofNat (b1.toNat &&& 0xFF) :: _
    rw [typeByte_toNat]
    simp
  all_goals simp [SERIAL_OVERHEAD] at hlen

/-- **What the de-framer accepts is an encoded frame.** -/
lemma encode_of_take {f : Frame} {w m : List UInt8}
    (h : frameLook (w ++ m) = .take f w.length) : encodeFrame f.1.toNat f.2 = .ok w := by
  obtain ⟨hm, hmax, htot, hcrc, rfl, hn⟩ := frameLook_take h
  have hn' := hn
  simp only [SERIAL_OVERHEAD] at hn'
  have hw4 : 4 ≤ w.length := by omega
  have hl := lenField_append m hw4
  rw [hl] at hmax hn
  rw [crcCalc_append m hw4 hn.ge, crcField_append m hw4 hn.ge] at hcrc
  rw [byteAt_append_left m (by omega)] at hm
  rw [hl, byteAt_append_left m (by omega), slice_append_left m (by omega)]
  obtain ⟨lo, hi, hw⟩ := exists_frameHead hm hn
  generalize hp : slice w 4 (4 + lenField w 0) = p at hw ⊢
  generalize (byteAt w 1).toNat = t at hw ⊢
  have hplen : p.length = lenField w 0 := by
    have := congrArg List.length hw
    simp only [List.length_append, length_frameHead, List.length_cons, List.length_nil] at this
    omega
  have hpmax : p.length ≤ SERIAL_MAX_PAYLOAD := hplen.trans_le hmax
  rw [hw, crcCalc_frameHead t [lo, hi] hpmax, crcField_frameHead t lo hi [] hpmax] at hcrc
  refine encodeFrame_eq_ok.mpr ⟨hpmax, ?_⟩
  rw [hcrc, packLE_le16]
  exact hw

/-- **The encoder is injective** on types of one byte and payloads up to the limit. -/
lemma encodeFrame_inj {f f' : Frame} {w : List UInt8} (h : encodeFrame f.1.toNat f.2 = .ok w)
    (h' : encodeFrame f'.1.toNat f'.2 = .ok w) : f = f' := by
  have h1 := frameLook_encode h []
  rw [frameLook_encode h' [], typeByte_toNat, typeByte_toNat] at h1
  simpa using h1.symm

/-! ### Descriptions of a stream -/

/-- The MAGIC byte at the head of `l` starts no frame, and the bytes of `l` show it: the
LEN field is there and impossible, or the whole frame is there and its CRC is wrong. -/
def Refuted (l : List UInt8) : Prop :=
  4 ≤ l.length ∧
    (SERIAL_MAX_PAYLOAD < lenField l 0 ∨
      (lenField l 0 + SERIAL_OVERHEAD ≤ l.length ∧ crcCalc l ≠ crcField l))

/-- Nothing is there, or a MAGIC byte with too few bytes after it to decide. -/
def Undecided (l : List UInt8) : Prop :=
  l = [] ∨ byteAt l 0 = MAGIC ∧
    (l.length < 4 ∨
      (lenField l 0 ≤ SERIAL_MAX_PAYLOAD ∧ l.length < lenField l 0 + SERIAL_OVERHEAD))

/-- Every MAGIC byte of the gap `g` is refuted by the stream, of which `after` is the part
after the gap. -/
def GapRefuted (g after : List UInt8) : Prop :=
  ∀ u v, g = u ++ MAGIC :: v → Refuted (MAGIC :: (v ++ after))

/-- `Deframes s blocks last rest`: the stream `s` is `g₀ ++ w₁ ++ g₁ ++ … ++ wₖ ++ gₖ ++ r`
with `blocks = [(g₀, f₁), …, (gₖ₋₁, fₖ)]`, `last = gₖ` and `rest = r`, where `wᵢ` is the
encoding of `fᵢ`, every MAGIC byte of a gap is refuted by `s`, and `r` is undecided. -/
inductive Deframes : List UInt8 → List (List UInt8 × Frame) → List UInt8 → List UInt8 → Prop where
  | last {g r : List UInt8} (hg : GapRefuted g r) (hr : Undecided r) : Deframes (g ++ r) [] g r
  | block {g w s last r : List UInt8} {f : Frame} {blocks : List (List UInt8 × Frame)}
      (hw : encodeFrame f.1.toNat f.2 = .ok w) (hg : GapRefuted g (w ++ s))
      (hs : Deframes s blocks last r) : Deframes (g ++ (w ++ s)) ((g, f) :: blocks) last r

lemma gapRefuted_nil (after : List UInt8) : GapRefuted [] after := by
  intro u v h
  simp at h

lemma gapRefuted_of_not_mem {g : List UInt8} (h : MAGIC ∉ g) (after : List UInt8) :
    GapRefuted g after := by
  rintro u v rfl
  simp at h

lemma gapRefuted_cons {b : UInt8} {g after : List UInt8} :
    GapRefuted (b :: g) after ↔
      (b = MAGIC → Refuted (b :: (g ++ after))) ∧ GapRefuted g after := by
  constructor
  · intro h
    refine ⟨fun hb => ?_, fun u v huv => h (b :: u) v (by rw [huv]; rfl)⟩
    subst hb
    exact h [] g rfl
  · rintro ⟨hb, hg⟩ u v huv
    cases u with
    | nil =>
      obtain ⟨rfl, rfl⟩ := List.cons.inj huv
      exact hb rfl
    | cons c u =>
      obtain ⟨rfl, rfl⟩ := List.cons.inj huv
      exact hg u v rfl

/-! ### The de-framer's verdicts are these conditions -/

lemma frameLook_wait_iff {l : List UInt8} : frameLook l = .wait ↔ Undecided l := by
  by_cases hnil : l = []
  · simp [hnil, Undecided, frameLook]
  by_cases hm : byteAt l 0 = MAGIC
  swap
  · simp [frameLook, Undecided, hnil, hm]
  by_cases h4 : l.length < 4
  · simp [Undecided, frameLook_short (fun _ => hm) h4, hm, h4]
  rw [frameLook_header hm (not_lt.mp h4)]
  constructor
  · intro h
    split_ifs at h with h1 h2 h3
    exact Or.inr ⟨hm, Or.inr ⟨not_lt.mp h1, h2⟩⟩
  · rintro (h | ⟨-, h | ⟨h1, h2⟩⟩)
    · exact absurd h hnil
    · exact absurd h h4
    · rw [if_neg (not_lt.mpr h1), if_pos h2]

lemma frameLook_drop_iff {b : UInt8} {l : List UInt8} {fault : Bool} :
    frameLook (b :: l) = .drop fault ↔
      (b ≠ MAGIC ∧ fault = false) ∨ (b = MAGIC ∧ fault = true ∧ Refuted (b :: l)) := by
  by_cases hb : b = MAGIC
  swap
  · simp [frameLook_garbage hb, hb, eq_comm]
  have hm : byteAt (b :: l) 0 = MAGIC := hb
  by_cases h4 : (b :: l).length < 4
  · rw [frameLook_short (fun _ => hm) h4]
    simp [hb, Refuted] at h4 ⊢
    omega
  rw [frameLook_header hm (not_lt.mp h4)]
  constructor
  · intro h
    refine Or.inr ⟨hb, ?_⟩
    split_ifs at h with h1 h2 h3
    · exact ⟨by simpa using h.symm, not_lt.mp h4, Or.inl h1⟩
    · exact ⟨by simpa using h.symm, not_lt.mp h4, Or.inr ⟨not_lt.mp h2, h3⟩⟩
  · rintro (⟨hne, -⟩ | ⟨-, rfl, -, h1 | ⟨h2, h3⟩⟩)
    · exact absurd hb hne
    · rw [if_pos h1]
    · split_ifs with h1
      · rfl
      · exact absurd h2 (not_le.mpr (by assumption))
      · rfl

/-! ### Descriptions and scans -/

/-- The gaps and frames of some pieces: each frame with the gap before it, and the last
gap. -/
def regroup : List (Piece UInt8 Frame) → List (List UInt8 × Frame) × List UInt8
  | [] => ([], [])
  | .junk b _ :: ps =>
    match regroup ps with
    | ([], last) => ([], b :: last)
    | ((g, f) :: blocks, last) => ((b :: g, f) :: blocks, last)
  | .frame f _ :: ps => (([], f) :: (regroup ps).1, (regroup ps).2)

/-- The bytes of all gaps, in order. -/
def gapBytes (blocks : List (List UInt8 × Frame)) (last : List UInt8) : List UInt8 :=
  blocks.flatMap Prod.fst ++ last

/-- A dropped byte joins the first gap. -/
lemma Deframes.junk {s r : List UInt8} {b : UInt8} {e : Bool} {ps : List (Piece UInt8 Frame)}
    (h : Deframes s (regroup ps).1 (regroup ps).2 r) (hb : b = MAGIC → Refuted (b :: s)) :
    Deframes (b :: s) (regroup (.junk b e :: ps)).1 (regroup (.junk b e :: ps)).2 r := by
  rw [regroup]
  rcases hps : regroup ps with ⟨_ | ⟨⟨g, f⟩, blocks⟩, last⟩
  · rw [hps] at h
    cases h with
    | last hg hr => exact Deframes.last (g := b :: last) (gapRefuted_cons.mpr ⟨hb, hg⟩) hr
  · rw [hps] at h
    cases h with
    | block hw hg hs => exact Deframes.block (g := b :: g) hw (gapRefuted_cons.mpr ⟨hb, hg⟩) hs

/-- A scan describes its input, and counts the MAGIC bytes in the gaps. -/
lemma deframes_of_scans {s r : List UInt8} {ps : List (Piece UInt8 Frame)}
    (h : Scans frameScanner s ps r) :
    Deframes s (regroup ps).1 (regroup ps).2 r ∧
      framesOf ps = (regroup ps).1.map Prod.snd ∧
      faultsOf ps = (gapBytes (regroup ps).1 (regroup ps).2).count MAGIC := by
  induction h with
  | wait h =>
    exact ⟨Deframes.last (gapRefuted_nil _) (frameLook_wait_iff.mp h), rfl, rfl⟩
  | @drop b l r fault ps h _ ih =>
    obtain ⟨ihd, ihf, ihc⟩ := ih
    have hb := frameLook_drop_iff.mp h
    refine ⟨ihd.junk (fun hm => ?_), ?_, ?_⟩
    · rcases hb with ⟨hne, -⟩ | ⟨-, -, href⟩
      · exact absurd hm hne
      · exact href
    · rw [framesOf_junk, ihf, regroup]
      rcases regroup ps with ⟨_ | ⟨⟨g, f⟩, blocks⟩, last⟩ <;> rfl
    · have hcount : (gapBytes (regroup (.junk b fault :: ps)).1
          (regroup (.junk b fault :: ps)).2) = b :: gapBytes (regroup ps).1 (regroup ps).2 := by
        rw [regroup]
        rcases regroup ps with ⟨_ | ⟨⟨g, f⟩, blocks⟩, last⟩ <;> rfl
      rw [faultsOf_junk, hcount, ihc]
      rcases hb with ⟨hne, rfl⟩ | ⟨rfl, rfl, -⟩
      · rw [List.count_cons_of_ne hne]
        rfl
      · rw [List.count_cons_self]
        rfl
  | @take w l r f ps h _ ih =>
    obtain ⟨ihd, ihf, ihc⟩ := ih
    refine ⟨?_, ?_, ?_⟩
    · exact Deframes.block (g := []) (encode_of_take h) (gapRefuted_nil _) ihd
    · rw [framesOf_frame, ihf]
      rfl
    · rw [faultsOf_frame, ihc]
      rfl

/-- The bytes of a refuted gap are dropped one by one. -/
lemma scans_gap {g s r : List UInt8} {ps : List (Piece UInt8 Frame)} (hg : GapRefuted g s)
    (h : Scans frameScanner s ps r) :
    Scans frameScanner (g ++ s) (g.map (fun b => .junk b (b = MAGIC)) ++ ps) r := by
  induction g with
  | nil => simpa using h
  | cons b g ih =>
    obtain ⟨hb, hg'⟩ := gapRefuted_cons.mp hg
    refine Scans.drop (frameLook_drop_iff.mpr ?_) (ih hg')
    by_cases hm : b = MAGIC
    · exact Or.inr ⟨hm, by simp [hm], hb hm⟩
    · exact Or.inl ⟨hm, by simp [hm]⟩

lemma regroup_gap (g : List UInt8) (e : UInt8 → Bool) (ps : List (Piece UInt8 Frame)) :
    regroup (g.map (fun b => .junk b (e b)) ++ ps) =
      match regroup ps with
      | ([], last) => ([], g ++ last)
      | ((g', f) :: blocks, last) => ((g ++ g', f) :: blocks, last) := by
  induction g with
  | nil =>
    show regroup ps = _
    rcases regroup ps with ⟨_ | ⟨⟨g', f⟩, blocks⟩, last⟩ <;> rfl
  | cons b g ih =>
    rw [List.map_cons, List.cons_append, regroup, ih]
    rcases regroup ps with ⟨_ | ⟨⟨g', f⟩, blocks⟩, last⟩ <;> rfl

/-- A described stream is scanned into the pieces of its description. -/
lemma scans_of_deframes {s last r : List UInt8} {blocks : List (List UInt8 × Frame)}
    (h : Deframes s blocks last r) :
    ∃ ps, Scans frameScanner s ps r ∧ regroup ps = (blocks, last) := by
  induction h with
  | @last g r hg hr =>
    refine ⟨_, scans_gap hg (.wait (frameLook_wait_iff.mpr hr)), ?_⟩
    rw [regroup_gap, regroup]
    simp
  | @block g w s last r f blocks hw hg _ ih =>
    obtain ⟨ps, hs, hps⟩ := ih
    have hlook := frameLook_encode hw s
    rw [typeByte_toNat] at hlook
    refine ⟨_, scans_gap hg (.take (f := f) hlook hs), ?_⟩
    rw [regroup_gap, regroup, hps]
    simp

/-- A stream has only one description. -/
lemma Deframes.unique {s last r last' r' : List UInt8} {blocks blocks' : List (List UInt8 × Frame)}
    (h : Deframes s blocks last r) (h' : Deframes s blocks' last' r') :
    blocks = blocks' ∧ last = last' ∧ r = r' := by
  obtain ⟨ps, hs, hps⟩ := scans_of_deframes h
  obtain ⟨ps', hs', hps'⟩ := scans_of_deframes h'
  obtain ⟨rfl, rfl⟩ := hs.unique hs'
  obtain ⟨rfl, rfl⟩ := Prod.mk.inj (hps.symm.trans hps')
  exact ⟨rfl, rfl, rfl⟩

/-- What a parser has made of a stream is a description of it. -/
lemma exists_deframes (chunks : List (List UInt8)) :
    ∃ blocks last, Deframes chunks.flatten blocks last (FrameParser.new.pushAll chunks).2.buf ∧
      (FrameParser.new.pushAll chunks).1 = blocks.map Prod.snd ∧
      (FrameParser.new.pushAll chunks).2.crcErrors = (gapBytes blocks last).count MAGIC := by
  obtain ⟨ps, r, hs, hpush⟩ := pushAll_new chunks
  obtain ⟨hd, hframes, hfaults⟩ := deframes_of_scans hs
  rw [hpush]
  exact ⟨(regroup ps).1, (regroup ps).2, hd, hframes, hfaults⟩

/-- **The de-framer finds the only description of the stream.**  Whatever the bytes and the
chunks in which they arrive, the returned frames and the retained buffer are those of a
description of the stream, `crc_errors` counts the MAGIC bytes in its gaps, and the stream
has no other description. -/
theorem pushAll_deframes (chunks : List (List UInt8)) :
    ∃ blocks last, Deframes chunks.flatten blocks last (FrameParser.new.pushAll chunks).2.buf ∧
      (FrameParser.new.pushAll chunks).1 = blocks.map Prod.snd ∧
      (FrameParser.new.pushAll chunks).2.crcErrors = (gapBytes blocks last).count MAGIC ∧
      ∀ blocks' last' rest', Deframes chunks.flatten blocks' last' rest' →
        blocks' = blocks ∧ last' = last ∧ rest' = (FrameParser.new.pushAll chunks).2.buf := by
  obtain ⟨blocks, last, hd, hframes, herrors⟩ := exists_deframes chunks
  exact ⟨blocks, last, hd, hframes, herrors, fun _ _ _ h' => h'.unique hd⟩

/-! ### What was encoded is what is found -/

/-- Encoded frames one after the other. -/
lemma push_encoded {ts : List (ℕ × List UInt8)} {ws : List (List UInt8)}
    (h : List.Forall₂ (fun t w => encodeFrame t.1 t.2 = .ok w) ts ws) :
    (FrameParser.new.push ws.flatten).1 =
      ts.map fun t => (UInt8.ofNat (t.1 &&& 0xFF), t.2) := by
  have hscan : ∃ ps, Scans frameScanner ws.flatten ps [] ∧
      framesOf ps = ts.map fun t => (UInt8.ofNat (t.1 &&& 0xFF), t.2) := by
    induction h with
    | nil => exact ⟨[], .wait (frameLook_wait_iff.mpr (.inl rfl)), rfl⟩
    | @cons t w ts ws hw _ ih =>
      obtain ⟨ps, hs, hps⟩ := ih
      refine ⟨_, .take (frameLook_encode hw ws.flatten) hs, ?_⟩
      rw [framesOf_frame, hps]
      rfl
  obtain ⟨ps, hs, hps⟩ := hscan
  obtain ⟨qs, r, hs', hpush⟩ := push_scans FrameParser.new ws.flatten
  obtain ⟨rfl, -⟩ := hs.unique hs'
  rw [hpush, hps]

/-- The stream of some frames, each with the bytes put before it, and the bytes put after
the last. -/
def encodeStream : List (List UInt8 × Frame) → List UInt8 → Except PyErr (List UInt8)
  | [], last => .ok last
  | (g, f) :: blocks, last => do
    let w ← encodeFrame f.1.toNat f.2
    let s ← encodeStream blocks last
    return g ++ (w ++ s)

lemma deframes_encodeStream {blocks : List (List UInt8 × Frame)} {last : List UInt8}
    (hpay : ∀ x ∈ blocks, x.2.2.length ≤ SERIAL_MAX_PAYLOAD) (hgap : ∀ x ∈ blocks, MAGIC ∉ x.1)
    (hlast : MAGIC ∉ last) :
    ∃ s, encodeStream blocks last = .ok s ∧ Deframes s blocks last [] := by
  induction blocks with
  | nil =>
    refine ⟨last, rfl, ?_⟩
    simpa using Deframes.last (gapRefuted_of_not_mem hlast []) (Or.inl rfl)
  | cons x blocks ih =>
    obtain ⟨g, f⟩ := x
    obtain ⟨s, hs, hd⟩ := ih (fun y hy => hpay y (List.mem_cons_of_mem _ hy))
      (fun y hy => hgap y (List.mem_cons_of_mem _ hy))
    obtain ⟨w, hw⟩ := exists_encodeFrame f.1.toNat (hpay _ List.mem_cons_self)
    refine ⟨g ++ (w ++ s), ?_, ?_⟩
    · rw [encodeStream, hw, hs]
      rfl
    · exact .block hw (gapRefuted_of_not_mem (hgap _ List.mem_cons_self) _) hd

/-- **Stream round trip.**  Frames with any payloads up to the limit, encoded with bytes
other than MAGIC before, between and after them, come back in order however the stream is
cut into chunks, with no error and nothing retained; and two frames have different
encodings. -/
theorem stream_round_trip (blocks : List (List UInt8 × Frame)) (last : List UInt8)
    (hpay : ∀ x ∈ blocks, x.2.2.length ≤ SERIAL_MAX_PAYLOAD) (hgap : ∀ x ∈ blocks, MAGIC ∉ x.1)
    (hlast : MAGIC ∉ last) :
    (∃ s, encodeStream blocks last = .ok s ∧ ∀ chunks : List (List UInt8), chunks.flatten = s →
      FrameParser.new.pushAll chunks = (blocks.map Prod.snd, ⟨[], 0⟩)) ∧
    ∀ (f f' : Frame) (w : List UInt8), encodeFrame f.1.toNat f.2 = .ok w →
      encodeFrame f'.1.toNat f'.2 = .ok w → f = f' := by
  refine ⟨?_, fun f f' w => encodeFrame_inj⟩
  obtain ⟨s, hs, hd⟩ := deframes_encodeStream hpay hgap hlast
  refine ⟨s, hs, ?_⟩
  rintro chunks rfl
  obtain ⟨ps, r, hscan, hpush⟩ := pushAll_new chunks
  obtain ⟨qs, hscan', hqs⟩ := scans_of_deframes hd
  obtain ⟨rfl, rfl⟩ := hscan.unique hscan'
  obtain ⟨-, hframes, hfaults⟩ := deframes_of_scans hscan
  rw [hqs] at hframes hfaults
  have hcount : (gapBytes blocks last).count MAGIC = 0 := by
    rw [List.count_eq_zero, gapBytes, List.mem_append, List.mem_flatMap]
    rintro (⟨x, hx, hmem⟩ | hmem)
    · exact hgap x hx hmem
    · exact hlast hmem
  rw [hpush, hframes, hfaults, hcount]

/-- The theorem at a stream with bytes around a frame whose payload is a frame. -/
theorem stream_round_trip_nested :
    ∃ s, encodeStream [([0x11], (0x03, [0xA5, 0x85, 0, 0, 0x36, 0x1C])), ([], (0x85, []))]
        [0x22] = .ok s ∧
      ∀ chunks : List (List UInt8), chunks.flatten = s → FrameParser.new.pushAll chunks =
        ([(0x03, [0xA5, 0x85, 0, 0, 0x36, 0x1C]), (0x85, [])], ⟨[], 0⟩) :=
  (stream_round_trip [([0x11], (0x03, [0xA5, 0x85, 0, 0, 0x36, 0x1C])), ([], (0x85, []))] [0x22]
    (by decide) (by decide) (by decide)).1

end SrtGateway.Protocol
