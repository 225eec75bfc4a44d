/-
The de-framer as a resynchronising scanner.

`frameLook` states in one place what `FrameParser.push` decides about the unread bytes,
and `pushLoop_scans` shows that the loop over cursors makes exactly these decisions.  The
look-ahead is final, so the facts of `SrtGateway.Scan.Resync` apply: a parser
keeps an undecided rest, and pushing a chunk scans the rest with the chunk after it
(`push_scans`, `pushAll_scans`).

The decisions and the encoder agree in both directions: the look-ahead accepts an encoded
frame whatever follows (`frameLook_encode`), and what it accepts is an encoded frame
(`encode_of_take`).
-/
import SrtGateway.Scan.Resync
import SrtGateway.Protocol.Framing

namespace SrtGateway.Protocol

open SrtGateway.Bytes SrtGateway.Scan

/-- The CRC over TYPE | LEN | PAYLOAD of the frame that starts at the first byte. -/
def crcCalc (l : List UInt8) : ℕ := crc16CcittFalse l 1 (4 + lenField l 0)

/-- The CRC field of the frame that starts at the first byte. -/
def crcField (l : List UInt8) : ℕ :=
  le16 (byteAt l (4 + lenField l 0)) (byteAt l (5 + lenField l 0))

/-- What the de-framer decides about the unread bytes. -/
def frameLook (l : List UInt8) : Verdict Frame :=
  if l = [] then .wait
  else if byteAt l 0 ≠ MAGIC then .drop false
  else if l.length < 4 then .wait
  else if SERIAL_MAX_PAYLOAD < lenField l 0 then .drop true
  else if l.length < lenField l 0 + SERIAL_OVERHEAD then .wait
  else if crcCalc l = crcField l then
    .take (byteAt l 1, slice l 4 (4 + lenField l 0)) (lenField l 0 + SERIAL_OVERHEAD)
  else .drop true

/-! ### The decisions, case by case -/

section Cases

variable {l : List UInt8}

lemma frameLook_garbage {b : UInt8} (hb : b ≠ MAGIC) : frameLook (b :: l) = .drop false := by
  simp [frameLook, byteAt, hb]

lemma frameLook_short (hm : l ≠ [] → byteAt l 0 = MAGIC) (h4 : l.length < 4) :
    frameLook l = .wait := by
  by_cases hnil : l = []
  · simp [frameLook, hnil]
  · simp [frameLook, hnil, hm hnil, h4]

variable (hm : byteAt l 0 = MAGIC) (h4 : 4 ≤ l.length)

include hm h4

lemma frameLook_header :
    frameLook l =
      if SERIAL_MAX_PAYLOAD < lenField l 0 then .drop true
      else if l.length < lenField l 0 + SERIAL_OVERHEAD then .wait
      else if crcCalc l = crcField l then
        .take (byteAt l 1, slice l 4 (4 + lenField l 0)) (lenField l 0 + SERIAL_OVERHEAD)
      else .drop true := by
  have hnil : l ≠ [] := by
    rintro rfl
    simp at h4
  simp only [frameLook, hnil, hm, not_lt.mpr h4, if_false, ne_eq, not_true_eq_false]

variable (hmax : lenField l 0 ≤ SERIAL_MAX_PAYLOAD)

include hmax

lemma frameLook_pending (htot : l.length < lenField l 0 + SERIAL_OVERHEAD) :
    frameLook l = .wait := by
  rw [frameLook_header hm h4, if_neg (not_lt.mpr hmax), if_pos htot]

variable (htot : lenField l 0 + SERIAL_OVERHEAD ≤ l.length)

include htot

lemma frameLook_frame (hcrc : crcCalc l = crcField l) :
    frameLook l =
      .take (byteAt l 1, slice l 4 (4 + lenField l 0)) (lenField l 0 + SERIAL_OVERHEAD) := by
  rw [frameLook_header hm h4, if_neg (not_lt.mpr hmax), if_neg (not_lt.mpr htot), if_pos hcrc]

end Cases

/-- A MAGIC byte is only dropped as an error. -/
lemma frameLook_drop_magic {l : List UInt8} {fault : Bool} (hm : l ≠ [] → byteAt l 0 = MAGIC)
    (h : frameLook l = .drop fault) : fault = true := by
  have hnil : l ≠ [] := by
    rintro rfl
    simp [frameLook] at h
  by_cases h4 : l.length < 4
  · rw [frameLook_short hm h4] at h
    exact absurd h (by simp)
  · rw [frameLook_header (hm hnil) (not_lt.mp h4)] at h
    split_ifs at h
    · exact (Verdict.drop.inj h).symm
    · exact (Verdict.drop.inj h).symm

/-- What an accepted frame looks like. -/
lemma frameLook_take {l : List UInt8} {f : Frame} {n : ℕ} (h : frameLook l = .take f n) :
    byteAt l 0 = MAGIC ∧ lenField l 0 ≤ SERIAL_MAX_PAYLOAD ∧
      lenField l 0 + SERIAL_OVERHEAD ≤ l.length ∧ crcCalc l = crcField l ∧
      f = (byteAt l 1, slice l 4 (4 + lenField l 0)) ∧ n = lenField l 0 + SERIAL_OVERHEAD := by
  unfold frameLook at h
  split_ifs at h with h1 h2 h3 h4 h5 h6
  simp only [Verdict.take.injEq] at h
  exact ⟨not_not.mp h2, not_lt.mp h4, not_lt.mp h5, h6, h.1.symm, h.2.symm⟩

/-! ### The look-ahead is final -/

lemma lenField_append {l : List UInt8} (m : List UInt8) (h : 4 ≤ l.length) :
    lenField (l ++ m) 0 = lenField l 0 := by
  simp only [lenField]
  rw [byteAt_append_left m (by omega), byteAt_append_left m (by omega)]

lemma crcCalc_append {l : List UInt8} (m : List UInt8) (h : 4 ≤ l.length)
    (hl : lenField l 0 + SERIAL_OVERHEAD ≤ l.length) : crcCalc (l ++ m) = crcCalc l := by
  simp only [SERIAL_OVERHEAD] at hl
  have h4 : 4 + lenField l 0 = 1 + (3 + lenField l 0) := by omega
  rw [crcCalc, crcCalc, lenField_append m h, h4]
  exact crc16_append_left m (by omega)

lemma crcField_append {l : List UInt8} (m : List UInt8) (h : 4 ≤ l.length)
    (hl : lenField l 0 + SERIAL_OVERHEAD ≤ l.length) : crcField (l ++ m) = crcField l := by
  simp only [SERIAL_OVERHEAD] at hl
  rw [crcField, crcField, lenField_append m h, byteAt_append_left m (by omega),
    byteAt_append_left m (by omega)]

/-- Bytes that arrive later do not change a decision. -/
lemma frameLook_append {l : List UInt8} (m : List UInt8) (h : frameLook l ≠ .wait) :
    frameLook (l ++ m) = frameLook l := by
  by_cases hnil : l = []
  · exact absurd (frameLook_short (fun hne => absurd hnil hne) (by simp [hnil])) h
  have hb0 : byteAt (l ++ m) 0 = byteAt l 0 :=
    byteAt_append_left m (List.length_pos_iff.mpr hnil)
  by_cases hm : byteAt l 0 = MAGIC
  swap
  · simp [frameLook, hnil, hb0, hm]
  by_cases h4 : l.length < 4
  · exact absurd (frameLook_short (fun _ => hm) h4) h
  have h4' := not_lt.mp h4
  have h4m : 4 ≤ (l ++ m).length := by rw [List.length_append]; omega
  have hlen := lenField_append m h4'
  rw [frameLook_header (hb0.trans hm) h4m, frameLook_header hm h4', hlen]
  by_cases hmax : SERIAL_MAX_PAYLOAD < lenField l 0
  · rw [if_pos hmax, if_pos hmax]
  by_cases htot : l.length < lenField l 0 + SERIAL_OVERHEAD
  · exact absurd (frameLook_pending hm h4' (not_lt.mp hmax) htot) h
  have htot' := not_lt.mp htot
  have htotm : ¬ (l ++ m).length < lenField l 0 + SERIAL_OVERHEAD := by
    rw [List.length_append]; omega
  have hslice : slice (l ++ m) 4 (4 + lenField l 0) = slice l 4 (4 + lenField l 0) :=
    slice_append_left m (by simp only [SERIAL_OVERHEAD] at htot'; omega)
  rw [if_neg htot, if_neg htotm, crcCalc_append m h4' htot', crcField_append m h4' htot',
    byteAt_append_left m (by omega), hslice]

/-- The de-framer's decisions as a look-ahead. -/
def frameScanner : LookAhead UInt8 Frame where
  look := frameLook
  look_nil := by simp [frameLook]
  take_pos := fun h => by
    obtain ⟨-, -, -, -, -, rfl⟩ := frameLook_take h
    simp [SERIAL_OVERHEAD]
  take_le := fun h => by
    obtain ⟨-, -, hle, -, -, rfl⟩ := frameLook_take h
    exact hle
  look_append := fun m h => frameLook_append m h

@[simp] lemma frameScanner_look (l : List UInt8) : frameScanner.look l = frameLook l := rfl

/-! ### The loop makes these decisions -/

/-- The bytes skipped by the inner loop are dropped without an error. -/
lemma scans_skip {l : List UInt8} {ps : List (Piece UInt8 Frame)} {r : List UInt8}
    (h : Scans frameScanner (l.dropWhile (· ≠ MAGIC)) ps r) :
    Scans frameScanner l ((l.takeWhile (· ≠ MAGIC)).map (Piece.junk · false) ++ ps) r := by
  induction l with
  | nil => simpa using h
  | cons b l ih =>
    by_cases hb : b = MAGIC
    · simpa [hb] using h
    · rw [List.dropWhile_cons_of_pos (by simpa using hb)] at h
      rw [List.takeWhile_cons_of_pos (by simpa using hb)]
      exact Scans.drop (frameLook_garbage hb) (ih h)

lemma framesOf_skip (l : List UInt8) :
    framesOf (l.map (Piece.junk (F := Frame) · false)) = [] := by
  induction l with
  | nil => rfl
  | cons b l ih => simp [ih]

lemma faultsOf_skip (l : List UInt8) :
    faultsOf (l.map (Piece.junk (F := Frame) · false)) = 0 := by
  induction l with
  | nil => rfl
  | cons b l ih => simp [ih]

lemma drop_resync (buf : List UInt8) (c : ℕ) :
    buf.drop (resync buf c) = (buf.drop c).dropWhile (· ≠ MAGIC) := by
  rw [resync, ← List.drop_drop]
  conv_lhs => rw [← List.takeWhile_append_dropWhile (p := (· ≠ MAGIC)) (l := buf.drop c)]
  rw [List.takeWhile_append_dropWhile]
  conv_lhs =>
    arg 2
    rw [← List.takeWhile_append_dropWhile (p := (· ≠ MAGIC)) (l := buf.drop c)]
  exact List.drop_left

lemma resync_le {buf : List UInt8} {c : ℕ} (h : c ≤ buf.length) : resync buf c ≤ buf.length := by
  have := (List.takeWhile_prefix (p := (· ≠ MAGIC)) (l := buf.drop c)).length_le
  rw [List.length_drop] at this
  rw [resync]
  omega

lemma le_resync (buf : List UInt8) (c : ℕ) : c ≤ resync buf c := Nat.le_add_right _ _

/-- After the inner loop the cursor is at a MAGIC byte or at the end. -/
lemma byteAt_resync {buf : List UInt8} {c : ℕ} (h : buf.drop (resync buf c) ≠ []) :
    byteAt (buf.drop (resync buf c)) 0 = MAGIC := by
  rw [drop_resync] at h ⊢
  have := List.head_dropWhile_not (p := (· ≠ MAGIC)) (l := buf.drop c) h
  cases hl : (buf.drop c).dropWhile (· ≠ MAGIC) with
  | nil => exact absurd hl h
  | cons b l =>
    simp only [hl, List.head_cons] at this
    simpa [byteAt] using this

lemma lenField_drop (buf : List UInt8) (c : ℕ) : lenField (buf.drop c) 0 = lenField buf c := by
  simp [lenField, byteAt_drop]

lemma crcCalc_drop (buf : List UInt8) (c : ℕ) :
    crcCalc (buf.drop c) = crc16CcittFalse buf (c + 1) (c + 4 + lenField buf c) := by
  have h := crc16_drop buf c 1 (3 + lenField buf c)
  rw [crcCalc, lenField_drop, show 4 + lenField buf c = 1 + (3 + lenField buf c) by omega, h]
  congr 1
  omega

lemma crcField_drop (buf : List UInt8) (c : ℕ) :
    crcField (buf.drop c) =
      le16 (byteAt buf (c + 4 + lenField buf c)) (byteAt buf (c + 5 + lenField buf c)) := by
  simp only [crcField, lenField_drop, byteAt_drop, ← Nat.add_assoc]

/-- One round of the loop follows the verdict on the bytes from where the inner loop
stops. -/
lemma pushLoop_round (buf : List UInt8) (fuel c₀ errs : ℕ) (frames : List Frame)
    (hc : c₀ ≤ buf.length) :
    pushLoop buf (fuel + 1) c₀ errs frames =
      match frameLook (buf.drop (resync buf c₀)) with
      | .wait => (resync buf c₀, errs, frames)
      | .drop _ => pushLoop buf fuel (resync buf c₀ + 1) (errs + 1) frames
      | .take f n => pushLoop buf fuel (resync buf c₀ + n) errs (frames ++ [f]) := by
  have hle := resync_le hc
  have hmagic := @byteAt_resync buf c₀
  rw [pushLoop]
  generalize resync buf c₀ = c at hle hmagic
  have hlen : (buf.drop c).length = buf.length - c := List.length_drop
  by_cases h4 : buf.length - c < 4
  · rw [frameLook_short hmagic (by rwa [hlen])]
    simp only [h4, if_true]
  have hnil : buf.drop c ≠ [] := by
    intro h
    rw [h] at hlen
    simp only [List.length_nil] at hlen
    omega
  rw [frameLook_header (hmagic hnil) (by rw [hlen]; exact not_lt.mp h4), hlen, crcCalc_drop,
    crcField_drop, lenField_drop, byteAt_drop, slice_drop, ← Nat.add_assoc]
  simp only [h4, if_false]
  split_ifs <;> rfl

/-- **The loop of `push` scans.**  From any cursor, with fuel for the unread bytes, it
returns the frames and the errors of the pieces that the unread bytes are cut into, and
leaves the cursor at the undecided rest. -/
lemma pushLoop_scans (buf : List UInt8) : ∀ (fuel c errs : ℕ) (frames : List Frame),
    c ≤ buf.length → buf.length - c < fuel →
    ∃ ps r, Scans frameScanner (buf.drop c) ps r ∧
      pushLoop buf fuel c errs frames =
        (buf.length - r.length, errs + faultsOf ps, frames ++ framesOf ps) := by
  intro fuel
  induction fuel with
  | zero => intro c errs frames _ hf; omega
  | succ fuel ih =>
    intro c₀ errs frames hc hf
    have hle := resync_le hc
    have hge := le_resync buf c₀
    have hmagic := @byteAt_resync buf c₀
    -- it is enough to scan from the byte at which the inner loop stops
    suffices H : ∃ ps r, Scans frameScanner (buf.drop (resync buf c₀)) ps r ∧
        pushLoop buf (fuel + 1) c₀ errs frames =
          (buf.length - r.length, errs + faultsOf ps, frames ++ framesOf ps) by
      obtain ⟨ps, r, hs, hrun⟩ := H
      rw [drop_resync] at hs
      refine ⟨_, r, scans_skip hs, ?_⟩
      rw [hrun, faultsOf_append, framesOf_append, faultsOf_skip, framesOf_skip]
      simp
    rw [pushLoop_round buf fuel c₀ errs frames hc]
    generalize resync buf c₀ = c at hle hge hmagic
    have hlen : (buf.drop c).length = buf.length - c := List.length_drop
    cases hlook : frameLook (buf.drop c) with
    | wait =>
      refine ⟨[], buf.drop c, .wait hlook, ?_⟩
      rw [hlen, Nat.sub_sub_self hle]
      simp
    | drop fault =>
      have hlt : c < buf.length := by
        by_contra h
        rw [List.drop_eq_nil_of_le (not_lt.mp h)] at hlook
        simp [frameLook] at hlook
      -- the inner loop stops at a MAGIC byte, so what is dropped here is an error
      obtain rfl := frameLook_drop_magic hmagic hlook
      obtain ⟨ps, r, hs, hrun⟩ := ih (c + 1) (errs + 1) frames (by omega) (by omega)
      refine ⟨.junk buf[c] true :: ps, r, ?_, ?_⟩
      · rw [List.drop_eq_getElem_cons hlt] at hlook ⊢
        exact .drop hlook hs
      · simp only [hrun, faultsOf_junk, framesOf_junk, Bool.toNat_true]
        rw [Nat.add_assoc, Nat.add_comm 1]
    | take f n =>
      have hn := frameScanner.take_le (l := buf.drop c) hlook
      have hpos := frameScanner.take_pos (l := buf.drop c) hlook
      rw [hlen] at hn
      obtain ⟨ps, r, hs, hrun⟩ := ih (c + n) errs (frames ++ [f]) (by omega) (by omega)
      refine ⟨.frame f ((buf.drop c).take n) :: ps, r, ?_, ?_⟩
      · refine Scans.take_first hlook ?_
        rwa [List.drop_drop]
      · simp only [hrun, faultsOf_frame, framesOf_frame, List.append_assoc,
          List.singleton_append]

/-! ### Pushing chunks -/

/-- **A push scans what was kept and the chunk after it**, and keeps the undecided rest. -/
theorem push_scans (p : FrameParser) (chunk : List UInt8) :
    ∃ ps r, Scans frameScanner (p.buf ++ chunk) ps r ∧
      p.push chunk = (framesOf ps, ⟨r, p.crcErrors + faultsOf ps⟩) := by
  obtain ⟨ps, r, hs, hrun⟩ :=
    pushLoop_scans (p.buf ++ chunk) ((p.buf ++ chunk).length + 1) 0 p.crcErrors [] (by omega)
      (by omega)
  rw [List.drop_zero] at hs
  refine ⟨ps, r, hs, ?_⟩
  have hbuf := hs.tokens_eq
  have hlen := congrArg List.length hbuf
  simp only [FrameParser.push]
  rw [hrun]
  simp only [List.nil_append]
  congr 2
  split
  · rw [hbuf]
    simp
  · rename_i h
    have : r.length = 0 := by
      rw [@List.length_append _ (tokensOf ps)] at hlen
      omega
    exact (List.length_eq_zero_iff.mp this).symm

/-- A parser that keeps an undecided rest. -/
def FrameParser.Settled (p : FrameParser) : Prop := frameLook p.buf = .wait

lemma new_settled : FrameParser.new.Settled := by
  simp [FrameParser.Settled, FrameParser.new, frameLook]

lemma push_settled (p : FrameParser) (chunk : List UInt8) : (p.push chunk).2.Settled := by
  obtain ⟨ps, r, hs, hp⟩ := push_scans p chunk
  rw [hp]
  exact hs.rest_wait

/-- **Pushing chunks one after the other scans their concatenation.** -/
theorem pushAll_scans {p : FrameParser} (hp : p.Settled) (chunks : List (List UInt8)) :
    ∃ ps r, Scans frameScanner (p.buf ++ chunks.flatten) ps r ∧
      p.pushAll chunks = (framesOf ps, ⟨r, p.crcErrors + faultsOf ps⟩) := by
  induction chunks generalizing p with
  | nil =>
    refine ⟨[], p.buf, ?_, ?_⟩
    · simpa using Scans.wait (L := frameScanner) hp
    · simp [FrameParser.pushAll]
  | cons chunk chunks ih =>
    obtain ⟨ps, r, hs, hpush⟩ := push_scans p chunk
    obtain ⟨qs, r', hs', hrest⟩ := ih (p := (p.push chunk).2) (push_settled p chunk)
    rw [hpush] at hs' hrest
    refine ⟨ps ++ qs, r', ?_, ?_⟩
    · rw [List.flatten_cons, ← List.append_assoc]
      exact hs.append hs'
    · rw [FrameParser.pushAll, hpush]
      simp only [hrest, framesOf_append, faultsOf_append, Nat.add_assoc]

/-- A new parser scans the whole stream. -/
lemma pushAll_new (chunks : List (List UInt8)) :
    ∃ ps r, Scans frameScanner chunks.flatten ps r ∧
      FrameParser.new.pushAll chunks = (framesOf ps, ⟨r, faultsOf ps⟩) := by
  obtain ⟨ps, r, hs, hpush⟩ := pushAll_scans new_settled chunks
  have hcount : FrameParser.new.crcErrors + faultsOf ps = faultsOf ps := Nat.zero_add _
  rw [hcount] at hpush
  exact ⟨ps, r, hs, hpush⟩

end SrtGateway.Protocol
