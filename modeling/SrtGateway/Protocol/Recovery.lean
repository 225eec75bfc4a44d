/-
How long a parser can put off a decision.

An undecided rest is shorter than the longest frame, whatever garbage, false headers and
corrupted frames came before it.  So a frame in the stream is returned at the latest when the
bytes of a longest frame have arrived from its start, unless it lies across a frame that is
returned before it (`push_recovers`).
-/
import SrtGateway.Scan.Leftmost
import SrtGateway.Protocol.Stream

namespace SrtGateway.Protocol

open SrtGateway.Bytes SrtGateway.Scan

/-! ### Where frames start -/

/-- Where the frames of a description start, if the description starts at `offset`. -/
def frameStarts (offset : ℕ) : List (List UInt8 × Frame) → List (ℕ × Frame)
  | [] => []
  | (g, f) :: blocks =>
    (offset + g.length, f) ::
      frameStarts (offset + g.length + (f.2.length + SERIAL_OVERHEAD)) blocks

/-- A complete frame with a valid CRC starts at position `p` of the stream. -/
def FrameAt (s : List UInt8) (p : ℕ) (f : Frame) : Prop :=
  ∃ w after, encodeFrame f.1.toNat f.2 = .ok w ∧ s.drop p = w ++ after

lemma length_encodeFrame {t : ℕ} {p w : List UInt8} (h : encodeFrame t p = .ok w) :
    w.length = p.length + SERIAL_OVERHEAD := by
  obtain ⟨-, rfl⟩ := encodeFrame_eq_ok.mp h
  rw [List.length_append, length_frameHead, length_packLE, SERIAL_OVERHEAD]
  omega

lemma FrameAt.look {s : List UInt8} {p : ℕ} {f : Frame} (h : FrameAt s p f) :
    frameLook (s.drop p) = .take f (f.2.length + SERIAL_OVERHEAD) := by
  obtain ⟨w, after, hw, hs⟩ := h
  rw [hs, frameLook_encode hw, typeByte_toNat, length_encodeFrame hw]

/-- The parser accepts the complete frames with a valid CRC, and nothing else. -/
lemma frameAt_iff {s : List UInt8} {p : ℕ} {f : Frame} :
    FrameAt s p f ↔ ∃ n, frameLook (s.drop p) = .take f n := by
  refine ⟨fun h => ⟨_, h.look⟩, ?_⟩
  rintro ⟨n, hlook⟩
  have hlen : ((s.drop p).take n).length = n := by
    rw [List.length_take]
    exact min_eq_left (frameScanner.take_le hlook)
  refine ⟨(s.drop p).take n, (s.drop p).drop n, encode_of_take (m := (s.drop p).drop n) ?_, ?_⟩
  · rw [List.take_append_drop, hlen, hlook]
  · rw [List.take_append_drop]

/-- The frames of a description stand where the scan finds them. -/
lemma frameStarts_regroup {s r : List UInt8} {ps : List (Piece UInt8 Frame)}
    (h : Scans frameScanner s ps r) (offset : ℕ) :
    frameStarts offset (regroup ps).1 = placed offset ps := by
  induction h generalizing offset with
  | wait _ => rfl
  | drop _ _ ih =>
    rw [placed, ← ih, regroup]
    rcases regroup _ with ⟨_ | ⟨⟨g, f⟩, blocks⟩, last⟩
    · rfl
    · simp only [frameStarts, List.length_cons]
      rw [Nat.add_right_comm offset 1, ← Nat.add_assoc offset]
  | take ht _ ih => rw [placed, ← ih, length_encodeFrame (encode_of_take ht)]; rfl

/-- **Where a frame is found**: where it starts outside the frames found before it, and nothing
before it is undecided. -/
lemma Deframes.mem_frameStarts_iff {s last r : List UInt8} {blocks : List (List UInt8 × Frame)}
    (h : Deframes s blocks last r) {p : ℕ} {f : Frame} :
    (p, f) ∈ frameStarts 0 blocks ↔ Outside (frameScanner.TakesAt s) p ∧ FrameAt s p f ∧
      ∀ q < p, Outside (frameScanner.TakesAt s) q → ¬ Undecided (s.drop q) := by
  obtain ⟨ps, hs, hps⟩ := scans_of_deframes h
  have hstarts := frameStarts_regroup hs 0
  rw [hps] at hstarts
  rw [hstarts, hs.mem_placed_iff, frameAt_iff]
  simp only [← frameLook_wait_iff, frameScanner_look]

/-! ### The rest is short -/

lemma Undecided.length_le {l : List UInt8} (h : Undecided l) : l.length ≤ 2053 := by
  obtain rfl | ⟨-, hshort | ⟨hmax, hpending⟩⟩ := h
  · exact Nat.zero_le _
  · omega
  · simp only [SERIAL_MAX_PAYLOAD, SERIAL_OVERHEAD] at hmax hpending
    omega

lemma Deframes.rest_undecided {s last r : List UInt8} {blocks : List (List UInt8 × Frame)}
    (h : Deframes s blocks last r) : Undecided r := by
  induction h with
  | last _ hr => exact hr
  | block _ _ _ ih => exact ih

/-- A frame far enough from the end is one of the frames of the description, or lies across
one that starts before it. -/
lemma Deframes.recovers {s last r : List UInt8} {blocks : List (List UInt8 × Frame)}
    (h : Deframes s blocks last r) {p : ℕ} {f : Frame} (hf : FrameAt s p f)
    (hp : p + 2054 ≤ s.length) :
    (p, f) ∈ frameStarts 0 blocks ∨
      ∃ q f', (q, f') ∈ frameStarts 0 blocks ∧ q < p ∧
        p < q + (f'.2.length + SERIAL_OVERHEAD) := by
  -- what follows a position up to `p` is too long to be undecided
  have hdecided : ∀ q ≤ p, ¬ Undecided (s.drop q) := by
    intro q hq hrest
    have hshort := hrest.length_le
    rw [List.length_drop] at hshort
    omega
  rcases outside_or_inside (fun q n => LookAhead.TakesAt.pos (L := frameScanner) (l := s)) p with
    hout | ⟨q, n, hout, ⟨f', hlook⟩, hqp, hpn⟩
  · exact .inl (h.mem_frameStarts_iff.mpr ⟨hout, hf, fun q hq _ => hdecided q hq.le⟩)
  · have hf' : FrameAt s q f' := frameAt_iff.mpr ⟨n, hlook⟩
    obtain ⟨-, rfl⟩ := Verdict.take.inj (hlook.symm.trans hf'.look)
    refine .inr ⟨q, f', h.mem_frameStarts_iff.mpr ⟨hout, hf', fun q' hq' _ => ?_⟩, hqp, hpn⟩
    exact hdecided q' (hq'.trans hqp).le

/-! ### Every push -/

/-- The loop of `push` leaves by itself: more fuel than there are unread bytes changes
nothing. -/
lemma pushLoop_fuel (buf : List UInt8) {fuel fuel' c : ℕ} (errs : ℕ) (frames : List Frame)
    (hc : c ≤ buf.length) (hfuel : buf.length - c < fuel) (hfuel' : buf.length - c < fuel') :
    pushLoop buf fuel c errs frames = pushLoop buf fuel' c errs frames := by
  obtain ⟨ps, r, hs, hrun⟩ := pushLoop_scans buf fuel c errs frames hc hfuel
  obtain ⟨ps', r', hs', hrun'⟩ := pushLoop_scans buf fuel' c errs frames hc hfuel'
  obtain ⟨rfl, rfl⟩ := hs.unique hs'
  rw [hrun, hrun']

/-- Whatever chunks have been pushed: the next push terminates, fewer bytes are retained than
the longest frame has, and every complete frame with a valid CRC that starts 2054 bytes or
more before the end has been returned, unless a returned frame starts before it and overlaps
it. -/
theorem push_recovers (chunks : List (List UInt8)) :
    (∀ chunk fuel, ((FrameParser.new.pushAll chunks).2.buf ++ chunk).length < fuel →
      pushLoop ((FrameParser.new.pushAll chunks).2.buf ++ chunk) fuel 0
          (FrameParser.new.pushAll chunks).2.crcErrors [] =
        pushLoop ((FrameParser.new.pushAll chunks).2.buf ++ chunk)
          (((FrameParser.new.pushAll chunks).2.buf ++ chunk).length + 1) 0
          (FrameParser.new.pushAll chunks).2.crcErrors []) ∧
    (FrameParser.new.pushAll chunks).2.buf.length ≤ 2053 ∧
    ∃ blocks last, Deframes chunks.flatten blocks last (FrameParser.new.pushAll chunks).2.buf ∧
      (FrameParser.new.pushAll chunks).1 = blocks.map Prod.snd ∧
      ∀ p f, FrameAt chunks.flatten p f → p + 2054 ≤ chunks.flatten.length →
        (p, f) ∈ frameStarts 0 blocks ∨
          ∃ q f', (q, f') ∈ frameStarts 0 blocks ∧ q < p ∧
            p < q + (f'.2.length + SERIAL_OVERHEAD) := by
  obtain ⟨blocks, last, hd, hframes, -⟩ := exists_deframes chunks
  refine ⟨fun chunk fuel hfuel => ?_, hd.rest_undecided.length_le, blocks, last, hd, hframes, ?_⟩
  · exact pushLoop_fuel _ _ _ (Nat.zero_le _) (by omega) (by omega)
  · exact fun p f hf hp => hd.recovers hf hp

/-- A frame without payload, and as many bytes after it as a longest payload has. -/
def pingThenZeros : List (List UInt8) := [[0xA5, 0x85, 0, 0, 54, 28], List.replicate 2048 0]

/-- The theorem at this stream: the frame has been returned. -/
theorem push_recovers_first :
    ∃ blocks, (FrameParser.new.pushAll pingThenZeros).1 = blocks.map Prod.snd ∧
      (0, (0x85, [])) ∈ frameStarts 0 blocks := by
  have hflat : pingThenZeros.flatten = [0xA5, 0x85, 0, 0, 54, 28] ++ List.replicate 2048 0 := by
    rw [pingThenZeros, List.flatten_cons, List.flatten_cons, List.flatten_nil, List.append_nil]
  have hping : encodeFrame 0x85 [] = .ok [0xA5, 0x85, 0, 0, 54, 28] := by decide +kernel
  have hlen : 0 + 2054 ≤ pingThenZeros.flatten.length := by
    rw [hflat, List.length_append, List.length_replicate]
    decide
  obtain ⟨blocks, last, -, hframes, hrec⟩ := (push_recovers pingThenZeros).2.2
  refine ⟨blocks, hframes, ?_⟩
  obtain hmem | ⟨q, f', -, hbefore, -⟩ := hrec 0 (0x85, []) ⟨_, _, hping, hflat⟩ hlen
  · exact hmem
  · exact absurd hbefore (Nat.not_lt_zero q)

end SrtGateway.Protocol
