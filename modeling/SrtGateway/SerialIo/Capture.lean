/-
What a replay recovers from a capture.

The de-framer waits for the bytes that a header announces.  Behind the end of a file no byte
comes, so a MAGIC byte that happens to announce more bytes than the file has left holds back
every frame behind it, although these are complete.  A frame that no other frame overlaps is
recovered if and only if no such byte stands before it (`replay_recovers_iff`).
-/
import SrtGateway.Protocol.Recovery
import SrtGateway.SerialIo.Replay

namespace SrtGateway.SerialIo

open SrtGateway.Protocol SrtGateway.Scan

variable {δ : Type}

/-! ### Segments of a capture -/

/-- The `n` bytes at position `q` are the encoding of some frame. -/
def ValidSegment (b : List UInt8) (q n : ℕ) : Prop :=
  ∃ f, FrameAt b q f ∧ n = f.2.length + SERIAL_OVERHEAD

/-- The encoding of `f` stands at position `p` and overlaps no other valid segment. -/
def Alone (b : List UInt8) (p : ℕ) (f : Frame) : Prop :=
  FrameAt b p f ∧ ∀ q n, ValidSegment b q n → q ≠ p →
    q + n ≤ p ∨ p + (f.2.length + SERIAL_OVERHEAD) ≤ q

/-- At position `q`, outside the valid segments taken from the left, a MAGIC byte announces
bytes that the capture no longer has. -/
def Truncated (b : List UInt8) (q : ℕ) : Prop :=
  Outside (ValidSegment b) q ∧ Undecided (b.drop q)

/-- `replay_bytelog` has called `on_frame` for the frame at position `p`: its calls are for the
frames of the only description of the capture, and this is one of them. -/
def Delivered (H : Handlers δ) (b : List UInt8) (chunkSize p : ℕ) (f : Frame) : Prop :=
  ∃ blocks last rest, Deframes b blocks last rest ∧
    (replayBytelog H b chunkSize).2.map Prod.fst = blocks.map Prod.snd ∧
    (p, f) ∈ frameStarts 0 blocks

/-- What `encode_frame` makes of an integer type and a payload is a valid segment. -/
lemma frameAt_of_encode {b w after : List UInt8} {t p : ℕ} {payload : List UInt8}
    (hw : encodeFrame t payload = .ok w) (hb : b.drop p = w ++ after) :
    FrameAt b p (UInt8.ofNat (t &&& 0xFF), payload) := by
  refine frameAt_iff.mpr ⟨w.length, ?_⟩
  rw [hb, frameLook_encode hw]

lemma validSegment_iff {b : List UInt8} {q n : ℕ} :
    ValidSegment b q n ↔ frameScanner.TakesAt b q n := by
  constructor
  · rintro ⟨f, hf, rfl⟩
    exact ⟨f, hf.look⟩
  · rintro ⟨f, hlook⟩
    have hf := frameAt_iff.mpr ⟨n, hlook⟩
    have htwice : Verdict.take f n = .take f (f.2.length + SERIAL_OVERHEAD) :=
      hlook.symm.trans hf.look
    exact ⟨f, hf, (Verdict.take.inj htwice).2⟩

lemma validSegment_eq (b : List UInt8) : ValidSegment b = frameScanner.TakesAt b :=
  funext fun _ => funext fun _ => propext validSegment_iff

/-- A segment that overlaps no other is outside the segments taken before it. -/
lemma Alone.outside {b : List UInt8} {p : ℕ} {f : Frame} (h : Alone b p f) :
    Outside (ValidSegment b) p := by
  refine outside_of_not_inside ?_ fun q n hseg hqp => ?_
  · rintro q n ⟨f', -, rfl⟩
    exact Nat.add_pos_right _ (by decide)
  · rcases h.2 q n hseg hqp.ne with hbefore | hafter
    · exact hbefore
    · omega

/-- A segment is alone where the parser accepts a frame nowhere else. -/
lemma alone_of_only {b : List UInt8} {p : ℕ} {f : Frame} (hf : FrameAt b p f)
    (honly : ∀ q < b.length, q = p ∨ frameLook (b.drop q) = .wait ∨
      frameLook (b.drop q) = .drop false) : Alone b p f := by
  refine ⟨hf, ?_⟩
  rintro q n ⟨f', hf', -⟩ hne
  have hlook := hf'.look
  have hq : q < b.length := by
    by_contra hend
    rw [List.drop_eq_nil_of_le (not_lt.mp hend)] at hlook
    cases hlook
  rcases honly q hq with heq | hwait | hdrop
  · exact absurd heq hne
  · rw [hwait] at hlook
    cases hlook
  · rw [hdrop] at hlook
    cases hlook

/-! ### The replay of a capture -/

/-- A decoder that does not raise leaves no frame out. -/
lemma map_fst_callsOf {H : Handlers δ} (hdecode : ∀ frame, ∃ d, H.decodePayload frame = .ok d)
    (frames : List Frame) : (callsOf H frames).map Prod.fst = frames := by
  induction frames with
  | nil => rfl
  | cons frame frames ih =>
    obtain ⟨d, hd⟩ := hdecode frame
    rw [callsOf, List.filterMap_cons, hd]
    exact congrArg (frame :: ·) ih

/-- A replay delivers the frames of the description of the capture. -/
lemma delivered_iff {H : Handlers δ} (hdecode : ∀ frame, ∃ d, H.decodePayload frame = .ok d)
    {b last rest : List UInt8} {blocks : List (List UInt8 × Frame)}
    (hd : Deframes b blocks last rest) {chunkSize : ℕ} (hchunk : 1 ≤ chunkSize) (p : ℕ)
    (f : Frame) : Delivered H b chunkSize p f ↔ (p, f) ∈ frameStarts 0 blocks := by
  constructor
  · rintro ⟨blocks', last', rest', hd', -, hmem⟩
    obtain ⟨rfl, -, -⟩ := hd'.unique hd
    exact hmem
  · intro hmem
    refine ⟨blocks, last, rest, hd, ?_, hmem⟩
    obtain ⟨ps, r, hs, hpush⟩ := push_scans FrameParser.new b
    obtain ⟨hd', hframes, -⟩ := deframes_of_scans hs
    obtain ⟨rfl, -, -⟩ := hd.unique hd'
    rw [replayBytelog, replayLoop_feeds H hchunk b new_settled, List.nil_append,
      map_fst_callsOf hdecode, hpush, hframes]

/-- For every capture, chunk size and decoder that does not raise: a frame that overlaps no
other valid segment of the capture is delivered if and only if there is no truncated header
before it. -/
theorem replay_recovers_iff (H : Handlers δ)
    (hdecode : ∀ frame, ∃ d, H.decodePayload frame = .ok d) (b : List UInt8) (chunkSize : ℕ)
    (hchunk : 1 ≤ chunkSize) (p : ℕ) (f : Frame) (halone : Alone b p f) :
    Delivered H b chunkSize p f ↔ ∀ q < p, ¬ Truncated b q := by
  obtain ⟨ps, r, hs⟩ := Scans.total frameScanner b
  obtain ⟨hd, -, -⟩ := deframes_of_scans hs
  rw [delivered_iff hdecode hd hchunk, hd.mem_frameStarts_iff, ← validSegment_eq]
  constructor
  · rintro ⟨-, -, hfree⟩ q hq ⟨hout, hrest⟩
    exact hfree q hq hout hrest
  · intro hfree
    exact ⟨halone.outside, halone.1, fun q hq hout hrest => hfree q hq ⟨hout, hrest⟩⟩

/-- A ping behind a byte that is no MAGIC byte. -/
def noisyPing : List UInt8 := [0x11, 0xA5, 0x85, 0, 0, 54, 28]

/-- The theorem at this capture: the ping is delivered. -/
theorem replay_recovers_iff_noisy : Delivered acceptAll noisyPing 4 1 (0x85, []) := by
  have hping : FrameAt noisyPing 1 (0x85, []) :=
    frameAt_of_encode (t := 0x85) (w := [0xA5, 0x85, 0, 0, 54, 28]) (by decide +kernel) rfl
  refine (replay_recovers_iff acceptAll (fun _ => ⟨(), rfl⟩) noisyPing 4 (by decide) 1 _
    (alone_of_only hping (by decide +kernel))).mpr ?_
  rintro q hq ⟨-, hpending⟩
  obtain rfl : q = 0 := by omega
  have hdrop : frameLook noisyPing = .drop false := by decide +kernel
  have hwait : frameLook noisyPing = .wait := frameLook_wait_iff.mpr hpending
  rw [hdrop] at hwait
  cases hwait

/-- A ping behind a MAGIC byte, for which the type of the ping and the byte after it announce 133
bytes of payload. -/
def hiddenPing : List UInt8 := [0xA5, 0xA5, 0x85, 0, 0, 54, 28]

/-- The ping is the only valid segment of the capture, and is not delivered. -/
theorem replay_loses_frame : ¬ ∀ (b : List UInt8) (chunkSize : ℕ), 1 ≤ chunkSize →
    ∀ p f, Alone b p f → Delivered acceptAll b chunkSize p f := by
  intro h
  have hping : FrameAt hiddenPing 1 (0x85, []) :=
    frameAt_of_encode (t := 0x85) (w := [0xA5, 0x85, 0, 0, 54, 28]) (by decide +kernel) rfl
  obtain ⟨blocks, last, rest, hd, -, hmem⟩ := h hiddenPing 4 (by decide) 1 _
    (alone_of_only hping (by decide +kernel))
  have hwait : frameLook hiddenPing = .wait := by decide +kernel
  have hnone : Deframes hiddenPing [] [] hiddenPing :=
    .last (gapRefuted_nil _) (frameLook_wait_iff.mp hwait)
  obtain ⟨rfl, -, -⟩ := hd.unique hnone
  exact List.not_mem_nil hmem

end SrtGateway.SerialIo
