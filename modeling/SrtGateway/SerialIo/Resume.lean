/-
What is left of a frame when the link drops.

`_close` gives up the port and keeps the parser, so the bytes of an unfinished frame stay in
its buffer, and what a new connection delivers is appended to them.  The frames that come after
a reconnect are dispatched from their own bytes if and only if these bytes show that no frame
starts in what was left (`resumes_iff`); otherwise the old fragment takes bytes of the new
frames, or waits for more.
-/
import SrtGateway.Protocol.Recovery
import SrtGateway.SerialIo.Replay

namespace SrtGateway.SerialIo

open SrtGateway.Protocol SrtGateway.Scan

variable {δ : Type}

/-! ### Frames one after the other -/

/-- Frames that follow one another from position `offset` on. -/
def backToBack (offset : ℕ) : List Frame → List (ℕ × Frame)
  | [] => []
  | f :: frames => (offset, f) :: backToBack (offset + (f.2.length + SERIAL_OVERHEAD)) frames

/-- `ws` are the encodings of `frames`. -/
def Encodings (frames : List Frame) (ws : List (List UInt8)) : Prop :=
  List.Forall₂ (fun f w => encodeFrame f.1.toNat f.2 = .ok w) frames ws

lemma map_backToBack (offset : ℕ) (frames : List Frame) :
    (backToBack offset frames).map Prod.snd = frames := by
  induction frames generalizing offset with
  | nil => rfl
  | cons f frames ih => exact congrArg (f :: ·) (ih _)

/-- Encoded frames are scanned without a gap. -/
lemma scans_backToBack {frames : List Frame} {ws : List (List UInt8)} (h : Encodings frames ws) :
    ∃ ps, Scans frameScanner ws.flatten ps [] ∧
      ∀ offset, placed offset ps = backToBack offset frames := by
  induction h with
  | nil => exact ⟨[], .wait (frameLook_wait_iff.mpr (.inl rfl)), fun _ => rfl⟩
  | @cons f w frames ws hw _ ih =>
    obtain ⟨ps, hs, hps⟩ := ih
    have hlook := frameLook_encode hw ws.flatten
    rw [typeByte_toNat] at hlook
    refine ⟨_, .take (f := f) hlook hs, fun offset => ?_⟩
    rw [placed, hps, length_encodeFrame hw]
    rfl

/-! ### What the fragment does -/

/-- `s₂` shows that no frame starts in the undecided rest of `s₁`. -/
def FragmentRefuted (s₁ s₂ : List UInt8) : Prop :=
  ∃ blocks last rest, Deframes s₁ blocks last rest ∧ GapRefuted rest s₂

/-- Behind the bytes `s₁`, the bytes `s₂` have been read as by a new reader: each of `frames` is
found where it stands in `s₂`, nothing else is, and `calls` are the calls that a new parser
gives rise to. -/
def Resumes (H : Handlers δ) (s₁ s₂ : List UInt8) (frames : List Frame)
    (calls : List (Frame × δ)) : Prop :=
  (∃ blocks₁ last₁ rest₁ blocks last rest, Deframes s₁ blocks₁ last₁ rest₁ ∧
      Deframes (s₁ ++ s₂) blocks last rest ∧
      frameStarts 0 blocks = frameStarts 0 blocks₁ ++ backToBack s₁.length frames) ∧
    calls = callsOf H (FrameParser.new.push s₂).1

/-- A rest right behind which the first frame is found is refuted. -/
lemma gapRefuted_of_placed {rest s r : List UInt8} {ps : List (Piece UInt8 Frame)}
    (h : Scans frameScanner (rest ++ s) ps r) {offset : ℕ} {f : Frame}
    {starts : List (ℕ × Frame)} (hplaced : placed offset ps = (offset + rest.length, f) :: starts) :
    GapRefuted rest s := by
  obtain ⟨hd, -, -⟩ := deframes_of_scans h
  rw [← frameStarts_regroup h] at hplaced
  generalize (regroup ps).1 = blocks, (regroup ps).2 = last at hd hplaced
  generalize hbytes : rest ++ s = bytes at hd
  cases hd with
  | last _ _ => exact absurd hplaced (by simp [frameStarts])
  | @block g v s' _ _ f' blocks _ hg _ =>
    rw [frameStarts] at hplaced
    have hlen : g.length = rest.length :=
      Nat.add_left_cancel (Prod.mk.inj (List.cons.inj hplaced).1).1
    obtain ⟨rfl, hbehind⟩ := List.append_inj hbytes hlen.symm
    rwa [hbehind]

/-- Encoded frames behind an undecided rest are found where they stand if and only if there are
none, or they refute the rest. -/
lemma placed_behind_iff {frames : List Frame} {ws : List (List UInt8)}
    (henc : Encodings frames ws) {rest r : List UInt8} {ps : List (Piece UInt8 Frame)}
    (hrest : Undecided rest) (h : Scans frameScanner (rest ++ ws.flatten) ps r) (offset : ℕ) :
    placed offset ps = backToBack (offset + rest.length) frames ↔
      frames = [] ∨ GapRefuted rest ws.flatten := by
  constructor
  · intro hplaced
    cases frames with
    | nil => exact .inl rfl
    | cons f frames => exact .inr (gapRefuted_of_placed h hplaced)
  · obtain ⟨qs, hs, hqs⟩ := scans_backToBack henc
    rintro (rfl | hg)
    · cases henc
      rw [List.flatten_nil, List.append_nil] at h
      obtain ⟨rfl, -⟩ := h.eq_of_wait (frameLook_wait_iff.mpr hrest)
      rfl
    · obtain ⟨rfl, -⟩ := h.unique (scans_gap hg hs)
      rw [placed_junk, hqs]

section Behind

variable {s₁ s₂ rest r : List UInt8} {ps qs : List (Piece UInt8 Frame)}
  (h₁ : Scans frameScanner s₁ ps rest)

include h₁

lemma fragmentRefuted_iff : FragmentRefuted s₁ s₂ ↔ GapRefuted rest s₂ := by
  obtain ⟨hd₁, -, -⟩ := deframes_of_scans h₁
  constructor
  · rintro ⟨blocks, last, rest', hd, hg⟩
    obtain ⟨-, -, rfl⟩ := hd.unique hd₁
    exact hg
  · exact fun hg => ⟨_, _, _, hd₁, hg⟩

/-- The frames that `s₂` adds are those of the scan of the rest with `s₂` behind it. -/
lemma starts_behind_iff (h₂ : Scans frameScanner (rest ++ s₂) qs r) (starts : List (ℕ × Frame)) :
    (∃ blocks₁ last₁ rest₁ blocks last rest, Deframes s₁ blocks₁ last₁ rest₁ ∧
        Deframes (s₁ ++ s₂) blocks last rest ∧
        frameStarts 0 blocks = frameStarts 0 blocks₁ ++ starts) ↔
      placed (tokensOf ps).length qs = starts := by
  have hwhole := h₁.append h₂
  obtain ⟨hd₁, -, -⟩ := deframes_of_scans h₁
  obtain ⟨hd, -, -⟩ := deframes_of_scans hwhole
  have hstarts : frameStarts 0 (regroup (ps ++ qs)).1 =
      frameStarts 0 (regroup ps).1 ++ placed (tokensOf ps).length qs := by
    rw [frameStarts_regroup hwhole, frameStarts_regroup h₁, placed_append, Nat.zero_add]
  constructor
  · rintro ⟨blocks₁, last₁, rest₁, blocks, last, rest', hd₁', hd', heq⟩
    obtain ⟨rfl, -, -⟩ := hd₁'.unique hd₁
    obtain ⟨rfl, -, -⟩ := hd'.unique hd
    exact List.append_cancel_left (hstarts.symm.trans heq)
  · rintro rfl
    exact ⟨_, _, _, _, _, _, hd₁, hd, hstarts⟩

end Behind

/-- **What is read behind `s₁`** by the parser that has read it. -/
lemma resumes_iff_refuted (H : Handlers δ) (s₁ : List UInt8) {frames : List Frame}
    {ws : List (List UInt8)} (henc : Encodings frames ws) {calls : List (Frame × δ)}
    (hcalls : calls = callsOf H ((FrameParser.new.push s₁).2.push ws.flatten).1) :
    Resumes H s₁ ws.flatten frames calls ↔
      frames = [] ∨ FragmentRefuted s₁ ws.flatten := by
  obtain ⟨ps, rest, hs₁, hpush₁⟩ := push_scans FrameParser.new s₁
  obtain ⟨qs, r, hs₂, hpush₂⟩ := push_scans (FrameParser.new.push s₁).2 ws.flatten
  obtain ⟨us, hs, hus⟩ := scans_backToBack henc
  obtain ⟨vs, r', hfresh, hpush⟩ := push_scans FrameParser.new ws.flatten
  obtain ⟨rfl, rfl⟩ := hfresh.unique hs
  rw [hpush₂] at hcalls
  rw [hpush₁] at hs₂
  change Scans frameScanner s₁ ps rest at hs₁
  have hlen : s₁.length = (tokensOf ps).length + rest.length := by
    rw [hs₁.tokens_eq, List.length_append]
  rw [fragmentRefuted_iff hs₁, ← placed_behind_iff henc (frameLook_wait_iff.mp hs₁.rest_wait) hs₂
    (tokensOf ps).length, ← hlen, Resumes, starts_behind_iff hs₁ hs₂]
  refine and_iff_left_of_imp fun hplaced => ?_
  -- both parsers return `frames`
  rw [hcalls, hpush, ← map_placed (tokensOf ps).length qs, hplaced, ← map_placed 0 vs, hus,
    map_backToBack, map_backToBack]

/-! ### Runs -/

/-- A cycle whose read fails reads nothing. -/
lemma bytesRead_of_error (cfg : Settings) {c : Cycle δ} {x : PyErr}
    (h : c.env.read = .error x) : c.bytesRead cfg = [] := by
  unfold Cycle.bytesRead
  rw [h]
  dsimp only
  split
  · contradiction
  · rfl

/-- What follows some cycles of a run is a run, with the parser that they leave. -/
lemma cycles_split (cfg : Settings) (H : Handlers δ) {r : SerialReader} (hr : r.parser.Settled)
    {envs : List PollEnv} {before after : List (Cycle δ)}
    (h : cycles cfg H r envs = before ++ after) :
    ∃ r' envs', after = cycles cfg H r' envs' ∧
      r'.parser = (r.parser.push (before.flatMap (Cycle.bytesRead cfg))).2 := by
  induction before generalizing r envs with
  | nil =>
    refine ⟨r, envs, h.symm, ?_⟩
    rw [List.flatMap_nil, push_nil hr]
  | cons c before ih =>
    cases envs with
    | nil => exact absurd h (by simp [cycles])
    | cons env envs =>
      obtain ⟨envs', henvs⟩ : ∃ envs', cycles cfg H r (env :: envs) =
          r.cycle cfg H env :: cycles cfg H (r.cycle cfg H env).result.reader envs' := by
        rcases cycles_cons cfg H r env envs with hlast | hnext
        · exact ⟨[], hlast⟩
        · exact ⟨envs, hnext⟩
      rw [henvs, List.cons_append] at h
      obtain ⟨rfl, hrest⟩ := List.cons.inj h
      have hparser := (cycle_feeds cfg H hr env).parser
      obtain ⟨r', envs'', hafter, hr'⟩ := ih (hparser ▸ push_settled _ _) hrest
      refine ⟨r', envs'', hafter, ?_⟩
      rw [hr', hparser, List.flatMap_cons, push_append]

/-- A run goes on after a call that returns. -/
lemma cycles_of_returned {cfg : Settings} {H : Handlers δ} {r : SerialReader} {env : PollEnv}
    {n : ℕ} (h : (r.cycle cfg H env).result.exit = .returned n) (envs : List PollEnv) :
    cycles cfg H r (env :: envs) =
      r.cycle cfg H env :: cycles cfg H (r.cycle cfg H env).result.reader envs := by
  rw [cycles]
  split
  · rfl
  · rename_i hother
    exact absurd h (hother n)

/-- For every run of `poll_once` calls, cut at a cycle whose read fails: let the cycles before it
read any bytes, and those after it, over as many reconnects and in whatever chunks, the
encodings of some frames.  The cycles after the fault have dispatched exactly these frames, each
from its own bytes, if and only if there are none, or their bytes show that no frame starts in
what the bytes before the fault left in the parser. -/
theorem resumes_iff (cfg : Settings) (H : Handlers δ) (port : Option String)
    (serialObj : Option SerialObj) (envs : List PollEnv) (before after : List (Cycle δ))
    (fault : Cycle δ) (hrun : cycles cfg H (.new port serialObj) envs = before ++ fault :: after)
    (x : PyErr) (hfault : fault.env.read = .error x) (frames : List Frame)
    (ws : List (List UInt8)) (henc : Encodings frames ws)
    (hread : after.flatMap (Cycle.bytesRead cfg) = ws.flatten) :
    Resumes H (before.flatMap (Cycle.bytesRead cfg)) ws.flatten frames
        (after.flatMap fun c => c.result.calls) ↔
      frames = [] ∨ FragmentRefuted (before.flatMap (Cycle.bytesRead cfg)) ws.flatten := by
  have hsplit : cycles cfg H (.new port serialObj) envs = (before ++ [fault]) ++ after := by
    rw [hrun, List.append_assoc, List.singleton_append]
  obtain ⟨r', envs', rfl, hparser⟩ :=
    cycles_split cfg H (r := .new port serialObj) new_settled hsplit
  have hbytes : (before ++ [fault]).flatMap (Cycle.bytesRead cfg) =
      before.flatMap (Cycle.bytesRead cfg) := by
    rw [List.flatMap_append, List.flatMap_singleton, bytesRead_of_error cfg hfault,
      List.append_nil]
  rw [hbytes] at hparser
  have hsettled : r'.parser.Settled := hparser ▸ push_settled _ _
  refine resumes_iff_refuted H _ henc ?_
  rw [(cycles_feed cfg H hsettled envs').1, hread, hparser]
  rfl

/-! ### A ping behind a fault -/

/-- Ports come from an injected factory. -/
def withFactory : Settings := { hasFactory := true }

/-- Three cycles of a reader whose first port is open: it reads `s₁`, its read fails, and it
reads `s₂` from the port opened again. -/
def beforeFault (s₁ : List UInt8) : Cycle Unit :=
  (SerialReader.new none (some ⟨true⟩)).cycle withFactory acceptAll (reads (.ok s₁))

def atFault (s₁ : List UInt8) : Cycle Unit :=
  (beforeFault s₁).result.reader.cycle withFactory acceptAll (reads (.error .osError))

def afterFault (s₁ s₂ : List UInt8) : Cycle Unit :=
  (atFault s₁).result.reader.cycle withFactory acceptAll (reopens s₂)

lemma cycles_fault (s₁ s₂ : List UInt8) (hbefore : (beforeFault s₁).result.exit = .returned 0)
    (hat : (atFault s₁).result.exit = .returned 0) :
    cycles withFactory acceptAll (.new none (some ⟨true⟩))
        [reads (.ok s₁), reads (.error .osError), reopens s₂] =
      [beforeFault s₁] ++ atFault s₁ :: [afterFault s₁ s₂] := by
  rw [beforeFault] at hbefore
  rw [cycles_of_returned hbefore]
  refine congrArg (beforeFault s₁ :: ·) ?_
  rw [atFault] at hat
  refine (cycles_of_returned hat _).trans (congrArg (atFault s₁ :: ·) ?_)
  -- the last call ends the run however it is left
  exact (cycles_cons withFactory acceptAll _ (reopens s₂) []).elim id id

/-- A ping on the wire. -/
def pingBytes : List UInt8 := [0xA5, 0x85, 0, 0, 54, 28]

lemma pingBytes_encodings : Encodings [(0x85, [])] [pingBytes] :=
  .cons (by decide +kernel) .nil

/-- The theorem at a fault behind three bytes of a frame: the MAGIC byte of the ping completes
their header to one that announces too many bytes, and the ping is dispatched. -/
theorem resumes_iff_refuted_header :
    Resumes acceptAll [0xA5, 0x85, 0xFF] [pingBytes].flatten [(0x85, [])]
      [((0x85, []), ())] := by
  have hrefuted : FragmentRefuted [0xA5, 0x85, 0xFF] [pingBytes].flatten := by
    refine ⟨[], [], [0xA5, 0x85, 0xFF], ?_, ?_⟩
    · exact .last (gapRefuted_nil _) (.inr ⟨rfl, .inl (by decide)⟩)
    · refine gapRefuted_cons.mpr ⟨fun _ => ⟨by decide, .inl (by decide)⟩, ?_⟩
      exact gapRefuted_of_not_mem (by decide) _
  have hresumes := resumes_iff withFactory acceptAll none (some ⟨true⟩) _ _ _ _
    (cycles_fault [0xA5, 0x85, 0xFF] pingBytes (by decide +kernel) (by decide +kernel))
    .osError rfl [(0x85, [])] [pingBytes] pingBytes_encodings (by decide +kernel)
  have hbytes : [beforeFault [0xA5, 0x85, 0xFF]].flatMap (Cycle.bytesRead withFactory) =
      [0xA5, 0x85, 0xFF] := by decide +kernel
  have hcalls : [afterFault [0xA5, 0x85, 0xFF] pingBytes].flatMap (fun c => c.result.calls) =
      [((0x85, []), ())] := by decide +kernel
  rw [hbytes, hcalls] at hresumes
  exact hresumes.mpr (.inr hrefuted)

/-- A fault behind one byte of a frame.  The ping that is read after the reconnect becomes part
of a frame that is not there, and no call is made. -/
theorem reconnect_swallows_ping : ¬ ∀ (envs : List PollEnv) (before after : List (Cycle Unit))
    (fault : Cycle Unit) (x : PyErr) (frames : List Frame) (ws : List (List UInt8)),
    cycles withFactory acceptAll (.new none (some ⟨true⟩)) envs = before ++ fault :: after →
    fault.env.read = .error x → Encodings frames ws →
    after.flatMap (Cycle.bytesRead withFactory) = ws.flatten →
    Resumes acceptAll (before.flatMap (Cycle.bytesRead withFactory)) ws.flatten frames
      (after.flatMap fun c => c.result.calls) := by
  intro h
  obtain ⟨-, hcalls⟩ := h _ _ _ _ _ [(0x85, [])] [pingBytes]
    (cycles_fault [0xA5] pingBytes (by decide +kernel) (by decide +kernel)) rfl
    pingBytes_encodings (by decide +kernel)
  exact absurd hcalls (by decide +kernel)

end SrtGateway.SerialIo
