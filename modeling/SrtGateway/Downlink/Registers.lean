/-
The base node under a run of polls.

The base is four registers, one for each control frame, and keeps the effect of every frame
it was sent; the cache records only polls that got all four frames through.  What links them
is an invariant (`Linked`): the registers hold the frames of the recorded state, overlaid
with whatever has been sent since.  So a poll that is skipped as unchanged leaves the right
frames in place exactly when nothing else has been sent since the record was made
(`programmed_iff_no_stray_frames`).
-/
import SrtGateway.Downlink.Boot
import SrtGateway.Downlink.Fingerprint
import SrtGateway.Protocol.Stream

namespace SrtGateway.Downlink

open SrtGateway.Json SrtGateway.Protocol SrtGateway.Bytes

/-! ### The base -/

inductive Register where
  | timing
  | epoch
  | slotmap
  | armed
deriving DecidableEq

/-- The register that a frame type sets. -/
def registerOf (t : UInt8) : Option Register :=
  if t.toNat = T_SET_TIMING then some .timing
  else if t.toNat = T_SET_EPOCH then some .epoch
  else if t.toNat = T_SET_SLOTMAP then some .slotmap
  else if t.toNat = T_SET_ARMED then some .armed
  else none

/-- The payloads in the registers; `none` for a register that was never set. -/
abbrev Registers : Type := Register → Option (List UInt8)

/-- The base accepts a frame. -/
def accept (regs : Registers) (frame : List UInt8) : Registers :=
  match registerOf (byteAt frame 1) with
  | some r => Function.update regs r (some (slice frame 4 (frame.length - 2)))
  | none => regs

/-- The registers after frames have been sent to a base that had none. -/
def registers (sent : List (List UInt8)) : Registers := sent.foldl accept fun _ => none

lemma foldl_accept (sent : List (List UInt8)) (regs : Registers) (r : Register) :
    sent.foldl accept regs r = (registers sent r).or (regs r) := by
  induction sent using List.reverseRecOn with
  | nil => rfl
  | append_singleton sent frame ih =>
    rw [registers] at ih ⊢
    rw [List.foldl_append, List.foldl_append, List.foldl_cons, List.foldl_cons, List.foldl_nil,
      List.foldl_nil]
    cases hreg : registerOf (byteAt frame 1) with
    | none =>
      have hacc : ∀ regs, accept regs frame = regs := fun regs => by simp only [accept, hreg]
      rw [hacc, hacc, ih]
    | some r' =>
      have hacc : ∀ regs, accept regs frame =
          Function.update regs r' (some (slice frame 4 (frame.length - 2))) :=
        fun regs => by simp only [accept, hreg]
      rw [hacc, hacc]
      by_cases hr : r = r'
      · rw [hr, Function.update_self, Function.update_self, Option.some_or]
      · rw [Function.update_of_ne hr, Function.update_of_ne hr, ih]

/-- Later frames overlay earlier ones. -/
lemma registers_append (sent more : List (List UInt8)) (r : Register) :
    registers (sent ++ more) r = (registers more r).or (registers sent r) := by
  rw [registers, List.foldl_append]
  exact foldl_accept more _ r

lemma accept_encodeFrame {t : ℕ} {payload frame : List UInt8}
    (h : encodeFrame t payload = .ok frame) {r : Register}
    (hr : registerOf (UInt8.ofNat (t &&& 0xFF)) = some r) (regs : Registers) :
    accept regs frame = Function.update regs r (some payload) := by
  obtain ⟨-, rfl⟩ := encodeFrame_eq_ok.mp h
  rw [accept, byteAt_frameHead_one, hr]
  have hlen : (frameHead t payload ++ packLE 2 (crc16CcittFalse (frameHead t payload) 1
      (frameHead t payload).length)).length - 2 = 4 + payload.length := by
    rw [List.length_append, length_frameHead, length_packLE]
    omega
  simp only [hlen, slice_frameHead]

/-- The frames of a state set every register. -/
lemma registers_buildFrames {state : State} {frames : List (List UInt8)}
    (h : buildFrames state = .ok frames) (r : Register) : (registers frames r).isSome := by
  obtain ⟨timing, epoch, slotmap, armed, h1, h2, h3, h4, rfl⟩ := buildFrames_eq_ok.mp h
  simp only [registers, List.foldl_cons, List.foldl_nil, accept_encodeFrame h1 (r := .timing) rfl,
    accept_encodeFrame h2 (r := .epoch) rfl, accept_encodeFrame h3 (r := .slotmap) rfl,
    accept_encodeFrame h4 (r := .armed) rfl]
  cases r <;> simp [Function.update]

/-! ### Runs -/

/-- One step: a poll, or a restart of the gateway.  (A gateway that dies inside a poll is a
poll whose next send or whose write of the cache fails, and then a restart.) -/
inductive Step where
  | poll (force : Bool) (env : PollEnv)
  | restart

/-- The polls of a run. -/
def runSteps : CloudDownlinker → List Step → List Poll
  | _, [] => []
  | d, .poll force env :: steps =>
    let p := d.poll force env
    p :: runSteps p.result.after steps
  | d, .restart :: steps => runSteps (.new d.cached) steps

/-- All frames that polls sent. -/
def sentBy (polls : List Poll) : List (List UInt8) := polls.flatMap fun p => p.result.sent

/-- The frames sent since the last poll that recorded its fingerprint. -/
def sentSince (polls : List Poll) : List (List UInt8) :=
  polls.foldl (fun sent p =>
    if p.result.status = some .applied then [] else sent ++ p.result.sent) []

/-- Whenever a poll reports success, the base is programmed with the frames of the document
that the poll fetched. -/
def Programmed (polls : List Poll) : Prop :=
  ∀ before p after, polls = before ++ p :: after →
    p.result.status = some .unchanged ∨ p.result.status = some .applied →
      ∃ state frames, p.env.fetched = some state ∧ buildFrames state = .ok frames ∧
        registers (sentBy (before ++ [p])) = registers frames

/-- At an unforced poll whose document has the cached fingerprint, the last frame of each
type that was sent since the record was made, if any, is the one of this document. -/
def NoStrayFrames (polls : List Poll) : Prop :=
  ∀ before p after, polls = before ++ p :: after → p.force = false →
    ∀ state frames, p.env.fetched = some state → p.before.cached = some (fingerprint state) →
      buildFrames state = .ok frames →
        ∀ r payload, registers (sentSince before) r = some payload →
          registers frames r = some payload

/-! ### The invariant -/

/-- What the cache says about the base: the registers hold the frames of a state with the
cached fingerprint, except where something has been sent since. -/
def Linked (polls : List Poll) (cached : Option (List Char)) : Prop :=
  ∀ fp, cached = some fp → ∃ state frames, fp = fingerprint state ∧
    buildFrames state = .ok frames ∧
      ∀ r, registers (sentBy polls) r = (registers (sentSince polls) r).or (registers frames r)

lemma sentBy_concat (polls : List Poll) (p : Poll) :
    sentBy (polls ++ [p]) = sentBy polls ++ p.result.sent := by
  simp [sentBy]

lemma sentSince_concat (polls : List Poll) (p : Poll) :
    sentSince (polls ++ [p]) =
      if p.result.status = some .applied then [] else sentSince polls ++ p.result.sent := by
  simp [sentSince]

/-- A skipped poll sends nothing. -/
lemma unchanged_sent {d : CloudDownlinker} {force : Bool} {env : PollEnv}
    (h : (d.pollOnce force env).status = some .unchanged) : (d.pollOnce force env).sent = [] := by
  cases pollOnce_cases d force env with
  | nothing _ _ _ hsent => exact hsent
  | unchanged _ _ _ _ _ hsent => exact hsent
  | sending _ _ _ _ _ _ hunchanged => exact absurd h hunchanged

/-- After a poll that reports applied the base holds just the frames it sent. -/
lemma registers_applied (polls : List Poll) {p : Poll} {state : State}
    (hframes : buildFrames state = .ok p.result.sent) :
    registers (sentBy (polls ++ [p])) = registers p.result.sent := by
  funext r
  rw [sentBy_concat, registers_append, Option.or_of_isSome (registers_buildFrames hframes r)]

/-- **One poll keeps the link.** -/
lemma Linked.poll {polls : List Poll} {d : CloudDownlinker} (h : Linked polls d.cached)
    (force : Bool) (env : PollEnv) :
    Linked (polls ++ [d.poll force env]) (d.pollOnce force env).after.cached := by
  by_cases happlied : (d.pollOnce force env).status = some .applied
  · obtain ⟨state, -, hframes, hcached⟩ := applied_sends happlied
    intro fp hfp
    obtain rfl := Option.some.inj (hcached.symm.trans hfp)
    refine ⟨state, _, rfl, hframes, fun r => ?_⟩
    rw [sentSince_concat, d.poll_result, if_pos happlied,
      registers_applied (p := d.poll force env) polls hframes]
    rfl
  · rw [not_applied_cached happlied]
    intro fp hfp
    obtain ⟨state, frames, hstate, hframes, hregs⟩ := h fp hfp
    refine ⟨state, frames, hstate, hframes, fun r => ?_⟩
    rw [sentSince_concat, d.poll_result, if_neg happlied, sentBy_concat, registers_append,
      d.poll_result, registers_append, hregs r, Option.or_assoc]

/-- **A whole run keeps the link**, and its polls are calls of `poll_once`. -/
lemma runSteps_linked {polls : List Poll} {d : CloudDownlinker} (h : Linked polls d.cached)
    {steps : List Step} {before after : List Poll} {p : Poll}
    (hrun : runSteps d steps = before ++ p :: after) :
    p = p.before.poll p.force p.env ∧ Linked (polls ++ before) p.before.cached := by
  induction steps generalizing polls d before with
  | nil => simp [runSteps] at hrun
  | cons step steps ih =>
    cases step with
    | restart => exact ih (d := .new d.cached) h hrun
    | poll force env =>
      cases before with
      | nil =>
        obtain ⟨rfl, -⟩ := List.cons.inj hrun
        exact ⟨rfl, (List.append_nil polls).symm ▸ h⟩
      | cons q before =>
        obtain ⟨rfl, htail⟩ := List.cons.inj hrun
        simpa using ih (h.poll force env) htail

/-! ### When the base is programmed -/

/-- What holds of one poll of a run. -/
lemma programmed_poll_iff {before : List Poll} {d : CloudDownlinker} {force : Bool}
    {env : PollEnv} (h : Linked before d.cached) :
    ((d.pollOnce force env).status = some .unchanged ∨
        (d.pollOnce force env).status = some .applied →
      ∃ state frames, env.fetched = some state ∧ buildFrames state = .ok frames ∧
        registers (sentBy (before ++ [d.poll force env])) = registers frames) ↔
    (force = false → ∀ state frames, env.fetched = some state →
      d.cached = some (fingerprint state) → buildFrames state = .ok frames →
        ∀ r payload, registers (sentSince before) r = some payload →
          registers frames r = some payload) := by
  by_cases hunchanged : (d.pollOnce force env).status = some .unchanged
  · obtain ⟨hforce, state, hstate, hhit⟩ := (status_unchanged_iff d force env).mp hunchanged
    -- the frames of this document are those of the recorded one
    obtain ⟨recorded, frames, hfp, hbuilt, hregs⟩ := h _ hhit
    rw [← buildFrames_eq_of_fingerprint hfp] at hbuilt
    have hsent : sentBy (before ++ [d.poll force env]) = sentBy before := by
      rw [sentBy_concat, d.poll_result, unchanged_sent hunchanged, List.append_nil]
    rw [hsent]
    constructor
    · intro hprog _ state' frames' hstate' _ hbuilt' r payload hstray
      obtain rfl := Option.some.inj (hstate.symm.trans hstate')
      obtain rfl := Except.ok.inj (hbuilt.symm.trans hbuilt')
      obtain ⟨state₂, frames₂, hstate₂, hbuilt₂, hsame⟩ := hprog (.inl hunchanged)
      obtain rfl := Option.some.inj (hstate.symm.trans hstate₂)
      obtain rfl := Except.ok.inj (hbuilt.symm.trans hbuilt₂)
      rw [← hsame, hregs r, hstray, Option.some_or]
    · intro hstray _
      refine ⟨state, frames, hstate, hbuilt, funext fun r => ?_⟩
      rw [hregs r]
      cases hsince : registers (sentSince before) r with
      | none => rw [Option.none_or]
      | some payload =>
        rw [Option.some_or, hstray hforce state frames hstate hhit hbuilt r payload hsince]
  · have hmiss : force = false → ∀ state, env.fetched = some state →
        d.cached ≠ some (fingerprint state) := fun hforce state hstate hhit =>
      hunchanged ((status_unchanged_iff d force env).mpr ⟨hforce, state, hstate, hhit⟩)
    refine iff_of_true ?_ fun hforce state _ hstate hhit => absurd hhit (hmiss hforce state hstate)
    intro hstatus
    obtain ⟨state, hstate, hbuilt, -⟩ := applied_sends (hstatus.resolve_left hunchanged)
    exact ⟨state, _, hstate, hbuilt, registers_applied (p := d.poll force env) before hbuilt⟩

/-- **The base is programmed whenever a poll reports success, exactly when no stray frames
are left behind.**  For every run of polls and restarts from an empty cache and unset
registers. -/
theorem programmed_iff_no_stray_frames (steps : List Step) :
    Programmed (runSteps (.new none) steps) ↔ NoStrayFrames (runSteps (.new none) steps) := by
  have hlinked : Linked [] (CloudDownlinker.new none).cached := by
    intro fp hfp
    simp [CloudDownlinker.new] at hfp
  refine forall_congr' fun before => forall_congr' fun p => forall_congr' fun after =>
    forall_congr' fun hrun => ?_
  obtain ⟨hp, hbefore⟩ := runSteps_linked hlinked hrun
  have h := @programmed_poll_iff before p.before p.force p.env (by simpa using hbefore)
  rw [← hp] at h
  have hresult : p.before.pollOnce p.force p.env = p.result := by rw [hp]; rfl
  rwa [hresult] at h

/-! ### A base left with the wrong timing -/

/-- The document is served, and the link goes down after the first frame. -/
def breaksAfterOne (slotCount : ℤ) : PollEnv :=
  { serves slotCount with
    send := fun i => if i = 0 then .ok () else .error (.notConnected "serial not connected") }

/-- A race is programmed, a change to another one fails after its first frame, and the cloud
goes back to the first: the last poll reports unchanged, with the second race's timing in the
base. -/
theorem unchanged_with_wrong_timing :
    let polls := runSteps (.new none)
      [.poll false (serves 3), .poll false (breaksAfterOne 4), .poll false (serves 3)]
    polls.map (fun p => p.result.status) = [some .applied, some .error, some .unchanged] ∧
      registers (sentBy polls) .timing = some [4, 200, 0, 0, 0] ∧ ¬ Programmed polls := by
  intro polls
  have hstatus : polls.map (fun p => p.result.status) =
      [some .applied, some .error, some .unchanged] := by
    decide +kernel
  have htiming : registers (sentBy polls) .timing = some [4, 200, 0, 0, 0] := by
    decide +kernel
  have hwanted : (buildFrames (raceState 3)).map (fun frames => registers frames .timing) =
      .ok (some [3, 200, 0, 0, 0]) := by
    decide +kernel
  refine ⟨hstatus, htiming, fun hprog => ?_⟩
  obtain ⟨state, frames, hstate, hframes, hregs⟩ := hprog (polls.take 2) _ [] rfl (.inl rfl)
  obtain rfl : raceState 3 = state := Option.some.inj hstate
  have hregs' : registers (sentBy polls) .timing = registers frames .timing :=
    congrFun hregs Register.timing
  have hthree : registers frames .timing = some [3, 200, 0, 0, 0] := by
    rw [hframes] at hwanted
    exact Except.ok.inj hwanted
  rw [htiming, hthree] at hregs'
  exact absurd hregs' (by decide)

end SrtGateway.Downlink
