/-
Replaying a byte log, and reading it live.

Three loops feed a parser and dispatch what it returns: `poll_once` called over and over,
`replay_bytelog`, and `_run_replay` of a reader.  What a loop delivers is a function of the
frames alone (`callsOf`, `deliveredOf`), and pushing bytes in two parts returns the frames of
pushing them at once (`push_append`), so the three agree however the bytes are cut
(`live_eq_replay`).
-/
import SrtGateway.Protocol.Deframer
import SrtGateway.SerialIo.Reader

namespace SrtGateway.SerialIo

open SrtGateway.Protocol SrtGateway.Scan

variable {δ : Type}

/-! ### The replay loops -/

lemma length_drop_lt {rest : List UInt8} {size : ℕ} (h : rest.take size ≠ []) :
    (rest.drop size).length < rest.length := by
  have hne : size ≠ 0 ∧ rest ≠ [] := by simpa [not_or] using h
  have hlen : 0 < rest.length := List.length_pos_iff.mpr hne.2
  rw [List.length_drop]
  omega

/-- The loop of `replay_bytelog` over what is left of the file, with the count and the calls of
`on_frame` so far. -/
def replayLoop (H : Handlers δ) (chunkSize : ℕ) (rest : List UInt8) (parser : FrameParser)
    (delivered : ℕ) (calls : List (Frame × δ)) : ℕ × List (Frame × δ) :=
  let chunk := rest.take chunkSize
  if chunk = [] then (delivered, calls)
  else
    let (frames, parser) := parser.push chunk
    let results := frames.map (dispatch H)
    replayLoop H chunkSize (rest.drop chunkSize) parser (delivered + results.countP Prod.fst)
      (calls ++ results.filterMap Prod.snd)
termination_by rest.length
decreasing_by exact length_drop_lt ‹_›

/-- `replay_bytelog` of a file that contains `data`: the count it returns, and its calls. -/
def replayBytelog (H : Handlers δ) (data : List UInt8) (chunkSize : ℕ) : ℕ × List (Frame × δ) :=
  replayLoop H chunkSize data .new 0 []

/-- The loop of `_run_replay`; `stop i` is what `_stop.is_set()` gives at the head of round
`i`. -/
def runReplayLoop (H : Handlers δ) (readSize : ℕ) (stop : ℕ → Bool) (round : ℕ)
    (rest : List UInt8) (r : SerialReader) (calls : List (Frame × δ)) :
    SerialReader × List (Frame × δ) :=
  if stop round then (r, calls)
  else
    let chunk := rest.take readSize
    if chunk = [] then (r, calls)
    else
      let (frames, parser) := r.parser.push chunk
      let results := frames.map (dispatch H)
      runReplayLoop H readSize stop (round + 1) (rest.drop readSize)
        { r with parser := parser, framesTotal := r.framesTotal + results.countP Prod.fst }
        (calls ++ results.filterMap Prod.snd)
termination_by rest.length
decreasing_by exact length_drop_lt ‹_›

/-- `_run_replay` of a file that contains `data`: the count it returns, and its calls. -/
def SerialReader.runReplay (H : Handlers δ) (r : SerialReader) (data : List UInt8)
    (readSize : ℕ) (stop : ℕ → Bool) : ℕ × List (Frame × δ) :=
  let (r, calls) := runReplayLoop H readSize stop 0 data r []
  (r.framesTotal, calls)

/-! ### What a cycle reads and delivers -/

/-- The bytes that a cycle reads: none unless the link is up or can be brought up, and the read
succeeds. -/
def Cycle.bytesRead (cfg : Settings) (c : Cycle δ) : List UInt8 :=
  let linkUp :=
    if c.before.needsReconnect then
      match c.before.reconnect cfg c.env.attempts with
      | (.returned true, r, _) => r.ser.isSome
      | _ => false
    else c.before.ser.isSome
  match linkUp, c.env.read with
  | true, .ok chunk => chunk
  | _, _ => []

/-- The count that a cycle returns, if it returns. -/
def PollExit.count : PollExit → ℕ
  | .returned delivered => delivered
  | _ => 0

/-- The calls of `on_frame` for some frames: none for a frame whose decoder raises. -/
def callsOf (H : Handlers δ) (frames : List Frame) : List (Frame × δ) :=
  frames.filterMap fun frame =>
    match H.decodePayload frame with
    | .ok decoded => some (frame, decoded)
    | .error _ => none

/-- The number of calls that return normally. -/
def deliveredOf (H : Handlers δ) (calls : List (Frame × δ)) : ℕ :=
  calls.countP fun call => H.onFrame call.1 call.2

lemma callsOf_append (H : Handlers δ) (frames more : List Frame) :
    callsOf H (frames ++ more) = callsOf H frames ++ callsOf H more := List.filterMap_append

lemma deliveredOf_append (H : Handlers δ) (calls more : List (Frame × δ)) :
    deliveredOf H (calls ++ more) = deliveredOf H calls + deliveredOf H more :=
  List.countP_append

lemma deliveredOf_cons (H : Handlers δ) (call : Frame × δ) (calls : List (Frame × δ)) :
    deliveredOf H (call :: calls) =
      deliveredOf H calls + if H.onFrame call.1 call.2 then 1 else 0 := List.countP_cons

/-- Dispatching frames makes these calls, and counts those that return normally. -/
lemma dispatch_frames (H : Handlers δ) (frames : List Frame) :
    (frames.map (dispatch H)).filterMap Prod.snd = callsOf H frames ∧
      (frames.map (dispatch H)).countP Prod.fst = deliveredOf H (callsOf H frames) := by
  induction frames with
  | nil => exact ⟨rfl, rfl⟩
  | cons frame frames ih =>
    obtain ⟨hcalls, hcount⟩ := ih
    cases hdecode : H.decodePayload frame with
    | error x =>
      have hdispatch : dispatch H frame = (false, none) := by rw [dispatch, hdecode]
      have hnone : callsOf H (frame :: frames) = callsOf H frames := by simp [callsOf, hdecode]
      rw [hnone, List.map_cons, hdispatch]
      exact ⟨hcalls, hcount⟩
    | ok decoded =>
      have hdispatch : dispatch H frame = (H.onFrame frame decoded, some (frame, decoded)) := by
        rw [dispatch, hdecode]
      have hsome : callsOf H (frame :: frames) = (frame, decoded) :: callsOf H frames := by
        simp [callsOf, hdecode]
      rw [hsome, List.map_cons, hdispatch]
      refine ⟨congrArg _ hcalls, ?_⟩
      rw [List.countP_cons, hcount, deliveredOf_cons]

/-! ### Bytes in two parts -/

lemma push_append (p : FrameParser) (a b : List UInt8) :
    p.push (a ++ b) = ((p.push a).1 ++ ((p.push a).2.push b).1, ((p.push a).2.push b).2) := by
  obtain ⟨ps, r, hs, hpush⟩ := push_scans p a
  obtain ⟨qs, r', hs', hpush'⟩ := push_scans (p.push a).2 b
  obtain ⟨us, r'', hs'', hboth⟩ := push_scans p (a ++ b)
  rw [hpush] at hs' hpush'
  have happend := hs.append hs'
  rw [List.append_assoc] at happend
  obtain ⟨rfl, rfl⟩ := hs''.unique happend
  rw [hboth, hpush, hpush', framesOf_append, faultsOf_append, Nat.add_assoc]

lemma push_nil {p : FrameParser} (hp : p.Settled) : p.push [] = ([], p) := by
  obtain ⟨ps, r, hs, hpush⟩ := push_scans p []
  rw [List.append_nil] at hs
  obtain ⟨rfl, rfl⟩ := hs.eq_of_wait hp
  rw [hpush]
  rfl

/-! ### Live reading -/

lemma open_keeps (cfg : Settings) (r : SerialReader) (e : OpenEnv) :
    (r.open_ cfg e).2.1.parser = r.parser := by
  unfold SerialReader.open_
  split
  · split <;> rfl
  · split
    · rfl
    · split
      · rfl
      · split
        · rfl
        · dsimp only
          split <;> rfl

/-- Bringing the link up leaves the parser alone. -/
lemma reconnectLoop_keeps (cfg : Settings) (firstEver : Bool) (attempt : ℕ) (es : List OpenEnv)
    (r : SerialReader) : (reconnectLoop cfg firstEver attempt es r).2.1.parser = r.parser := by
  induction es generalizing attempt r with
  | nil => rfl
  | cons e es ih =>
    rw [reconnectLoop]
    split
    · rfl
    · dsimp only
      split
      · rfl
      · have hopen := open_keeps cfg r e
        split
        · rename_i heq
          rw [heq] at hopen
          exact hopen
        · rename_i heq
          rw [heq] at hopen
          exact (ih _ _).trans hopen

/-- What reading some bytes comes to. -/
structure Feeds (H : Handlers δ) (p : FrameParser) (bytes : List UInt8) (result : PollResult δ) :
    Prop where
  parser : result.reader.parser = (p.push bytes).2
  calls : result.calls = callsOf H (p.push bytes).1
  count : result.exit.count = deliveredOf H result.calls

/-- A cycle that reads nothing. -/
lemma Feeds.nothing (H : Handlers δ) {p : FrameParser} (hp : p.Settled) {result : PollResult δ}
    (hparser : result.reader.parser = p) (hcalls : result.calls = [])
    (hcount : result.exit.count = 0) : Feeds H p [] result := by
  refine ⟨?_, ?_, ?_⟩
  · rw [push_nil hp, hparser]
  · rw [push_nil hp, hcalls]
    rfl
  · rw [hcount, hcalls]
    rfl

lemma readCycle_feeds (H : Handlers δ) {r : SerialReader} (hr : r.parser.Settled)
    (read : Except PyErr (List UInt8)) :
    Feeds H r.parser
      (match r.ser.isSome, read with
      | true, .ok chunk => chunk
      | _, _ => [])
      (r.readCycle H read) := by
  unfold SerialReader.readCycle
  cases hser : r.ser with
  | none => exact .nothing H hr rfl rfl rfl
  | some ser =>
    cases read with
    | error x =>
      dsimp only [Option.isSome_some]
      split
      · exact .nothing H hr rfl rfl rfl
      · exact .nothing H hr rfl rfl rfl
    | ok chunk =>
      dsimp only [Option.isSome_some]
      split
      · rename_i hchunk
        rw [hchunk]
        exact .nothing H hr rfl rfl rfl
      · obtain ⟨hcalls, hcount⟩ := dispatch_frames H (r.parser.push chunk).1
        refine ⟨rfl, hcalls, ?_⟩
        rw [hcalls]
        exact hcount

/-- The cycle made in a state. -/
def SerialReader.cycle (cfg : Settings) (H : Handlers δ) (r : SerialReader) (env : PollEnv) :
    Cycle δ := ⟨r, env, r.pollOnce cfg H env⟩

/-- A run of one more call: the cycle is the last, or the run goes on. -/
lemma cycles_cons (cfg : Settings) (H : Handlers δ) (r : SerialReader) (env : PollEnv)
    (envs : List PollEnv) :
    cycles cfg H r (env :: envs) = [r.cycle cfg H env] ∨
      cycles cfg H r (env :: envs) =
        r.cycle cfg H env :: cycles cfg H (r.cycle cfg H env).result.reader envs := by
  rw [cycles]
  split
  · exact .inr rfl
  · exact .inl rfl

lemma cycle_feeds (cfg : Settings) (H : Handlers δ) {r : SerialReader} (hr : r.parser.Settled)
    (env : PollEnv) :
    Feeds H r.parser ((r.cycle cfg H env).bytesRead cfg) (r.cycle cfg H env).result := by
  unfold Cycle.bytesRead SerialReader.cycle SerialReader.pollOnce
  by_cases hneeds : r.needsReconnect = true
  · have hparser : (r.reconnect cfg env.attempts).2.1.parser = r.parser :=
      reconnectLoop_keeps cfg _ 0 env.attempts r
    simp only [hneeds, if_true]
    generalize r.reconnect cfg env.attempts = outcome at hparser ⊢
    rcases outcome with ⟨⟨_ | _⟩ | x | _, r', evs⟩
    · exact .nothing H hr hparser rfl rfl
    · have hcycle := readCycle_feeds H (r := r') (by rwa [hparser]) env.read
      rw [show r'.parser = r.parser from hparser] at hcycle
      exact ⟨hcycle.parser, hcycle.calls, hcycle.count⟩
    · exact .nothing H hr hparser rfl rfl
    · exact .nothing H hr hparser rfl rfl
  · simp only [hneeds]
    exact readCycle_feeds H hr env.read

/-- A run of cycles makes the calls for the bytes that it reads. -/
lemma cycles_feed (cfg : Settings) (H : Handlers δ) {r : SerialReader} (hr : r.parser.Settled)
    (envs : List PollEnv) :
    (cycles cfg H r envs).flatMap (fun c => c.result.calls) =
        callsOf H (r.parser.push ((cycles cfg H r envs).flatMap (Cycle.bytesRead cfg))).1 ∧
      ((cycles cfg H r envs).map fun c => c.result.exit.count).sum =
        deliveredOf H ((cycles cfg H r envs).flatMap fun c => c.result.calls) := by
  induction envs generalizing r with
  | nil =>
    rw [cycles, List.flatMap_nil, List.flatMap_nil, push_nil hr]
    exact ⟨rfl, rfl⟩
  | cons env envs ih =>
    obtain ⟨hparser, hcalls, hcount⟩ := cycle_feeds cfg H hr env
    have hsettled : (r.cycle cfg H env).result.reader.parser.Settled := by
      rw [hparser]
      exact push_settled _ _
    obtain ⟨hrest, hsum⟩ := ih hsettled
    obtain hlast | hnext := cycles_cons cfg H r env envs
    · rw [hlast]
      simp only [List.flatMap_cons, List.flatMap_nil, List.append_nil, List.map_cons, List.map_nil,
        List.sum_cons, List.sum_nil, Nat.add_zero]
      exact ⟨hcalls, hcount⟩
    · rw [hnext, List.flatMap_cons, List.flatMap_cons, List.map_cons, List.sum_cons, push_append,
        callsOf_append, deliveredOf_append, hcount, hsum, ← hparser, ← hrest, ← hcalls]
      exact ⟨rfl, rfl⟩

/-! ### Replaying -/

/-- Pushing what is left of a file is pushing its next chunk, and then the rest. -/
lemma push_take_drop (p : FrameParser) (rest : List UInt8) (size : ℕ) :
    (p.push rest).1 = (p.push (rest.take size)).1 ++
      ((p.push (rest.take size)).2.push (rest.drop size)).1 := by
  conv_lhs => rw [← List.take_append_drop size rest]
  rw [push_append]

lemma eq_nil_of_take {rest : List UInt8} {size : ℕ} (hsize : 1 ≤ size)
    (h : rest.take size = []) : rest = [] := by
  rcases List.take_eq_nil_iff.mp h with h | h
  · omega
  · exact h

section

variable (H : Handlers δ) {size : ℕ} (hsize : 1 ≤ size)

include hsize

lemma replayLoop_feeds (rest : List UInt8) {p : FrameParser} (hp : p.Settled) (delivered : ℕ)
    (calls : List (Frame × δ)) :
    replayLoop H size rest p delivered calls =
      (delivered + deliveredOf H (callsOf H (p.push rest).1),
        calls ++ callsOf H (p.push rest).1) := by
  induction hn : rest.length using Nat.strong_induction_on generalizing rest p delivered calls with
  | _ n ih =>
    rw [replayLoop]
    dsimp only
    split
    · rename_i hchunk
      rw [eq_nil_of_take hsize hchunk, push_nil hp]
      simp [callsOf, deliveredOf]
    · rename_i hchunk
      have hlt : (rest.drop size).length < n := hn ▸ length_drop_lt hchunk
      obtain ⟨hcalls, hcount⟩ := dispatch_frames H (p.push (rest.take size)).1
      rw [ih _ hlt _ (push_settled p _) _ _ rfl, hcalls, hcount, push_take_drop p rest size,
        callsOf_append, deliveredOf_append, Nat.add_assoc, List.append_assoc]

lemma runReplayLoop_feeds {stop : ℕ → Bool} (hstop : ∀ i, stop i = false) (round : ℕ)
    (rest : List UInt8) {r : SerialReader} (hr : r.parser.Settled) (calls : List (Frame × δ)) :
    (runReplayLoop H size stop round rest r calls).1.framesTotal =
        r.framesTotal + deliveredOf H (callsOf H (r.parser.push rest).1) ∧
      (runReplayLoop H size stop round rest r calls).2 =
        calls ++ callsOf H (r.parser.push rest).1 := by
  induction hn : rest.length using Nat.strong_induction_on generalizing round rest r calls with
  | _ n ih =>
    rw [runReplayLoop, if_neg (by rw [hstop]; exact Bool.false_ne_true)]
    dsimp only
    split
    · rename_i hchunk
      rw [eq_nil_of_take hsize hchunk, push_nil hr]
      simp [callsOf, deliveredOf]
    · rename_i hchunk
      have hlt : (rest.drop size).length < n := hn ▸ length_drop_lt hchunk
      obtain ⟨hcalls, hcount⟩ := dispatch_frames H (r.parser.push (rest.take size)).1
      obtain ⟨htotal, hall⟩ := ih _ hlt (round + 1) (rest.drop size)
        (r := { r with parser := (r.parser.push (rest.take size)).2,
                       framesTotal := r.framesTotal + List.countP Prod.fst
                         ((r.parser.push (rest.take size)).1.map (dispatch H)) })
        (push_settled r.parser _)
        (calls ++ ((r.parser.push (rest.take size)).1.map (dispatch H)).filterMap Prod.snd) rfl
      rw [htotal, hall, hcalls, hcount, push_take_drop r.parser rest size, callsOf_append,
        deliveredOf_append, Nat.add_assoc, List.append_assoc]
      exact ⟨rfl, rfl⟩

end

/-! ### The three loops agree -/

/-- For every byte string, every way in which live reads deliver it (chunks of any sizes, idle
reads, faults and reconnects in between), every chunk size and every behaviour of the decoder
and of the callback: live reading, `replay_bytelog` and `_run_replay` make the calls for the
frames that one parser returns for the bytes, less those whose decoder raises, and all report
the number of the calls that return normally. -/
theorem live_eq_replay (cfg : Settings) (H : Handlers δ) (port : Option String)
    (serialObj : Option SerialObj) (envs : List PollEnv) (data : List UInt8)
    (hdata : (cycles cfg H (.new port serialObj) envs).flatMap (Cycle.bytesRead cfg) = data)
    (chunkSize readSize : ℕ) (hchunk : 1 ≤ chunkSize) (hread : 1 ≤ readSize) (stop : ℕ → Bool)
    (hstop : ∀ i, stop i = false) :
    let calls := callsOf H (FrameParser.new.push data).1
    let live := cycles cfg H (.new port serialObj) envs
    (live.flatMap (fun c => c.result.calls) = calls ∧
        (live.map fun c => c.result.exit.count).sum = deliveredOf H calls) ∧
      replayBytelog H data chunkSize = (deliveredOf H calls, calls) ∧
      (SerialReader.new port serialObj).runReplay H data readSize stop =
        (deliveredOf H calls, calls) := by
  intro calls live
  obtain ⟨hlive, hcount⟩ := cycles_feed cfg H (r := .new port serialObj) new_settled envs
  rw [hdata] at hlive
  refine ⟨⟨hlive, ?_⟩, ?_, ?_⟩
  · rw [hcount, hlive]
    rfl
  · rw [replayBytelog, replayLoop_feeds H hchunk data new_settled, Nat.zero_add, List.nil_append]
  · obtain ⟨htotal, hall⟩ :=
      runReplayLoop_feeds H hread hstop 0 data (r := .new port serialObj) new_settled []
    exact Prod.ext (htotal.trans (Nat.zero_add _)) hall

/-- A decoder and a callback that never raise. -/
def acceptAll : Handlers Unit := { decodePayload := fun _ => .ok (), onFrame := fun _ _ => true }

/-- A read of a link that is up, and one that comes after the link has been opened again. -/
def reads (read : Except PyErr (List UInt8)) : PollEnv := { attempts := [], read := read }

def reopens (chunk : List UInt8) : PollEnv :=
  { attempts := [{ stop := false, factory := .ok ⟨true⟩, importSerial := .ok (),
                   globber := fun _ => [], globber_ne := fun _ => List.not_mem_nil,
                   serialSerial := fun _ _ => .error .osError }],
    read := .ok chunk }

/-- The theorem at a frame that is cut in two by an idle read and a fault. -/
theorem live_eq_replay_ping :
    replayBytelog acceptAll [0xA5, 0x85, 0, 0, 54, 28] 4 = (1, [((0x85, []), ())]) := by
  have hagree := live_eq_replay { hasFactory := true } acceptAll none (some ⟨true⟩)
    [reads (.ok [0xA5, 0x85, 0]), reads (.ok []), reads (.error .osError), reopens [0, 54, 28]]
    [0xA5, 0x85, 0, 0, 54, 28] (by decide +kernel) 4 4 (by decide) (by decide) (fun _ => false)
    (fun _ => rfl)
  rw [hagree.2.1]
  decide +kernel

end SrtGateway.SerialIo
