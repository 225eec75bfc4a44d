/-
The gateway as a system: one process after another, over one store.

A process runs a reader thread, which brings the link up, reads and parses, and then hands the
parsed frames to the dispatcher one by one; an uplink thread, which runs `run_once`; and a
downlink thread, which polls and sends.  A step is a step of one of them, or the end of the
process and the start of the next.  Any order of the steps is a run.  The store outlives a
process; its parser, its parsed frames, its counters and its caches do not.

The store is taken to be atomic: the calls on it that a step makes are made without a statement
of another thread or the end of the process in between, and they raise only for a value that
cannot be bound; that of the record of a fingerprint may raise for another reason, and then
leaves the row as it was.  The shared connection does not see to this
(`SrtGateway.Store.Connection`): a commit or a rollback is of all threads.  What is proved of
the runs of a gateway is proved of runs in which it is so; the uplinker, statement by statement
between the other threads, is in `SrtGateway.Uplink.Shared`.

In every state the frames that a process has dispatched, and those that it still has to, are
the frames that one parser returns for the bytes it has read, and its counters and caches are
functions of the dispatched ones (`pipeline_run`).
-/
import SrtGateway.Downlink.Boot
import SrtGateway.Main.Dispatcher
import SrtGateway.Runs.Simulation
import SrtGateway.SerialIo.Replay
import SrtGateway.Uplink.System

namespace SrtGateway.Main

open SrtGateway.Protocol SrtGateway.Store

/-! ### The system -/

/-- What a process has read, and what became of the frames in it. -/
structure Process where
  bytes : List UInt8
  dispatched : List Frame
  /-- The frames that were parsed and not dispatched. -/
  pending : List Frame

/-- A `Gateway`, with the store and the uplinker as in the `Uplink.System` that it extends. -/
structure Gateway extends Uplink.System where
  /-- What `record_ack` keeps; the `last_error` that it shares with `poll_once` is kept as
  each of them sets it. -/
  acks : AckLog
  baseHealth : Option Decoded
  counts : ℕ → ℕ
  serial : SerialIo.SerialReader
  /-- The reader thread is between two calls of `poll_once`, or dispatching. -/
  reading : Bool
  /-- The calls of `on_frame` that the running `poll_once` still has to make. -/
  pending : List (Frame × Decoded)
  down : Downlink.CloudDownlinker
  /-- `first` of `_downlink_loop`. -/
  first : Bool
  bytes : List UInt8
  dispatched : List Frame
  /-- The processes that have ended. -/
  past : List Process

/-- What stays fixed from one process to the next. -/
structure Config where
  settings : SerialIo.Settings
  serialPort : Option String

/-- The decoder never raises, and `on_frame` catches what its branches raise. -/
def handlers : SerialIo.Handlers Decoded :=
  { decodePayload := fun frame => .ok (decodePayload frame.1.toNat frame.2),
    onFrame := fun _ _ => true }

/-- A new process: over the store and the record of what happened before. -/
def Gateway.boot (cfg : Config) (system : Uplink.System) (past : List Process) : Gateway :=
  { system with
    acks := { lastAcks := fun _ => none, lastError := none }
    baseHealth := none
    counts := fun _ => 0
    serial := .new cfg.serialPort none
    reading := true
    pending := []
    down := .new (system.db.downlinkState.map Prod.fst)
    first := true
    bytes := []
    dispatched := []
    past := past }

/-- A gateway that has never run. -/
def Gateway.init (cfg : Config) : Gateway := .boot cfg .init []

def Gateway.dispatcher (g : Gateway) : FrameDispatcher :=
  { store := g.db, downlinker := some g.acks, baseHealth := g.baseHealth, counts := g.counts }

inductive Step where
  /-- The reader calls `poll_once`, up to the parsed frames. -/
  | read (env : SerialIo.PollEnv)
  /-- The reader calls `on_frame` for the next parsed frame. -/
  | dispatch
  | uplinkStart (batchSize : ℕ)
  | uplinkAdvance (world : Uplink.World)
  /-- The downlink thread calls `poll_once`, at the given time. -/
  | downlinkPoll (env : Downlink.PollEnv) (nowMs : ℤ)
  /-- A `send` of the downlink thread fails and closes the port. -/
  | sendFails (x : PyErr)
  /-- The process ends, after any step, and a new one starts. -/
  | restart

/-! ### The steps -/

variable (cfg : Config)

/-- A call of `poll_once` that raises, or does not come back, is the last of its thread. -/
def Gateway.read (g : Gateway) (env : SerialIo.PollEnv) : Gateway :=
  if g.reading && g.pending.isEmpty then
    let c := g.serial.cycle cfg.settings handlers env
    { g with
      serial := { c.result.reader with framesTotal := g.serial.framesTotal }
      reading := match c.result.exit with
        | .returned _ => true
        | _ => false
      pending := c.result.calls
      bytes := g.bytes ++ c.bytesRead cfg.settings }
  else g

/-- The uplink for which a dispatched frame creates a row, with the id of the row. -/
def createdOf (db : Db) (frameType : ℕ) (decoded : Decoded) : List (ℕ × Uplink) :=
  match decoded with
  | .uplink u =>
    if frameType = T_UPLINK then
      match (db.insertFix u).1 with
      | .ok true => [(db.nextId, u)]
      | _ => []
    else []
  | _ => []

def Gateway.dispatch (g : Gateway) : Gateway :=
  match g.pending with
  | [] => g
  | (frame, decoded) :: pending =>
    let d := g.dispatcher.onFrame frame.1.toNat decoded
    { g with
      db := d.store
      created := g.created ++ createdOf g.db frame.1.toNat decoded
      acks := d.downlinker.getD g.acks
      baseHealth := d.baseHealth
      counts := d.counts
      serial := { g.serial with framesTotal := g.serial.framesTotal + 1 }
      pending := pending
      dispatched := g.dispatched ++ [frame] }

/-- The store after a poll; the mirrored race, which nothing reads, is left out.  The INSERT and
its commit are taken as one. -/
def recordPoll (poll : Downlink.PollResult) (db : Db) (nowMs : ℤ) : Db :=
  match poll.status, poll.after.cached with
  | some .applied, some fp => db.storeFingerprint fp nowMs
  | _, _ => db

/-- A poll loads the fingerprint from the store; it is one step, from the GET to the record. -/
def Gateway.downlinkPoll (g : Gateway) (env : Downlink.PollEnv) (nowMs : ℤ) : Gateway :=
  let d := { g.down with cached := g.db.downlinkState.map Prod.fst }
  let result := d.pollOnce g.first env
  { g with
    db := recordPoll result g.db nowMs
    down := result.after
    first := false }

/-- The record of the running process. -/
def Gateway.process (g : Gateway) : Process :=
  { bytes := g.bytes, dispatched := g.dispatched, pending := g.pending.map Prod.fst }

def Gateway.step (g : Gateway) : Step → Gateway
  | .read env => g.read cfg env
  | .dispatch => g.dispatch
  | .uplinkStart batchSize => { g with toSystem := g.toSystem.step (.start batchSize) }
  | .uplinkAdvance world => { g with toSystem := g.toSystem.step (.advance world) }
  | .downlinkPoll env nowMs => g.downlinkPoll env nowMs
  | .sendFails x => { g with serial := { g.serial with lastError := some x }.close }
  | .restart => .boot cfg (g.toSystem.step .crash) (g.past ++ [g.process])

/-- The gateway after some steps, from a store that is empty. -/
def Gateway.run (steps : List Step) : Gateway := Runs.run (Gateway.step cfg) (.init cfg) steps

/-- The processes so far, the running one last. -/
def Gateway.processes (g : Gateway) : List Process := g.past ++ [g.process]

lemma recordPoll_of_not_applied {poll : Downlink.PollResult} (h : poll.status ≠ some .applied)
    (db : Db) (nowMs : ℤ) : recordPoll poll db nowMs = db := by
  unfold recordPoll
  split
  · exact absurd ‹_› h
  · rfl

/-! ### What a dispatcher keeps of the frames -/

/-- The ACK in a frame, if it is one that can be decoded. -/
def ackOf (frame : Frame) : Option Ack :=
  if frame.1.toNat = T_ACK then decodeAck frame.2 else none

/-- The counters and caches of a dispatcher, as functions of the frames it has got. -/
structure Tallies (d : FrameDispatcher) (frames : List Frame) : Prop where
  counts : ∀ t, d.counts t = frames.countP fun frame => frame.1.toNat = t
  baseHealth : d.baseHealth =
    (frames.filter fun frame => frame.1.toNat = T_HEALTH).getLast?.map
      fun frame => decodePayload T_HEALTH frame.2
  acks : ∀ l, d.downlinker = some l → ∀ refType, l.lastAcks refType =
    ((frames.filterMap ackOf).filter fun a => a.refType = refType).getLast?

lemma decodePayload_ack (payload : List UInt8) :
    decodePayload T_ACK payload = ((decodeAck payload).map Decoded.ack).getD (.raw payload) := by
  rw [decodePayload, if_pos rfl]

/-- The frame is the last one of a kind, or the last one is as before. -/
lemma getLast_filter_concat {α : Type} (p : α → Bool) (l : List α) (a : α) :
    ((l ++ [a]).filter p).getLast? = if p a then some a else (l.filter p).getLast? := by
  cases hp : p a <;> simp [hp]

lemma onFrame_counts (d : FrameDispatcher) (frameType : ℕ) (decoded : Decoded) :
    (d.onFrame frameType decoded).counts =
      Function.update d.counts frameType (d.counts frameType + 1) := by
  unfold FrameDispatcher.onFrame
  split_ifs
  · cases decoded <;> rfl
  · rfl
  · rfl
  · cases decoded <;> rfl
  · rfl

lemma onFrame_baseHealth (d : FrameDispatcher) (frameType : ℕ) (decoded : Decoded) :
    (d.onFrame frameType decoded).baseHealth =
      if frameType = T_HEALTH then some decoded else d.baseHealth := by
  unfold FrameDispatcher.onFrame
  split_ifs with huplink hhealth
  · exact absurd (huplink.symm.trans hhealth) (by decide)
  · cases decoded <;> rfl
  · rfl
  · rfl
  · cases decoded <;> rfl
  · rfl

lemma onFrame_downlinker (d : FrameDispatcher) (frameType : ℕ) (decoded : Decoded) :
    (d.onFrame frameType decoded).downlinker =
      if frameType = T_ACK then d.downlinker.map (·.recordAck decoded) else d.downlinker := by
  unfold FrameDispatcher.onFrame
  split_ifs with huplink hack hhealth hack'
  · exact absurd (huplink.symm.trans hack) (by decide)
  · cases decoded <;> rfl
  · exact absurd (hhealth.symm.trans hack') (by decide)
  · rfl
  · rfl
  · cases decoded <;> rfl
  · rfl

/-- **A dispatched frame is tallied.** -/
lemma Tallies.onFrame {d : FrameDispatcher} {frames : List Frame} (h : Tallies d frames)
    (frame : Frame) :
    Tallies (d.onFrame frame.1.toNat (decodePayload frame.1.toNat frame.2))
      (frames ++ [frame]) where
  counts t := by
    rw [onFrame_counts, List.countP_append, List.countP_singleton, ← h.counts]
    by_cases ht : frame.1.toNat = t
    · rw [ht, Function.update_self]
      simp
    · rw [Function.update_of_ne (Ne.symm ht)]
      simp [ht]
  baseHealth := by
    rw [onFrame_baseHealth, getLast_filter_concat, h.baseHealth]
    by_cases ht : frame.1.toNat = T_HEALTH
    · simp [ht]
    · simp [ht]
  acks l hl refType := by
    rw [onFrame_downlinker] at hl
    rw [List.filterMap_append]
    by_cases ht : frame.1.toNat = T_ACK
    · rw [if_pos ht] at hl
      obtain ⟨l₀, hl₀, rfl⟩ := Option.map_eq_some_iff.mp hl
      rw [ht, decodePayload_ack]
      cases hack : decodeAck frame.2 with
      | none => simpa [ackOf, ht, hack, AckLog.recordAck] using h.acks l₀ hl₀ refType
      | some a =>
        have hone : [frame].filterMap ackOf = [a] := by simp [ackOf, ht, hack]
        rw [hone, getLast_filter_concat, ← h.acks l₀ hl₀]
        by_cases hr : a.refType = refType
        · subst hr
          simp [AckLog.recordAck]
        · simp [AckLog.recordAck, hr, Function.update_of_ne (Ne.symm hr)]
    · rw [if_neg ht] at hl
      have hone : [frame].filterMap ackOf = [] := by simp [ackOf, ht]
      rw [hone, List.append_nil]
      exact h.acks l hl refType

/-! ### The pipeline of a process -/

/-- The frames of a process are those that one parser returns for the bytes it has read. -/
def Process.Parsed (p : Process) : Prop :=
  p.dispatched ++ p.pending = (FrameParser.new.push p.bytes).1

/-- What holds in every state. -/
structure Pipeline (g : Gateway) : Prop where
  parser : g.serial.parser = (FrameParser.new.push g.bytes).2
  parsed : ∀ p ∈ g.processes, p.Parsed
  decoded : ∀ call ∈ g.pending, call.2 = decodePayload call.1.1.toNat call.1.2
  tallies : Tallies g.dispatcher g.dispatched
  framesTotal : g.serial.framesTotal = g.dispatched.length

lemma pipeline_boot (cfg : Config) (system : Uplink.System) {past : List Process}
    (hpast : ∀ p ∈ past, p.Parsed) : Pipeline (.boot cfg system past) where
  parser := (congrArg Prod.snd (SerialIo.push_nil new_settled)).symm
  parsed p hp := by
    rcases List.mem_append.mp hp with hp | hp
    · exact hpast p hp
    · obtain rfl := List.mem_singleton.mp hp
      rw [Process.Parsed]
      exact (congrArg Prod.fst (SerialIo.push_nil new_settled)).symm
  decoded call hcall := absurd hcall List.not_mem_nil
  tallies :=
    { counts := fun _ => rfl, baseHealth := rfl,
      acks := by
        rintro l ⟨⟩ refType
        rfl }
  framesTotal := rfl

/-- The calls for some frames, with a decoder and a callback that do not raise. -/
lemma callsOf_handlers (frames : List Frame) :
    SerialIo.callsOf handlers frames =
      frames.map fun frame => (frame, decodePayload frame.1.toNat frame.2) := by
  rw [SerialIo.callsOf, ← List.filterMap_eq_map]
  rfl

/-- The frames that the running process has parsed. -/
lemma Pipeline.running {g : Gateway} (h : Pipeline g) :
    g.dispatched ++ g.pending.map Prod.fst = (FrameParser.new.push g.bytes).1 :=
  h.parsed g.process (List.mem_append_right _ (List.mem_singleton_self _))

/-- A step of the running process that changes neither its record nor its serial side. -/
lemma Pipeline.frame {g g' : Gateway} (h : Pipeline g) (hpast : g'.past = g.past)
    (hprocess : g'.process = g.process) (hpending : g'.pending = g.pending)
    (hparser : g'.serial.parser = g.serial.parser)
    (htotal : g'.serial.framesTotal = g.serial.framesTotal)
    (htallies : Tallies g'.dispatcher g.dispatched) : Pipeline g' := by
  have hbytes : g'.bytes = g.bytes := congrArg Process.bytes hprocess
  have hdispatched : g'.dispatched = g.dispatched := congrArg Process.dispatched hprocess
  refine ⟨?_, ?_, ?_, ?_, ?_⟩
  · rw [hparser, hbytes, h.parser]
  · rw [Gateway.processes, hpast, hprocess]
    exact h.parsed
  · rw [hpending]
    exact h.decoded
  · rwa [hdispatched]
  · rw [htotal, hdispatched, h.framesTotal]

/-- A call of `poll_once`, as far as the pipeline is concerned: none of the state changes, or
nothing was pending, and what was read is parsed. -/
lemma read_cases (g : Gateway) (env : SerialIo.PollEnv) (hsettled : g.serial.parser.Settled) :
    g.read cfg env = g ∨ (g.pending = [] ∧ ∃ chunk,
      (g.read cfg env).serial.parser = (g.serial.parser.push chunk).2 ∧
      (g.read cfg env).pending = (g.serial.parser.push chunk).1.map
        (fun frame => (frame, decodePayload frame.1.toNat frame.2)) ∧
      (g.read cfg env).process =
        ⟨g.bytes ++ chunk, g.dispatched, (g.serial.parser.push chunk).1⟩) := by
  unfold Gateway.read
  split
  · rename_i hidle
    obtain ⟨hparser, hcalls, -⟩ := SerialIo.cycle_feeds cfg.settings handlers hsettled env
    rw [callsOf_handlers] at hcalls
    generalize g.serial.cycle cfg.settings handlers env = c at hparser hcalls ⊢
    refine .inr ⟨by simpa using (Bool.and_eq_true_iff.mp hidle).2, c.bytesRead cfg.settings,
      hparser, hcalls, ?_⟩
    simp [Gateway.process, hcalls, Function.comp_def]
  · exact .inl rfl

/-- A call of `poll_once` parses what it has read. -/
lemma Pipeline.read {g : Gateway} (h : Pipeline g) (env : SerialIo.PollEnv) :
    Pipeline (g.read cfg env) := by
  have hsettled : g.serial.parser.Settled := by
    rw [h.parser]
    exact push_settled _ _
  have hsame : (g.read cfg env).dispatcher = g.dispatcher ∧
      (g.read cfg env).serial.framesTotal = g.serial.framesTotal ∧
      (g.read cfg env).past = g.past := by
    unfold Gateway.read
    split <;> exact ⟨rfl, rfl, rfl⟩
  obtain ⟨hdispatcher, htotal, hpast⟩ := hsame
  obtain hsame | ⟨hempty, chunk, hparser, hpending, hprocess⟩ := read_cases cfg g env hsettled
  · rw [hsame]
    exact h
  have hbytes : (g.read cfg env).bytes = g.bytes ++ chunk := congrArg Process.bytes hprocess
  have hdispatched : (g.read cfg env).dispatched = g.dispatched :=
    congrArg Process.dispatched hprocess
  have hframes : g.dispatched = (FrameParser.new.push g.bytes).1 := by
    rw [← h.running, hempty, List.map_nil, List.append_nil]
  rw [h.parser] at hparser hpending hprocess
  refine ⟨?_, ?_, ?_, ?_, ?_⟩
  · rw [hparser, hbytes, SerialIo.push_append]
  · intro p hp
    rw [Gateway.processes, hpast] at hp
    rcases List.mem_append.mp hp with hp | hp
    · exact h.parsed p (List.mem_append_left _ hp)
    · obtain rfl := List.mem_singleton.mp hp
      rw [Process.Parsed, hprocess, SerialIo.push_append]
      exact congrArg (· ++ _) hframes
  · intro call hcall
    rw [hpending] at hcall
    obtain ⟨frame, -, rfl⟩ := List.mem_map.mp hcall
    rfl
  · rw [hdispatcher, hdispatched]
    exact h.tallies
  · rw [htotal, hdispatched, h.framesTotal]

/-- A call of `on_frame`, as far as the pipeline is concerned. -/
lemma dispatch_cons {g : Gateway} {frame : Frame} {decoded : Decoded}
    {pending : List (Frame × Decoded)} (hpending : g.pending = (frame, decoded) :: pending) :
    g.dispatch.dispatcher = g.dispatcher.onFrame frame.1.toNat decoded ∧
      g.dispatch.process = ⟨g.bytes, g.dispatched ++ [frame], pending.map Prod.fst⟩ ∧
      g.dispatch.pending = pending ∧ g.dispatch.past = g.past ∧
      g.dispatch.serial = { g.serial with framesTotal := g.serial.framesTotal + 1 } := by
  have hacks : (g.dispatcher.onFrame frame.1.toNat decoded).downlinker =
      some ((g.dispatcher.onFrame frame.1.toNat decoded).downlinker.getD g.acks) := by
    rw [onFrame_downlinker]
    split <;> rfl
  unfold Gateway.dispatch
  rw [hpending]
  dsimp only
  generalize g.dispatcher.onFrame frame.1.toNat decoded = d at hacks ⊢
  obtain ⟨store, downlinker, baseHealth, counts⟩ := d
  exact ⟨congrArg (FrameDispatcher.mk store · baseHealth counts) hacks.symm, rfl, rfl, rfl, rfl⟩

/-- A call of `on_frame` takes the next frame from those that are still to be dispatched. -/
lemma Pipeline.dispatch {g : Gateway} (h : Pipeline g) : Pipeline g.dispatch := by
  rcases hcalls : g.pending with _ | ⟨⟨frame, decoded⟩, pending⟩
  · have hsame : g.dispatch = g := by rw [Gateway.dispatch, hcalls]
    rw [hsame]
    exact h
  obtain ⟨hdispatcher, hprocess, hpending, hpast, hserial⟩ := dispatch_cons hcalls
  have hbytes : g.dispatch.bytes = g.bytes := congrArg Process.bytes hprocess
  have hdispatched : g.dispatch.dispatched = g.dispatched ++ [frame] :=
    congrArg Process.dispatched hprocess
  have hdecoded : decoded = decodePayload frame.1.toNat frame.2 :=
    h.decoded (frame, decoded) (hcalls ▸ List.mem_cons_self)
  have hrunning := h.running
  rw [hcalls, List.map_cons] at hrunning
  refine ⟨?_, ?_, ?_, ?_, ?_⟩
  · rw [hserial, hbytes, h.parser]
  · intro p hp
    rw [Gateway.processes, hpast] at hp
    rcases List.mem_append.mp hp with hp | hp
    · exact h.parsed p (List.mem_append_left _ hp)
    · obtain rfl := List.mem_singleton.mp hp
      rw [Process.Parsed, hprocess, ← hrunning, List.append_assoc, List.singleton_append]
  · intro call hcall
    rw [hpending] at hcall
    exact h.decoded call (hcalls ▸ List.mem_cons_of_mem _ hcall)
  · rw [hdispatcher, hdispatched, hdecoded]
    exact h.tallies.onFrame frame
  · rw [hserial, hdispatched, List.length_append, List.length_singleton, ← h.framesTotal]

/-! ### A whole cycle -/

lemma open_framesTotal (settings : SerialIo.Settings) (r : SerialIo.SerialReader)
    (e : SerialIo.OpenEnv) : (r.open_ settings e).2.1.framesTotal = r.framesTotal := by
  unfold SerialIo.SerialReader.open_
  split
  · split <;> rfl
  · split
    · rfl
    · split
      · rfl
      · split
        · rfl
        · dsimp only
          split <;> rfl

lemma reconnectLoop_framesTotal (settings : SerialIo.Settings) (firstEver : Bool) (attempt : ℕ)
    (es : List SerialIo.OpenEnv) (r : SerialIo.SerialReader) :
    (SerialIo.reconnectLoop settings firstEver attempt es r).2.1.framesTotal = r.framesTotal := by
  induction es generalizing attempt r with
  | nil => rfl
  | cons e es ih =>
    rw [SerialIo.reconnectLoop]
    split
    · rfl
    · dsimp only
      split
      · rfl
      · have hopen := open_framesTotal settings r e
        split
        · rename_i heq
          rw [heq] at hopen
          exact hopen
        · rename_i heq
          rw [heq] at hopen
          exact (ih _ _).trans hopen

/-- A call of `poll_once` counts the frames that it delivers. -/
lemma pollOnce_framesTotal {δ : Type} (settings : SerialIo.Settings) (H : SerialIo.Handlers δ)
    (r : SerialIo.SerialReader) (env : SerialIo.PollEnv) :
    (r.pollOnce settings H env).reader.framesTotal =
      r.framesTotal + (r.pollOnce settings H env).exit.count := by
  have hcycle (r : SerialIo.SerialReader) : (r.readCycle H env.read).reader.framesTotal =
      r.framesTotal + (r.readCycle H env.read).exit.count := by
    unfold SerialIo.SerialReader.readCycle
    split
    · rfl
    · split
      · split <;> rfl
      · split <;> rfl
  unfold SerialIo.SerialReader.pollOnce
  split
  · have htotal : (r.reconnect settings env.attempts).2.1.framesTotal = r.framesTotal :=
      reconnectLoop_framesTotal settings _ 0 env.attempts r
    generalize r.reconnect settings env.attempts = outcome at htotal ⊢
    rcases outcome with ⟨⟨_ | _⟩ | x | _, r', evs⟩
    · exact htotal
    · dsimp only at htotal ⊢
      rw [hcycle, htotal]
    · exact htotal
    · exact htotal
  · exact hcycle r

/-- **The steps of a cycle make up the whole of it**: reading, and then dispatching everything
that was parsed, leaves the reader as `poll_once` does. -/
lemma read_dispatch_serial {g : Gateway} (h : Pipeline g) (hidle : g.pending = [])
    (hreading : g.reading = true) (env : SerialIo.PollEnv) :
    (Gateway.dispatch^[(g.read cfg env).pending.length] (g.read cfg env)).serial =
      (g.serial.pollOnce cfg.settings handlers env).reader := by
  have hall (n : ℕ) (g : Gateway) (hn : g.pending.length = n) :
      (Gateway.dispatch^[n] g).serial =
        { g.serial with framesTotal := g.serial.framesTotal + n } := by
    induction n generalizing g with
    | zero => rfl
    | succ n ih =>
      obtain ⟨⟨frame, decoded⟩, pending, hpending⟩ := List.exists_cons_of_length_eq_add_one hn
      obtain ⟨-, -, hrest, -, hserial⟩ := dispatch_cons hpending
      have hlen : g.dispatch.pending.length = n := by
        rw [hrest]
        rw [hpending, List.length_cons] at hn
        omega
      rw [Function.iterate_succ_apply, ih _ hlen, hserial]
      simp only [Nat.add_assoc, Nat.add_comm 1 n]
  have hsettled : g.serial.parser.Settled := by
    rw [h.parser]
    exact push_settled _ _
  have htotal := pollOnce_framesTotal cfg.settings handlers g.serial env
  obtain ⟨-, -, hcount⟩ := SerialIo.cycle_feeds cfg.settings handlers hsettled env
  have hdelivered (calls : List (Frame × Decoded)) :
      SerialIo.deliveredOf handlers calls = calls.length := congrFun List.countP_true calls
  rw [hdelivered] at hcount
  rw [hall _ _ rfl]
  simp only [Gateway.read, hidle, hreading, List.isEmpty_nil, Bool.and_self, if_true]
  have hreader : (g.serial.cycle cfg.settings handlers env).result =
      g.serial.pollOnce cfg.settings handlers env := rfl
  rw [hreader] at hcount ⊢
  rw [← hcount, ← htotal]

/-! ### Runs -/

lemma Pipeline.step {g : Gateway} (h : Pipeline g) (st : Step) : Pipeline (g.step cfg st) := by
  have htallies (db : Db) : Tallies { g.dispatcher with store := db } g.dispatched :=
    ⟨h.tallies.counts, h.tallies.baseHealth, h.tallies.acks⟩
  cases st with
  | read env => exact h.read cfg env
  | dispatch => exact h.dispatch
  | uplinkStart batchSize => exact h.frame rfl rfl rfl rfl rfl (htallies _)
  | uplinkAdvance world => exact h.frame rfl rfl rfl rfl rfl (htallies _)
  | downlinkPoll env nowMs => exact h.frame rfl rfl rfl rfl rfl (htallies _)
  | sendFails x => exact h.frame rfl rfl rfl rfl rfl h.tallies
  | restart => exact pipeline_boot cfg _ h.parsed

lemma pipeline_init : Pipeline (.init cfg) :=
  pipeline_boot cfg _ fun _ hp => absurd hp List.not_mem_nil

lemma pipeline_of_run (steps : List Step) : Pipeline (Gateway.run cfg steps) :=
  Runs.run_preserves (Gateway.step cfg) (fun _ st h => h.step cfg st) (pipeline_init cfg) steps

/-- **The pipeline.**  In every state of every run of the gateway: what a process has
dispatched, followed by what it has parsed and not dispatched, are the frames that one parser
returns for all the bytes that it has read, for every process so far; and the frame counters,
the cached base HEALTH and the last ACK of each type are those of the frames that the running
process has dispatched. -/
theorem pipeline_run (steps : List Step) :
    let g := Gateway.run cfg steps
    (∀ p ∈ g.processes, p.dispatched ++ p.pending = (FrameParser.new.push p.bytes).1) ∧
      g.serial.framesTotal = g.dispatched.length ∧ Tallies g.dispatcher g.dispatched := by
  intro g
  have h : Pipeline g := pipeline_of_run cfg steps
  exact ⟨h.parsed, h.framesTotal, h.tallies⟩

/-! ### What has been dispatched -/

/-- The frame that a step dispatches. -/
def frameOf (g : Gateway) : Step → List Frame
  | .dispatch => (g.pending.head?.map Prod.fst).toList
  | .read _ | .uplinkStart _ | .uplinkAdvance _ | .downlinkPoll _ _ | .sendFails _ | .restart => []

/-- The frames that have been dispatched, by all processes. -/
def Gateway.frames (g : Gateway) : List Frame := g.processes.flatMap Process.dispatched

lemma frames_step (g : Gateway) (st : Step) :
    (g.step cfg st).frames = g.frames ++ frameOf g st := by
  have hsame : ∀ g' : Gateway, g'.past = g.past → g'.dispatched = g.dispatched →
      g'.frames = g.frames ++ [] := by
    intro g' hpast hdispatched
    simp [Gateway.frames, Gateway.processes, Gateway.process, hpast, hdispatched]
  cases st with
  | read env =>
    refine hsame _ ?_ ?_
    · simp only [Gateway.step, Gateway.read]
      split <;> rfl
    · simp only [Gateway.step, Gateway.read]
      split <;> rfl
  | dispatch =>
    rcases hcalls : g.pending with _ | ⟨⟨frame, decoded⟩, pending⟩
    · simp [Gateway.step, Gateway.dispatch, frameOf, hcalls]
    · obtain ⟨-, hprocess, -, hpast, -⟩ := dispatch_cons hcalls
      have hframe : frameOf g .dispatch = [frame] := by simp [frameOf, hcalls]
      rw [hframe, Gateway.step, Gateway.frames, Gateway.processes, hpast, hprocess]
      simp [Gateway.frames, Gateway.processes, Gateway.process]
  | uplinkStart | uplinkAdvance | downlinkPoll | sendFails => exact hsame _ rfl rfl
  | restart =>
    simp [Gateway.step, Gateway.boot, Gateway.frames, Gateway.processes, Gateway.process,
      frameOf]

/-- The dispatched frames are those that the steps dispatch. -/
lemma frames_of_run (steps : List Step) : (Gateway.run cfg steps).frames =
    Runs.answers (Gateway.step cfg) frameOf (.init cfg) steps := by
  have hrecord := Runs.record_answers (Gateway.step cfg) frameOf Gateway.frames
    (fun frame => [frame]) (P := fun _ => True) (fun _ _ _ => trivial)
    (fun g st _ => by simpa using frames_step cfg g st) (s := .init cfg) trivial steps
  rw [List.flatMap_singleton'] at hrecord
  exact hrecord

end SrtGateway.Main
