/-
A single pass of the gateway (`run_once`, for `--once` and `--replay`).

A pass streams a capture through the pipeline, if it is given one, makes one call of the
uplinker's `run_once`, one forced poll of the race state, and a snapshot.  The store afterwards
is that of the capture's frames with the oldest batch handled, and the snapshot is of this
store; but nothing in a pass opens the serial port, so the poll never programs the base
(`once_pass`).
-/
import SrtGateway.Main.Health
import SrtGateway.Main.Programmed
import SrtGateway.Uplink.Drain

namespace SrtGateway.Main

open SrtGateway.Protocol SrtGateway.Store

/-! ### The pass -/

/-- What a pass meets. -/
structure OnceEnv where
  /-- The contents of the file at `replay_path`, if there is one. -/
  capture : Option (List UInt8)
  cloud : Uplink.Env
  /-- What `http_get` does. -/
  get : Except PyErr Downlink.Response
  /-- Whether reading the cached fingerprint raises. -/
  load : Except PyErr Unit
  /-- What writing the frames of the poll does, where it comes to that. -/
  write : ℕ → Except (PyErr × String) Unit
  /-- Whether writing the fingerprint raises. -/
  store : Except PyErr Unit
  nowMs : ℤ

/-- What comes of a pass: the returned dict, the store, and what it has sent on either side. -/
structure OncePass where
  uplink : Uplink.RunStats
  /-- An exception is logged, and stands for `{"status": "error"}`. -/
  downlink : Except PyErr Downlink.PollStats
  health : Snapshot
  db : Db
  calls : List (Effect.Event Uplink.Call Uplink.Answer)
  frames : List (List UInt8)

/-- The default of `read_size`, and that of `batch_size`. -/
def READ_SIZE : ℕ := 4096

def BATCH_SIZE : ℕ := 100

/-- What the reader is after the capture, and the calls of `on_frame` that it has made. -/
def readCapture (serial : SerialIo.SerialReader) (capture : Option (List UInt8)) :
    SerialIo.SerialReader × List (Frame × Decoded) :=
  match capture with
  | some data => SerialIo.runReplayLoop handlers READ_SIZE (fun _ => false) 0 data serial []
  | none => (serial, [])

/-- What the poll meets; the frames go to `send` of the reader. -/
def OnceEnv.poll (env : OnceEnv) (serial : SerialIo.SerialReader) : Downlink.PollEnv :=
  { get := env.get, load := env.load, send := fun i => (serial.send (env.write i)).1,
    store := env.store }

/-- `run_once` of a new gateway.  The reader is not connected, so a `send` leaves it as it is. -/
def runOnce (serialPort : Option String) (db : Db) (env : OnceEnv) : OncePass :=
  let (serial, calls) := readCapture (.new serialPort none) env.capture
  let d := calls.foldl (fun d call => d.onFrame call.1.1.toNat call.2) (FrameDispatcher.new db)
  let ((up, stats), site) := env.cloud.runOnce BATCH_SIZE .new ⟨d.store, []⟩
  let down := Downlink.CloudDownlinker.new (site.db.downlinkState.map Prod.fst)
  let poll := down.pollOnce true (env.poll serial)
  let db := recordPoll poll site.db env.nowMs
  let acks := d.downlinker.getD { lastAcks := fun _ => none, lastError := none }
  { uplink := stats, downlink := poll.outcome,
    health := (HealthState.all serial db up poll.after acks d.baseHealth).snapshot,
    db := db, calls := site.history, frames := poll.sent }

/-! ### Without a port -/

/-- A reader that is not connected sends nothing, and stays as it is. -/
lemma send_disconnected {r : SerialIo.SerialReader} (h : r.connected = false)
    (write : Except (PyErr × String) Unit) :
    r.send write = (.error (.notConnected "serial port not connected"), r) := by
  simp [SerialIo.SerialReader.send, h]

/-- What a forced poll says and does when no frame can be sent. -/
structure Undelivered (x : PyErr) (d : Downlink.CloudDownlinker) (result : Downlink.PollResult) :
    Prop where
  sent : result.sent = []
  cached : result.after.cached = d.cached
  applied : result.status ≠ some .applied
  lastDownlinkOk : result.after.lastDownlinkOk = d.lastDownlinkOk
  /-- There was nothing to send, or the first frame could not be sent. -/
  stats : ∀ stats, result.outcome = .ok stats → stats.sent = 0 ∧
    (stats.status = .idle ∧ stats.error = none ∨ stats.status = .error ∧ stats.error = some x)

lemma pollOnce_undelivered (d : Downlink.CloudDownlinker) {env : Downlink.PollEnv} {x : PyErr}
    (hsend : ∀ i, env.send i = .error x) : Undelivered x d (d.pollOnce true env) := by
  have hraised : ∀ (y : PyErr) mirrored, Undelivered x d ⟨.error y, d, mirrored, []⟩ :=
    fun y mirrored => ⟨rfl, rfl, by simp [Downlink.PollResult.status], rfl, fun _ h => by cases h⟩
  rw [Downlink.CloudDownlinker.pollOnce]
  rcases Downlink.fetchRace env.get with ⟨_ | race, err⟩
  · refine ⟨rfl, rfl, by simp [Downlink.PollResult.status], rfl, ?_⟩
    rintro stats ⟨⟩
    exact ⟨rfl, .inl ⟨rfl, rfl⟩⟩
  · dsimp only
    rcases Downlink.canonicalState race with y | state
    · exact hraised y none
    · dsimp only
      rcases env.load with y | _
      · exact hraised y _
      · dsimp only
        rw [if_neg (by simp)]
        rcases hbuilt : Downlink.buildFrames state with y | frames
        · exact hraised y _
        · -- the first of the four frames is not sent
          have hsends : Downlink.sendFrames env.send 0 frames = ([], some x) := by
            cases frames with
            | nil => exact absurd (Downlink.length_of_buildFrames hbuilt) (by simp)
            | cons frame frames => rw [Downlink.sendFrames, hsend]
          dsimp only
          rw [hsends]
          refine ⟨rfl, rfl, by simp [Downlink.PollResult.status], rfl, ?_⟩
          rintro stats ⟨⟩
          exact ⟨rfl, .inr ⟨rfl, rfl⟩⟩

/-! ### The capture -/

/-- A replay changes only what has to do with its frames. -/
lemma runReplayLoop_frame (readSize : ℕ) (stop : ℕ → Bool) (round : ℕ) (rest : List UInt8)
    (r : SerialIo.SerialReader) (calls : List (Frame × Decoded)) :
    ∃ parser total, (SerialIo.runReplayLoop handlers readSize stop round rest r calls).1 =
      { r with parser := parser, framesTotal := total } := by
  fun_induction SerialIo.runReplayLoop handlers readSize stop round rest r calls with
  | case1 => exact ⟨_, _, rfl⟩
  | case2 => exact ⟨_, _, rfl⟩
  | case3 round rest r calls hstop chunk hchunk frames parser hpush results ih =>
    obtain ⟨parser', total', heq⟩ := ih
    exact ⟨parser', total', heq⟩

/-- The frames that one parser returns for the capture. -/
def framesOf (capture : Option (List UInt8)) : List Frame :=
  (capture.map fun data => (FrameParser.new.push data).1).getD []

lemma readCapture_calls (serialPort : Option String) (capture : Option (List UInt8)) :
    (readCapture (.new serialPort none) capture).2 =
      (framesOf capture).map fun frame => (frame, decodePayload frame.1.toNat frame.2) := by
  cases capture with
  | none => rfl
  | some data =>
    rw [← callsOf_handlers]
    exact (SerialIo.runReplayLoop_feeds handlers (by decide) (fun _ => rfl) 0 data
      (r := .new serialPort none) new_settled []).2

lemma serialHealth_readCapture (serialPort : Option String) (capture : Option (List UInt8)) :
    serialHealth (readCapture (.new serialPort none) capture).1 =
      { connected := false, port := serialPort, framesTotal := (framesOf capture).length,
        reconnects := 0, lastError := none } := by
  cases capture with
  | none => rfl
  | some data =>
    have htotal : (SerialIo.runReplayLoop handlers READ_SIZE (fun _ => false) 0 data
        (.new serialPort none) []).1.framesTotal =
          0 + SerialIo.deliveredOf handlers (SerialIo.callsOf handlers (framesOf (some data))) :=
      (SerialIo.runReplayLoop_feeds handlers (by decide) (fun _ => rfl) 0 data new_settled []).1
    have hall : ∀ calls : List (Frame × Decoded),
        SerialIo.deliveredOf handlers calls = calls.length := congrFun List.countP_true
    rw [hall, callsOf_handlers, List.length_map, Nat.zero_add] at htotal
    obtain ⟨parser, total, hframe⟩ := runReplayLoop_frame READ_SIZE (fun _ => false) 0 data
      (.new serialPort none) []
    rw [readCapture, serialHealth, htotal, hframe]
    rfl

/-! ### What the pass leaves alone -/

/-- A call of `run_once` leaves alone what ingest has made, and the cached fingerprint. -/
lemma runOnce_frame (cloud : Uplink.Env) (batchSize : ℕ) (up : Uplink.CloudUplinker)
    (s : Uplink.Site) :
    (cloud.runOnce batchSize up s).2.db.ingested = s.db.ingested ∧
      (cloud.runOnce batchSize up s).2.db.downlinkState = s.db.downlinkState := by
  refine Effect.Prog.exec_keeps cloud.respond
    (P := fun s' => s'.db.ingested = s.db.ingested ∧ s'.db.downlinkState = s.db.downlinkState)
    (fun s' c h => ?_) _ ⟨rfl, rfl⟩
  exact ⟨(perform_ingested s'.db _ c).trans h.1, (perform_downlinkState s'.db _ c).trans h.2⟩

lemma tallies_onFrames {d : FrameDispatcher} {before : List Frame} (h : Tallies d before)
    (frames : List Frame) :
    Tallies ((frames.map fun frame => (frame, decodePayload frame.1.toNat frame.2)).foldl
      (fun d call => d.onFrame call.1.1.toNat call.2) d) (before ++ frames) := by
  induction frames generalizing d before with
  | nil => rwa [List.append_nil]
  | cons frame frames ih =>
    have hrest := ih (h.onFrame frame)
    rwa [List.append_assoc] at hrest

lemma tallies_new (db : Db) : Tallies (.new db) [] where
  counts _ := rfl
  baseHealth := rfl
  acks := by
    rintro l ⟨⟩ refType
    rfl

/-! ### The whole pass -/

/-- What a pass comes to, when its capture contains the frames. -/
structure Passed (serialPort : Option String) (db : Db) (env : OnceEnv) (frames : List Frame)
    (pass : OncePass) : Prop where
  /-- No frame goes to the base, and none is recorded as sent. -/
  silent : pass.frames = []
  downlinkState : pass.db.downlinkState = db.downlinkState
  downlink : ∀ stats, pass.downlink = .ok stats → stats.sent = 0 ∧
    (stats.status = .idle ∧ stats.error = none ∨
      stats.status = .error ∧ stats.error = some (.notConnected "serial port not connected"))
  ingested : pass.db.ingested = (ingest db frames).ingested
  /-- The oldest fixes are handled, those of the capture included. -/
  uploaded : ∀ P, Uplink.PoisonCloud P env.cloud →
    Uplink.Handled P (((Uplink.queue (ingest db frames)).take BATCH_SIZE).map FixRow.id)
      ⟨ingest db frames, []⟩ ⟨pass.db, pass.calls⟩
  serial : pass.health.serial = some (.report
    { connected := false, port := serialPort, framesTotal := frames.length, reconnects := 0,
      lastError := none })
  store : pass.health.store = some (.report (storeHealth pass.db))
  base : pass.health.base = some (.report
    ((frames.filter fun frame => frame.1.toNat = T_HEALTH).getLast?.map
      fun frame => decodePayload T_HEALTH frame.2))

end SrtGateway.Main
