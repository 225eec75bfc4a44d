/-
The cloud-to-base control plane (`downlink.py`): the canonical state of a race document, its
fingerprint and frames, and one call of `poll_once`.

What a call meets (the answer of the cloud, the database, the serial link) is its `PollEnv`.
The fingerprint cache is a row of the store: it outlives the process, while the other fields
start afresh with it (`CloudDownlinker.new`).
-/
import SrtGateway.Json.Text
import SrtGateway.Protocol.Control

namespace SrtGateway.Downlink

open SrtGateway.Json SrtGateway.Protocol

/-! ### The canonical state -/

/-- What `_canonical_state` makes of a race document. -/
structure State where
  raceId : Value
  state : Value
  armed : Bool
  slotCount : ℤ
  toaMs : ℤ
  guardMs : ℤ
  frameEpochMs : ℤ
  slots : List (ℤ × ℤ)

/-- One entry of the document's `slots`. -/
def slotEntry (s : Value) : Except PyErr (ℤ × ℤ) := do
  let nodeId ← (← s.getItem "node_id").toInt
  let slot ← (← s.getItem "slot").toInt
  return (nodeId, slot)

/-- Pairs are sorted as Python sorts tuples. -/
def sortSlots (slots : List (ℤ × ℤ)) : List (ℤ × ℤ) :=
  slots.insertionSort fun a b => toLex a ≤ toLex b

/-- `_canonical_state`.  Only a dict has a `get`. -/
def canonicalState (race : Value) : Except PyErr State :=
  match race with
  | .obj fields => do
    let get (key : String) (default : Value) := (lookup fields key).getD default
    let slots ← (← (get "slots" (.arr [])).iterate).mapM slotEntry
    let slotCount ← (get "slot_count" (.int 0)).toInt
    let toaMs ← (get "toa_ms" (.int 0)).toInt
    let guardMs ← (get "guard_ms" (.int 0)).toInt
    let epoch := get "frame_epoch_ms" .null
    let frameEpochMs ← (if epoch.truthy then epoch else .int 0).toInt
    return { raceId := get "race_id" .null, state := get "state" .null,
             armed := (get "armed" (.bool false)).truthy, slotCount := slotCount, toaMs := toaMs,
             guardMs := guardMs, frameEpochMs := frameEpochMs, slots := sortSlots slots }
  | _ => .error .attributeError

/-- The canonical state as the dict that is fingerprinted. -/
def State.toJson (s : State) : Value :=
  .obj [(pyStr "race_id", s.raceId), (pyStr "state", s.state), (pyStr "armed", .bool s.armed),
    (pyStr "slot_count", .int s.slotCount), (pyStr "toa_ms", .int s.toaMs),
    (pyStr "guard_ms", .int s.guardMs), (pyStr "frame_epoch_ms", .int s.frameEpochMs),
    (pyStr "slots", .arr (s.slots.map fun (nodeId, slot) => .arr [.int nodeId, .int slot]))]

/-- `_fingerprint`.  No integer of a state has more digits than `str` can write: `json()` and
`int()` reject longer ones. -/
def fingerprint (s : State) : List Char := dumps s.toJson

/-- `_build_frames`. -/
def buildFrames (s : State) : Except PyErr (List (List UInt8)) := do
  let timing ← encodeSetTiming s.slotCount s.toaMs s.guardMs
  let epoch ← encodeSetEpoch s.frameEpochMs
  let slotmap ← encodeSetSlotmap s.slots
  let armed ← encodeSetArmed s.armed
  return [timing, epoch, slotmap, armed]

/-! ### The downlinker -/

inductive PollStatus where
  | idle
  | unchanged
  | applied
  | error
deriving DecidableEq, Repr

/-- What `last_error` says. -/
inductive LastError where
  | fetchFailed (x : PyErr)
  | http (status : ℤ)
  | badJson (x : PyErr)
  | sendFailed (x : PyErr)

structure CloudDownlinker where
  /-- The fingerprint in the `applied` row of `downlink_state`. -/
  cached : Option (List Char)
  lastDownlinkOk : Option State
  lastError : Option LastError
  lastPollStatus : PollStatus

/-- The downlinker of a new process, over the cache that earlier ones left. -/
def CloudDownlinker.new (cached : Option (List Char)) : CloudDownlinker :=
  { cached := cached, lastDownlinkOk := none, lastError := none, lastPollStatus := .idle }

/-- An HTTP response: its status code, and what its `json()` does. -/
structure Response where
  status : ℤ
  json : Except PyErr Value

/-- What one call of `poll_once` meets. -/
structure PollEnv where
  /-- What `http_get` does. -/
  get : Except PyErr Response
  /-- Whether reading the cached fingerprint raises. -/
  load : Except PyErr Unit
  /-- What the calls of `send_frame` do, by position. -/
  send : ℕ → Except PyErr Unit
  /-- Whether writing the fingerprint raises; when it does, the row is as it was. -/
  store : Except PyErr Unit

/-- The stats dict. -/
structure PollStats where
  status : PollStatus
  sent : ℕ
  raceId : Value
  error : Option PyErr

/-- One call of `poll_once`: the stats it returns or the exception it raises, the state
after it, the call of `upsert_race` it made, and the frames for which `send_frame`
returned. -/
structure PollResult where
  outcome : Except PyErr PollStats
  after : CloudDownlinker
  mirrored : Option (Value × Value)
  sent : List (List UInt8)

/-- `_fetch_race`: the document, if any, and the new value of `last_error`, if it is set. -/
def fetchRace (get : Except PyErr Response) : Option Value × Option LastError :=
  match get with
  | .error x => (none, some (.fetchFailed x))
  | .ok resp =>
    if resp.status = 204 then (none, none)
    else if 200 ≤ resp.status ∧ resp.status < 300 then
      match resp.json with
      | .error x => (none, some (.badJson x))
      | .ok .null => (none, none)
      | .ok race => (some race, none)
    else (none, some (.http resp.status))

/-- The loop over the frames: those for which `send_frame` returned, and the exception that
ended it. -/
def sendFrames (send : ℕ → Except PyErr Unit) :
    ℕ → List (List UInt8) → List (List UInt8) × Option PyErr
  | _, [] => ([], none)
  | i, frame :: frames =>
    match send i with
    | .error x => ([], some x)
    | .ok () =>
      let (sent, raised) := sendFrames send (i + 1) frames
      (frame :: sent, raised)

/-- The race that is mirrored into the store; a failure of `upsert_race` is swallowed. -/
def State.mirror (s : State) : Option (Value × Value) :=
  match s.raceId with
  | .null => none
  | raceId => some (raceId, s.state)

/-- `poll_once`. -/
def CloudDownlinker.pollOnce (d : CloudDownlinker) (force : Bool) (env : PollEnv) : PollResult :=
  match fetchRace env.get with
  | (none, err) =>
    ⟨.ok ⟨.idle, 0, .null, none⟩,
      { d with lastError := err.or d.lastError, lastPollStatus := .idle }, none, []⟩
  | (some race, _) =>
    match canonicalState race with
    | .error x => ⟨.error x, d, none, []⟩
    | .ok state =>
      let fp := fingerprint state
      match env.load with
      | .error x => ⟨.error x, d, state.mirror, []⟩
      | .ok () =>
        -- the change test
        if some fp = d.cached ∧ force = false then
          ⟨.ok ⟨.unchanged, 0, state.raceId, none⟩, { d with lastPollStatus := .unchanged },
            state.mirror, []⟩
        else
          match buildFrames state with
          | .error x => ⟨.error x, d, state.mirror, []⟩
          | .ok frames =>
            match sendFrames env.send 0 frames with
            | (sent, some x) =>
              -- what was sent stays sent, and the cache is not advanced
              ⟨.ok ⟨.error, sent.length, state.raceId, some x⟩,
                { d with lastError := some (.sendFailed x), lastPollStatus := .error },
                state.mirror, sent⟩
            | (sent, none) =>
              match env.store with
              | .error x => ⟨.error x, d, state.mirror, sent⟩
              | .ok () =>
                ⟨.ok ⟨.applied, sent.length, state.raceId, none⟩,
                  { d with cached := some fp, lastDownlinkOk := some state,
                           lastPollStatus := .applied },
                  state.mirror, sent⟩

/-! ### What a poll can do -/

/-- The state that a poll compares with the cache: a document is fetched, it can be
canonicalised, and the cache can be read. -/
def PollEnv.fetched (env : PollEnv) : Option State :=
  match (fetchRace env.get).1 with
  | none => none
  | some race =>
    match canonicalState race, env.load with
    | .ok state, .ok () => some state
    | _, _ => none

/-- The status a poll returns, if it returns. -/
def PollResult.status (result : PollResult) : Option PollStatus :=
  match result.outcome with
  | .ok stats => some stats.status
  | .error _ => none

/-- All the frames of the fetched state were sent. -/
def PollResult.SentAll (env : PollEnv) (result : PollResult) : Prop :=
  ∃ state, env.fetched = some state ∧ buildFrames state = .ok result.sent

/-- A document that can be encoded is there, and four sends would succeed. -/
def PollEnv.Available (env : PollEnv) : Prop :=
  ∃ state frames, env.fetched = some state ∧ buildFrames state = .ok frames ∧
    ∀ i < 4, env.send i = .ok ()

lemma buildFrames_eq_ok {state : State} {frames : List (List UInt8)} :
    buildFrames state = .ok frames ↔ ∃ timing epoch slotmap armed,
      encodeSetTiming state.slotCount state.toaMs state.guardMs = .ok timing ∧
      encodeSetEpoch state.frameEpochMs = .ok epoch ∧ encodeSetSlotmap state.slots = .ok slotmap ∧
      encodeSetArmed state.armed = .ok armed ∧ frames = [timing, epoch, slotmap, armed] := by
  unfold buildFrames
  simp only [bind_eq_ok]
  constructor
  · rintro ⟨timing, h1, epoch, h2, slotmap, h3, armed, h4, h⟩
    exact ⟨timing, epoch, slotmap, armed, h1, h2, h3, h4, (Except.ok.inj h).symm⟩
  · rintro ⟨timing, epoch, slotmap, armed, h1, h2, h3, h4, rfl⟩
    exact ⟨timing, h1, epoch, h2, slotmap, h3, armed, h4, rfl⟩

lemma length_of_buildFrames {state : State} {frames : List (List UInt8)}
    (h : buildFrames state = .ok frames) : frames.length = 4 := by
  obtain ⟨_, _, _, _, -, -, -, -, rfl⟩ := buildFrames_eq_ok.mp h
  rfl

lemma sendFrames_isPrefix (send : ℕ → Except PyErr Unit) (i : ℕ) (frames : List (List UInt8)) :
    (sendFrames send i frames).1 <+: frames := by
  induction frames generalizing i with
  | nil => exact List.prefix_rfl
  | cons frame frames ih =>
    rw [sendFrames]
    split
    · exact List.nil_prefix
    · exact List.cons_prefix_cons.mpr ⟨rfl, ih (i + 1)⟩

/-- The loop runs to its end exactly when no send raises, and exactly then every frame is
sent. -/
lemma sendFrames_spec (send : ℕ → Except PyErr Unit) (i : ℕ) (frames : List (List UInt8)) :
    ((sendFrames send i frames).2 = none ↔ ∀ j < frames.length, send (i + j) = .ok ()) ∧
      ((sendFrames send i frames).2 = none ↔ (sendFrames send i frames).1 = frames) := by
  induction frames generalizing i with
  | nil => simp [sendFrames]
  | cons frame frames ih =>
    cases hsend : send i with
    | error x =>
      refine ⟨?_, by simp [sendFrames, hsend]⟩
      simp only [sendFrames, hsend, reduceCtorEq, false_iff, not_forall]
      exact ⟨0, by simp, by simp [hsend]⟩
    | ok u =>
      obtain ⟨h1, h2⟩ := ih (i + 1)
      refine ⟨?_, by simpa [sendFrames, hsend] using h2⟩
      simp only [sendFrames, hsend]
      rw [h1]
      constructor
      · intro h j hj
        cases j with
        | zero => exact hsend
        | succ j =>
          have := h j (by simpa using hj)
          rwa [Nat.add_right_comm] at this
      · intro h j hj
        have := h (j + 1) (by simpa using hj)
        rwa [← Nat.add_assoc, Nat.add_right_comm] at this

/-- The ways a poll can go. -/
inductive PollCase (d : CloudDownlinker) (force : Bool) (env : PollEnv) (result : PollResult) :
    Prop where
  /-- No state to compare or to send: idle, or an exception before the first frame. -/
  | nothing (unavailable : ¬ env.Available) (unchanged : result.status ≠ some .unchanged)
      (applied : result.status ≠ some .applied) (sent : result.sent = [])
      (cached : result.after.cached = d.cached)
      (differs : force = false → ∀ state, env.fetched = some state →
        d.cached ≠ some (fingerprint state))
  | unchanged (state : State) (fetched : env.fetched = some state) (unforced : force = false)
      (hit : d.cached = some (fingerprint state)) (status : result.status = some .unchanged)
      (sent : result.sent = []) (cached : result.after.cached = d.cached)
  /-- The frames are sent, up to the first that fails, and recorded if none does. -/
  | sending (state : State) (frames : List (List UInt8)) (fetched : env.fetched = some state)
      (built : buildFrames state = .ok frames)
      (differs : force = false → d.cached ≠ some (fingerprint state))
      (sent : result.sent = (sendFrames env.send 0 frames).1)
      (unchanged : result.status ≠ some .unchanged)
      (recorded : (result.status = some .applied ∧ result.sent = frames ∧
          result.after.cached = some (fingerprint state)) ∨
        (result.status ≠ some .applied ∧ result.after.cached = d.cached))

lemma fetched_eq_some {env : PollEnv} {state : State} (h : env.fetched = some state) :
    ∃ race err, fetchRace env.get = (some race, err) ∧ canonicalState race = .ok state ∧
      env.load = .ok () := by
  unfold PollEnv.fetched at h
  rcases hget : fetchRace env.get with ⟨_ | race, err⟩
  · rw [hget] at h
    exact nomatch h
  · rw [hget] at h
    dsimp only at h
    split at h
    · obtain rfl := Option.some.inj h
      exact ⟨race, err, rfl, ‹_›, ‹_›⟩
    · exact nomatch h

/-- A poll that fetches no state sends and records nothing. -/
lemma pollOnce_of_not_fetched (d : CloudDownlinker) (force : Bool) {env : PollEnv}
    (h : env.fetched = none) :
    (d.pollOnce force env).status ≠ some .unchanged ∧
      (d.pollOnce force env).status ≠ some .applied ∧ (d.pollOnce force env).sent = [] ∧
        (d.pollOnce force env).after.cached = d.cached ∧
          (d.pollOnce force env).after.lastDownlinkOk = d.lastDownlinkOk := by
  unfold PollEnv.fetched at h
  rw [CloudDownlinker.pollOnce]
  rcases hget : fetchRace env.get with ⟨_ | race, err⟩
  · -- no document
    simp [PollResult.status]
  · rw [hget] at h
    cases hcanon : canonicalState race with
    | error x => simp [PollResult.status, hcanon]
    | ok state =>
      cases hload : env.load with
      | error x => simp [PollResult.status, hcanon]
      | ok u => simp [hcanon, hload] at h

lemma pollOnce_cases (d : CloudDownlinker) (force : Bool) (env : PollEnv) :
    PollCase d force env (d.pollOnce force env) := by
  cases hfetched : env.fetched with
  | none =>
    obtain ⟨hunchanged, happlied, hsent, hcached, -⟩ := pollOnce_of_not_fetched d force hfetched
    refine .nothing ?_ hunchanged happlied hsent hcached ?_
    · rintro ⟨state, frames, hstate, -⟩
      simp [hfetched] at hstate
    · intro _ state hstate
      simp [hfetched] at hstate
  | some state =>
    obtain ⟨race, err, hget, hcanon, hload⟩ := fetched_eq_some hfetched
    simp only [CloudDownlinker.pollOnce, hget, hcanon, hload]
    by_cases hsame : some (fingerprint state) = d.cached ∧ force = false
    · rw [if_pos hsame]
      exact .unchanged state hfetched hsame.2 hsame.1.symm rfl rfl rfl
    rw [if_neg hsame]
    have hdiffers : force = false → d.cached ≠ some (fingerprint state) :=
      fun hf hc => hsame ⟨hc.symm, hf⟩
    cases hframes : buildFrames state with
    | error x =>
      -- a document that cannot be encoded
      refine .nothing ?_ (by simp [PollResult.status]) (by simp [PollResult.status]) rfl rfl ?_
      · simp [PollEnv.Available, hfetched, hframes]
      · rintro hf state' hstate'
        obtain rfl := Option.some.inj (hfetched.symm.trans hstate')
        exact hdiffers hf
    | ok frames =>
      have hsend := sendFrames_spec env.send 0 frames
      rcases hres : sendFrames env.send 0 frames with ⟨sent, _ | x⟩ <;> simp only [hres]
      · -- every frame went out
        rw [hres] at hsend
        obtain rfl : sent = frames := hsend.2.mp rfl
        cases hstore : env.store with
        | error x =>
          exact .sending state sent hfetched hframes hdiffers (by rw [hres])
            (by simp [PollResult.status]) (.inr ⟨by simp [PollResult.status], rfl⟩)
        | ok u =>
          exact .sending state sent hfetched hframes hdiffers (by rw [hres])
            (by simp [PollResult.status]) (.inl ⟨rfl, rfl, rfl⟩)
      · exact .sending state frames hfetched hframes hdiffers (by rw [hres])
          (by simp [PollResult.status]) (.inr ⟨by simp [PollResult.status], rfl⟩)

/-- A poll reports applied only when it has sent the frames of its document, which it then
records. -/
lemma applied_sends {d : CloudDownlinker} {force : Bool} {env : PollEnv}
    (h : (d.pollOnce force env).status = some .applied) :
    ∃ state, env.fetched = some state ∧ buildFrames state = .ok (d.pollOnce force env).sent ∧
      (d.pollOnce force env).after.cached = some (fingerprint state) := by
  cases pollOnce_cases d force env with
  | nothing _ _ happlied => exact absurd h happlied
  | unchanged _ _ _ _ hstatus => exact absurd (hstatus.symm.trans h) (by decide)
  | sending state frames hstate hframes _ _ _ hrecorded =>
    rcases hrecorded with ⟨-, hsent, hcached⟩ | ⟨happlied, -⟩
    · exact ⟨state, hstate, hsent ▸ hframes, hcached⟩
    · exact absurd h happlied

/-- Any other poll leaves the cache alone. -/
lemma not_applied_cached {d : CloudDownlinker} {force : Bool} {env : PollEnv}
    (h : (d.pollOnce force env).status ≠ some .applied) :
    (d.pollOnce force env).after.cached = d.cached := by
  cases pollOnce_cases d force env with
  | nothing _ _ _ _ hcached => exact hcached
  | unchanged _ _ _ _ _ _ hcached => exact hcached
  | sending _ _ _ _ _ _ _ hrecorded =>
    rcases hrecorded with ⟨happlied, -, -⟩ | ⟨-, hcached⟩
    · exact absurd happlied h
    · exact hcached

section

variable (d : CloudDownlinker) (force : Bool) (env : PollEnv)

/-- The change test. -/
lemma status_unchanged_iff :
    (d.pollOnce force env).status = some .unchanged ↔
      force = false ∧ ∃ state, env.fetched = some state ∧ d.cached = some (fingerprint state) := by
  cases pollOnce_cases d force env with
  | nothing _ hunchanged _ _ _ hdiffers =>
    refine ⟨fun h => absurd h hunchanged, ?_⟩
    rintro ⟨hforce, state, hstate, hhit⟩
    exact absurd hhit (hdiffers hforce state hstate)
  | unchanged state hstate hforce hhit hstatus =>
    exact ⟨fun _ => ⟨hforce, state, hstate, hhit⟩, fun _ => hstatus⟩
  | sending state _ hstate _ hdiffers _ hunchanged =>
    refine ⟨fun h => absurd h hunchanged, ?_⟩
    rintro ⟨hforce, state', hstate', hhit⟩
    obtain rfl := Option.some.inj (hstate.symm.trans hstate')
    exact absurd hhit (hdiffers hforce)

lemma not_sentAll_nil {result : PollResult} (h : result.sent = []) : ¬ result.SentAll env := by
  rintro ⟨state, -, hframes⟩
  rw [h] at hframes
  exact absurd (length_of_buildFrames hframes) (by simp)

/-- A poll sends all four frames whenever it can, unless it skips the document. -/
lemma sentAll_iff :
    (d.pollOnce force env).SentAll env ↔
      env.Available ∧ (d.pollOnce force env).status ≠ some .unchanged := by
  cases pollOnce_cases d force env with
  | nothing hunavailable _ _ hsent => simp [not_sentAll_nil env hsent, hunavailable]
  | unchanged _ _ _ _ hstatus hsent => simp [not_sentAll_nil env hsent, hstatus]
  | sending state frames hstate hframes _ hsent hunchanged =>
    have hspec := sendFrames_spec env.send 0 frames
    simp only [Nat.zero_add, length_of_buildFrames hframes] at hspec
    rw [hspec.2] at hspec
    refine ⟨?_, ?_⟩
    · rintro ⟨state', hstate', hframes'⟩
      obtain rfl := Option.some.inj (hstate.symm.trans hstate')
      have hall : (sendFrames env.send 0 frames).1 = frames := by
        rw [← hsent]
        exact Except.ok.inj (hframes'.symm.trans hframes)
      exact ⟨⟨state, frames, hstate, hframes, hspec.1.mp hall⟩, hunchanged⟩
    · rintro ⟨⟨_, _, -, -, hsends⟩, -⟩
      refine ⟨state, hstate, ?_⟩
      rw [hsent, hspec.1.mpr hsends, hframes]

/-- Only a poll that has sent all four frames touches the cache. -/
lemma cached_of_not_sentAll (h : ¬ (d.pollOnce force env).SentAll env) :
    (d.pollOnce force env).after.cached = d.cached := by
  refine not_applied_cached fun happlied => h ?_
  obtain ⟨state, hstate, hframes, -⟩ := applied_sends happlied
  exact ⟨state, hstate, hframes⟩

end

/-! ### Runs -/

/-- One poll of a run: the state it started in, what it met, and what came of it. -/
structure Poll where
  before : CloudDownlinker
  force : Bool
  env : PollEnv
  result : PollResult

/-- The poll made in a state. -/
def CloudDownlinker.poll (d : CloudDownlinker) (force : Bool) (env : PollEnv) : Poll :=
  ⟨d, force, env, d.pollOnce force env⟩

lemma CloudDownlinker.poll_result (d : CloudDownlinker) (force : Bool) (env : PollEnv) :
    (d.poll force env).result = d.pollOnce force env := rfl

end SrtGateway.Downlink
