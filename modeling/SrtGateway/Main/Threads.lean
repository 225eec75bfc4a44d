/-
The gateway with its threads interleaved within a poll.

A poll sends its frames through the port that the reader thread opens and closes, and other
threads take steps between one send and the next.  Here each send is a step of its own, as is
the record after the last one, and the process may end between any two.  The record itself, its
INSERT and its commit, is still one step, which fails or holds, and so is each call of the other
threads on the store.

No other thread touches what a poll reads and writes.  So a poll may be taken for one step where
it ends, or where its process does, that has met what its sends met (`threads_simulation`):
every state of such a run is one of a run of whole polls, and what the base holds is as there
(`base_between_sends`).
-/
import SrtGateway.Downlink.Trace
import SrtGateway.Main.Programmed

namespace SrtGateway.Main

open SrtGateway.Store

/-! ### The system -/

/-- A call of the downlinker's `poll_once` that has come to its frames. -/
structure Sending where
  /-- The answer of the cloud. -/
  get : Except PyErr Downlink.Response
  state : Downlink.State
  sent : List (List UInt8)
  left : List (List UInt8)

/-- A gateway whose downlink thread may be inside a poll. -/
structure Threaded extends Gateway where
  sending : Option Sending
  /-- The frames for which `send` has returned, in all processes. -/
  sent : List (List UInt8)
  /-- Those of them since the fingerprint was last recorded. -/
  since : List (List UInt8)

inductive ThreadStep where
  | read (env : SerialIo.PollEnv)
  | dispatch
  | uplinkStart (batchSize : ℕ)
  | uplinkAdvance (world : Uplink.World)
  /-- The downlink thread has the answer of the cloud, and goes on to its first send. -/
  | pollBegin (get : Except PyErr Downlink.Response) (load : Except PyErr Unit)
  /-- The next send, given what writing the frame does. -/
  | pollSend (write : Except (PyErr × String) Unit)
  /-- The fingerprint is recorded, at the given time. -/
  | pollRecord (store : Except PyErr Unit) (nowMs : ℤ)
  | restart

namespace Threaded

/-- The poll has returned, or raised. -/
def endPoll (s : Threaded) (down : Downlink.CloudDownlinker) : Threaded :=
  { s with down := down, first := false, sending := none }

/-- `poll_once` up to its first send. -/
def pollBegin (s : Threaded) (get : Except PyErr Downlink.Response) (load : Except PyErr Unit) :
    Threaded :=
  let d := s.downlinker
  match Downlink.fetchRace get with
  | (none, err) => s.endPoll { d with lastError := err.or d.lastError, lastPollStatus := .idle }
  | (some race, _) =>
    match Downlink.canonicalState race with
    | .error _ => s.endPoll d
    | .ok state =>
      match load with
      | .error _ => s.endPoll d
      | .ok () =>
        if some (Downlink.fingerprint state) = d.cached ∧ s.first = false then
          s.endPoll { d with lastPollStatus := .unchanged }
        else
          match Downlink.buildFrames state with
          | .error _ => s.endPoll d
          | .ok frames => { s with sending := some ⟨get, state, [], frames⟩ }

/-- The loop over the frames. -/
def pollSend (s : Threaded) (write : Except (PyErr × String) Unit) : Threaded :=
  match s.sending with
  | some ⟨get, state, sent, frame :: left⟩ =>
    match s.serial.send write with
    | (.ok (), serial) =>
      { s with serial := serial, sending := some ⟨get, state, sent ++ [frame], left⟩,
               sent := s.sent ++ [frame], since := s.since ++ [frame] }
    | (.error x, serial) =>
      { s with serial := serial }.endPoll
        { s.downlinker with lastError := some (.sendFailed x), lastPollStatus := .error }
  | _ => s

/-- What follows the loop; the INSERT and its commit are taken as one. -/
def pollRecord (s : Threaded) (store : Except PyErr Unit) (nowMs : ℤ) : Threaded :=
  match s.sending with
  | some ⟨_, state, _, []⟩ =>
    match store with
    | .error _ => s.endPoll s.downlinker
    | .ok () =>
      let fp := Downlink.fingerprint state
      { s with db := s.db.storeFingerprint fp nowMs, since := [] }.endPoll
        { s.downlinker with
          cached := some fp, lastDownlinkOk := some state, lastPollStatus := .applied }
  | _ => s

variable (cfg : Config)

/-- A step of another thread. -/
def other (s : Threaded) (st : Step) : Threaded := { s with toGateway := s.toGateway.step cfg st }

def step (s : Threaded) : ThreadStep → Threaded
  | .read env => s.other cfg (.read env)
  | .dispatch => s.other cfg .dispatch
  | .uplinkStart batchSize => s.other cfg (.uplinkStart batchSize)
  | .uplinkAdvance world => s.other cfg (.uplinkAdvance world)
  | .pollBegin get load => if s.sending.isSome then s else s.pollBegin get load
  | .pollSend write => s.pollSend write
  | .pollRecord store nowMs => s.pollRecord store nowMs
  | .restart => { s.other cfg .restart with sending := none }

/-- A gateway that has never run. -/
def init : Threaded := { Gateway.init cfg with sending := none, sent := [], since := [] }

def run (steps : List ThreadStep) : Threaded := Runs.run (step cfg) (init cfg) steps

end Threaded

/-! ### A poll as a whole -/

/-- What a poll that has come to its frames has found on its way, and would find again. -/
structure Sends (g : Gateway) (p : Sending) : Prop where
  fetched : ∃ race err, Downlink.fetchRace p.get = (some race, err) ∧
    Downlink.canonicalState race = .ok p.state
  due : ¬ (some (Downlink.fingerprint p.state) = g.downlinker.cached ∧ g.first = false)
  built : Downlink.buildFrames p.state = .ok (p.sent ++ p.left)

/-- What the poll has met if it gets no further. -/
def Sending.cutOff (p : Sending) (x : PyErr) : Downlink.PollEnv :=
  { get := p.get, load := .ok ()
    send := fun i => if i < p.sent.length then .ok () else .error x
    store := .error x }

/-- What the poll has met if it has got to its end. -/
def Sending.complete (p : Sending) : Downlink.PollEnv :=
  { get := p.get, load := .ok (), send := fun _ => .ok (), store := .ok () }

variable {g : Gateway} {p : Sending}

/-- The loop goes over the frames that can be sent. -/
lemma sendFrames_append {send : ℕ → Except PyErr Unit} {sent : List (List UInt8)} {i : ℕ}
    (h : ∀ j < sent.length, send (i + j) = .ok ()) (left : List (List UInt8)) :
    Downlink.sendFrames send i (sent ++ left) =
      (sent ++ (Downlink.sendFrames send (i + sent.length) left).1,
        (Downlink.sendFrames send (i + sent.length) left).2) := by
  induction sent generalizing i with
  | nil => rfl
  | cons frame sent ih =>
    have hrest : ∀ j < sent.length, send (i + 1 + j) = .ok () := by
      intro j hj
      rw [Nat.add_assoc, Nat.add_comm 1]
      exact h (j + 1) (Nat.succ_lt_succ hj)
    have hfirst : send i = .ok () := h 0 (Nat.succ_pos _)
    rw [List.cons_append, Downlink.sendFrames, hfirst]
    dsimp only
    rw [ih hrest, List.length_cons, Nat.add_assoc, Nat.add_comm 1]
    rfl

/-- A poll that gets no further has sent what it has sent, and records nothing. -/
lemma Sends.cutOff (h : Sends g p) (x : PyErr) :
    (g.downlinker.pollOnce g.first (p.cutOff x)).sent = p.sent ∧
      (g.downlinker.pollOnce g.first (p.cutOff x)).status ≠ some .applied ∧
        (g.downlinker.pollOnce g.first (p.cutOff x)).after =
          if p.left = [] then g.downlinker
          else { g.downlinker with
            lastError := some (.sendFailed x), lastPollStatus := .error } := by
  obtain ⟨race, err, hget, hcanon⟩ := h.fetched
  have hget' : Downlink.fetchRace (p.cutOff x).get = (some race, err) := hget
  have hload : (p.cutOff x).load = .ok () := rfl
  have hstore : (p.cutOff x).store = .error x := rfl
  have hkept : ∀ j < p.sent.length, (p.cutOff x).send (0 + j) = .ok () :=
    fun j hj => if_pos (by omega)
  have hfails : (p.cutOff x).send (0 + p.sent.length) = .error x := if_neg (by omega)
  simp only [Downlink.CloudDownlinker.pollOnce, hget', hcanon, hload, h.due, h.built, if_false,
    sendFrames_append hkept, hstore]
  cases p.left with
  | nil => simp [Downlink.sendFrames, Downlink.PollResult.status]
  | cons frame left =>
    rw [Downlink.sendFrames, hfails]
    simp [Downlink.PollResult.status]

/-- A poll that gets to its end records its state. -/
lemma Sends.complete (h : Sends g p) (hleft : p.left = []) :
    (g.downlinker.pollOnce g.first p.complete).sent = p.sent ∧
      (g.downlinker.pollOnce g.first p.complete).status = some .applied ∧
        (g.downlinker.pollOnce g.first p.complete).after =
          { g.downlinker with
            cached := some (Downlink.fingerprint p.state), lastDownlinkOk := some p.state,
            lastPollStatus := .applied } := by
  obtain ⟨race, err, hget, hcanon⟩ := h.fetched
  have hget' : Downlink.fetchRace p.complete.get = (some race, err) := hget
  have hload : p.complete.load = .ok () := rfl
  have hstore : p.complete.store = .ok () := rfl
  have hsends : Downlink.sendFrames p.complete.send 0 (p.sent ++ p.left) = (p.sent, none) := by
    rw [sendFrames_append fun _ _ => rfl, hleft, Downlink.sendFrames, List.append_nil]
  simp only [Downlink.CloudDownlinker.pollOnce, hget', hcanon, hload, h.due, h.built, if_false,
    hsends, hstore, Downlink.PollResult.status, and_self]

/-- A poll that does not come to its frames meets no send. -/
def unsent (get : Except PyErr Downlink.Response) (load : Except PyErr Unit) : Downlink.PollEnv :=
  { get := get, load := load, send := fun _ => .error .osError, store := .error .osError }

variable {s : Threaded}

/-- **Where a poll begins**: it comes to its frames, or it is over. -/
lemma pollBegin_cases (s : Threaded) (get : Except PyErr Downlink.Response)
    (load : Except PyErr Unit) :
    (∃ p, s.pollBegin get load = { s with sending := some p } ∧ p.sent = [] ∧
      Sends s.toGateway p) ∨
    (s.pollBegin get load =
        s.endPoll (s.downlinker.pollOnce s.first (unsent get load)).after ∧
      (s.downlinker.pollOnce s.first (unsent get load)).sent = [] ∧
        (s.downlinker.pollOnce s.first (unsent get load)).status ≠ some .applied) := by
  have hget : (unsent get load).get = get := rfl
  have hload : (unsent get load).load = load := rfl
  unfold Threaded.pollBegin Downlink.CloudDownlinker.pollOnce
  rw [hget, hload]
  rcases hfetch : Downlink.fetchRace get with ⟨_ | race, err⟩
  · exact .inr ⟨rfl, rfl, by simp [Downlink.PollResult.status]⟩
  · dsimp only
    cases hcanon : Downlink.canonicalState race with
    | error x => exact .inr ⟨rfl, rfl, by simp [Downlink.PollResult.status]⟩
    | ok state =>
      dsimp only
      cases load with
      | error x => exact .inr ⟨rfl, rfl, by simp [Downlink.PollResult.status]⟩
      | ok u =>
        dsimp only
        by_cases hskip : some (Downlink.fingerprint state) = s.downlinker.cached ∧ s.first = false
        · rw [if_pos hskip, if_pos hskip]
          exact .inr ⟨rfl, rfl, by simp [Downlink.PollResult.status]⟩
        · rw [if_neg hskip, if_neg hskip]
          cases hbuilt : Downlink.buildFrames state with
          | error x => exact .inr ⟨rfl, rfl, by simp [Downlink.PollResult.status]⟩
          | ok frames =>
            exact .inl ⟨⟨get, state, [], frames⟩, rfl, rfl, ⟨race, err, hfetch, hcanon⟩, hskip,
              hbuilt⟩

/-! ### The simulation -/

/-- The gateway and its polls so far, after a step of the gateway. -/
def logStep (cfg : Config) (log : Gateway × List Downlink.Poll) (st : Step) :
    Gateway × List Downlink.Poll :=
  (log.1.step cfg st, log.2 ++ Downlink.runSteps log.1.downlinker (downlinkSteps log.1 st))

/-- The frames that the running poll has sent. -/
def Threaded.underway (s : Threaded) : List (List UInt8) := (s.sending.map Sending.sent).getD []

/-- The threads have come as far as the whole polls, and the poll that they are in. -/
structure Matches (s : Threaded) (log : Gateway × List Downlink.Poll) : Prop where
  gateway : s.toGateway = log.1
  sent : s.sent = Downlink.sentBy log.2 ++ s.underway
  since : s.since = Downlink.sentSince log.2 ++ s.underway
  sending : ∀ p, s.sending = some p → Sends s.toGateway p

variable (cfg : Config) {log : Gateway × List Downlink.Poll}

/-- The steps of the other threads. -/
def IsOther : Step → Prop
  | .read _ | .dispatch | .uplinkStart _ | .uplinkAdvance _ | .sendFails _ => True
  | .downlinkPoll _ _ | .restart => False

lemma IsOther.silent {st : Step} (h : IsOther st) (g : Gateway) : downlinkSteps g st = [] := by
  cases st <;> first | rfl | exact h.elim

lemma IsOther.first {st : Step} (h : IsOther st) (g : Gateway) :
    (g.step cfg st).first = g.first := by
  cases st with
  | read env =>
    simp only [Gateway.step, Gateway.read]
    split <;> rfl
  | dispatch =>
    simp only [Gateway.step, Gateway.dispatch]
    split <;> rfl
  | uplinkStart | uplinkAdvance | sendFails => rfl
  | downlinkPoll | restart => exact h.elim

/-- **Other threads leave a poll alone.** -/
lemma Sends.other (h : Sends g p) {st : Step} (hother : IsOther st) : Sends (g.step cfg st) p := by
  have hdown : (g.step cfg st).downlinker = g.downlinker := by
    have hsim := downlink_simulation cfg g g.downlinker st rfl
    rwa [hother.silent] at hsim
  exact ⟨h.fetched, by rw [hdown, hother.first]; exact h.due, h.built⟩

lemma Matches.other (h : Matches s log) {st : Step} (hother : IsOther st) :
    Matches (s.other cfg st) (logStep cfg log st) := by
  obtain ⟨g, polls⟩ := log
  obtain rfl := h.gateway
  have hlog : logStep cfg (s.toGateway, polls) st = (s.toGateway.step cfg st, polls) := by
    rw [logStep, hother.silent, Downlink.runSteps, List.append_nil]
  rw [hlog]
  exact ⟨rfl, h.sent, h.since, fun p hp => (h.sending p hp).other cfg hother⟩

/-- **A poll that is over** is a step of the gateway. -/
lemma Matches.poll (h : Matches s log) {env : Downlink.PollEnv} {nowMs : ℤ} {s' : Threaded}
    (hgateway : s'.toGateway = s.toGateway.downlinkPoll env nowMs) (hover : s'.sending = none)
    (hsent : s'.sent =
      Downlink.sentBy log.2 ++ (s.downlinker.pollOnce s.first env).sent)
    (hsince : s'.since =
      if (s.downlinker.pollOnce s.first env).status = some .applied then []
      else Downlink.sentSince log.2 ++ (s.downlinker.pollOnce s.first env).sent) :
    Matches s' (logStep cfg log (.downlinkPoll env nowMs)) := by
  obtain ⟨g, polls⟩ := log
  obtain rfl := h.gateway
  have hunderway : s'.underway = [] := by rw [Threaded.underway, hover]; rfl
  have hlog : logStep cfg (s.toGateway, polls) (.downlinkPoll env nowMs) =
      (s.toGateway.downlinkPoll env nowMs, polls ++ [s.downlinker.poll s.first env]) := rfl
  rw [hlog]
  refine ⟨hgateway, ?_, ?_, fun p hp => by rw [hover] at hp; cases hp⟩
  · rw [hsent, Downlink.sentBy_concat, Downlink.CloudDownlinker.poll_result, hunderway,
      List.append_nil]
  · rw [hsince, Downlink.sentSince_concat, Downlink.CloudDownlinker.poll_result, hunderway,
      List.append_nil]

/-- A poll that records nothing changes only the downlinker. -/
lemma downlinkPoll_eq {env : Downlink.PollEnv} {nowMs : ℤ}
    (h : (g.downlinker.pollOnce g.first env).status ≠ some .applied) :
    g.downlinkPoll env nowMs =
      { g with down := (g.downlinker.pollOnce g.first env).after, first := false } := by
  have hdb := recordPoll_of_not_applied h g.db nowMs
  exact congrArg (fun db =>
    { g with db := db, down := (g.downlinker.pollOnce g.first env).after, first := false }) hdb

/-! ### The steps of a poll -/

/-- A `send` leaves the port as it is, or it closes it and fails. -/
lemma send_cases (r : SerialIo.SerialReader) (write : Except (PyErr × String) Unit) :
    (r.send write).2 = r ∨
      ∃ x y, r.send write = (.error y, { r with lastError := some x }.close) := by
  unfold SerialIo.SerialReader.send
  split
  · exact .inl rfl
  · rcases write with ⟨x, repr⟩ | _
    · dsimp only
      split
      · exact .inr ⟨x, _, rfl⟩
      · exact .inl rfl
    · exact .inl rfl

/-- What a `send` does to the port is a step of the gateway, or nothing. -/
lemma Matches.send (h : Matches s log) (write : Except (PyErr × String) Unit) :
    ∃ steps, Matches { s with serial := (s.serial.send write).2 }
      (Runs.run (logStep cfg) log steps) := by
  obtain hserial | ⟨x, y, hserial⟩ := send_cases s.serial write
  · rw [hserial]
    exact ⟨[], h⟩
  · rw [hserial]
    have hother : IsOther (.sendFails x) := trivial
    exact ⟨[.sendFails x], h.other cfg hother⟩

lemma Matches.pollBegin (h : Matches s log) (hidle : s.sending = none)
    (get : Except PyErr Downlink.Response) (load : Except PyErr Unit) :
    ∃ steps, Matches (s.pollBegin get load) (Runs.run (logStep cfg) log steps) := by
  have hunderway : s.underway = [] := by rw [Threaded.underway, hidle]; rfl
  have hsent := h.sent
  have hsince := h.since
  rw [hunderway, List.append_nil] at hsent hsince
  obtain ⟨p, hbegin, hp, hsends⟩ | ⟨hover, hnone, hstatus⟩ := pollBegin_cases s get load
  · refine ⟨[], ?_⟩
    have hunderway' : (s.pollBegin get load).underway = [] := by
      rw [hbegin, Threaded.underway, Option.map_some, Option.getD_some, hp]
    rw [hbegin] at hunderway' ⊢
    refine ⟨h.gateway, ?_, ?_, ?_⟩
    · rwa [hunderway', List.append_nil]
    · rwa [hunderway', List.append_nil]
    · rintro p' ⟨⟩
      exact hsends
  · refine ⟨[.downlinkPoll (unsent get load) 0], h.poll cfg ?_ ?_ ?_ ?_⟩
    · rw [hover, downlinkPoll_eq hstatus]
      rfl
    · rw [hover]
      rfl
    · rw [hover, hnone, List.append_nil]
      exact hsent
    · rw [hover, if_neg hstatus, hnone, List.append_nil]
      exact hsince

/-- **A poll that gets no further** is a step of the gateway in which it has sent what it has. -/
lemma Matches.cutOff (h : Matches s log) (hsending : s.sending = some p) (x : PyErr) :
    Matches (s.endPoll (s.downlinker.pollOnce s.first (p.cutOff x)).after)
      (logStep cfg log (.downlinkPoll (p.cutOff x) 0)) := by
  have hunderway : s.underway = p.sent := by rw [Threaded.underway, hsending]; rfl
  obtain ⟨hsent, hstatus, -⟩ := (h.sending p hsending).cutOff x
  refine h.poll cfg ?_ rfl ?_ ?_
  · rw [downlinkPoll_eq hstatus]
    rfl
  · rw [hsent, ← hunderway]
    exact h.sent
  · rw [if_neg hstatus, hsent, ← hunderway]
    exact h.since

lemma Matches.pollSend (h : Matches s log) (write : Except (PyErr × String) Unit) :
    ∃ steps, Matches (s.pollSend write) (Runs.run (logStep cfg) log steps) := by
  unfold Threaded.pollSend
  split
  · rename_i get state sent frame left hsending
    have hunderway : s.underway = sent := by rw [Threaded.underway, hsending]; rfl
    obtain ⟨steps, hport⟩ := h.send cfg write
    split
    · -- the send has returned, and the poll goes on
      rename_i serial hsend
      have hserial : serial = s.serial := by
        obtain hsame | ⟨x, y, hfails⟩ := send_cases s.serial write
        · rwa [hsend] at hsame
        · rw [hsend] at hfails
          cases hfails
      subst hserial
      have hp := h.sending _ hsending
      refine ⟨[], h.gateway, ?_, ?_, ?_⟩
      · rw [h.sent, hunderway, List.append_assoc]
        rfl
      · rw [h.since, hunderway, List.append_assoc]
        rfl
      · rintro p' ⟨⟩
        exact ⟨hp.fetched, hp.due, by simpa using hp.built⟩
    · -- the send has failed, and the poll is over
      rename_i x serial hsend
      rw [hsend] at hport
      refine ⟨steps ++ [.downlinkPoll (Sending.cutOff ⟨get, state, sent, frame :: left⟩ x) 0], ?_⟩
      rw [Runs.run_concat]
      have hover := hport.cutOff cfg hsending x
      obtain ⟨-, -, hafter⟩ := (hport.sending _ hsending).cutOff x
      rw [if_neg (List.cons_ne_nil frame left)] at hafter
      rw [hafter] at hover
      exact hover
  · exact ⟨[], h⟩

lemma Matches.pollRecord (h : Matches s log) (store : Except PyErr Unit) (nowMs : ℤ) :
    ∃ steps, Matches (s.pollRecord store nowMs) (Runs.run (logStep cfg) log steps) := by
  unfold Threaded.pollRecord
  split
  · rename_i get state sent hsending
    have hp := h.sending _ hsending
    split
    · rename_i x
      refine ⟨[.downlinkPoll (Sending.cutOff ⟨get, state, sent, []⟩ x) 0], ?_⟩
      have hover := h.cutOff cfg hsending x
      obtain ⟨-, -, hafter⟩ := hp.cutOff x
      rw [if_pos rfl] at hafter
      rw [hafter] at hover
      exact hover
    · have hunderway : s.underway = sent := by rw [Threaded.underway, hsending]; rfl
      obtain ⟨hsent, hstatus, hafter⟩ := hp.complete rfl
      refine ⟨[.downlinkPoll (Sending.complete ⟨get, state, sent, []⟩) nowMs],
        h.poll cfg ?_ rfl ?_ ?_⟩
      · have hdb : recordPoll (s.downlinker.pollOnce s.first
            (Sending.complete ⟨get, state, sent, []⟩)) s.db nowMs =
              s.db.storeFingerprint (Downlink.fingerprint state) nowMs := by
          rw [recordPoll, hstatus, hafter]
        exact (congrArg₂ (fun db down =>
          { s.toGateway with db := db, down := down, first := false }) hdb hafter).symm
      · rw [hsent]
        show s.sent = _
        rw [h.sent, hunderway]
      · rw [if_pos hstatus]
        rfl
  · exact ⟨[], h⟩

lemma Matches.restart (h : Matches s log) (hidle : s.sending = none) :
    Matches (s.step cfg .restart) (logStep cfg log .restart) := by
  obtain ⟨g, polls⟩ := log
  obtain rfl := h.gateway
  have hunderway : s.underway = (s.step cfg .restart).underway := by
    rw [Threaded.underway, hidle]
    rfl
  have hlog : logStep cfg (s.toGateway, polls) .restart = (s.toGateway.step cfg .restart, polls) :=
    congrArg (Prod.mk _) (List.append_nil polls)
  have hsent := h.sent
  have hsince := h.since
  rw [hunderway] at hsent hsince
  rw [hlog]
  exact ⟨rfl, hsent, hsince, fun p hp => by cases hp⟩

/-! ### Runs -/

/-- **A step of the threads** is some steps of the gateway. -/
lemma Matches.step (h : Matches s log) (st : ThreadStep) :
    ∃ steps, Matches (s.step cfg st) (Runs.run (logStep cfg) log steps) := by
  cases st with
  | read env => exact ⟨[.read env], h.other cfg trivial⟩
  | dispatch => exact ⟨[.dispatch], h.other cfg trivial⟩
  | uplinkStart batchSize => exact ⟨[.uplinkStart batchSize], h.other cfg trivial⟩
  | uplinkAdvance world => exact ⟨[.uplinkAdvance world], h.other cfg trivial⟩
  | pollBegin get load =>
    rw [Threaded.step]
    split
    · exact ⟨[], h⟩
    · rename_i hidle
      exact h.pollBegin cfg (by simpa using hidle) get load
  | pollSend write => exact h.pollSend cfg write
  | pollRecord store nowMs => exact h.pollRecord cfg store nowMs
  | restart =>
    cases hsending : s.sending with
    | none => exact ⟨[.restart], h.restart cfg hsending⟩
    | some p =>
      -- the process ends with the poll that it was in
      have hover := (h.cutOff cfg hsending .osError).restart cfg rfl
      exact ⟨[.downlinkPoll (p.cutOff .osError) 0, .restart], hover⟩

lemma run_logStep (steps : List Step) :
    Runs.run (logStep cfg) (.init cfg, []) steps = (Gateway.run cfg steps, pollsOf cfg steps) := by
  induction steps using List.reverseRecOn with
  | nil => rfl
  | append_singleton steps st ih =>
    have hrun : Gateway.run cfg (steps ++ [st]) = (Gateway.run cfg steps).step cfg st :=
      Runs.run_concat _ _ steps st
    rw [Runs.run_concat, ih, logStep, hrun, pollsOf_append, Runs.answers, Runs.answers,
      List.append_nil]

/-- **The simulation.**  The threads have come as far as a run of whole polls. -/
lemma threads_simulation (steps : List ThreadStep) :
    ∃ whole, Matches (Threaded.run cfg steps) (Gateway.run cfg whole, pollsOf cfg whole) := by
  induction steps using List.reverseRecOn with
  | nil => exact ⟨[], rfl, rfl, rfl, fun p hp => by cases hp⟩
  | append_singleton steps st ih =>
    obtain ⟨whole, h⟩ := ih
    obtain ⟨more, hstep⟩ := h.step cfg st
    refine ⟨whole ++ more, ?_⟩
    rw [← run_logStep, ← Runs.run_append, run_logStep] at hstep
    rw [Threaded.run, Runs.run_concat]
    exact hstep

/-! ### The wire -/

/-- What a step of the threads sends. -/
inductive SentCase (s s' : Threaded) : Prop where
  | nothing (sent : s'.sent = s.sent)
      (sending : ∀ p, s'.sending = some p → s.sending = some p ∨ p.sent = [])
  | frame (p : Sending) (frame : List UInt8) (left : List (List UInt8))
      (sending : s.sending = some p) (next : p.left = frame :: left)
      (sent : s'.sent = s.sent ++ [frame])
      (goesOn : s'.sending = some { p with sent := p.sent ++ [frame], left := left })

lemma step_sent (s : Threaded) (st : ThreadStep) : SentCase s (s.step cfg st) := by
  -- a poll that is over sends no more
  have hover {s' : Threaded} (hsent : s'.sent = s.sent) (hnone : s'.sending = none) :
      SentCase s s' := .nothing hsent fun p hp => by rw [hnone] at hp; cases hp
  have hsame {s' : Threaded} (hsent : s'.sent = s.sent) (hsending : s'.sending = s.sending) :
      SentCase s s' := .nothing hsent fun p hp => .inl (hsending ▸ hp)
  cases st with
  | read | dispatch | uplinkStart | uplinkAdvance => exact hsame rfl rfl
  | pollBegin get load =>
    rw [Threaded.step]
    split
    · exact hsame rfl rfl
    · obtain ⟨p, hbegin, hp, -⟩ | ⟨hend, -⟩ := pollBegin_cases s get load
      · rw [hbegin]
        exact .nothing rfl fun p' hp' => .inr (Option.some.inj hp' ▸ hp)
      · rw [hend]
        exact hover rfl rfl
  | pollSend write =>
    rw [Threaded.step, Threaded.pollSend]
    split
    · rename_i hsending
      split
      · exact .frame _ _ _ hsending rfl rfl rfl
      · exact hover rfl rfl
    · exact hsame rfl rfl
  | pollRecord store nowMs =>
    rw [Threaded.step, Threaded.pollRecord]
    split
    · split <;> exact hover rfl rfl
    · exact hsame rfl rfl
  | restart => exact hover rfl rfl

/-- An armed frame follows directly on the other three of its state. -/
def ArmedLast (sent : List (List UInt8)) : Prop :=
  ∀ before frame after, sent = before ++ frame :: after → Downlink.IsSetArmed frame →
    ∃ state timing epoch slotmap before',
      Downlink.buildFrames state = .ok [timing, epoch, slotmap, frame] ∧
        before = before' ++ [timing, epoch, slotmap]

/-- What has been sent ends with the frames of the running poll. -/
structure OnWire (s : Threaded) : Prop where
  armedLast : ArmedLast s.sent
  underway : ∀ p, s.sending = some p → p.sent <:+ s.sent

lemma OnWire.step (h : OnWire s) (hsends : ∀ p, s.sending = some p → Sends s.toGateway p)
    (st : ThreadStep) : OnWire (s.step cfg st) := by
  cases step_sent cfg s st with
  | nothing hsent hsending =>
    refine ⟨hsent ▸ h.armedLast, fun p hp => ?_⟩
    rw [hsent]
    obtain hp | hp := hsending p hp
    · exact h.underway p hp
    · rw [hp]
      exact List.nil_suffix
  | frame p frame left hsending hnext hsent hgoesOn =>
    obtain ⟨before', hwire⟩ := h.underway p hsending
    refine ⟨fun before f after hsplit harmed => ?_, fun p' hp' => ?_⟩
    · rw [hsent] at hsplit
      rcases List.eq_nil_or_concat after with rfl | ⟨after, last, rfl⟩
      · -- the frame that has just been sent
        obtain ⟨rfl, hf⟩ := List.append_inj' hsplit rfl
        obtain rfl := List.head_eq_of_cons_eq hf
        have hbuilt := (hsends p hsending).built
        rw [hnext] at hbuilt
        have hprefix : p.sent ++ [frame] <+: p.sent ++ frame :: left := ⟨left, by simp⟩
        obtain ⟨timing, epoch, slotmap, hthree, hfour⟩ :=
          Downlink.setArmed_last hbuilt hprefix rfl harmed
        rw [hfour] at hbuilt
        exact ⟨p.state, timing, epoch, slotmap, before', hbuilt, by rw [← hwire, hthree]⟩
      · have hsplit' : s.sent ++ [frame] = (before ++ f :: after) ++ [last] := by
          simpa using hsplit
        exact h.armedLast before f after (List.append_inj' hsplit' rfl).1 harmed
    · rw [hgoesOn] at hp'
      obtain rfl := Option.some.inj hp'
      exact ⟨before', by rw [hsent, ← hwire, List.append_assoc]⟩

lemma onWire_of_run (steps : List ThreadStep) : OnWire (Threaded.run cfg steps) := by
  induction steps using List.reverseRecOn with
  | nil =>
    refine ⟨fun before frame after hsplit => ?_, fun p hp => by cases hp⟩
    exact absurd hsplit (by simp [Threaded.run, Threaded.init])
  | append_singleton steps st ih =>
    obtain ⟨whole, h⟩ := threads_simulation cfg steps
    rw [Threaded.run, Runs.run_concat]
    exact ih.step cfg h.sending st

/-- **What the base holds between sends.**  In every state of every run of the threads, between
the sends of a poll too and with an atomic record: the gateway is as in a run of whole polls,
which have sent what has been sent but for the frames of the poll that is running; what has been
recorded as applied is a state that was encoded, and each register of the base holds the frame of
this state, unless one has been sent to it since; and an armed frame, the moment it is sent, has
the other three frames of its state directly before it. -/
theorem base_between_sends (steps : List ThreadStep) :
    let s := Threaded.run cfg steps
    (∃ whole, s.toGateway = Gateway.run cfg whole ∧
      s.sent = Downlink.sentBy (pollsOf cfg whole) ++ s.underway) ∧
    (∀ fp appliedMs, s.db.downlinkState = some (fp, appliedMs) →
      ∃ state frames, fp = Downlink.fingerprint state ∧ Downlink.buildFrames state = .ok frames ∧
        ∀ r, Downlink.registers s.sent r =
          (Downlink.registers s.since r).or (Downlink.registers frames r)) ∧
    ArmedLast s.sent := by
  intro s
  obtain ⟨whole, h⟩ := threads_simulation cfg steps
  have hgateway : s.toGateway = Gateway.run cfg whole := h.gateway
  have hsent : s.sent = Downlink.sentBy (pollsOf cfg whole) ++ s.underway := h.sent
  have hsince : s.since = Downlink.sentSince (pollsOf cfg whole) ++ s.underway := h.since
  have harmedLast := (onWire_of_run cfg steps).armedLast
  refine ⟨⟨whole, hgateway, hsent⟩, fun fp appliedMs hstored => ?_, harmedLast⟩
  have hlinked := linked_of_run cfg whole
  rw [← hgateway] at hlinked
  obtain ⟨state, frames, hfp, hframes, hregs⟩ := hlinked fp (by rw [hstored]; rfl)
  refine ⟨state, frames, hfp, hframes, fun r => ?_⟩
  rw [hsent, hsince, Downlink.registers_append, Downlink.registers_append, hregs, Option.or_assoc]

end SrtGateway.Main
