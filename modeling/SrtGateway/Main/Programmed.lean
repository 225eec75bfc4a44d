/-
What the base holds, over all the processes of a gateway.

On its downlink side the gateway is a downlinker that is polled and restarted, with the first
poll of every process forced (`downlink_simulation`); no other thread touches the cached
fingerprint.  So in every run the registers of the base are the frames of the recorded state,
overlaid with what was sent after the record (`base_of_run`).  And whatever earlier processes
have left in the base, it follows the race document from the first poll on that the cache does
not skip, as long as no poll breaks off once it has started to send (`base_follows`).  Here a
poll is one step, and the INSERT and the commit of its record are never separated: no rollback
of another thread takes back a record that has returned.
-/
import SrtGateway.Downlink.System
import SrtGateway.Main.Ingest

namespace SrtGateway.Main

open SrtGateway.Protocol SrtGateway.Store

/-! ### What leaves the fingerprint alone -/

lemma apply_downlinkState (db : Db) {op : StoreOp} (h : op.OfIngest) :
    (op.apply db).downlinkState = db.downlinkState := by
  cases op with
  | upsertNode nodeId given =>
    rw [StoreOp.apply]
    split
    · rename_i hupsert
      obtain ⟨_, -, hdb⟩ := bind_eq_ok.mp hupsert
      rw [← Except.ok.inj hdb]
    · rfl
  | op o =>
    cases o with
    | insertFix u =>
      show (db.insertFix u).2.downlinkState = db.downlinkState
      rcases hcase : db.insertFix u with ⟨outcome, db'⟩
      cases hcase ▸ insertFix_cases db u with
      | raised | resend | fresh | wrapped => rfl
    | write w => exact h.elim

lemma run_downlinkState (db : Db) (frameType : ℕ) (decoded : Decoded) :
    (db.run (opsOfFrame frameType decoded)).downlinkState = db.downlinkState := by
  have hrun : ∀ (ops : List StoreOp) (db : Db), (∀ op ∈ ops, op.OfIngest) →
      (db.run ops).downlinkState = db.downlinkState := by
    intro ops
    induction ops with
    | nil => exact fun _ _ => rfl
    | cons op ops ih =>
      intro db hops
      rw [List.forall_mem_cons] at hops
      exact (ih (op.apply db) hops.2).trans (apply_downlinkState db hops.1)
  exact hrun _ db (ofIngest_opsOfFrame _ _)

lemma ingest_downlinkState (db : Db) (frames : List Frame) :
    (ingest db frames).downlinkState = db.downlinkState := by
  induction frames generalizing db with
  | nil => rfl
  | cons frame frames ih => exact (ih (ingestFrame db frame)).trans (run_downlinkState db _ _)

lemma perform_downlinkState (db : Db) (world : Uplink.World) (c : Uplink.Call) :
    (Uplink.perform db world c).2.downlinkState = db.downlinkState := by
  cases c <;> rfl

/-! ### The simulation -/

/-- What `poll_once` starts from: the downlinker, with the fingerprint in the store. -/
def Gateway.downlinker (g : Gateway) : Downlink.CloudDownlinker :=
  { g.down with cached := g.db.downlinkState.map Prod.fst }

/-- The steps of the downlinker that a step of the gateway stands for. -/
def downlinkSteps (g : Gateway) : Step → List Downlink.Step
  | .downlinkPoll env _ => [.poll g.first env]
  | .restart => [.restart]
  | .read _ | .dispatch | .uplinkStart _ | .uplinkAdvance _ | .sendFails _ => []

variable (cfg : Config)

lemma downlinkPoll_downlinker (g : Gateway) (env : Downlink.PollEnv) (nowMs : ℤ) :
    (g.downlinkPoll env nowMs).downlinker = (g.downlinker.pollOnce g.first env).after := by
  have hrecord := Downlink.pollOnce_record g.downlinker g.first env
  suffices hcached : (recordPoll (g.downlinker.pollOnce g.first env) g.db nowMs).downlinkState.map
      Prod.fst = (g.downlinker.pollOnce g.first env).after.cached by
    rw [Gateway.downlinker, Gateway.downlinkPoll]
    exact congrArg (fun cached => { (g.downlinker.pollOnce g.first env).after with cached }) hcached
  cases hrecord with
  | kept hstatus hcached => rw [recordPoll_of_not_applied hstatus, hcached, Gateway.downlinker]
  | applied state _ _ hstatus hcached =>
    rw [recordPoll, hstatus, hcached]
    rfl

/-- **The gateway polls and restarts a downlinker**, and does nothing else to it. -/
lemma downlink_simulation : Runs.Simulation (Gateway.step cfg) Downlink.CloudDownlinker.step
    downlinkSteps fun g d => g.downlinker = d := by
  rintro g d st rfl
  -- a step that leaves the downlinker and the fingerprint alone
  have hsame {g' : Gateway} (hdown : g'.down = g.down)
      (hdb : g'.db.downlinkState = g.db.downlinkState) : g'.downlinker = g.downlinker := by
    rw [Gateway.downlinker, hdown, hdb, Gateway.downlinker]
  cases st with
  | read env =>
    refine hsame ?_ ?_ <;> simp only [Gateway.step, Gateway.read] <;> split <;> rfl
  | dispatch =>
    rcases hcalls : g.pending with _ | ⟨⟨frame, decoded⟩, pending⟩
    · simp [Gateway.step, Gateway.dispatch, downlinkSteps, hcalls]
    · refine hsame ?_ ?_
      · rw [Gateway.step, Gateway.dispatch, hcalls]
      · have hdb : g.dispatch.db = g.db.run (opsOfFrame frame.1.toNat decoded) := by
          rw [Gateway.dispatch, hcalls]
          exact onFrame_store g.dispatcher frame.1.toNat decoded
        rw [Gateway.step, hdb]
        exact run_downlinkState g.db frame.1.toNat decoded
  | uplinkStart batchSize =>
    refine hsame rfl ?_
    simp only [Gateway.step, Uplink.System.step]
    split <;> rfl
  | uplinkAdvance world =>
    refine hsame rfl ?_
    show (g.toSystem.advance world).db.downlinkState = g.db.downlinkState
    rw [Uplink.System.advance]
    split
    · rfl
    · rfl
    · exact perform_downlinkState g.db world _
  | downlinkPoll env nowMs => exact downlinkPoll_downlinker g env nowMs
  | sendFails x => exact hsame rfl rfl
  | restart => rfl

/-! ### Runs -/

/-- The steps of the downlinker in a run. -/
def downlinkRun (steps : List Step) : List Downlink.Step :=
  Runs.answers (Gateway.step cfg) downlinkSteps (.init cfg) steps

/-- The polls of a run. -/
def pollsOf (steps : List Step) : List Downlink.Poll :=
  Downlink.runSteps (.new none) (downlinkRun cfg steps)

lemma downlinker_of_run (steps : List Step) : (Gateway.run cfg steps).downlinker =
    Runs.run Downlink.CloudDownlinker.step (.new none) (downlinkRun cfg steps) :=
  (downlink_simulation cfg).run rfl steps

/-- The polls of a run that goes on after some steps. -/
lemma pollsOf_append (before after : List Step) :
    pollsOf cfg (before ++ after) = pollsOf cfg before ++
      Downlink.runSteps (Gateway.run cfg before).downlinker
        (Runs.answers (Gateway.step cfg) downlinkSteps (Gateway.run cfg before) after) := by
  rw [pollsOf, downlinkRun, Runs.answers_append, Downlink.runSteps_append, downlinker_of_run]
  rfl

/-- The recorded fingerprint is linked to what the polls have sent. -/
lemma linked_of_run (steps : List Step) :
    Downlink.Linked (pollsOf cfg steps)
      ((Gateway.run cfg steps).db.downlinkState.map Prod.fst) := by
  have hnew : Downlink.Linked [] (Downlink.CloudDownlinker.new none).cached :=
    fun fp hfp => by cases hfp
  have hrun := hnew.run (downlinkRun cfg steps)
  rwa [← downlinker_of_run] at hrun

/-- **What the base holds.**  After every step of every run of the gateway, with an atomic record
of the fingerprint, whatever has been recorded as applied is a state that was encoded, and each
register of the base holds the frame of this state, unless one has been sent to it since the
record was made; and the state that the gateway reports as its last applied one is the recorded
one. -/
theorem base_of_run (steps : List Step) :
    let g := Gateway.run cfg steps
    let polls := pollsOf cfg steps
    (∀ fp appliedMs, g.db.downlinkState = some (fp, appliedMs) →
      ∃ state frames, fp = Downlink.fingerprint state ∧ Downlink.buildFrames state = .ok frames ∧
        ∀ r, Downlink.registers (Downlink.sentBy polls) r =
          (Downlink.registers (Downlink.sentSince polls) r).or (Downlink.registers frames r)) ∧
      ∀ state, g.down.lastDownlinkOk = some state →
        ∃ appliedMs, g.db.downlinkState = some (Downlink.fingerprint state, appliedMs) := by
  intro g polls
  have hdownlinker := downlinker_of_run cfg steps
  constructor
  · intro fp appliedMs hstored
    refine linked_of_run cfg steps fp ?_
    rw [show (Gateway.run cfg steps).db.downlinkState = some (fp, appliedMs) from hstored]
    rfl
  · intro state hlast
    have hnew : Downlink.Recorded (.new none) := fun state hstate => by cases hstate
    have hrecorded := hnew.run (downlinkRun cfg steps)
    rw [← hdownlinker] at hrecorded
    obtain ⟨⟨fp, appliedMs⟩, hstored, rfl⟩ := Option.map_eq_some_iff.mp (hrecorded state hlast)
    exact ⟨appliedMs, hstored⟩

/-! ### Following the document -/

/-- The state that a poll of the run could program. -/
def targetOf : Step → Option Downlink.State
  | .downlinkPoll env _ => env.target
  | .read _ | .dispatch | .uplinkStart _ | .uplinkAdvance _ | .sendFails _ | .restart => none

lemma targets_answers (g : Gateway) (steps : List Step) :
    Downlink.targets (Runs.answers (Gateway.step cfg) downlinkSteps g steps) =
      steps.filterMap targetOf := by
  have hone : ∀ g st, Downlink.targets (downlinkSteps g st) = (targetOf st).toList := by
    intro g st
    cases st with
    | downlinkPoll env nowMs =>
      show List.filterMap Downlink.Step.target [.poll g.first env] = env.target.toList
      cases htarget : env.target <;> simp [Downlink.Step.target, htarget]
    | read | dispatch | uplinkStart | uplinkAdvance | sendFails | restart => rfl
  induction steps generalizing g with
  | nil => rfl
  | cons st steps ih =>
    have hrest := ih (g.step cfg st)
    rw [Downlink.targets] at hrest
    rw [Runs.answers, Downlink.targets, List.filterMap_append, hrest]
    show Downlink.targets (downlinkSteps g st) ++ _ = _
    rw [hone, List.filterMap_cons]
    cases targetOf st <;> rfl

/-- The polls that a step stands for are unbroken when the step is. -/
lemma unbroken_of_answer {steps : List Step}
    (h : ∀ env nowMs, .downlinkPoll env nowMs ∈ steps → env.Unbroken) :
    ∀ st ∈ steps, ∀ g, ∀ k ∈ downlinkSteps g st, ∀ force env,
      k = Downlink.Step.poll force env → env.Unbroken := by
  rintro st hst g k hk force env rfl
  cases st with
  | downlinkPoll env' nowMs =>
    obtain ⟨⟩ := List.mem_singleton.mp hk
    exact h env nowMs hst
  | restart => cases List.mem_singleton.mp hk
  | read | dispatch | uplinkStart | uplinkAdvance | sendFails => cases hk

/-- Unbroken polls keep the base at the last state that one of them could program. -/
lemma holds_run {polls : List Downlink.Poll} {g : Gateway} {state : Downlink.State}
    (h : Downlink.Holds polls g.downlinker state) {steps : List Step}
    (hunbroken : ∀ env nowMs, .downlinkPoll env nowMs ∈ steps → env.Unbroken) :
    Downlink.Holds (polls ++ Downlink.runSteps g.downlinker
        (Runs.answers (Gateway.step cfg) downlinkSteps g steps))
      (Runs.run (Gateway.step cfg) g steps).downlinker
      ((steps.filterMap targetOf).getLastD state) := by
  have hrun := h.run fun force env henv => Runs.forall_answers (Gateway.step cfg) downlinkSteps
    (P := fun st => ∀ force env, st = .poll force env → env.Unbroken)
    (unbroken_of_answer hunbroken) g _ henv force env rfl
  rwa [targets_answers, ← (downlink_simulation cfg).run rfl steps] at hrun

/-- **The base follows the document.**  In any run, with an atomic record of the fingerprint,
whatever earlier polls and processes have left in the base: when a poll can send and record its
state, and is the first of its process or fetches another state than the recorded one, then
however the run goes on, with restarts too, as long as none of its polls fails on a send or on
the record, the base holds the frames of the state that was the last to be fetched and encoded,
and this is the recorded one. -/
theorem base_follows (before after : List Step) (env : Downlink.PollEnv) (nowMs : ℤ)
    (hdue : (Gateway.run cfg before).first = true ∨ ∀ state, env.fetched = some state →
      (Gateway.run cfg before).db.downlinkState.map Prod.fst ≠ some (Downlink.fingerprint state))
    (havailable : env.Available) (hstore : env.store = .ok ())
    (hunbroken : ∀ env' nowMs', .downlinkPoll env' nowMs' ∈ after → env'.Unbroken) :
    let steps := before ++ .downlinkPoll env nowMs :: after
    ∃ state frames, ((.downlinkPoll env nowMs :: after).filterMap targetOf).getLast? = some state ∧
      Downlink.buildFrames state = .ok frames ∧
      Downlink.registers (Downlink.sentBy (pollsOf cfg steps)) = Downlink.registers frames ∧
      (Gateway.run cfg steps).db.downlinkState.map Prod.fst =
        some (Downlink.fingerprint state) := by
  intro steps
  have hsteps := pollsOf_append cfg before (.downlinkPoll env nowMs :: after)
  have hrun : Gateway.run cfg steps =
      Runs.run (Gateway.step cfg) ((Gateway.run cfg before).downlinkPoll env nowMs) after :=
    Runs.run_append (Gateway.step cfg) (.init cfg) before _
  generalize Gateway.run cfg before = g at hdue hsteps hrun
  obtain ⟨state, frames, hfetched, hframes, hsends⟩ := havailable
  have htarget : env.target = some state := Downlink.PollEnv.target_eq_some hfetched hframes
  -- the poll programs its state, since the cache does not skip it
  have happlied : (g.downlinker.pollOnce g.first env).status = some .applied :=
    Downlink.pollOnce_applied ⟨state, frames, hfetched, hframes, hsends⟩ hstore hdue
  have hpoll := Downlink.holds_applied (pollsOf cfg before) happlied htarget
  rw [← downlinkPoll_downlinker g env nowMs] at hpoll
  -- and the later ones keep up with the document
  have hlast := holds_run cfg hpoll hunbroken
  rw [← hrun, List.append_assoc] at hlast
  obtain ⟨frames', hframes', hregs⟩ := hlast.base
  refine ⟨_, frames', ?_, hframes', ?_, hlast.cached⟩
  · have hfirst : targetOf (.downlinkPoll env nowMs) = some state := htarget
    rw [List.filterMap_cons_some hfirst, List.getLast?_cons, List.getLastD_eq_getLast?]
  · rw [downlinkPoll_downlinker] at hregs
    rw [hsteps]
    exact hregs

/-- A race is programmed, a change to another one breaks off after its first frame, and the
process ends. -/
def brokenSteps : List Step :=
  [.downlinkPoll (Downlink.serves 3) 0, .downlinkPoll (Downlink.breaksAfterOne 4) 1, .restart]

/-- The theorem at a process that takes over from that one, and sees a third race. -/
theorem base_follows_broken :
    let cfg : Config := { settings := { hasFactory := true }, serialPort := none }
    ∃ frames, Downlink.buildFrames (Downlink.raceState 5) = .ok frames ∧
      Downlink.registers (Downlink.sentBy (pollsOf cfg (brokenSteps ++
        .downlinkPoll (Downlink.serves 3) 2 :: [.downlinkPoll (Downlink.serves 5) 3]))) =
          Downlink.registers frames := by
  intro cfg
  have havailable : (Downlink.serves 3).Available :=
    ⟨Downlink.raceState 3, _, rfl, rfl, fun _ _ => rfl⟩
  have hunbroken : ∀ env nowMs, .downlinkPoll env nowMs ∈
      [Step.downlinkPoll (Downlink.serves 5) 3] → Downlink.PollEnv.Unbroken env := by
    intro env nowMs hmem
    obtain ⟨⟩ := List.mem_singleton.mp hmem
    exact ⟨fun _ _ => rfl, rfl⟩
  obtain ⟨state, frames, hlast, hframes, hregs, -⟩ :=
    base_follows cfg brokenSteps [.downlinkPoll (Downlink.serves 5) 3] (Downlink.serves 3) 2
      (.inl rfl) havailable rfl hunbroken
  obtain rfl : Downlink.raceState 5 = state := Option.some.inj hlast
  exact ⟨frames, hframes, hregs⟩

end SrtGateway.Main
