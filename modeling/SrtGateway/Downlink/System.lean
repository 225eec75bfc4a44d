/-
The downlinker as a system: polls and restarts, step by step.

What a downlinker has recorded, in the cache and in `last_downlink_ok`, changes only with a poll
that reports applied (`pollOnce_record`).  So over a run the two agree (`Recorded.run`), and the
cache stays linked to what the base has been sent (`Linked.run`).

A run in which no poll breaks off between its first frame and its record keeps the base at the
recorded state, and that state at the last one that could be fetched and encoded (`Holds.run`).
-/
import SrtGateway.Downlink.Registers
import SrtGateway.Runs.Simulation

namespace SrtGateway.Downlink

/-- The downlinker after a step; a restart leaves only the cache. -/
def CloudDownlinker.step (d : CloudDownlinker) : Step → CloudDownlinker
  | .poll force env => (d.pollOnce force env).after
  | .restart => .new d.cached

/-! ### The record of a poll -/

/-- What a poll does to the record. -/
inductive RecordCase (d : CloudDownlinker) (env : PollEnv) (result : PollResult) : Prop where
  | kept (status : result.status ≠ some .applied) (cached : result.after.cached = d.cached)
      (lastDownlinkOk : result.after.lastDownlinkOk = d.lastDownlinkOk)
      (unsent : env.store = .ok () → ¬ result.SentAll env)
  | applied (state : State) (fetched : env.fetched = some state)
      (built : buildFrames state = .ok result.sent) (status : result.status = some .applied)
      (cached : result.after.cached = some (fingerprint state))
      (lastDownlinkOk : result.after.lastDownlinkOk = some state)

lemma pollOnce_record (d : CloudDownlinker) (force : Bool) (env : PollEnv) :
    RecordCase d env (d.pollOnce force env) := by
  cases hfetched : env.fetched with
  | none =>
    obtain ⟨-, happlied, hsent, hcached, hlast⟩ := pollOnce_of_not_fetched d force hfetched
    exact .kept happlied hcached hlast fun _ => not_sentAll_nil env hsent
  | some state =>
    obtain ⟨race, err, hget, hcanon, hload⟩ := fetched_eq_some hfetched
    simp only [CloudDownlinker.pollOnce, hget, hcanon, hload]
    by_cases hsame : some (fingerprint state) = d.cached ∧ force = false
    · rw [if_pos hsame]
      exact .kept (by simp [PollResult.status]) rfl rfl fun _ => not_sentAll_nil env rfl
    rw [if_neg hsame]
    cases hframes : buildFrames state with
    | error x =>
      exact .kept (by simp [PollResult.status]) rfl rfl fun _ => not_sentAll_nil env rfl
    | ok frames =>
      have hspec := (sendFrames_spec env.send 0 frames).2
      rcases hres : sendFrames env.send 0 frames with ⟨sent, _ | x⟩ <;> simp only [hres]
      · rw [hres] at hspec
        obtain rfl : sent = frames := hspec.mp rfl
        cases hstore : env.store with
        | error x =>
          exact .kept (by simp [PollResult.status]) rfl rfl fun h => by simp [hstore] at h
        | ok u => exact .applied state hfetched hframes rfl rfl rfl
      · -- a send has failed, so something has not been sent
        rw [hres] at hspec
        refine .kept (by simp [PollResult.status]) rfl rfl ?_
        rintro - ⟨state', hstate', hframes'⟩
        obtain rfl := Option.some.inj (hfetched.symm.trans hstate')
        have hall : frames = sent := Except.ok.inj (hframes.symm.trans hframes')
        exact absurd (hspec.mpr hall.symm) (by simp)

/-- A poll that has sent everything is recorded, if the record can be written. -/
lemma applied_of_sentAll {d : CloudDownlinker} {force : Bool} {env : PollEnv}
    (hsent : (d.pollOnce force env).SentAll env) (hstore : env.store = .ok ()) :
    (d.pollOnce force env).status = some .applied := by
  cases pollOnce_record d force env with
  | kept _ _ _ hunsent => exact absurd hsent (hunsent hstore)
  | applied _ _ _ hstatus => exact hstatus

/-- A poll that is forced, or fetches another state than the recorded one, is not skipped. -/
lemma pollOnce_applied {d : CloudDownlinker} {force : Bool} {env : PollEnv}
    (havailable : env.Available) (hstore : env.store = .ok ())
    (hdue : force = true ∨
      ∀ state, env.fetched = some state → d.cached ≠ some (fingerprint state)) :
    (d.pollOnce force env).status = some .applied := by
  refine applied_of_sentAll ((sentAll_iff d force env).mpr ⟨havailable, fun hskip => ?_⟩) hstore
  obtain ⟨hforce, state, hfetched, hhit⟩ := (status_unchanged_iff d force env).mp hskip
  rcases hdue with hdue | hdue
  · exact absurd (hdue.symm.trans hforce) (by decide)
  · exact hdue state hfetched hhit

/-! ### Runs -/

lemma runSteps_append (d : CloudDownlinker) (steps more : List Step) :
    runSteps d (steps ++ more) =
      runSteps d steps ++ runSteps (Runs.run CloudDownlinker.step d steps) more := by
  induction steps generalizing d with
  | nil => rfl
  | cons st steps ih =>
    cases st with
    | poll force env => exact congrArg (d.poll force env :: ·) (ih _)
    | restart => exact ih _

/-- **A run keeps the link** between the cache and the registers. -/
lemma Linked.run {polls : List Poll} {d : CloudDownlinker} (h : Linked polls d.cached)
    (steps : List Step) :
    Linked (polls ++ runSteps d steps) (Runs.run CloudDownlinker.step d steps).cached := by
  induction steps generalizing polls d with
  | nil => rwa [runSteps, List.append_nil]
  | cons st steps ih =>
    cases st with
    | poll force env =>
      have hrest := ih (h.poll force env)
      rwa [List.append_assoc] at hrest
    | restart => exact ih h

/-- The state that the downlinker reports as applied is the recorded one. -/
def Recorded (d : CloudDownlinker) : Prop :=
  ∀ state, d.lastDownlinkOk = some state → d.cached = some (fingerprint state)

lemma Recorded.step {d : CloudDownlinker} (h : Recorded d) (st : Step) : Recorded (d.step st) := by
  cases st with
  | restart => exact fun state hstate => by cases hstate
  | poll force env =>
    intro state hstate
    rw [CloudDownlinker.step] at hstate ⊢
    cases pollOnce_record d force env with
    | kept _ hcached hlast => exact hcached.trans (h state (hlast.symm.trans hstate))
    | applied state' _ _ _ hcached hlast =>
      obtain rfl := Option.some.inj (hlast.symm.trans hstate)
      exact hcached

lemma Recorded.run {d : CloudDownlinker} (h : Recorded d) (steps : List Step) :
    Recorded (Runs.run CloudDownlinker.step d steps) :=
  Runs.run_preserves CloudDownlinker.step (fun _ st h => h.step st) h steps

/-! ### Following the document -/

/-- Once it starts to send, the poll gets to its end. -/
def PollEnv.Unbroken (env : PollEnv) : Prop := (∀ i < 4, env.send i = .ok ()) ∧ env.store = .ok ()

/-- The state that a poll programs, if the base does not hold it. -/
def PollEnv.target (env : PollEnv) : Option State :=
  env.fetched.filter fun state => (buildFrames state).isOk

lemma PollEnv.target_eq_some {env : PollEnv} {state : State} {frames : List (List UInt8)}
    (hfetched : env.fetched = some state) (hframes : buildFrames state = .ok frames) :
    env.target = some state := by
  rw [PollEnv.target, hfetched, Option.filter_some, hframes]
  rfl

/-- A poll that is not available, although its sends work, can program nothing. -/
lemma PollEnv.target_eq_none {env : PollEnv} (hsends : ∀ i < 4, env.send i = .ok ())
    (hunavailable : ¬ env.Available) : env.target = none := by
  cases hfetched : env.fetched with
  | none => rw [PollEnv.target, hfetched, Option.filter_none]
  | some state =>
    cases hframes : buildFrames state with
    | error x =>
      rw [PollEnv.target, hfetched, Option.filter_some, hframes]
      rfl
    | ok frames => exact absurd ⟨state, frames, hfetched, hframes, hsends⟩ hunavailable

def Step.target : Step → Option State
  | .poll _ env => env.target
  | .restart => none

/-- The states that the polls of a run could program. -/
def targets (steps : List Step) : List State := steps.filterMap Step.target

/-- The last of these states, if there is none a given one. -/
lemma targets_getLastD (st : Step) (steps : List Step) (state : State) :
    (targets (st :: steps)).getLastD state = (targets steps).getLastD (st.target.getD state) := by
  cases htarget : st.target with
  | none => rw [targets, List.filterMap_cons_none htarget, Option.getD_none, targets]
  | some state' =>
    rw [targets, List.filterMap_cons_some htarget, List.getLastD_cons, Option.getD_some, targets]

/-- The base holds the frames of a state, and the downlinker has recorded that it does. -/
structure Holds (polls : List Poll) (d : CloudDownlinker) (state : State) : Prop where
  cached : d.cached = some (fingerprint state)
  base : ∃ frames, buildFrames state = .ok frames ∧ registers (sentBy polls) = registers frames

/-- A poll that sends nothing leaves the base as it is. -/
lemma sentBy_silent (polls : List Poll) {d : CloudDownlinker} {force : Bool} {env : PollEnv}
    (h : (d.pollOnce force env).sent = []) :
    sentBy (polls ++ [d.poll force env]) = sentBy polls := by
  rw [sentBy_concat, d.poll_result, h, List.append_nil]

/-- **A poll that applies a state** makes the base hold it, whatever the base held. -/
lemma holds_applied (polls : List Poll) {d : CloudDownlinker} {force : Bool} {env : PollEnv}
    (h : (d.pollOnce force env).status = some .applied) {state : State}
    (htarget : env.target = some state) :
    Holds (polls ++ [d.poll force env]) (d.pollOnce force env).after state := by
  obtain ⟨state', hfetched, hframes, hcached⟩ := applied_sends h
  rw [PollEnv.target, Option.filter_eq_some_iff, hfetched] at htarget
  obtain rfl := Option.some.inj htarget.1
  exact ⟨hcached, _, hframes, registers_applied (p := d.poll force env) polls hframes⟩

/-- **An unbroken poll** makes the base hold the state that it could program, or leaves it. -/
lemma Holds.poll {polls : List Poll} {d : CloudDownlinker} {state : State}
    (h : Holds polls d state) (force : Bool) {env : PollEnv} (hunbroken : env.Unbroken) :
    Holds (polls ++ [d.poll force env]) (d.pollOnce force env).after (env.target.getD state) := by
  cases pollOnce_cases d force env with
  | nothing hunavailable _ _ hsent hcached =>
    rw [PollEnv.target_eq_none hunbroken.1 hunavailable, Option.getD_none]
    exact ⟨hcached.trans h.cached, by simpa only [sentBy_silent polls hsent] using h.base⟩
  | unchanged fetched hfetched _ hhit _ hsent hcached =>
    -- the frames of the fetched state are those of the state that the base holds
    obtain ⟨frames, hframes, hregs⟩ := h.base
    rw [← sentBy_silent polls hsent] at hregs
    have hsame : fingerprint fetched = fingerprint state :=
      Option.some.inj (hhit.symm.trans h.cached)
    have hbuilt : buildFrames fetched = .ok frames :=
      (buildFrames_eq_of_fingerprint hsame).trans hframes
    rw [PollEnv.target_eq_some hfetched hbuilt, Option.getD_some]
    exact ⟨hcached.trans hhit, frames, hbuilt, hregs⟩
  | sending fetched frames hfetched hbuilt _ _ hunchanged =>
    have htarget : env.target = some fetched := PollEnv.target_eq_some hfetched hbuilt
    have hsent : (d.pollOnce force env).SentAll env :=
      (sentAll_iff d force env).mpr ⟨⟨fetched, frames, hfetched, hbuilt, hunbroken.1⟩, hunchanged⟩
    rw [htarget, Option.getD_some]
    exact holds_applied polls (applied_of_sentAll hsent hunbroken.2) htarget

/-- **The base follows the document** through a run of unbroken polls and restarts. -/
lemma Holds.run {polls : List Poll} {d : CloudDownlinker} {state : State}
    (h : Holds polls d state) {steps : List Step}
    (hunbroken : ∀ force env, .poll force env ∈ steps → env.Unbroken) :
    Holds (polls ++ runSteps d steps) (Runs.run CloudDownlinker.step d steps)
      ((targets steps).getLastD state) := by
  induction steps generalizing polls d state with
  | nil => rwa [runSteps, List.append_nil]
  | cons st steps ih =>
    have hrest : ∀ force env, .poll force env ∈ steps → env.Unbroken :=
      fun force env henv => hunbroken force env (List.mem_cons_of_mem _ henv)
    cases st with
    | poll force env =>
      have hpoll := ih (h.poll force (hunbroken force env List.mem_cons_self)) hrest
      rw [List.append_assoc] at hpoll
      rw [targets_getLastD]
      exact hpoll
    | restart =>
      rw [targets_getLastD]
      exact ih ⟨h.cached, h.base⟩ hrest

end SrtGateway.Downlink
