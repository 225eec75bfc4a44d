/-
The order of the frames on the wire over a run of polls.

A poll that gets as far as sending puts a prefix of the four frames of one state on the wire
(`Group`), and records the state when it has put all four there, and only then.  So the wire is
a sequence of such groups, and an armed frame comes right after the other three of its state
(`runSteps_disciplined`).
-/
import SrtGateway.Downlink.Registers

namespace SrtGateway.Downlink

open SrtGateway.Json SrtGateway.Protocol SrtGateway.Bytes

/-! ### Groups -/

/-- The state whose frames the poll sets out to send. -/
def Poll.sending (p : Poll) : Option State :=
  match p.env.fetched with
  | none => none
  | some state =>
    if some (fingerprint state) = p.before.cached ∧ p.force = false then none
    else
      match buildFrames state with
      | .error _ => none
      | .ok _ => some state

/-- The poll has sent all four frames of the state. -/
def Poll.Completes (p : Poll) (state : State) : Prop :=
  p.sending = some state ∧ buildFrames state = .ok p.result.sent

/-- The poll leaves what it has recorded as it was. -/
def Poll.KeepsRecord (p : Poll) : Prop :=
  p.result.after.cached = p.before.cached ∧
    p.result.after.lastDownlinkOk = p.before.lastDownlinkOk

/-- What a poll puts on the wire and records. -/
inductive Group (p : Poll) : Prop where
  | silent (sending : p.sending = none) (sent : p.result.sent = []) (keeps : p.KeepsRecord)
  | cut (state : State) (frames : List (List UInt8)) (sending : p.sending = some state)
      (built : buildFrames state = .ok frames) (sent : p.result.sent <+: frames)
      (short : p.result.sent ≠ frames) (keeps : p.KeepsRecord)
  | complete (state : State) (sending : p.sending = some state)
      (built : buildFrames state = .ok p.result.sent)
      (cached : p.result.after.cached = some (fingerprint state))
      (recorded : p.result.after.lastDownlinkOk = some state)

/-- **What one poll does**, if its writes to the store do not fail. -/
lemma poll_group (d : CloudDownlinker) (force : Bool) {env : PollEnv}
    (hstore : env.store = .ok ()) :
    Group (d.poll force env) := by
  cases hfetched : env.fetched with
  | none =>
    obtain ⟨-, -, hsent, hcached, hlast⟩ := pollOnce_of_not_fetched d force hfetched
    exact .silent (by simp [Poll.sending, CloudDownlinker.poll, hfetched]) hsent ⟨hcached, hlast⟩
  | some state =>
    obtain ⟨race, err, hget, hcanon, hload⟩ := fetched_eq_some hfetched
    have hrun : (d.poll force env).result = d.pollOnce force env := rfl
    simp only [CloudDownlinker.pollOnce, hget, hcanon, hload] at hrun
    by_cases hsame : some (fingerprint state) = d.cached ∧ force = false
    · have hsending : (d.poll force env).sending = none := by
        simp [Poll.sending, CloudDownlinker.poll, hfetched, hsame]
      rw [if_pos hsame] at hrun
      exact .silent hsending (by rw [hrun]) ⟨by rw [hrun]; rfl, by rw [hrun]; rfl⟩
    rw [if_neg hsame] at hrun
    have hsending : (d.poll force env).sending =
        match buildFrames state with
        | .error _ => none
        | .ok _ => some state := by
      simp only [Poll.sending, CloudDownlinker.poll, hfetched]
      exact if_neg hsame
    cases hframes : buildFrames state with
    | error x =>
      -- the document cannot be encoded
      rw [hframes] at hrun hsending
      exact .silent hsending (by rw [hrun]) ⟨by rw [hrun]; rfl, by rw [hrun]; rfl⟩
    | ok frames =>
      rw [hframes] at hrun hsending
      have hinit := sendFrames_isPrefix env.send 0 frames
      have hspec := (sendFrames_spec env.send 0 frames).2
      rcases hres : sendFrames env.send 0 frames with ⟨sent, _ | x⟩
      · -- every frame went out
        rw [hres] at hspec
        obtain rfl : sent = frames := hspec.mp rfl
        simp only [hres, hstore] at hrun
        refine .complete state hsending ?_ (by rw [hrun]) (by rw [hrun])
        rw [hrun, hframes]
      · rw [hres] at hinit hspec
        simp only [hres] at hrun
        refine .cut state frames hsending hframes (by rwa [hrun]) ?_
          ⟨by rw [hrun]; rfl, by rw [hrun]; rfl⟩
        rw [hrun]
        exact fun heq => absurd (hspec.mpr heq) (by simp)

/-! ### Runs -/

lemma mem_runSteps {d : CloudDownlinker} {steps : List Step} {p : Poll}
    (hp : p ∈ runSteps d steps) :
    p = p.before.poll p.force p.env ∧ Step.poll p.force p.env ∈ steps := by
  induction steps generalizing d with
  | nil => exact absurd hp List.not_mem_nil
  | cons step steps ih =>
    cases step with
    | restart => exact (ih hp).imp_right (List.mem_cons_of_mem _)
    | poll force env =>
      rcases List.mem_cons.mp hp with rfl | hp
      · exact ⟨rfl, List.mem_cons_self ..⟩
      · exact (ih hp).imp_right (List.mem_cons_of_mem _)

/-- A frame that arms or disarms. -/
def IsSetArmed (frame : List UInt8) : Prop := byteAt frame 1 = UInt8.ofNat T_SET_ARMED

lemma byteAt_encodeFrame {t : ℕ} {payload frame : List UInt8}
    (h : encodeFrame t payload = .ok frame) : byteAt frame 1 = UInt8.ofNat (t &&& 0xFF) := by
  obtain ⟨-, rfl⟩ := encodeFrame_eq_ok.mp h
  exact byteAt_frameHead_one t payload _

/-- Among the first frames of a state the armed frame is the last of all four. -/
lemma setArmed_last {state : State} {frames sent before after : List (List UInt8)}
    {frame : List UInt8} (hframes : buildFrames state = .ok frames) (hsent : sent <+: frames)
    (hsplit : sent = before ++ frame :: after) (harmed : IsSetArmed frame) :
    ∃ timing epoch slotmap, before = [timing, epoch, slotmap] ∧
      frames = [timing, epoch, slotmap, frame] := by
  obtain ⟨timing, epoch, slotmap, armed, htiming, hepoch, hslotmap, -, rfl⟩ :=
    buildFrames_eq_ok.mp hframes
  have hne : ¬ IsSetArmed timing ∧ ¬ IsSetArmed epoch ∧ ¬ IsSetArmed slotmap := by
    simp only [IsSetArmed, byteAt_encodeFrame htiming, byteAt_encodeFrame hepoch,
      byteAt_encodeFrame hslotmap]
    decide
  obtain ⟨rest, hrest⟩ := hsent
  rw [hsplit] at hrest
  rcases before with _ | ⟨b0, _ | ⟨b1, _ | ⟨b2, _ | ⟨b3, before⟩⟩⟩⟩
  · obtain ⟨rfl, -⟩ := List.cons.inj hrest
    exact absurd harmed hne.1
  · obtain ⟨-, htail⟩ := List.cons.inj hrest
    obtain ⟨rfl, -⟩ := List.cons.inj htail
    exact absurd harmed hne.2.1
  · obtain ⟨-, htail⟩ := List.cons.inj hrest
    obtain ⟨-, htail⟩ := List.cons.inj htail
    obtain ⟨rfl, -⟩ := List.cons.inj htail
    exact absurd harmed hne.2.2
  · simp only [List.cons_append, List.nil_append, List.cons.injEq] at hrest
    obtain ⟨rfl, rfl, rfl, rfl, -⟩ := hrest
    exact ⟨_, _, _, rfl, rfl⟩
  · simp at hrest

/-- What holds of the wire and of the records over a run. -/
structure Disciplined (polls : List Poll) : Prop where
  /-- The wire is made of the groups of the polls that reached sending. -/
  groups : sentBy polls = (polls.filter fun p => p.sending.isSome).flatMap fun p => p.result.sent
  prefixes : ∀ p ∈ polls, ∀ state, p.sending = some state →
    ∃ frames, buildFrames state = .ok frames ∧ p.result.sent <+: frames
  /-- An armed frame comes right after the other three frames of the state of one poll. -/
  armedLast : ∀ before frame after, sentBy polls = before ++ frame :: after → IsSetArmed frame →
    ∃ p ∈ polls, ∃ state timing epoch slotmap before', p.sending = some state ∧
      buildFrames state = .ok [timing, epoch, slotmap, frame] ∧
        before = before' ++ [timing, epoch, slotmap]
  /-- A complete group is recorded. -/
  recorded : ∀ p ∈ polls, ∀ state, p.Completes state →
    p.result.after.cached = some (fingerprint state) ∧
      p.result.after.lastDownlinkOk = some state
  /-- Every other poll, one that raises included, keeps the record. -/
  kept : ∀ p ∈ polls, (∀ state, ¬ p.Completes state) → p.KeepsRecord

lemma Group.sent_of_silent {p : Poll} (h : Group p) (hsending : p.sending = none) :
    p.result.sent = [] := by
  cases h with
  | silent _ sent _ => exact sent
  | cut state _ sending => exact nomatch hsending.symm.trans sending
  | complete state sending => exact nomatch hsending.symm.trans sending

lemma Group.isPrefix {p : Poll} (h : Group p) {state : State} (hsending : p.sending = some state) :
    ∃ frames, buildFrames state = .ok frames ∧ p.result.sent <+: frames := by
  cases h with
  | silent sending => exact nomatch sending.symm.trans hsending
  | cut state' frames sending built sent =>
    obtain rfl := Option.some.inj (sending.symm.trans hsending)
    exact ⟨frames, built, sent⟩
  | complete state' sending built =>
    obtain rfl := Option.some.inj (sending.symm.trans hsending)
    exact ⟨_, built, List.prefix_rfl⟩

lemma Group.recorded_of_completes {p : Poll} (h : Group p) {state : State}
    (hcompletes : p.Completes state) :
    p.result.after.cached = some (fingerprint state) ∧
      p.result.after.lastDownlinkOk = some state := by
  obtain ⟨hsending, hbuilt⟩ := hcompletes
  cases h with
  | silent sending => exact nomatch sending.symm.trans hsending
  | cut state' frames sending built _ short =>
    obtain rfl := Option.some.inj (sending.symm.trans hsending)
    exact absurd (Except.ok.inj (hbuilt.symm.trans built)) short
  | complete state' sending _ cached recorded =>
    obtain rfl := Option.some.inj (sending.symm.trans hsending)
    exact ⟨cached, recorded⟩

lemma Group.keeps {p : Poll} (h : Group p) (hcompletes : ∀ state, ¬ p.Completes state) :
    p.KeepsRecord := by
  cases h with
  | silent _ _ keeps => exact keeps
  | cut _ _ _ _ _ _ keeps => exact keeps
  | complete state sending built => exact absurd ⟨sending, built⟩ (hcompletes state)

section

variable {polls : List Poll} (h : ∀ p ∈ polls, Group p)

include h

lemma sentBy_eq_groups :
    sentBy polls = (polls.filter fun p => p.sending.isSome).flatMap fun p => p.result.sent := by
  induction polls with
  | nil => rfl
  | cons p polls ih =>
    obtain ⟨hp, hpolls⟩ := List.forall_mem_cons.mp h
    have hrest := ih hpolls
    unfold sentBy at hrest ⊢
    rw [List.flatMap_cons, hrest]
    cases hsending : p.sending with
    | none =>
      rw [hp.sent_of_silent hsending, List.filter_cons_of_neg (by simp [hsending])]
      rfl
    | some state => rw [List.filter_cons_of_pos (by simp [hsending]), List.flatMap_cons]

lemma setArmed_preceded {before after : List (List UInt8)} {frame : List UInt8}
    (hwire : sentBy polls = before ++ frame :: after) (harmed : IsSetArmed frame) :
    ∃ p ∈ polls, ∃ state timing epoch slotmap before', p.sending = some state ∧
      buildFrames state = .ok [timing, epoch, slotmap, frame] ∧
        before = before' ++ [timing, epoch, slotmap] := by
  induction polls generalizing before with
  | nil => exact absurd hwire (by simp [sentBy])
  | cons p polls ih =>
    obtain ⟨hp, hpolls⟩ := List.forall_mem_cons.mp h
    have hwire' : p.result.sent ++ sentBy polls = before ++ frame :: after := hwire
    rcases List.append_eq_append_iff.mp hwire' with ⟨before', hbefore, hrest⟩ | ⟨mid, hsent, hmid⟩
    · -- the frame was sent later
      obtain ⟨q, hq, state, timing, epoch, slotmap, before'', hsending, hbuilt, heq⟩ :=
        ih hpolls hrest
      refine ⟨q, List.mem_cons_of_mem _ hq, state, timing, epoch, slotmap,
        p.result.sent ++ before'', hsending, hbuilt, ?_⟩
      rw [hbefore, heq, List.append_assoc]
    · cases mid with
      | nil =>
        obtain ⟨_, _, _, _, _, _, before'', -, -, heq⟩ := @ih hpolls [] hmid.symm
        simp at heq
      | cons frame' mid =>
        obtain ⟨rfl, -⟩ := List.cons.inj hmid
        cases hsending : p.sending with
        | none =>
          rw [hp.sent_of_silent hsending] at hsent
          simp at hsent
        | some state =>
          obtain ⟨frames, hframes, hinit⟩ := hp.isPrefix hsending
          obtain ⟨timing, epoch, slotmap, rfl, rfl⟩ := setArmed_last hframes hinit hsent harmed
          exact ⟨p, List.mem_cons_self .., state, timing, epoch, slotmap, [], hsending, hframes,
            rfl⟩

end

/-- Over every run of polls and restarts, whatever documents, failures and force flags it
meets, if the writes to the store do not fail: the wire is made of the groups of the polls, an
armed frame comes last in its group, and a state is recorded exactly when its group is
complete. -/
theorem runSteps_disciplined (cached : Option (List Char)) (steps : List Step)
    (hstore : ∀ force env, Step.poll force env ∈ steps → env.store = .ok ()) :
    Disciplined (runSteps (.new cached) steps) := by
  have hgroup : ∀ p ∈ runSteps (.new cached) steps, Group p := by
    intro p hp
    obtain ⟨heq, hmem⟩ := mem_runSteps hp
    rw [heq]
    exact poll_group p.before p.force (hstore _ _ hmem)
  exact
    { groups := sentBy_eq_groups hgroup
      prefixes := fun p hp _ hsending => (hgroup p hp).isPrefix hsending
      armedLast := fun _ _ _ hwire harmed => setArmed_preceded hgroup hwire harmed
      recorded := fun p hp _ hcompletes => (hgroup p hp).recorded_of_completes hcompletes
      kept := fun p hp hcompletes => (hgroup p hp).keeps hcompletes }

/-- The theorem at a run whose second poll breaks off after one frame. -/
theorem runSteps_disciplined_break :
    Disciplined
      (runSteps (.new none) [.poll false (serves 3), .poll false (breaksAfterOne 4)]) := by
  refine runSteps_disciplined none _ fun force env hmem => ?_
  rcases List.mem_cons.mp hmem with heq | hmem
  · obtain ⟨rfl, rfl⟩ := Step.poll.inj heq
    rfl
  · obtain ⟨rfl, rfl⟩ := Step.poll.inj (List.mem_singleton.mp hmem)
    rfl

end SrtGateway.Downlink
