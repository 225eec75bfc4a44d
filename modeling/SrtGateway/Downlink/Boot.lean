/-
Programming the base after a boot (`Gateway._downlink_loop`).

The loop forces its first poll and no other, whatever comes of that poll.  A first poll that
cannot deliver (no document, a send that fails, an exception) uses the force up: from then
on a document whose fingerprint an earlier process has cached is skipped.  So the base is
always programmed exactly when no such document turns up before a poll that could deliver
(`boot_programs_iff`).
-/
import SrtGateway.Downlink.Poll

namespace SrtGateway.Downlink

open SrtGateway.Json

/-- The polls of `_downlink_loop`: exceptions are logged, and `first` is cleared after every
poll. -/
def downlinkLoop : Bool → CloudDownlinker → List PollEnv → List Poll
  | _, _, [] => []
  | first, d, env :: envs =>
    let p := d.poll first env
    p :: downlinkLoop false p.result.after envs

/-- What the loop owes a freshly booted base: nothing is skipped as unchanged before all four
frames have been sent, and the first poll that has a document and four successful sends
sends them. -/
structure BootPrograms (polls : List Poll) : Prop where
  no_skip : ∀ before p after, polls = before ++ p :: after →
    p.result.status = some .unchanged → ∃ q ∈ before, q.result.SentAll q.env
  first_sends : ∀ before p after, polls = before ++ p :: after → p.env.Available →
    (∀ q ∈ before, ¬ q.env.Available) → p.result.SentAll p.env

/-- Every poll but the first whose document has the persisted fingerprint comes after one
that had a document and four successful sends. -/
def NoStaleHit (persisted : Option (List Char)) (envs : List PollEnv) : Prop :=
  ∀ before env after, envs = before ++ env :: after → before ≠ [] →
    ∀ state, env.fetched = some state → persisted = some (fingerprint state) →
      ∃ e ∈ before, e.Available

/-! ### The polls of the loop -/

lemma downlinkLoop_envs (first : Bool) (d : CloudDownlinker) (envs : List PollEnv) :
    (downlinkLoop first d envs).map Poll.env = envs := by
  induction envs generalizing first d with
  | nil => rfl
  | cons env envs ih => rw [downlinkLoop, List.map_cons, ih]; rfl

/-- A poll of the loop: only the first is forced, and the cache is as it was at the start
until all four frames have been sent. -/
lemma downlinkLoop_split {first : Bool} {d : CloudDownlinker} {envs : List PollEnv}
    {before after : List Poll} {p : Poll} (h : downlinkLoop first d envs = before ++ p :: after) :
    p = p.before.poll p.force p.env ∧ p.force = (first && before.isEmpty) ∧
      ((∀ q ∈ before, ¬ q.result.SentAll q.env) → p.before.cached = d.cached) := by
  induction before generalizing first d envs with
  | nil =>
    cases envs with
    | nil => simp [downlinkLoop] at h
    | cons env envs =>
      obtain ⟨rfl, -⟩ := List.cons.inj h
      exact ⟨rfl, by simp [CloudDownlinker.poll], fun _ => rfl⟩
  | cons q before ih =>
    cases envs with
    | nil => simp [downlinkLoop] at h
    | cons env envs =>
      obtain ⟨rfl, htail⟩ := List.cons.inj h
      obtain ⟨hpoll, hforce, hcached⟩ := ih htail
      refine ⟨hpoll, by simpa using hforce, fun hnone => ?_⟩
      rw [hcached fun q hq => hnone q (List.mem_cons_of_mem _ hq)]
      exact cached_of_not_sentAll d first env (hnone _ List.mem_cons_self)

/-- The first element of a list with a property. -/
lemma exists_first {α : Type} {P : α → Prop} {l : List α} (h : ∃ a ∈ l, P a) :
    ∃ before a after, l = before ++ a :: after ∧ P a ∧ ∀ b ∈ before, ¬ P b := by
  induction l with
  | nil => simp at h
  | cons x l ih =>
    by_cases hx : P x
    · exact ⟨[], x, l, rfl, hx, by simp⟩
    · obtain ⟨a, ha, hPa⟩ := h
      have hal : a ∈ l := (List.mem_cons.mp ha).resolve_left fun hax => hx (hax ▸ hPa)
      obtain ⟨before, b, after, rfl, hPb, hbefore⟩ := ih ⟨a, hal, hPa⟩
      exact ⟨x :: before, b, after, rfl, hPb, by simpa [hx] using hbefore⟩

section

variable {persisted : Option (List Char)} {envs : List PollEnv} {before after : List Poll}
  {p : Poll}

/-- Before anything was sent, a poll is skipped exactly when it is not the first and its
document has the persisted fingerprint. -/
lemma skipped_iff (h : downlinkLoop true (.new persisted) envs = before ++ p :: after)
    (hnone : ∀ q ∈ before, ¬ q.result.SentAll q.env) :
    p.result.status = some .unchanged ↔ before ≠ [] ∧
      ∃ state, p.env.fetched = some state ∧ persisted = some (fingerprint state) := by
  obtain ⟨hpoll, hforce, hcached⟩ := downlinkLoop_split h
  have hstatus := status_unchanged_iff p.before p.force p.env
  have hresult : p.result = p.before.pollOnce p.force p.env := congrArg Poll.result hpoll
  rw [hresult, hstatus, hcached hnone, hforce]
  cases before <;> simp [CloudDownlinker.new]

lemma sentAll_iff_not_skipped (h : downlinkLoop true (.new persisted) envs = before ++ p :: after) :
    p.result.SentAll p.env ↔ p.env.Available ∧ p.result.status ≠ some .unchanged := by
  have hresult : p.result = p.before.pollOnce p.force p.env :=
    congrArg Poll.result (downlinkLoop_split h).1
  rw [hresult]
  exact sentAll_iff p.before p.force p.env

/-- A poll that was not available did not send. -/
lemma unsent_of_unavailable
    (h : downlinkLoop true (.new persisted) envs = before ++ p :: after)
    (hnone : ∀ q ∈ before, ¬ q.env.Available) : ∀ q ∈ before, ¬ q.result.SentAll q.env := by
  intro q hq hsent
  obtain ⟨b, a, rfl⟩ := List.append_of_mem hq
  have hsplit : downlinkLoop true (.new persisted) envs = b ++ q :: (a ++ p :: after) := by
    simpa using h
  have hq' := sentAll_iff_not_skipped hsplit
  exact hnone q hq (hq'.mp hsent).1

/-- A poll that is skipped before anything was sent comes after one that could deliver. -/
lemma exists_available_of_skipped (hstale : NoStaleHit persisted envs)
    (h : downlinkLoop true (.new persisted) envs = before ++ p :: after)
    (hnone : ∀ q ∈ before, ¬ q.result.SentAll q.env)
    (hskip : p.result.status = some .unchanged) : ∃ q ∈ before, q.env.Available := by
  obtain ⟨hne, state, hstate, hhit⟩ := (skipped_iff h hnone).mp hskip
  have henvs : envs = before.map Poll.env ++ p.env :: after.map Poll.env := by
    rw [← downlinkLoop_envs true (.new persisted) envs, h, List.map_append, List.map_cons]
  obtain ⟨e, he, hav⟩ := hstale _ _ _ henvs (by simpa using hne) state hstate hhit
  obtain ⟨q, hq, rfl⟩ := List.mem_map.mp he
  exact ⟨q, hq, hav⟩

end

/-- **A boot programs the base exactly when no stale fingerprint is hit first.**  For every
persisted cache and every run of the loop. -/
theorem boot_programs_iff (persisted : Option (List Char)) (envs : List PollEnv) :
    BootPrograms (downlinkLoop true (.new persisted) envs) ↔ NoStaleHit persisted envs := by
  constructor
  · intro hboot before env after hsplit hne state hstate hhit
    by_contra hno
    -- the poll that goes with `env`
    rw [← downlinkLoop_envs true (.new persisted) envs, List.map_eq_append_iff] at hsplit
    obtain ⟨ps, qs, hpolls, rfl, hqs⟩ := hsplit
    obtain ⟨p, after', rfl, rfl, -⟩ := List.map_eq_cons_iff.mp hqs
    have hnone := unsent_of_unavailable hpolls fun q hq hav =>
      hno ⟨q.env, List.mem_map_of_mem hq, hav⟩
    have hskip := (skipped_iff hpolls hnone).mpr ⟨by simpa using hne, state, hstate, hhit⟩
    obtain ⟨q, hq, hsent⟩ := hboot.no_skip ps p after' hpolls hskip
    exact hnone q hq hsent
  · intro hstale
    have hfirst : ∀ before p after,
        downlinkLoop true (.new persisted) envs = before ++ p :: after → p.env.Available →
        (∀ q ∈ before, ¬ q.env.Available) → p.result.SentAll p.env := by
      intro before p after hpolls hav hnone
      refine (sentAll_iff_not_skipped hpolls).mpr ⟨hav, fun hskip => ?_⟩
      obtain ⟨q, hq, hqav⟩ := exists_available_of_skipped hstale hpolls
        (unsent_of_unavailable hpolls hnone) hskip
      exact hnone q hq hqav
    refine ⟨fun before p after hpolls hskip => ?_, hfirst⟩
    by_contra hno
    have hnone : ∀ q ∈ before, ¬ q.result.SentAll q.env := fun q hq hsent => hno ⟨q, hq, hsent⟩
    -- the first poll that could deliver did
    obtain ⟨b, q, a, rfl, hav, hb⟩ := exists_first (P := fun q : Poll => q.env.Available)
      (exists_available_of_skipped hstale hpolls hnone hskip)
    exact hnone q (by simp) (hfirst b q (a ++ p :: after) (by simpa using hpolls) hav hb)

/-! ### A boot that programs nothing -/

/-- The documents of the examples: `slot_count` slots of 200 ms. -/
def raceDoc (slotCount : ℤ) : Value :=
  .obj [(pyStr "race_id", .int 7), (pyStr "state", .str (pyStr "armed")),
    (pyStr "armed", .bool true), (pyStr "slot_count", .int slotCount), (pyStr "toa_ms", .int 200)]

/-- Its canonical state. -/
def raceState (slotCount : ℤ) : State :=
  { raceId := .int 7, state := .str (pyStr "armed"), armed := true, slotCount := slotCount,
    toaMs := 200, guardMs := 0, frameEpochMs := 0, slots := [] }

/-- The document is served and everything works. -/
def serves (slotCount : ℤ) : PollEnv :=
  { get := .ok ⟨200, .ok (raceDoc slotCount)⟩, load := .ok (), send := fun _ => .ok (),
    store := .ok () }

/-- The cloud cannot be reached. -/
def offline : PollEnv := { serves 0 with get := .error .transportError }

/-- The cloud is unreachable at the first poll of a process, whose predecessor has cached
the fingerprint of the current race: no frame is ever sent. -/
theorem boot_skips_after_offline :
    let polls := downlinkLoop true (.new (some (fingerprint (raceState 3)))) [offline, serves 3]
    polls.map (fun p => p.result.status) = [some .idle, some .unchanged] ∧
      (∀ p ∈ polls, p.result.sent = []) ∧ ¬ BootPrograms polls := by
  intro polls
  have hstatus : polls.map (fun p => p.result.status) = [some .idle, some .unchanged] := by
    decide +kernel
  have hsent : ∀ p ∈ polls, p.result.sent = [] := by
    decide +kernel
  refine ⟨hstatus, hsent, fun hboot => ?_⟩
  obtain ⟨p, q, hpolls⟩ : ∃ p q, polls = [p] ++ [q] := ⟨_, _, rfl⟩
  have hq : q.result.status = some .unchanged := by
    rw [hpolls] at hstatus
    exact (List.cons.inj (List.cons.inj hstatus).2).1
  obtain ⟨r, hr, hall⟩ := hboot.no_skip [p] q [] hpolls hq
  exact not_sentAll_nil r.env (hsent r (hpolls ▸ List.mem_append_left _ hr)) hall

end SrtGateway.Downlink
