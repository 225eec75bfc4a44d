/-
The driver loop of the cloud uplinker (`uplink.py`): exponential backoff.

`run_forever` calls `run_once` again and again and sleeps in between.  After a retry it sleeps
for the current backoff, which grows by a factor up to a cap, and after anything else the
backoff starts over.  So the trace of a run has an entry for each iteration, with the outcome of
its call of `run_once`, and the sleep after a retry depends on the number of retries in a row
(`runForever_backs_off`).  An iteration without any progress is always followed by a sleep:
`run_once` reports a partial outcome only together with progress, or with work that is left
(`runOnce_progress`).
-/
import Mathlib.Algebra.Order.Field.Rat
import Mathlib.Tactic.Positivity
import SrtGateway.Uplink.RunOnce

namespace SrtGateway.Uplink

open SrtGateway.Store SrtGateway.Effect

/-! ### The loop -/

/-- The backoff parameters, and the idle interval, in seconds. -/
structure Backoff where
  base : ℚ := 1
  max : ℚ := 60
  factor : ℚ := 2
  interval : ℚ := 5

structure Backoff.WellFormed (p : Backoff) : Prop where
  base_pos : 0 < p.base
  one_le_factor : 1 ≤ p.factor
  base_le_max : p.base ≤ p.max
  interval_pos : 0 < p.interval

/-- What answers the calls of `run_once`, and goes on while the driver sleeps: the cloud, the
clock, and the store with all its other writers. -/
structure Surroundings (σ : Type) where
  respond : σ → (c : Call) → Answer c × σ
  sleep : σ → ℚ → σ

/-- A call of `run_once`, and the sleeps between it and the next one. -/
structure Iteration where
  stats : RunStats
  sleeps : List ℚ

/-- The state of the loop. -/
structure Driver (σ : Type) where
  up : CloudUplinker
  backoff : ℚ
  world : σ

variable {σ : Type}

/-- The body of the loop of `run_forever`. -/
def Driver.iterate (p : Backoff) (w : Surroundings σ) (batchSize : ℕ) (d : Driver σ) :
    Iteration × Driver σ :=
  let ((up, stats), s) := (runOnce d.up batchSize).exec w.respond d.world
  if stats.status = .retry then
    (⟨stats, [d.backoff]⟩, ⟨up, min (d.backoff * p.factor) p.max, w.sleep s d.backoff⟩)
  else
    let backoff := p.base
    if stats.status = .idle then
      (⟨stats, [p.interval]⟩, ⟨up, backoff, w.sleep s p.interval⟩)
    else if stats.status = .partly ∧ stats.retryable then
      (⟨stats, [backoff]⟩, ⟨up, backoff, w.sleep s backoff⟩)
    else (⟨stats, []⟩, ⟨up, backoff, s⟩)

/-- The first `n` iterations from a state of the loop. -/
def Driver.loop (p : Backoff) (w : Surroundings σ) (batchSize : ℕ) : ℕ → Driver σ → List Iteration
  | 0, _ => []
  | n + 1, d =>
    let (it, d) := d.iterate p w batchSize
    it :: d.loop p w batchSize n

/-- `run_forever` with `max_iterations`; without it, every such list is a start of its run. -/
def runForever (p : Backoff) (w : Surroundings σ) (batchSize : ℕ) (up : CloudUplinker) (s : σ)
    (maxIterations : ℕ) : List Iteration :=
  Driver.loop p w batchSize maxIterations ⟨up, p.base, s⟩

/-! ### Progress -/

/-- The loop of `_isolate_poison` leaves work behind, or it has counted every row. -/
structure Counted (rows : List FixRow) (n n' : Isolation) : Prop where
  kept : n.retryLeft = true → n'.retryLeft = true
  counted : n'.retryLeft = true ∨ n'.synced + n'.dead = n.synced + n.dead + rows.length

lemma Counted.refl (n : Isolation) : Counted [] n n := ⟨id, .inr rfl⟩

/-- A row that is left. -/
lemma Counted.left {row : FixRow} {rows : List FixRow} {n n' : Isolation}
    (h : Counted rows { n with retryLeft := true } n') : Counted (row :: rows) n n' :=
  ⟨fun _ => h.kept rfl, .inl (h.kept rfl)⟩

/-- A row that is counted. -/
lemma Counted.cons {row : FixRow} {rows : List FixRow} {n mid n' : Isolation}
    (hkept : mid.retryLeft = n.retryLeft) (hcount : mid.synced + mid.dead = n.synced + n.dead + 1)
    (h : Counted rows mid n') : Counted (row :: rows) n n' := by
  refine ⟨fun hleft => h.kept (hkept.trans hleft), h.counted.imp_right fun hall => ?_⟩
  rw [hall, hcount, List.length_cons]
  omega

/-- Programs that may make any call, and end only with such results. -/
abbrev Ends {α : Type} (post : α → Prop) (h : List (Event Call Answer)) (p : UplinkM α) : Prop :=
  p.Meets (fun _ _ => True) (fun _ => post) h

lemma Ends.call {α : Type} {post : α → Prop} {h : List (Event Call Answer)} {c : Call}
    {f : Answer c → UplinkM α} (hf : ∀ a, Ends post (h ++ [⟨c, a⟩]) (f a)) :
    Ends post h (Prog.lift c >>= f) :=
  Prog.Meets.call trivial hf

lemma Ends.of_all {α : Type} {post : α → Prop} {h : List (Event Call Answer)} {p : UplinkM α}
    (hpost : ∀ a, post a) : Ends post h p :=
  (Prog.meets_any h p).mono fun _ a _ => hpost a

lemma Ends.bind {α β : Type} {post : β → Prop} {h : List (Event Call Answer)} {p : UplinkM α}
    {f : α → UplinkM β} (hf : ∀ h a, Ends post h (f a)) : Ends post h (p >>= f) :=
  Prog.Meets.bind (Prog.meets_any h p) fun h a _ => hf h a

lemma isolateLoop_counted (h : List (Event Call Answer)) (up : CloudUplinker) (n : Isolation)
    (rows : List FixRow) :
    Ends (fun r => Counted rows n r.2) h (isolateLoop up n rows) := by
  -- what the rest of the loop makes of the counters, all of it makes of those at the start
  have hloop : Ends (fun r => ∀ n', Counted [] r.2 n' → Counted rows n n') h
      (isolateLoop up n rows) := by
    refine isolateLoop_meets (I := fun _ _ mid rest => ∀ n', Counted rest mid n' →
      Counted rows n n') ?_ ?_ ?_ ?_ fun _ hr => hr
    · intros
      trivial
    · intro _ _ _ _ _ hrest _ _ _ n' hr
      exact hrest n' hr.left
    · intro _ _ mid _ _ hrest _
      refine Ends.of_all fun _ n' hr => hrest n' (Counted.cons ?_ ?_ hr)
      · rfl
      · dsimp only
        omega
    · intro _ _ mid _ _ hrest _
      refine Ends.of_all fun _ n' hr => hrest n' (Counted.cons ?_ ?_ hr)
      · rfl
      · dsimp only
        omega
  exact hloop.mono fun _ r hr => hr r.2 (Counted.refl r.2)

/-- The driver sleeps after this call, or the call has made progress. -/
def Progress (stats : RunStats) : Prop :=
  stats.status = .retry ∨ stats.status = .idle ∨ (stats.status = .partly ∧ stats.retryable = true) ∨
    stats.synced ≠ 0 ∨ stats.deadLettered ≠ 0

lemma runBatch_progress (h : List (Event Call Answer)) (up : CloudUplinker) (rows : List FixRow) :
    Ends (fun r => Progress r.2) h (runBatch up rows) := by
  rw [runBatch]
  split_ifs with hnil
  · exact .inr (.inl rfl)
  have hlen : rows.length ≠ 0 := mt List.length_eq_zero_iff.mp hnil
  refine Ends.call fun reply => ?_
  cases reply with
  | error x => exact .inl rfl
  | ok resp =>
    dsimp only
    split_ifs
    · exact Ends.bind fun _ _ => .inr (.inr (.inr (.inl hlen)))
    · exact .inl rfl
    · refine Prog.Meets.bind (isolateLoop_counted _ up _ rows) fun h r hr => ?_
      rcases hr.counted with hleft | hall
      · exact .inr (.inr (.inl ⟨rfl, hleft⟩))
      · have hprogress : r.2.synced ≠ 0 ∨ r.2.dead ≠ 0 := by
          dsimp only at hall
          omega
        exact .inr (.inr (.inr hprogress))
    · exact .inl rfl

/-- **No partial outcome without progress**: a call of `run_once` that leaves nothing to wait for
has synced or dead-lettered a fix, whatever its calls are answered. -/
lemma runOnce_progress (h : List (Event Call Answer)) (up : CloudUplinker) (batchSize : ℕ) :
    Ends (fun r => Progress r.2) h (runOnce up batchSize) :=
  Ends.call fun rows => runBatch_progress _ up rows

/-! ### Backing off -/

/-- How many of the last iterations ended in a retry, in a row. -/
def retriesInARow (its : List Iteration) : ℕ :=
  (its.reverse.takeWhile fun it => it.stats.status = .retry).length

/-- A run of the loop that backs off as it should. -/
structure BacksOff (p : Backoff) (trace : List Iteration) : Prop where
  /-- The sleep after a retry, the number of retries in a row before it being `k - 1`. -/
  retry : ∀ before it after, trace = before ++ it :: after → it.stats.status = .retry →
    it.sleeps = [min (p.base * p.factor ^ retriesInARow before) p.max]
  restart : ∀ before last it after, trace = before ++ last :: it :: after →
    last.stats.status ≠ .retry → it.stats.status = .retry → it.sleeps = [p.base]
  /-- The loop never spins. -/
  sleeps : ∀ it ∈ trace, it.stats.synced = 0 → it.stats.deadLettered = 0 →
    ∃ d, 0 < d ∧ it.sleeps = [d]

/-- The entries of a trace are calls of `run_once` in a row, with the outcomes that they have:
each call is made where the one before it, and its sleeps, have left the surroundings. -/
def CallsInARow (w : Surroundings σ) (batchSize : ℕ) :
    CloudUplinker → σ → List Iteration → Prop
  | _, _, [] => True
  | up, s, it :: its =>
    let ((up', stats), s') := (runOnce up batchSize).exec w.respond s
    it.stats = stats ∧ CallsInARow w batchSize up' (it.sleeps.foldl w.sleep s') its

lemma retriesInARow_concat (its : List Iteration) (it : Iteration) :
    retriesInARow (its ++ [it]) =
      if it.stats.status = .retry then retriesInARow its + 1 else 0 := by
  rw [retriesInARow, List.reverse_concat, List.takeWhile_cons]
  by_cases h : it.stats.status = .retry
  · simp [h, retriesInARow]
  · simp [h]

/-- The backoff after some retries in a row. -/
def Backoff.delay (p : Backoff) (k : ℕ) : ℚ := min (p.base * p.factor ^ k) p.max

variable {p : Backoff}

lemma Backoff.WellFormed.delay_pos (hp : p.WellFormed) (k : ℕ) : 0 < p.delay k := by
  have hfactor : 0 < p.factor := zero_lt_one.trans_le hp.one_le_factor
  exact lt_min (mul_pos hp.base_pos (pow_pos hfactor k)) (hp.base_pos.trans_le hp.base_le_max)

lemma Backoff.WellFormed.delay_zero (hp : p.WellFormed) : p.delay 0 = p.base := by
  rw [Backoff.delay, pow_zero, mul_one, min_eq_left hp.base_le_max]

/-- A delay that has reached the cap stays there. -/
lemma Backoff.WellFormed.delay_succ (hp : p.WellFormed) (k : ℕ) :
    min (p.delay k * p.factor) p.max = p.delay (k + 1) := by
  have hfactor : 0 ≤ p.factor := zero_le_one.trans hp.one_le_factor
  have hmax : p.max ≤ p.max * p.factor :=
    le_mul_of_one_le_right (hp.base_pos.le.trans hp.base_le_max) hp.one_le_factor
  rw [Backoff.delay, Backoff.delay, min_mul_of_nonneg _ _ hfactor, min_assoc, min_eq_right hmax,
    pow_succ, mul_assoc]

/-- **One iteration**: what it sleeps, and what the backoff is afterwards. -/
lemma iterate_spec (hp : p.WellFormed) (w : Surroundings σ) (batchSize : ℕ) (d : Driver σ) {k : ℕ}
    (hd : d.backoff = p.delay k) :
    let (it, d') := d.iterate p w batchSize
    d'.backoff = p.delay (if it.stats.status = .retry then k + 1 else 0) ∧
      (it.stats.status = .retry → it.sleeps = [p.delay k]) ∧
      (it.stats.synced = 0 → it.stats.deadLettered = 0 → ∃ d, 0 < d ∧ it.sleeps = [d]) := by
  have hprogress := (runOnce_progress [] d.up batchSize).exec w.respond d.world
  rw [Driver.iterate]
  generalize (runOnce d.up batchSize).exec w.respond d.world = r at hprogress ⊢
  rcases r with ⟨⟨up, stats⟩, s⟩
  dsimp only at hprogress ⊢
  split_ifs with hretry hidle hpartly
  · exact ⟨by rw [hd, hp.delay_succ], fun _ => by rw [hd], fun _ _ =>
      ⟨_, hd ▸ hp.delay_pos k, rfl⟩⟩
  · exact ⟨hp.delay_zero.symm, fun h => absurd h hretry, fun _ _ => ⟨_, hp.interval_pos, rfl⟩⟩
  · exact ⟨hp.delay_zero.symm, fun h => absurd h hretry, fun _ _ => ⟨_, hp.base_pos, rfl⟩⟩
  · refine ⟨hp.delay_zero.symm, fun h => absurd h hretry, fun hsynced hdead => ?_⟩
    rcases hprogress with h | h | h | h | h
    · exact absurd h hretry
    · exact absurd h hidle
    · exact absurd h hpartly
    · exact absurd hsynced h
    · exact absurd hdead h

/-- **A run of the loop**, after some iterations that the backoff accounts for. -/
lemma loop_spec (hp : p.WellFormed) (w : Surroundings σ) (batchSize n : ℕ) (d : Driver σ)
    (past : List Iteration) (hd : d.backoff = p.delay (retriesInARow past)) :
    (∀ before it after, d.loop p w batchSize n = before ++ it :: after →
      it.stats.status = .retry → it.sleeps = [p.delay (retriesInARow (past ++ before))]) ∧
    ∀ it ∈ d.loop p w batchSize n, it.stats.synced = 0 → it.stats.deadLettered = 0 →
      ∃ d, 0 < d ∧ it.sleeps = [d] := by
  induction n generalizing d past with
  | zero => exact ⟨fun before it after h => by simp [Driver.loop] at h, by simp [Driver.loop]⟩
  | succ n ih =>
    have hone := iterate_spec hp w batchSize d hd
    rw [Driver.loop]
    generalize d.iterate p w batchSize = r at hone ⊢
    rcases r with ⟨first, d'⟩
    obtain ⟨hbackoff, hretry, hsleeps⟩ := hone
    rw [← retriesInARow_concat] at hbackoff
    obtain ⟨ihretry, ihsleeps⟩ := ih d' (past ++ [first]) hbackoff
    constructor
    · intro before it after htrace hit
      rcases List.cons_eq_append_iff.mp htrace with ⟨rfl, heq⟩ | ⟨before', rfl, heq⟩
      · obtain rfl := (List.cons.inj heq).1
        rw [List.append_nil]
        exact hretry hit
      · rw [List.append_cons past first before']
        exact ihretry before' it after heq hit
    · intro it hit
      rcases List.mem_cons.mp hit with rfl | hit
      · exact hsleeps
      · exact ihsleeps it hit

lemma length_loop (w : Surroundings σ) (batchSize n : ℕ) (d : Driver σ) :
    (d.loop p w batchSize n).length = n := by
  induction n generalizing d with
  | zero => rfl
  | succ n ih => rw [Driver.loop, List.length_cons, ih]

/-- What an iteration leaves to the next one. -/
lemma iterate_leaves (w : Surroundings σ) (batchSize : ℕ) (d : Driver σ) :
    let (it, d') := d.iterate p w batchSize
    let ((up, stats), s) := (runOnce d.up batchSize).exec w.respond d.world
    it.stats = stats ∧ d'.up = up ∧ d'.world = it.sleeps.foldl w.sleep s := by
  rw [Driver.iterate]
  generalize (runOnce d.up batchSize).exec w.respond d.world = r
  obtain ⟨⟨up, stats⟩, s⟩ := r
  dsimp only
  split_ifs <;> exact ⟨rfl, rfl, rfl⟩

lemma loop_callsInARow (w : Surroundings σ) (batchSize n : ℕ) (d : Driver σ) :
    CallsInARow w batchSize d.up d.world (d.loop p w batchSize n) := by
  induction n generalizing d with
  | zero => trivial
  | succ n ih =>
    have hone := iterate_leaves (p := p) w batchSize d
    rw [Driver.loop]
    generalize d.iterate p w batchSize = r at hone ⊢
    obtain ⟨it, d'⟩ := r
    rw [CallsInARow]
    generalize (runOnce d.up batchSize).exec w.respond d.world = q at hone ⊢
    obtain ⟨⟨up, stats⟩, s⟩ := q
    obtain ⟨hstats, hup, hworld⟩ := hone
    exact ⟨hstats, hup ▸ hworld ▸ ih d'⟩

/-- **The driver backs off correctly and never spins**, whatever the cloud and the store do: the
trace has all the iterations, with the outcomes that their calls of `run_once` have, and the
sleeps between them are as they should be. -/
theorem runForever_backs_off (p : Backoff) (hp : p.WellFormed) (w : Surroundings σ)
    (batchSize : ℕ) (up : CloudUplinker) (s : σ) (maxIterations : ℕ) :
    let trace := runForever p w batchSize up s maxIterations
    trace.length = maxIterations ∧ CallsInARow w batchSize up s trace ∧ BacksOff p trace := by
  obtain ⟨hretry, hsleeps⟩ :=
    loop_spec hp w batchSize maxIterations ⟨up, p.base, s⟩ [] hp.delay_zero.symm
  refine ⟨length_loop .., loop_callsInARow w batchSize maxIterations ⟨up, p.base, s⟩, hretry,
    fun before last it after htrace hlast hit => ?_, hsleeps⟩
  have hsleep := hretry (before ++ [last]) it after
    (htrace.trans (List.append_cons ..)) hit
  rwa [List.nil_append, retriesInARow_concat, if_neg hlast, hp.delay_zero] at hsleep

/-- Surroundings in which a fix waits and the cloud is down for the first three POSTs. -/
def downForThree : Surroundings ℕ where
  respond n c :=
    match c with
    | .getUnsynced _ =>
      ([{ id := 1, nodeId := 1, tsMs := 0, lat := 0, lon := 0, sog := 0, cog := 0, batteryMv := 0,
          seq := some 1, rssi := 0, snr := 0, flags := 0, synced := false, rxTimeMs := 0 }], n)
    | .post _ => (if n < 3 then .error .transportError else .ok ⟨200, none⟩, n + 1)
    | .markSynced _ => ((), n)
    | .getSyncCursor _ default => (default, n)
    | .setSyncCursor _ _ => ((), n)
    | .quarantine _ _ => ((), n)
    | .clock => ((0 : ℚ), n)
  sleep n _ := n

/-- The theorem at the defaults of the uplinker: the sleeps after three retries, and none once the
cloud is back. -/
theorem runForever_backs_off_defaults :
    let trace := runForever {} downForThree 100 .new 0 5
    trace.map Iteration.sleeps = [[1], [2], [4], [], []] ∧ ({} : Backoff).WellFormed ∧
      trace.length = 5 ∧ CallsInARow downForThree 100 .new 0 trace ∧ BacksOff {} trace := by
  have hdefaults : ({} : Backoff).WellFormed := by
    constructor <;> norm_num
  exact ⟨by decide +kernel, hdefaults, runForever_backs_off {} hdefaults downForThree 100 .new 0 5⟩

end SrtGateway.Uplink
