/-
Link outages.

The delay of the reconnect loop is computed outside its `try`, from a power of two that
grows with every failed attempt.  As long as fewer than 1024 attempts in a row fail, every
delay is a number between 0 and `backoff_max` and every attempt is made; the delay after
the 1024th failure raises, and the exception leaves `poll_once`
(`survives_iff_no_long_outage`).
-/
import SrtGateway.SerialIo.Reader

namespace SrtGateway.SerialIo

variable {δ : Type}

/-! ### The course of an outage -/

/-- The state at the next round of the loop, when `_open` raises in this one. -/
def openFails (cfg : Settings) (r : SerialReader) (e : OpenEnv) : Option SerialReader :=
  match r.open_ cfg e with
  | (.error x, r', _) => some { r' with lastError := some x }
  | (.ok (), _, _) => none

/-- Each of the next `n` rounds makes an attempt that fails, and then the loop goes round
once more without being asked to stop. -/
def stillDown (cfg : Settings) : ℕ → List OpenEnv → SerialReader → Bool
  | _, [], _ => false
  | 0, e :: _, _ => !e.stop
  | n + 1, e :: es, r =>
    !e.stop && match openFails cfg r e with
      | some r' => stillDown cfg n es r'
      | none => false

/-- The number of attempts there is occasion for: one in every round up to the first that
succeeds, unless stop is requested. -/
def attemptsDue (cfg : Settings) : List OpenEnv → SerialReader → ℕ
  | [], _ => 0
  | e :: es, r =>
    if e.stop then 0
    else match openFails cfg r e with
      | some r' => attemptsDue cfg es r' + 1
      | none => 1

/-- The number of attempts made. -/
def attemptsMade (link : List LinkEvent) : ℕ :=
  link.countP fun ev => match ev with
    | .attempt => true
    | _ => false

/-- What the reader owes in a cycle: no exception escapes, each delay is a number between 0
and `backoff_max`, and every attempt there is occasion for is made. -/
structure Survives (cfg : Settings) (c : Cycle δ) : Prop where
  exit : ∀ x, c.result.exit ≠ .raised x
  delay : ∀ d, LinkEvent.sleep d ∈ c.result.link → 0 < d ∧ d ≤ cfg.backoffMax
  attempts : c.before.needsReconnect → attemptsMade c.result.link =
    attemptsDue cfg c.env.attempts c.before

/-- The backoff parameters have their default values. -/
def Settings.DefaultBackoff (cfg : Settings) : Prop :=
  cfg.backoffBase = 1 / 2 ∧ cfg.backoffMax = 10

/-- The read returns bytes or raises one of the exceptions of a lost link. -/
def PollEnv.ReadAssumed (env : PollEnv) : Prop :=
  ∀ x, env.read = .error x → PyErr.isReadFault x = true

/-! ### The delay -/

lemma doubleLimit_le_two_pow {k : ℕ} : doubleLimit ≤ 2 ^ k ↔ 1024 ≤ k := by
  rw [doubleLimit, Nat.pow_le_pow_iff_right (by decide)]

lemma backoffDelay_ok {cfg : Settings} (hcfg : cfg.DefaultBackoff) {attempt : ℕ}
    (h : attempt < 1024) : ∃ d, backoffDelay cfg attempt = .ok d ∧ 0 < d ∧ d ≤ cfg.backoffMax := by
  have hlt : ¬ doubleLimit ≤ 2 ^ attempt := by
    rw [doubleLimit_le_two_pow]
    omega
  refine ⟨min (cfg.backoffBase * (2 ^ attempt : ℕ)) cfg.backoffMax, ?_, ?_, min_le_right _ _⟩
  · rw [backoffDelay, floatMulInt, if_neg hlt]
    rfl
  · rw [hcfg.1, hcfg.2]
    exact lt_min (by positivity) (by norm_num)

lemma backoffDelay_overflow (cfg : Settings) : backoffDelay cfg 1024 = .error .overflowError := by
  rw [backoffDelay, floatMulInt, if_pos (doubleLimit_le_two_pow.mpr le_rfl)]
  rfl

/-! ### One round of the loop -/

/-- The events of `_open` are devices that it used. -/
lemma mem_open {cfg : Settings} {r : SerialReader} {e : OpenEnv} {ev : LinkEvent}
    (h : ev ∈ (r.open_ cfg e).2.2) : ∃ e' d, ev = .openDevice e' d := by
  unfold SerialReader.open_ at h
  split at h
  · split at h <;> simp at h
  · split at h
    · simp at h
    · split at h
      · simp at h
      · split at h
        · exact ⟨e, none, by simpa using h⟩
        · rename_i dev _
          dsimp only at h
          split at h <;> exact ⟨e, some dev, by simpa using h⟩

/-- The first attempt of a reader that was never connected is made at once; any other one
after a delay. -/
lemma delay_eq {cfg : Settings} (hcfg : cfg.DefaultBackoff) {attempt : ℕ} (h : attempt < 1024)
    (atOnce : Bool) : ∃ delay : Option ℚ, (∀ d ∈ delay.toList, 0 < d ∧ d ≤ cfg.backoffMax) ∧
      (if atOnce then .ok none else (backoffDelay cfg attempt).map some) =
        (Except.ok delay : Except PyErr (Option ℚ)) := by
  cases atOnce with
  | true => exact ⟨none, by simp, rfl⟩
  | false =>
    obtain ⟨d, hd, hpos, hmax⟩ := backoffDelay_ok hcfg h
    refine ⟨some d, by simpa using ⟨hpos, hmax⟩, ?_⟩
    rw [if_neg Bool.false_ne_true, hd]
    rfl

/-- What a round does when its delay is no problem: it makes an attempt, and a failed one
is followed by the next round. -/
lemma reconnectLoop_cons {cfg : Settings} (hcfg : cfg.DefaultBackoff) {attempt : ℕ}
    (h : attempt < 1024) (firstEver : Bool) {e : OpenEnv} (es : List OpenEnv) (r : SerialReader)
    (hstop : e.stop = false) :
    ∃ slept : List ℚ, (∀ d ∈ slept, 0 < d ∧ d ≤ cfg.backoffMax) ∧
      ∃ dev : List LinkEvent, (∀ ev ∈ dev, ∃ e' d, ev = .openDevice e' d) ∧
        match openFails cfg r e with
        | some r' => reconnectLoop cfg firstEver attempt (e :: es) r =
            ((reconnectLoop cfg firstEver (attempt + 1) es r').1,
              (reconnectLoop cfg firstEver (attempt + 1) es r').2.1,
              (slept.map .sleep ++ [.attempt] ++ dev) ++
                (reconnectLoop cfg firstEver (attempt + 1) es r').2.2)
        | none => ∃ r', reconnectLoop cfg firstEver attempt (e :: es) r =
            (.returned true, r', slept.map .sleep ++ [.attempt] ++ dev) := by
  obtain ⟨delay, hslept, hdelay⟩ := delay_eq hcfg h (firstEver && attempt == 0)
  refine ⟨delay.toList, hslept, (r.open_ cfg e).2.2, fun _ => mem_open, ?_⟩
  rw [reconnectLoop, hdelay]
  simp only [hstop, Bool.false_eq_true, if_false, openFails]
  rcases r.open_ cfg e with ⟨_ | _, r', evs⟩
  · rfl
  · exact ⟨_, rfl⟩

lemma attemptsMade_append (link more : List LinkEvent) :
    attemptsMade (link ++ more) = attemptsMade link + attemptsMade more := List.countP_append

lemma attemptsMade_round {slept : List ℚ} {dev : List LinkEvent}
    (hdev : ∀ ev ∈ dev, ∃ e' d, ev = LinkEvent.openDevice e' d) :
    attemptsMade (slept.map .sleep ++ [.attempt] ++ dev) = 1 := by
  have h1 : attemptsMade (slept.map .sleep) = 0 := by
    simp [attemptsMade, List.countP_eq_zero]
  have h2 : attemptsMade dev = 0 := by
    rw [attemptsMade, List.countP_eq_zero]
    intro ev hev
    obtain ⟨e', d, rfl⟩ := hdev ev hev
    simp
  rw [attemptsMade_append, attemptsMade_append, h1, h2]
  simp [attemptsMade]

lemma sleep_mem_round {slept : List ℚ} {dev : List LinkEvent} {d : ℚ}
    (hdev : ∀ ev ∈ dev, ∃ e' d, ev = LinkEvent.openDevice e' d)
    (h : LinkEvent.sleep d ∈ slept.map .sleep ++ [.attempt] ++ dev) : d ∈ slept := by
  simp only [List.mem_append, List.mem_map, LinkEvent.sleep.injEq, exists_eq_right,
    List.mem_singleton, reduceCtorEq, or_false] at h
  rcases h with h | h
  · exact h
  · obtain ⟨e', d', hd⟩ := hdev _ h
    exact absurd hd (by simp)

/-! ### The whole loop -/

/-- What comes of the loop when `attempt` attempts of this outage have failed: it raises if
1024 of them fail in all, and otherwise makes every attempt; each delay is in range. -/
structure LoopSpec (cfg : Settings) (attempt : ℕ) (es : List OpenEnv) (r : SerialReader)
    (result : ReconnectExit × SerialReader × List LinkEvent) : Prop where
  delay : ∀ d, LinkEvent.sleep d ∈ result.2.2 → 0 < d ∧ d ≤ cfg.backoffMax
  exit : if stillDown cfg (1024 - attempt) es r then result.1 = .raised .overflowError
    else (∀ x, result.1 ≠ .raised x) ∧ attemptsMade result.2.2 = attemptsDue cfg es r

section

variable {cfg : Settings} (firstEver : Bool) {e : OpenEnv} (es : List OpenEnv) (r : SerialReader)

/-- The loop is asked to stop. -/
lemma loopSpec_stop (attempt : ℕ) (hstop : e.stop = true) :
    LoopSpec cfg attempt (e :: es) r (reconnectLoop cfg firstEver attempt (e :: es) r) := by
  have hdown : stillDown cfg (1024 - attempt) (e :: es) r = false := by
    cases 1024 - attempt <;> simp [stillDown, hstop]
  have hrun : reconnectLoop cfg firstEver attempt (e :: es) r = (.returned false, r, []) := by
    rw [reconnectLoop, if_pos hstop]
  rw [hrun]
  refine ⟨by simp, ?_⟩
  rw [hdown, if_neg Bool.false_ne_true]
  simp [attemptsMade, attemptsDue, hstop]

/-- The delay after 1024 failures overflows. -/
lemma loopSpec_overflow (hstop : e.stop = false) :
    LoopSpec cfg 1024 (e :: es) r (reconnectLoop cfg firstEver 1024 (e :: es) r) := by
  have hrun : reconnectLoop cfg firstEver 1024 (e :: es) r = (.raised .overflowError, r, []) := by
    rw [reconnectLoop]
    simp [hstop, backoffDelay_overflow, Except.map]
  rw [hrun]
  refine ⟨by simp, ?_⟩
  rw [if_pos (by simp [stillDown, hstop])]

/-- A round that makes an attempt: it opens the port, or the next round goes on. -/
lemma loopSpec_round (hcfg : cfg.DefaultBackoff) {attempt : ℕ} (hlt : attempt < 1024)
    (hstop : e.stop = false)
    (hnext : ∀ r', LoopSpec cfg (attempt + 1) es r'
      (reconnectLoop cfg firstEver (attempt + 1) es r')) :
    LoopSpec cfg attempt (e :: es) r (reconnectLoop cfg firstEver attempt (e :: es) r) := by
  have hsub : 1024 - attempt = (1024 - (attempt + 1)) + 1 := by omega
  obtain ⟨slept, hslept, dev, hdev, hround⟩ := reconnectLoop_cons hcfg hlt firstEver es r hstop
  cases hopen : openFails cfg r e with
  | none =>
    rw [hopen] at hround
    obtain ⟨r', hround⟩ := hround
    have hdown : stillDown cfg (1024 - attempt) (e :: es) r = false := by
      simp [hsub, stillDown, hopen]
    rw [hround]
    refine ⟨fun d hd => hslept d (sleep_mem_round hdev hd), ?_⟩
    rw [hdown, if_neg Bool.false_ne_true, attemptsMade_round hdev, attemptsDue]
    simp [hstop, hopen]
  | some r' =>
    rw [hopen] at hround
    have hdown : stillDown cfg (1024 - attempt) (e :: es) r =
        stillDown cfg (1024 - (attempt + 1)) es r' := by
      simp [hsub, stillDown, hopen, hstop]
    have hdue : attemptsDue cfg (e :: es) r = attemptsDue cfg es r' + 1 := by
      simp [attemptsDue, hstop, hopen]
    obtain ⟨hdelay, hexit⟩ := hnext r'
    rw [hround]
    refine ⟨fun d hd => ?_, ?_⟩
    · rcases List.mem_append.mp hd with hd | hd
      · exact hslept d (sleep_mem_round hdev hd)
      · exact hdelay d hd
    · rw [hdown]
      split_ifs at hexit ⊢ with hraises
      · exact hexit
      · refine ⟨hexit.1, ?_⟩
        rw [attemptsMade_append, attemptsMade_round hdev, hexit.2, hdue, Nat.add_comm]

end

/-- **The loop raises exactly after 1024 failures in a row**, of which `attempt` have
already happened; and short of that every delay is in range and every attempt is made. -/
lemma reconnectLoop_spec {cfg : Settings} (hcfg : cfg.DefaultBackoff) (firstEver : Bool)
    (es : List OpenEnv) : ∀ (attempt : ℕ) (r : SerialReader), attempt ≤ 1024 →
      LoopSpec cfg attempt es r (reconnectLoop cfg firstEver attempt es r) := by
  induction es with
  | nil =>
    intro attempt r _
    refine ⟨by simp [reconnectLoop], ?_⟩
    simp [reconnectLoop, stillDown, attemptsMade, attemptsDue]
  | cons e es ih =>
    intro attempt r hle
    -- a round that is asked to stop, one that makes an attempt, and the one that overflows
    cases hstop : e.stop with
    | true => exact loopSpec_stop firstEver es r attempt hstop
    | false =>
      rcases Nat.lt_or_eq_of_le hle with hlt | rfl
      · exact loopSpec_round firstEver es r hcfg hlt hstop fun r' => ih (attempt + 1) r' hlt
      · exact loopSpec_overflow firstEver es r hstop

/-! ### Cycles and runs -/

lemma readCycle_survives {H : Handlers δ} {r : SerialReader} {read : Except PyErr (List UInt8)}
    (hread : ∀ x, read = .error x → PyErr.isReadFault x = true) :
    (∀ x, (r.readCycle H read).exit ≠ .raised x) ∧ (r.readCycle H read).link = [] := by
  unfold SerialReader.readCycle
  split
  · simp
  · split
    · simp [hread _ rfl]
    · split <;> simp

/-- A cycle that reconnects and reads raises what the reconnect loop raises. -/
lemma pollOnce_raised_iff {cfg : Settings} {H : Handlers δ} {r : SerialReader} {env : PollEnv}
    (hneed : r.needsReconnect = true) (hread : env.ReadAssumed) (x : PyErr) :
    (r.pollOnce cfg H env).exit = .raised x ↔ (r.reconnect cfg env.attempts).1 = .raised x := by
  rw [SerialReader.pollOnce, if_pos hneed]
  rcases r.reconnect cfg env.attempts with ⟨⟨_ | _⟩ | _ | _, r', evs⟩
  · simp
  · simpa using (readCycle_survives (H := H) (r := r') hread).1 x
  · simp
  · simp

/-- The read adds nothing to what the reconnect loop did to bring the link up. -/
lemma pollOnce_link {cfg : Settings} {H : Handlers δ} {r : SerialReader} {env : PollEnv}
    (hneed : r.needsReconnect = true) (hread : env.ReadAssumed) :
    (r.pollOnce cfg H env).link = (r.reconnect cfg env.attempts).2.2 := by
  rw [SerialReader.pollOnce, if_pos hneed]
  rcases r.reconnect cfg env.attempts with ⟨⟨_ | _⟩ | _ | _, r', evs⟩
  · rfl
  · simp [(readCycle_survives (H := H) (r := r') hread).2]
  · rfl
  · rfl

/-- A cycle survives exactly when it does not meet 1024 failed attempts in a row without
being asked to stop. -/
lemma survives_cycle_iff {cfg : Settings} (hcfg : cfg.DefaultBackoff) (H : Handlers δ)
    {r : SerialReader} {env : PollEnv} (hread : env.ReadAssumed) :
    Survives cfg ⟨r, env, r.pollOnce cfg H env⟩ ↔
      (r.needsReconnect → stillDown cfg 1024 env.attempts r = false) := by
  by_cases hneed : r.needsReconnect = true
  swap
  · have hpoll : r.pollOnce cfg H env = r.readCycle H env.read := by
      rw [SerialReader.pollOnce, if_neg hneed]
    have hrc := readCycle_survives (H := H) (r := r) hread
    refine ⟨fun _ h => absurd h hneed, fun _ => ⟨?_, ?_, fun h => absurd h hneed⟩⟩
    · simpa [hpoll] using hrc.1
    · simp [hpoll, hrc.2]
  obtain ⟨hdelay, hexit⟩ :=
    reconnectLoop_spec hcfg (r.reconnects == 0 && !r.everConnected) env.attempts 0 r (by omega)
  rw [← SerialReader.reconnect] at hdelay hexit
  rw [Nat.sub_zero] at hexit
  have hlink : (r.pollOnce cfg H env).link = (r.reconnect cfg env.attempts).2.2 :=
    pollOnce_link hneed hread
  have hraised : ∀ x, (r.pollOnce cfg H env).exit = .raised x ↔
      (r.reconnect cfg env.attempts).1 = .raised x := pollOnce_raised_iff hneed hread
  constructor
  · intro hs _
    by_contra hdown
    rw [if_pos (by simpa using hdown)] at hexit
    exact hs.exit _ ((hraised _).mpr hexit)
  · intro h
    rw [h hneed, if_neg Bool.false_ne_true] at hexit
    refine ⟨fun x hx => hexit.1 x ((hraised x).mp hx), ?_, fun _ => ?_⟩
    · simpa [hlink] using hdelay
    · simpa [hlink] using hexit.2

/-- The cycles of a run are calls of `poll_once` on the environments given. -/
lemma mem_cycles {cfg : Settings} {H : Handlers δ} {r : SerialReader} {envs : List PollEnv}
    {c : Cycle δ} (h : c ∈ cycles cfg H r envs) :
    c.env ∈ envs ∧ c = ⟨c.before, c.env, c.before.pollOnce cfg H c.env⟩ := by
  induction envs generalizing r with
  | nil => simp [cycles] at h
  | cons env envs ih =>
    rw [cycles] at h
    rcases List.mem_cons.mp h with rfl | h
    · exact ⟨List.mem_cons_self, rfl⟩
    · split at h
      · obtain ⟨h1, h2⟩ := ih h
        exact ⟨List.mem_cons_of_mem _ h1, h2⟩
      · simp at h

/-- **The reader survives a run exactly when no outage is too long.**  With the default
backoff, from any state and whatever opening and reading the port does, no exception
escapes, every delay is in range and every attempt is made in every cycle of the run, if
and only if no cycle meets 1024 failed attempts in a row and is then not asked to stop. -/
theorem survives_iff_no_long_outage (cfg : Settings) (hcfg : cfg.DefaultBackoff) (H : Handlers δ)
    (r : SerialReader) (envs : List PollEnv) (hread : ∀ env ∈ envs, env.ReadAssumed) :
    (∀ c ∈ cycles cfg H r envs, Survives cfg c) ↔
      ∀ c ∈ cycles cfg H r envs,
        c.before.needsReconnect → stillDown cfg 1024 c.env.attempts c.before = false := by
  refine forall_congr' fun c => forall_congr' fun hc => ?_
  obtain ⟨henv, heq⟩ := mem_cycles hc
  have h := survives_cycle_iff hcfg H (r := c.before) (hread c.env henv)
  rwa [← heq] at h

/-! ### An outage that kills the reader -/

/-- No device is there, and opening the configured port fails. -/
def unplugged : OpenEnv where
  stop := false
  factory := .error (.other "no factory")
  importSerial := .ok ()
  globber := fun _ => []
  globber_ne := by simp
  serialSerial := fun _ _ => .error .osError

/-- The same port, with the board back. -/
def plugged : OpenEnv := { unplugged with serialSerial := fun _ _ => .ok ⟨true⟩ }

/-- Handlers that decode nothing and always return. -/
def silent : Handlers Unit := ⟨fun _ => .ok (), fun _ _ => true⟩

/-- The reader as the supervisor creates it for the default port. -/
def bootReader : SerialReader := .new (some DEFAULT_PORT) none

/-- While the board is unplugged every attempt fails and leaves the port as it was. -/
lemma stillDown_unplugged (n : ℕ) {r : SerialReader} (hport : r.port = some DEFAULT_PORT)
    (hser : r.ser = none) : stillDown {} n (List.replicate (n + 1) unplugged) r = true := by
  have hdet : truthy (findBasePort (some DEFAULT_PORT) ({} : Settings).portGlobs
      unplugged.globber) = some DEFAULT_PORT := by decide
  induction n generalizing r with
  | zero => rfl
  | succ n ih =>
    have hfail : openFails {} r unplugged =
        some { r with port := some DEFAULT_PORT, lastError := some .osError } := by
      simp only [openFails, SerialReader.open_, hser, hport, hdet, Bool.false_eq_true, if_false]
      rfl
    rw [List.replicate_succ, stillDown, hfail]
    simp only [ih (r := { r with port := some DEFAULT_PORT, lastError := some .osError }) rfl hser]
    rfl

/-- The exception escapes from the first call of `poll_once` when the board stays unplugged
for 1024 attempts. -/
theorem pollOnce_raises_after_outage :
    ∃ c ∈ cycles {} silent bootReader [⟨List.replicate 1025 unplugged, .ok []⟩],
      c.result.exit = .raised .overflowError := by
  obtain ⟨es, hes⟩ : ∃ es, es = List.replicate 1025 unplugged := ⟨_, rfl⟩
  have hdown : stillDown {} 1024 es bootReader = true := by
    rw [hes]
    exact stillDown_unplugged 1024 rfl rfl
  rw [← hes]
  have hloop := (reconnectLoop_spec (show ({} : Settings).DefaultBackoff from ⟨rfl, rfl⟩)
    true es 0 bootReader (by omega)).exit
  rw [Nat.sub_zero, if_pos hdown] at hloop
  refine ⟨_, List.mem_cons_self, ?_⟩
  exact (pollOnce_raised_iff rfl (by simp [PollEnv.ReadAssumed]) _).mpr hloop

/-- The theorem at a run with one failed attempt: it survives. -/
theorem survives_short_outage :
    (∀ c ∈ cycles {} silent bootReader [⟨[unplugged, plugged], .ok [0xA5]⟩], Survives {} c) ↔
      ∀ c ∈ cycles {} silent bootReader [⟨[unplugged, plugged], .ok [0xA5]⟩],
        c.before.needsReconnect → stillDown {} 1024 c.env.attempts c.before = false :=
  survives_iff_no_long_outage {} ⟨rfl, rfl⟩ silent bootReader _ (by simp [PollEnv.ReadAssumed])

end SrtGateway.SerialIo
