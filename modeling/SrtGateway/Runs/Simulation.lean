/-
Systems that go step by step, and simulations between them.

A system is its step function; what it does in a run is the fold of the function over the
steps.  A property that every step keeps holds after every run (`run_preserves`), and one that the
steps keep that meet a condition, after every run of such steps (`StepsMeet.preserves`); a bound
that steps lower is lowered by what they count for together (`run_lowers`).  A simulation answers
each step of one system by some steps of another and keeps a relation between their states; then
every run of the one is answered by a run of the other (`Simulation.run`).
-/
import Mathlib.Tactic.Lemma
import Mathlib.Data.List.Basic

namespace SrtGateway.Runs

variable {σ ι τ κ : Type}

/-- The state after some steps. -/
def run (step : σ → ι → σ) (s : σ) (steps : List ι) : σ := steps.foldl step s

section

variable (step : σ → ι → σ) (s : σ)

@[simp] lemma run_nil : run step s [] = s := rfl

@[simp] lemma run_cons (i : ι) (steps : List ι) :
    run step s (i :: steps) = run step (step s i) steps := rfl

lemma run_append (steps more : List ι) :
    run step s (steps ++ more) = run step (run step s steps) more := List.foldl_append

lemma run_concat (steps : List ι) (i : ι) :
    run step s (steps ++ [i]) = step (run step s steps) i := run_append step s steps [i]

end

/-- **The rule of invariants.** -/
lemma run_preserves (step : σ → ι → σ) {P : σ → Prop} (hstep : ∀ s i, P s → P (step s i))
    {s : σ} (h : P s) (steps : List ι) : P (run step s steps) := by
  induction steps generalizing s with
  | nil => exact h
  | cons i steps ih => exact ih (hstep s i h)

/-- Each step of a run is taken from a state in which it may be. -/
def StepsMeet (step : σ → ι → σ) (C : σ → ι → Prop) : σ → List ι → Prop
  | _, [] => True
  | s, i :: steps => C s i ∧ StepsMeet step C (step s i) steps

instance StepsMeet.decidable (step : σ → ι → σ) (C : σ → ι → Prop) [∀ s i, Decidable (C s i)] :
    (s : σ) → (steps : List ι) → Decidable (StepsMeet step C s steps)
  | _, [] => .isTrue trivial
  | s, i :: steps =>
    have := StepsMeet.decidable step C (step s i) steps
    inferInstanceAs (Decidable (_ ∧ _))

/-- **The rule of invariants** for such runs. -/
lemma StepsMeet.preserves {step : σ → ι → σ} {P : σ → Prop} {C : σ → ι → Prop}
    (hstep : ∀ s i, P s → C s i → P (step s i)) {s : σ} (h : P s) {steps : List ι}
    (hmeets : StepsMeet step C s steps) : P (run step s steps) := by
  induction steps generalizing s with
  | nil => exact h
  | cons i steps ih => exact ih (hstep s i h hmeets.1) hmeets.2

/-! ### Counting -/

/-- What the steps of a run count for, taken together. -/
def total (step : σ → ι → σ) (count : σ → ι → ℕ) : σ → List ι → ℕ
  | _, [] => 0
  | s, i :: steps => count s i + total step count (step s i) steps

lemma total_append (step : σ → ι → σ) (count : σ → ι → ℕ) (s : σ) (steps more : List ι) :
    total step count s (steps ++ more) =
      total step count s steps + total step count (run step s steps) more := by
  induction steps generalizing s with
  | nil => rw [List.nil_append, total, Nat.zero_add, run_nil]
  | cons i steps ih => rw [List.cons_append, total, ih, total, Nat.add_assoc, run_cons]

/-- **The rule of bounds.**  A bound that goes down by `b` with everything that is counted. -/
lemma run_lowers (step : σ → ι → σ) (count : σ → ι → ℕ) (b : ℕ) {P : ℕ → σ → Prop}
    {steps : List ι} (hstep : ∀ i ∈ steps, ∀ m s, P m s → P (m - b * count s i) (step s i))
    {m : ℕ} {s : σ} (h : P m s) :
    P (m - b * total step count s steps) (run step s steps) := by
  induction steps generalizing m s with
  | nil => exact h
  | cons i steps ih =>
    rw [List.forall_mem_cons] at hstep
    rw [run_cons, total, Nat.mul_add, ← Nat.sub_sub]
    exact ih hstep.2 (hstep.1 m s h)

variable {step : σ → ι → σ} {spec : τ → κ → τ}

/-! ### Simulations -/

/-- The steps with which a run is answered, when each step is answered by the steps that
`answer` gives for it. -/
def answers (step : σ → ι → σ) (answer : σ → ι → List κ) : σ → List ι → List κ
  | _, [] => []
  | s, i :: steps => answer s i ++ answers step answer (step s i) steps

section

variable (step : σ → ι → σ) (answer : σ → ι → List κ)

lemma answers_append (s : σ) (steps more : List ι) :
    answers step answer s (steps ++ more) =
      answers step answer s steps ++ answers step answer (run step s steps) more := by
  induction steps generalizing s with
  | nil => rfl
  | cons i steps ih => rw [List.cons_append, answers, ih, answers, List.append_assoc, run_cons]

/-- What holds of the answers to each step holds of all the answers. -/
lemma forall_answers {P : κ → Prop} {steps : List ι} (h : ∀ i ∈ steps, ∀ s, ∀ k ∈ answer s i, P k)
    (s : σ) : ∀ k ∈ answers step answer s steps, P k := by
  induction steps generalizing s with
  | nil => exact List.forall_mem_nil _
  | cons i steps ih =>
    rw [List.forall_mem_cons] at h
    rw [answers, List.forall_mem_append]
    exact ⟨h.1 s, ih h.2 _⟩

end

/-- The relation is kept when a step is answered. -/
def Simulation (step : σ → ι → σ) (spec : τ → κ → τ) (answer : σ → ι → List κ)
    (R : σ → τ → Prop) : Prop :=
  ∀ s t i, R s t → R (step s i) (run spec t (answer s i))

/-- **The rule of simulations.** -/
lemma Simulation.run {answer : σ → ι → List κ} {R : σ → τ → Prop}
    (hsim : Simulation step spec answer R) {s : σ} {t : τ} (h : R s t) (steps : List ι) :
    R (Runs.run step s steps) (Runs.run spec t (answers step answer s steps)) := by
  induction steps generalizing s t with
  | nil => exact h
  | cons i steps ih =>
    rw [run_cons, answers, run_append]
    exact ih (hsim s t i h)

/-- Where a step counts for as much as its answer, so do all the steps of a run. -/
lemma Simulation.total {answer : σ → ι → List κ} {R : σ → τ → Prop}
    (hsim : Simulation step spec answer R) {count : σ → ι → ℕ} {tally : τ → κ → ℕ}
    (hcount : ∀ s t i, R s t → count s i = Runs.total spec tally t (answer s i)) {s : σ} {t : τ}
    (h : R s t) (steps : List ι) :
    Runs.total step count s steps = Runs.total spec tally t (answers step answer s steps) := by
  induction steps generalizing s t with
  | nil => rfl
  | cons i steps ih =>
    rw [Runs.total, answers, total_append, hcount s t i h, ih (hsim s t i h)]

/-- **What the answers of a run come to.**  A record to which every step, from a state with an
invariant, adds what its answer comes to, gets what all the answers of a run come to. -/
lemma record_answers {μ : Type} (step : σ → ι → σ) (answer : σ → ι → List κ)
    (record : σ → List μ) (content : κ → List μ) {P : σ → Prop}
    (hkeep : ∀ s i, P s → P (step s i))
    (hstep : ∀ s i, P s → record (step s i) = record s ++ (answer s i).flatMap content) {s : σ}
    (h : P s) (steps : List ι) :
    record (Runs.run step s steps) =
      record s ++ (answers step answer s steps).flatMap content := by
  induction steps generalizing s with
  | nil => simp [answers]
  | cons i steps ih =>
    rw [run_cons, ih (hkeep s i h), hstep s i h, answers, List.flatMap_append, List.append_assoc]

end SrtGateway.Runs
