/-
Waiting for a time to come.

A system goes step by step, and has a clock.  While it is in a state that has to wait, its
clock stands before a given time, and a step puts it forward by a given amount at least.  Then
it waits for finitely many steps, and their number is bounded by the time that there is
(`exists_first_free`).
-/
import Mathlib.Algebra.Order.Archimedean.Basic
import Mathlib.Logic.Function.Iterate
import Mathlib.Tactic.Linarith

namespace SrtGateway.Runs

variable {σ α : Type} [Field α] [LinearOrder α] [IsStrictOrderedRing α] [Archimedean α]

/-- **The rule of waiting.**  From a state with an invariant that a waiting step keeps, there is
a first state that does not have to wait. -/
lemma exists_first_free (step : σ → σ) (clock : σ → α) {waits inv : σ → Prop} {gap limit : α}
    (hgap : 0 < gap)
    (hstep : ∀ s, inv s → waits s →
      clock s < limit ∧ clock s + gap ≤ clock (step s) ∧ inv (step s)) {s : σ} (hs : inv s) :
    ∃ r : ℕ, (∀ i < r, waits (step^[i] s)) ∧ ¬ waits (step^[r] s) ∧ inv (step^[r] s) ∧
      (r = 0 ∨ clock s + gap * (r - 1) < limit) := by
  obtain ⟨n, hn⟩ := Archimedean.arch (limit - clock s) hgap
  rw [nsmul_eq_mul] at hn
  induction n generalizing s with
  | zero =>
    -- the time has come
    refine ⟨0, by simp, fun hwaits => ?_, hs, .inl rfl⟩
    have hlt := (hstep s hs hwaits).1
    rw [Nat.cast_zero, zero_mul] at hn
    linarith
  | succ n ih =>
    by_cases hwaits : waits s
    · obtain ⟨hlt, hgain, hinv⟩ := hstep s hs hwaits
      have hleft : limit - clock (step s) ≤ n * gap := by
        push_cast at hn
        linarith
      obtain ⟨r, hall, hfree, hinv', hbound⟩ := ih hinv hleft
      refine ⟨r + 1, fun i hi => ?_, hfree, hinv', .inr ?_⟩
      · cases i with
        | zero => exact hwaits
        | succ i => exact hall i (Nat.lt_of_succ_lt_succ hi)
      · rcases hbound with rfl | hbound
        · simpa using hlt
        · push_cast
          linarith
    · exact ⟨0, by simp, hwaits, hs, .inl rfl⟩

end SrtGateway.Runs
