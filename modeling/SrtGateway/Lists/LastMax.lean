/-
The last of the greatest elements of a list.

A register that takes every value which is not older than the one it holds ends with the last
of the newest values.  `lastMax key l` is this value for the list `l` of all that came, in
their order; it does not depend on the order when the greatest key belongs to one value only
(`lastMax_perm`).
-/
import Mathlib.Data.List.MinMax

namespace SrtGateway.Lists

variable {α β : Type} [LinearOrder β] {key : α → β} {l l' : List α} {a : α}

/-- The last element with the greatest key. -/
def lastMax (key : α → β) (l : List α) : Option α := l.reverse.argmax key

/-- `a` stands in `l` where no later key reaches its own and no earlier key exceeds it. -/
def IsLastMax (key : α → β) (l : List α) (a : α) : Prop :=
  ∃ before after, l = before ++ a :: after ∧ (∀ b ∈ before, key b ≤ key a) ∧
    ∀ b ∈ after, key b < key a

/-- Values with the greatest key are equal. -/
def MaxAttainedOnce (key : α → β) (l : List α) : Prop :=
  ∀ a ∈ l, ∀ b ∈ l, (∀ c ∈ l, key c ≤ key a) → key b = key a → b = a

@[simp] lemma lastMax_nil : lastMax key [] = none := rfl

/-- One more value comes. -/
lemma lastMax_concat (l : List α) (a : α) :
    lastMax key (l ++ [a]) =
      match lastMax key l with
      | none => some a
      | some b => if key b ≤ key a then some a else some b := by
  rw [lastMax, List.reverse_concat, List.argmax_cons, lastMax]
  cases l.reverse.argmax key with
  | none => rfl
  | some b =>
    by_cases h : key b ≤ key a
    · simp [h, not_lt.mpr h]
    · simp [h, not_le.mp h]

lemma lastMax_eq_none : lastMax key l = none ↔ l = [] := by
  rw [lastMax, List.argmax_eq_none, List.reverse_eq_nil_iff]

lemma mem_of_lastMax (h : lastMax key l = some a) : a ∈ l :=
  List.mem_reverse.mp (List.argmax_mem h)

lemma le_of_lastMax (h : lastMax key l = some a) : ∀ b ∈ l, key b ≤ key a :=
  fun _ hb => List.le_of_mem_argmax (List.mem_reverse.mpr hb) h

lemma isLastMax_of_lastMax (h : lastMax key l = some a) : IsLastMax key l a := by
  induction l using List.reverseRecOn generalizing a with
  | nil => cases h
  | append_singleton l c ih =>
    have hle := le_of_lastMax h
    rw [lastMax_concat] at h
    cases hl : lastMax key l with
    | none =>
      obtain rfl := lastMax_eq_none.mp hl
      rw [hl] at h
      obtain rfl := Option.some.inj h
      exact ⟨[], [], rfl, by simp, by simp⟩
    | some b =>
      rw [hl] at h
      dsimp only at h
      split_ifs at h with hbc
      · obtain rfl := Option.some.inj h
        exact ⟨l, [], rfl, fun d hd => hle d (List.mem_append_left _ hd), by simp⟩
      · obtain rfl := Option.some.inj h
        obtain ⟨before, after, rfl, hbefore, hafter⟩ := ih hl
        refine ⟨before, after ++ [c], by simp, hbefore, fun d hd => ?_⟩
        rcases List.mem_append.mp hd with hd | hd
        · exact hafter d hd
        · rw [List.mem_singleton.mp hd]
          exact not_le.mp hbc

/-- **The order does not matter** when the greatest key belongs to one value. -/
lemma lastMax_perm (h : l.Perm l') (honce : MaxAttainedOnce key l) :
    lastMax key l = lastMax key l' := by
  cases hl : lastMax key l with
  | none =>
    obtain rfl := lastMax_eq_none.mp hl
    rw [List.nil_perm.mp h, lastMax_nil]
  | some a =>
    cases hl' : lastMax key l' with
    | none =>
      obtain rfl := lastMax_eq_none.mp hl'
      rw [List.perm_nil.mp h, lastMax_nil] at hl
      cases hl
    | some a' =>
      have hmem : a' ∈ l := h.mem_iff.mpr (mem_of_lastMax hl')
      have hle := le_of_lastMax hl
      have hle' := le_of_lastMax hl' a (h.mem_iff.mp (mem_of_lastMax hl))
      rw [honce a (mem_of_lastMax hl) a' hmem hle (le_antisymm (hle a' hmem) hle')]

end SrtGateway.Lists
