/-
Programs that make calls to their surroundings.

A program either ends with a value or makes a call and goes on with the answer.  Its runs
are histories of answered calls, so what it does under every behaviour of its surroundings,
and wherever it is stopped, can be said by one predicate on histories: `Meets guard post`
says that every call a program makes is allowed by `guard`, given the history that led up to
it, and that it ends only in ways allowed by `post`.  The rules for `pure`, `call` and `bind`
prove it along the program text.  In surroundings that answer each call from a state of their
own there is one run, `exec`.
-/
import Mathlib.Tactic.Lemma
import Mathlib.Data.List.Basic

namespace SrtGateway.Effect

/-- A program that makes calls `Call`, answered in `Ans`, and ends with an `α`. -/
inductive Prog (Call : Type) (Ans : Call → Type) (α : Type) : Type where
  | pure (a : α)
  | call (c : Call) (next : Ans c → Prog Call Ans α)

/-- An answered call. -/
structure Event (Call : Type) (Ans : Call → Type) where
  call : Call
  answer : Ans call

namespace Prog

variable {Call : Type} {Ans : Call → Type} {α β : Type}

def bind : Prog Call Ans α → (α → Prog Call Ans β) → Prog Call Ans β
  | pure a, f => f a
  | call c next, f => call c fun a => (next a).bind f

instance : Monad (Prog Call Ans) where
  pure := .pure
  bind := .bind

/-- The program that makes one call. -/
def lift (c : Call) : Prog Call Ans (Ans c) := call c .pure

/-! ### Rules -/

/-- After the history `h`, the program makes only calls that `guard` allows and ends only in
ways that `post` allows. -/
def Meets (guard : List (Event Call Ans) → Call → Prop)
    (post : List (Event Call Ans) → α → Prop) : List (Event Call Ans) → Prog Call Ans α → Prop
  | h, pure a => post h a
  | h, call c next => guard h c ∧ ∀ a, Meets guard post (h ++ [⟨c, a⟩]) (next a)

variable {guard : List (Event Call Ans) → Call → Prop}
  {post post' : List (Event Call Ans) → α → Prop} {h : List (Event Call Ans)}

lemma Meets.mono (hpost : ∀ h a, post h a → post' h a) {p : Prog Call Ans α}
    (hp : Meets guard post h p) : Meets guard post' h p := by
  induction p generalizing h with
  | pure a => exact hpost h a hp
  | call c next ih => exact ⟨hp.1, fun a => ih a (hp.2 a)⟩

lemma Meets.pure {a : α} (hpost : post h a) :
    Meets guard post h (Pure.pure a : Prog Call Ans α) := hpost

/-- The rule of a call. -/
lemma Meets.call {c : Call} {f : Ans c → Prog Call Ans α} (hguard : guard h c)
    (hf : ∀ a, Meets guard post (h ++ [⟨c, a⟩]) (f a)) : Meets guard post h (lift c >>= f) :=
  ⟨hguard, hf⟩

/-- The rule of sequencing. -/
lemma Meets.bind {p : Prog Call Ans α} {f : α → Prog Call Ans β}
    {mid : List (Event Call Ans) → α → Prop} {post : List (Event Call Ans) → β → Prop}
    (hp : Meets guard mid h p) (hf : ∀ h a, mid h a → Meets guard post h (f a)) :
    Meets guard post h (p >>= f) := by
  induction p generalizing h with
  | pure a => exact hf h a hp
  | call c next ih => exact ⟨hp.1, fun a => ih a (hp.2 a)⟩

/-- Any program makes some calls and ends in some way. -/
lemma meets_any (h : List (Event Call Ans)) (p : Prog Call Ans α) :
    Meets (fun _ _ => True) (fun _ _ => True) h p := by
  induction p generalizing h with
  | pure a => trivial
  | call c next ih => exact ⟨trivial, fun a => ih a _⟩

/-- The first part of a program makes no other calls than the whole. -/
lemma Meets.of_bind {p : Prog Call Ans α} {f : α → Prog Call Ans β}
    {post : List (Event Call Ans) → β → Prop} (hp : Meets guard post h (p >>= f)) :
    Meets guard (fun _ _ => True) h p := by
  induction p generalizing h with
  | pure a => trivial
  | call c next ih => exact ⟨hp.1, fun a => ih a (hp.2 a)⟩

/-- Histories only grow. -/
lemma Meets.grows {p : Prog Call Ans α} (hp : Meets guard post h p) :
    Meets guard (fun h' a => post h' a ∧ h <+: h') h p := by
  suffices hgen : ∀ h', h <+: h' → Meets guard post h' p →
      Meets guard (fun h'' a => post h'' a ∧ h <+: h'') h' p from hgen h List.prefix_rfl hp
  intro h' hle hp'
  clear hp
  induction p generalizing h' with
  | pure a => exact ⟨hp', hle⟩
  | call c next ih =>
    exact ⟨hp'.1, fun a => ih a _ (hle.trans (List.prefix_append _ _)) (hp'.2 a)⟩

/-! ### Execution -/

variable {σ : Type}

/-- The run of a program in surroundings that answer each call from their state. -/
def exec (respond : σ → (c : Call) → Ans c × σ) : σ → Prog Call Ans α → α × σ
  | s, pure a => (a, s)
  | s, call c next => exec respond (respond s c).2 (next (respond s c).1)

variable (respond : σ → (c : Call) → Ans c × σ) (s : σ)

lemma exec_pure (a : α) : exec respond s (Pure.pure a : Prog Call Ans α) = (a, s) := rfl

lemma exec_lift_bind (c : Call) (f : Ans c → Prog Call Ans α) :
    exec respond s (lift c >>= f) = exec respond (respond s c).2 (f (respond s c).1) := rfl

lemma exec_bind (p : Prog Call Ans α) (f : α → Prog Call Ans β) :
    exec respond s (p >>= f) = exec respond (exec respond s p).2 (f (exec respond s p).1) := by
  induction p generalizing s with
  | pure a => rfl
  | call c next ih => exact ih _ _

/-- What every answered call keeps, a program keeps. -/
lemma exec_keeps {P : σ → Prop} (hrespond : ∀ s c, P s → P (respond s c).2)
    (p : Prog Call Ans α) {s : σ} (h : P s) : P (exec respond s p).2 := by
  induction p generalizing s with
  | pure a => exact h
  | call c next ih => exact ih _ (hrespond s c h)

/-- What a program meets for every answer, it meets in any surroundings. -/
lemma Meets.exec {guard : List (Event Call Ans) → Call → Prop} {post : α → Prop}
    {h : List (Event Call Ans)} {p : Prog Call Ans α} (hp : Meets guard (fun _ => post) h p) :
    post (exec respond s p).1 := by
  induction p generalizing h s with
  | pure a => exact hp
  | call c next ih => exact ih _ _ (hp.2 _)

end Prog

end SrtGateway.Effect
