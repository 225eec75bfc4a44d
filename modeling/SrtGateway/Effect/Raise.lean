/-
Programs with a state of their own whose calls may raise.

Such a program is a method of an object: an exception leaves the object in the state it has at
that point, and a `try` goes on from there.  Its history is of the calls that were answered.  The
rules for `Meets` follow the program text, as those for `Prog.Meets` do, with a rule for `try`.
Where no call raises, what is left is a program without exceptions (`quiet`), which meets what the
program does (`Meets.quiet`).
-/
import SrtGateway.Effect.Prog

namespace SrtGateway.Effect

variable {Call : Type} {Ans : Call → Type} {σ ε α β : Type}

/-- What comes of a call that may raise. -/
abbrev Outcome (Ans : Call → Type) (ε : Type) (c : Call) : Type := Except ε (Ans c)

/-- Programs with a state `σ` that may raise an `ε`. -/
abbrev RaiseM (Call : Type) (Ans : Call → Type) (σ ε : Type) : Type → Type :=
  ExceptT ε (StateT σ (Prog Call (Outcome Ans ε)))

variable {guard : List (Event Call Ans) → Call → Prop}
  {post : List (Event Call Ans) → α → Prop} {h : List (Event Call Ans)}

namespace Prog

/-- After the answered calls `h`, the program makes only calls that `guard` allows and ends only
in ways that `post` allows; a call that raises is none of the answered ones. -/
def MeetsRaising (guard : List (Event Call Ans) → Call → Prop)
    (post : List (Event Call Ans) → α → Prop) :
    List (Event Call Ans) → Prog Call (Outcome Ans ε) α → Prop
  | h, pure a => post h a
  | h, call c next => guard h c ∧
      (∀ a, MeetsRaising guard post (h ++ [⟨c, a⟩]) (next (.ok a))) ∧
        ∀ x, MeetsRaising guard post h (next (.error x))

lemma MeetsRaising.bind {p : Prog Call (Outcome Ans ε) α} {f : α → Prog Call (Outcome Ans ε) β}
    {mid : List (Event Call Ans) → α → Prop} {post : List (Event Call Ans) → β → Prop}
    (hp : MeetsRaising guard mid h p) (hf : ∀ h a, mid h a → MeetsRaising guard post h (f a)) :
    MeetsRaising guard post h (p >>= f) := by
  induction p generalizing h with
  | pure a => exact hf h a hp
  | call c next ih => exact ⟨hp.1, fun a => ih _ (hp.2.1 a), fun x => ih _ (hp.2.2 x)⟩

lemma MeetsRaising.grows {p : Prog Call (Outcome Ans ε) α} (hp : MeetsRaising guard post h p) :
    MeetsRaising guard (fun h' a => post h' a ∧ h <+: h') h p := by
  suffices hgen : ∀ h', h <+: h' → MeetsRaising guard post h' p →
      MeetsRaising guard (fun h'' a => post h'' a ∧ h <+: h'') h' p from
    hgen h List.prefix_rfl hp
  intro h' hle hp'
  clear hp
  induction p generalizing h' with
  | pure a => exact ⟨hp', hle⟩
  | call c next ih =>
    exact ⟨hp'.1, fun a => ih _ _ (hle.trans (List.prefix_append _ _)) (hp'.2.1 a),
      fun x => ih _ _ hle (hp'.2.2 x)⟩

/-- The program when none of its calls raises. -/
def quiet : Prog Call (Outcome Ans ε) α → Prog Call Ans α
  | pure a => pure a
  | call c next => call c fun a => quiet (next (.ok a))

lemma quiet_bind (p : Prog Call (Outcome Ans ε) α) (f : α → Prog Call (Outcome Ans ε) β) :
    quiet (p >>= f) = quiet p >>= fun a => quiet (f a) := by
  induction p with
  | pure a => rfl
  | call c next ih => exact congrArg (call c) (funext fun a => ih (.ok a))

lemma MeetsRaising.quiet {p : Prog Call (Outcome Ans ε) α} (hp : MeetsRaising guard post h p) :
    Meets guard post h p.quiet := by
  induction p generalizing h with
  | pure a => exact hp
  | call c next ih => exact ⟨hp.1, fun a => ih _ (hp.2.1 a)⟩

lemma bind_pure (p : Prog Call Ans α) : p.bind pure = p := by
  induction p with
  | pure a => rfl
  | call c next ih => exact congrArg (call c) (funext ih)

lemma bind_assoc {γ : Type} (p : Prog Call Ans α) (f : α → Prog Call Ans β)
    (g : β → Prog Call Ans γ) : (p.bind f).bind g = p.bind fun a => (f a).bind g := by
  induction p with
  | pure a => rfl
  | call c next ih => exact congrArg (call c) (funext ih)

instance : LawfulMonad (Prog Call Ans) := .mk' _ bind_pure (fun _ _ => rfl) bind_assoc

end Prog

namespace RaiseM

/-- The program that makes one call. -/
def ask (c : Call) : RaiseM Call Ans σ ε (Ans c) := fun s => .call c fun r => .pure (r, s)

/-! ### Rules -/

/-- In every state: after the answered calls `h`, the program makes only calls that `guard`
allows, and returns or raises only in ways that `post` allows. -/
def Meets (guard : List (Event Call Ans) → Call → Prop)
    (post : List (Event Call Ans) → Except ε α → Prop) (h : List (Event Call Ans))
    (p : RaiseM Call Ans σ ε α) : Prop :=
  ∀ s : σ, Prog.MeetsRaising guard (fun h (r : Except ε α × σ) => post h r.1) h (p s)

variable {post : List (Event Call Ans) → Except ε α → Prop}

lemma Meets.pure {a : α} (hpost : post h (.ok a)) :
    Meets guard post h (Pure.pure a : RaiseM Call Ans σ ε α) := fun _ => hpost

lemma Meets.modify {f : σ → σ} {post : List (Event Call Ans) → Except ε Unit → Prop}
    (hpost : post h (.ok ())) :
    Meets guard post h (modify f : RaiseM Call Ans σ ε Unit) := fun _ => hpost

/-- The rule of a call, which is answered or raises. -/
lemma Meets.ask {c : Call} {post : List (Event Call Ans) → Except ε (Ans c) → Prop}
    (hguard : guard h c) (hok : ∀ a, post (h ++ [⟨c, a⟩]) (.ok a))
    (hraise : ∀ x, post h (.error x)) :
    Meets guard post h (RaiseM.ask c : RaiseM Call Ans σ ε (Ans c)) :=
  fun _ => ⟨hguard, hok, hraise⟩

/-- The rule of sequencing: what raises is not gone on with. -/
lemma Meets.bind {mid : List (Event Call Ans) → Except ε α → Prop}
    {post : List (Event Call Ans) → Except ε β → Prop} {p : RaiseM Call Ans σ ε α}
    {f : α → RaiseM Call Ans σ ε β} (hp : Meets guard mid h p)
    (hok : ∀ h a, mid h (.ok a) → Meets guard post h (f a))
    (hraise : ∀ h x, mid h (.error x) → post h (.error x)) : Meets guard post h (p >>= f) := by
  refine fun s => Prog.MeetsRaising.bind (hp s) fun h' r hmid => ?_
  obtain ⟨r | r, s'⟩ := r
  · exact hraise h' r hmid
  · exact hok h' r hmid s'

/-- The rule of a call that is gone on from. -/
lemma Meets.ask_bind {c : Call} {f : Ans c → RaiseM Call Ans σ ε α} (hguard : guard h c)
    (hok : ∀ a, Meets guard post (h ++ [⟨c, a⟩]) (f a)) (hraise : ∀ x, post h (.error x)) :
    Meets guard post h (RaiseM.ask c >>= f) :=
  fun s => ⟨hguard, fun a => hok a s, hraise⟩

/-- The rule of `try`: what raises is gone on with by the handler. -/
lemma Meets.tryCatch {mid : List (Event Call Ans) → Except ε α → Prop}
    {p : RaiseM Call Ans σ ε α} {f : ε → RaiseM Call Ans σ ε α} (hp : Meets guard mid h p)
    (hok : ∀ h a, mid h (.ok a) → post h (.ok a))
    (hraise : ∀ h x, mid h (.error x) → Meets guard post h (f x)) :
    Meets guard post h (tryCatch p f) := by
  refine fun s => Prog.MeetsRaising.bind (hp s) fun h' r hmid => ?_
  obtain ⟨r | r, s'⟩ := r
  · exact hraise h' r hmid s'
  · exact hok h' r hmid

/-- Histories only grow. -/
lemma Meets.grows {p : RaiseM Call Ans σ ε α} (hp : Meets guard post h p) :
    Meets guard (fun h' r => post h' r ∧ h <+: h') h p :=
  fun s => (hp s).grows

/-! ### Calls that do not raise -/

/-- The program when none of its calls raises, from a state. -/
def quiet (p : RaiseM Call Ans σ ε α) (s : σ) : Prog Call Ans (Except ε α × σ) := (p s).quiet

lemma Meets.quiet {p : RaiseM Call Ans σ ε α} (hp : Meets guard post h p) (s : σ) :
    Prog.Meets guard (fun h r => post h r.1) h (p.quiet s) :=
  (hp s).quiet

variable (s : σ)

@[simp] lemma quiet_pure (a : α) :
    quiet (Pure.pure a : RaiseM Call Ans σ ε α) s = pure (.ok a, s) := rfl

@[simp] lemma quiet_modify (f : σ → σ) :
    quiet (modify f : RaiseM Call Ans σ ε Unit) s = pure (.ok (), f s) := rfl

@[simp] lemma quiet_bind (p : RaiseM Call Ans σ ε α) (f : α → RaiseM Call Ans σ ε β) :
    quiet (p >>= f) s = quiet p s >>= fun r => match r.1 with
      | .ok a => quiet (f a) r.2
      | .error x => pure (.error x, r.2) := by
  refine (Prog.quiet_bind _ _).trans (congrArg (Prog.bind _) (funext fun r => ?_))
  obtain ⟨r | r, s⟩ := r <;> rfl

@[simp] lemma quiet_tryCatch (p : RaiseM Call Ans σ ε α) (f : ε → RaiseM Call Ans σ ε α) :
    quiet (tryCatch p f) s = quiet p s >>= fun r => match r.1 with
      | .ok a => pure (.ok a, r.2)
      | .error x => quiet (f x) r.2 := by
  refine (Prog.quiet_bind _ _).trans (congrArg (Prog.bind _) (funext fun r => ?_))
  obtain ⟨r | r, s⟩ := r <;> rfl

end RaiseM

end SrtGateway.Effect
