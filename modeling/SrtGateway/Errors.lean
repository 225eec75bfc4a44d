/-
The exceptions that the gateway raises or tells apart.
-/
import Mathlib.Data.Nat.Notation
import Mathlib.Tactic.Lemma

namespace SrtGateway

/-- A raised exception: its class, with the message where the code supplies one. -/
inductive PyErr where
  | osError
  | serialError (msg : String)
  | notConnected (msg : String)
  | importError
  | typeError
  | attributeError
  | keyError
  | valueError (msg : String)
  | overflowError
  | integrityError
  | databaseError
  | transportError
  | other (name : String)
deriving DecidableEq, Repr

lemma map_eq_ok {α β : Type} {x : Except PyErr α} {f : α → β} {b : β} :
    x.map f = .ok b ↔ ∃ a, x = .ok a ∧ f a = b := by
  cases x <;> simp [Except.map]

/-- A block that ends normally went through its first statement normally. -/
lemma bind_eq_ok {α β : Type} {x : Except PyErr α} {f : α → Except PyErr β} {b : β} :
    x >>= f = .ok b ↔ ∃ a, x = .ok a ∧ f a = .ok b := by
  cases x with
  | error e => exact ⟨fun h => (nomatch h), fun ⟨_, h, _⟩ => (nomatch h)⟩
  | ok a => exact ⟨fun h => ⟨a, rfl, h⟩, fun ⟨_, h, hf⟩ => by cases h; exact hf⟩

end SrtGateway
