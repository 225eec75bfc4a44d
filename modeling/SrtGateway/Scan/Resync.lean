/-
Resynchronising scanners over a growing input.

A scanner of this kind looks at the unread tokens and decides one of three things: the
first token belongs to no frame and is dropped, the first `n` tokens are a frame and are
consumed, or nothing can be said before more tokens arrive.  The scanner is called again
and again on what it kept and the tokens that arrived since.

The look-ahead is *final* when a decision once taken is not revised by later tokens
(`LookAhead.look_append`).  That one law gives everything that is used of such a scanner:

* `Scans.total`, `Scans.unique`: every input is cut into pieces in exactly one way;
* `Scans.append`: scanning in two parts cuts the input as scanning it at once does, so
  the boundaries of the chunks in which the tokens arrive leave no trace.
-/
import Mathlib.Data.List.Basic
import Mathlib.Tactic

namespace SrtGateway.Scan

variable {β F : Type*}

/-- What a look at the unread tokens decides. -/
inductive Verdict (F : Type*) where
  /-- Undecided: more tokens are needed. -/
  | wait
  /-- The first token belongs to no frame; `fault` says whether that counts as an error. -/
  | drop (fault : Bool)
  /-- The first `n` tokens are the frame `f`. -/
  | take (f : F) (n : ℕ)
deriving DecidableEq, Repr

/-- A look-ahead whose decisions are final: a frame it announces is there, and tokens
that arrive later do not change a verdict. -/
structure LookAhead (β F : Type*) where
  look : List β → Verdict F
  look_nil : look [] = .wait
  take_pos : ∀ {l f n}, look l = .take f n → 0 < n
  take_le : ∀ {l f n}, look l = .take f n → n ≤ l.length
  look_append : ∀ {l} (m), look l ≠ .wait → look (l ++ m) = look l

/-- The pieces an input is cut into. -/
inductive Piece (β F : Type*) where
  /-- A dropped token. -/
  | junk (b : β) (fault : Bool)
  /-- A frame, with the tokens `w` it was read from. -/
  | frame (f : F) (w : List β)
deriving DecidableEq, Repr

namespace Piece

/-- The tokens of a piece. -/
def tokens : Piece β F → List β
  | junk b _ => [b]
  | frame _ w => w

/-- The frame of a piece, if it is one. -/
def frame? : Piece β F → Option F
  | junk _ _ => none
  | frame f _ => some f

/-- Whether a piece counts as an error. -/
def isFault : Piece β F → Bool
  | junk _ fault => fault
  | frame _ _ => false

end Piece

/-- The frames among some pieces, in order. -/
def framesOf (ps : List (Piece β F)) : List F := ps.filterMap Piece.frame?

/-- The number of errors among some pieces. -/
def faultsOf (ps : List (Piece β F)) : ℕ := ps.countP Piece.isFault

/-- The tokens of some pieces. -/
def tokensOf (ps : List (Piece β F)) : List β := ps.flatMap Piece.tokens

section Pieces

variable (ps qs : List (Piece β F))

@[simp] lemma framesOf_nil : framesOf ([] : List (Piece β F)) = [] := rfl
@[simp] lemma framesOf_junk (b : β) (e : Bool) :
    framesOf (Piece.junk b e :: ps) = framesOf ps := rfl
@[simp] lemma framesOf_frame (f : F) (w : List β) :
    framesOf (Piece.frame f w :: ps) = f :: framesOf ps := rfl
@[simp] lemma framesOf_append : framesOf (ps ++ qs) = framesOf ps ++ framesOf qs :=
  List.filterMap_append

@[simp] lemma faultsOf_nil : faultsOf ([] : List (Piece β F)) = 0 := rfl
@[simp] lemma faultsOf_junk (b : β) (e : Bool) :
    faultsOf (Piece.junk b e :: ps) = faultsOf ps + e.toNat := by
  cases e <;> simp [faultsOf, List.countP_cons, Piece.isFault]
@[simp] lemma faultsOf_frame (f : F) (w : List β) :
    faultsOf (Piece.frame f w :: ps) = faultsOf ps := by
  simp [faultsOf, Piece.isFault]
@[simp] lemma faultsOf_append : faultsOf (ps ++ qs) = faultsOf ps + faultsOf qs :=
  List.countP_append

@[simp] lemma tokensOf_nil : tokensOf ([] : List (Piece β F)) = [] := rfl
@[simp] lemma tokensOf_cons (p : Piece β F) : tokensOf (p :: ps) = p.tokens ++ tokensOf ps :=
  List.flatMap_cons
@[simp] lemma tokensOf_append : tokensOf (ps ++ qs) = tokensOf ps ++ tokensOf qs :=
  List.flatMap_append

end Pieces

/-- `Scans L l ps r`: reading `l` from the left by the verdicts of `L` cuts it into the
pieces `ps` and leaves the undecided rest `r`. -/
inductive Scans (L : LookAhead β F) : List β → List (Piece β F) → List β → Prop where
  | wait {l : List β} (h : L.look l = .wait) : Scans L l [] l
  | drop {b : β} {l r : List β} {fault : Bool} {ps : List (Piece β F)}
      (h : L.look (b :: l) = .drop fault) (hs : Scans L l ps r) :
      Scans L (b :: l) (.junk b fault :: ps) r
  | take {w l r : List β} {f : F} {ps : List (Piece β F)}
      (h : L.look (w ++ l) = .take f w.length) (hs : Scans L l ps r) :
      Scans L (w ++ l) (.frame f w :: ps) r

namespace Scans

variable {L : LookAhead β F} {l m r r' : List β} {ps ps' qs : List (Piece β F)}

/-- The pieces and the rest are the whole input. -/
lemma tokens_eq (h : Scans L l ps r) : l = tokensOf ps ++ r := by
  induction h with
  | wait _ => simp
  | drop _ _ ih => simp [Piece.tokens, ← ih]
  | take _ _ ih => simp [Piece.tokens, ← ih]

/-- What is left over is undecided. -/
lemma rest_wait (h : Scans L l ps r) : L.look r = .wait := by
  induction h with
  | wait h => exact h
  | drop _ _ ih => exact ih
  | take _ _ ih => exact ih

/-- An undecided input is kept whole. -/
lemma eq_of_wait (h : Scans L l ps r) (hl : L.look l = .wait) : ps = [] ∧ r = l := by
  cases h with
  | wait _ => exact ⟨rfl, rfl⟩
  | drop h' _ => rw [h'] at hl; exact absurd hl (by simp)
  | take h' _ => rw [h'] at hl; exact absurd hl (by simp)

/-- A frame that is the first `n` tokens. -/
lemma take_first {f : F} {n : ℕ} (h : L.look l = .take f n) (hs : Scans L (l.drop n) ps r) :
    Scans L l (.frame f (l.take n) :: ps) r := by
  have hlen : (l.take n).length = n := by
    rw [List.length_take]
    exact min_eq_left (L.take_le h)
  have hlook : L.look (l.take n ++ l.drop n) = .take f (l.take n).length := by
    rw [List.take_append_drop, hlen, h]
  have hscans := Scans.take hlook hs
  rwa [List.take_append_drop] at hscans

/-- Every input can be scanned to its end: each verdict other than `wait` consumes a
token. -/
theorem total (L : LookAhead β F) (l : List β) : ∃ ps r, Scans L l ps r := by
  induction hn : l.length using Nat.strong_induction_on generalizing l with
  | _ n ih =>
    cases hl : L.look l with
    | wait => exact ⟨[], l, .wait hl⟩
    | drop fault =>
      cases l with
      | nil => rw [L.look_nil] at hl; exact absurd hl (by simp)
      | cons b l =>
        obtain ⟨ps, r, hs⟩ := ih l.length (by simp [← hn]) l rfl
        exact ⟨_, r, .drop hl hs⟩
    | take f n =>
      have hpos := L.take_pos hl
      have hle := L.take_le hl
      obtain ⟨ps, r, hs⟩ := ih (l.drop n).length (by simp; omega) (l.drop n) rfl
      exact ⟨_, r, hs.take_first hl⟩

/-- The verdicts leave no choice: an input is cut in one way only. -/
theorem unique (h : Scans L l ps r) (h' : Scans L l ps' r') : ps = ps' ∧ r = r' := by
  induction h generalizing ps' r' with
  | wait hw =>
    obtain ⟨h1, h2⟩ := h'.eq_of_wait hw
    exact ⟨h1.symm, h2.symm⟩
  | @drop b l r fault ps hd hs ih =>
    generalize hl : b :: l = l₀ at h'
    cases h' with
    | wait hw => rw [← hl, hd] at hw; exact absurd hw (by simp)
    | @drop b' l' _ fault' ps₁ hd' hs' =>
      obtain ⟨rfl, rfl⟩ := List.cons.inj hl
      have hf : fault = fault' := by simpa [hd] using hd'
      obtain ⟨h1, h2⟩ := ih hs'
      exact ⟨by rw [hf, h1], h2⟩
    | take ht _ => rw [← hl, hd] at ht; exact absurd ht (by simp)
  | @take w l r f ps ht hs ih =>
    generalize hl : w ++ l = l₀ at h'
    cases h' with
    | wait hw => rw [← hl, ht] at hw; exact absurd hw (by simp)
    | drop hd _ => rw [← hl, ht] at hd; exact absurd hd (by simp)
    | @take w' l' _ f' ps₁ ht' hs' =>
      rw [← hl, ht] at ht'
      obtain ⟨rfl, hlen⟩ : f = f' ∧ w.length = w'.length := by simpa using ht'
      obtain ⟨rfl, rfl⟩ := List.append_inj hl hlen
      obtain ⟨h1, h2⟩ := ih hs'
      exact ⟨by rw [h1], h2⟩

/-- **Scanning in two parts.**  The rest of the first part, with the second part after
it, is scanned as if the two parts had been read at once. -/
theorem append (h : Scans L l ps r) (hm : Scans L (r ++ m) qs r') :
    Scans L (l ++ m) (ps ++ qs) r' := by
  induction h with
  | wait _ => simpa using hm
  | @drop b l r fault ps hd hs ih =>
    have hlook : L.look ((b :: l) ++ m) = .drop fault := by
      rw [L.look_append m (by simp [hd]), hd]
    exact .drop hlook (ih hm)
  | @take w l r f ps ht hs ih =>
    have hlook : L.look (w ++ (l ++ m)) = .take f w.length := by
      rw [← List.append_assoc, L.look_append m (by simp [ht]), ht]
    have := Scans.take hlook (ih hm)
    rwa [← List.append_assoc] at this

end Scans

end SrtGateway.Scan
