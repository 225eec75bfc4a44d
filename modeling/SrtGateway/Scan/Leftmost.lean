/-
Where the pieces of a scan lie.

Frames may overlap, and a scan takes the leftmost: it reads a frame where it stands and goes on
behind it.  `Outside frame q` says, without reference to a scan, that position `q` lies outside
the frames that are taken so.  A finite input is not always read to its end: the frames of a
scan are those at an outside position before the first outside position at which the look-ahead
waits (`Scans.mem_placed_iff`), and a frame that no other frame overlaps is at an outside
position (`outside_of_not_inside`).
-/
import SrtGateway.Scan.Resync

namespace SrtGateway.Scan

variable {β F : Type*}

/-! ### The leftmost frames -/

/-- `frame q n` says that `n` tokens at position `q` are a frame. -/
inductive Outside (frame : ℕ → ℕ → Prop) : ℕ → Prop where
  | start : Outside frame 0
  | skip {q : ℕ} (hq : Outside frame q) (hnone : ∀ n, ¬ frame q n) : Outside frame (q + 1)
  | jump {q n : ℕ} (hq : Outside frame q) (hframe : frame q n) : Outside frame (q + n)

/-- A position is outside the frames that are taken, or inside one of them. -/
lemma outside_or_inside {frame : ℕ → ℕ → Prop} (hpos : ∀ q n, frame q n → 0 < n) (p : ℕ) :
    Outside frame p ∨ ∃ q n, Outside frame q ∧ frame q n ∧ q < p ∧ p < q + n := by
  induction p with
  | zero => exact .inl .start
  | succ p ih =>
    rcases ih with hp | ⟨q, n, hq, hframe, hqp, hpn⟩
    · by_cases hframe : ∃ n, frame p n
      · obtain ⟨n, hn⟩ := hframe
        rcases Nat.eq_or_lt_of_le (hpos p n hn) with rfl | hlong
        · exact .inl (.jump hp hn)
        · exact .inr ⟨p, n, hp, hn, Nat.lt_succ_self p, Nat.add_lt_add_left hlong p⟩
      · exact .inl (.skip hp (not_exists.mp hframe))
    · rcases Nat.eq_or_lt_of_le hpn with hend | hinside
      · rw [← Nat.succ_eq_add_one, hend]
        exact .inl (.jump hq hframe)
      · exact .inr ⟨q, n, hq, hframe, by omega, hinside⟩

/-- A position that is inside no frame at all is outside the frames that are taken. -/
lemma outside_of_not_inside {frame : ℕ → ℕ → Prop} (hpos : ∀ q n, frame q n → 0 < n) {p : ℕ}
    (hp : ∀ q n, frame q n → q < p → q + n ≤ p) : Outside frame p := by
  rcases outside_or_inside hpos p with hout | ⟨q, n, -, hframe, hqp, hpn⟩
  · exact hout
  · exact absurd (hp q n hframe hqp) (not_le.mpr hpn)

/-! ### Positions of pieces -/

/-- The frames of some pieces with the positions at which they start, if the first piece is at
`offset`. -/
def placed (offset : ℕ) : List (Piece β F) → List (ℕ × F)
  | [] => []
  | .junk _ _ :: ps => placed (offset + 1) ps
  | .frame f w :: ps => (offset, f) :: placed (offset + w.length) ps

lemma placed_append (offset : ℕ) (ps qs : List (Piece β F)) :
    placed offset (ps ++ qs) =
      placed offset ps ++ placed (offset + (tokensOf ps).length) qs := by
  induction ps generalizing offset with
  | nil => simp [placed]
  | cons p ps ih =>
    cases p with
    | junk b fault =>
      rw [List.cons_append, placed, placed, ih, tokensOf_cons, List.length_append, Nat.add_assoc]
      rfl
    | frame f w =>
      rw [List.cons_append, placed, placed, ih, tokensOf_cons, List.length_append, Nat.add_assoc]
      rfl

lemma map_placed (offset : ℕ) (ps : List (Piece β F)) :
    (placed offset ps).map Prod.snd = framesOf ps := by
  induction ps generalizing offset with
  | nil => rfl
  | cons p ps ih =>
    cases p with
    | junk b fault => exact ih (offset + 1)
    | frame f w => exact congrArg (f :: ·) (ih (offset + w.length))

/-- Dropped tokens only move what comes behind them. -/
lemma placed_junk (offset : ℕ) (g : List β) (fault : β → Bool) (ps : List (Piece β F)) :
    placed offset (g.map (fun b => .junk b (fault b)) ++ ps) = placed (offset + g.length) ps := by
  induction g generalizing offset with
  | nil => rfl
  | cons b g ih =>
    rw [List.map_cons, List.cons_append, placed, ih, List.length_cons, Nat.add_right_comm]
    rfl

/-- The look-ahead takes `n` tokens at position `q` of `l`. -/
def LookAhead.TakesAt (L : LookAhead β F) (l : List β) (q n : ℕ) : Prop :=
  ∃ f, L.look (l.drop q) = .take f n

lemma LookAhead.TakesAt.pos {L : LookAhead β F} {l : List β} {q n : ℕ} (h : L.TakesAt l q n) :
    0 < n := by
  obtain ⟨f, hlook⟩ := h
  exact L.take_pos hlook

namespace Scans

variable {L : LookAhead β F} {l r : List β} {ps : List (Piece β F)}

/-- A scan of what follows position `q` that takes `n` tokens goes on at `q + n`. -/
lemma after_take {q n : ℕ} {f : F} (h : Scans L (l.drop q) ps r)
    (hlook : L.look (l.drop q) = .take f n) :
    ∃ w ps', ps = .frame f w :: ps' ∧ w.length = n ∧ Scans L (l.drop (q + n)) ps' r := by
  generalize hm : l.drop q = m at h hlook
  cases h with
  | wait hw => exact absurd (hw.symm.trans hlook) (by simp)
  | drop hd hs => exact absurd (hd.symm.trans hlook) (by simp)
  | @take w m _ f' ps' ht hs =>
    obtain ⟨rfl, rfl⟩ : f' = f ∧ w.length = n := by simpa using ht.symm.trans hlook
    refine ⟨w, ps', rfl, rfl, ?_⟩
    rwa [← List.drop_drop, hm, List.drop_left]

/-- A scan of what follows position `q` that takes nothing drops a token, or leaves all. -/
lemma after_drop {q : ℕ} (h : Scans L (l.drop q) ps r)
    (hnone : ∀ n, ¬ L.TakesAt l q n) (hlt : r.length < (l.drop q).length) :
    ∃ b fault ps', ps = .junk b fault :: ps' ∧ Scans L (l.drop (q + 1)) ps' r := by
  generalize hm : l.drop q = m at h hlt
  cases h with
  | wait hw => exact absurd hlt (lt_irrefl _)
  | @drop b m _ fault ps' hd hs =>
    refine ⟨b, fault, ps', rfl, ?_⟩
    rwa [← List.drop_drop, hm, List.drop_one, List.tail_cons]
  | @take w m _ f ps' ht hs => exact absurd ⟨f, hm ▸ ht⟩ (hnone w.length)

/-- An outside position that the scan gets to cuts it in two. -/
lemma split {q : ℕ} (h : Scans L l ps r) (hq : Outside (L.TakesAt l) q)
    (hle : q + r.length ≤ l.length) :
    ∃ ps₁ ps₂, ps = ps₁ ++ ps₂ ∧ (tokensOf ps₁).length = q ∧ Scans L (l.drop q) ps₂ r := by
  induction hq with
  | start => exact ⟨[], ps, rfl, rfl, h⟩
  | @skip q hq hnone ih =>
    obtain ⟨ps₁, ps₂, rfl, hlen, hs⟩ := ih (by omega)
    obtain ⟨b, fault, ps', rfl, hs'⟩ := hs.after_drop hnone (by rw [List.length_drop]; omega)
    refine ⟨ps₁ ++ [.junk b fault], ps', by simp, ?_, hs'⟩
    simp [Piece.tokens, hlen]
  | @jump q n hq hframe ih =>
    obtain ⟨f, hlook⟩ := hframe
    obtain ⟨ps₁, ps₂, rfl, hlen, hs⟩ := ih (by omega)
    obtain ⟨w, ps', rfl, rfl, hs'⟩ := hs.after_take hlook
    refine ⟨ps₁ ++ [.frame f w], ps', by simp, ?_, hs'⟩
    simp [Piece.tokens, hlen]

/-- The frames of a scan are at outside positions, and so is the end of what it has read. -/
lemma outside_placed {q : ℕ} (h : Scans L (l.drop q) ps r) (hq : Outside (L.TakesAt l) q)
    (hle : q ≤ l.length) :
    Outside (L.TakesAt l) (l.length - r.length) ∧
      ∀ p f, (p, f) ∈ placed q ps → Outside (L.TakesAt l) p ∧ p + r.length < l.length ∧
        ∃ n, L.look (l.drop p) = .take f n := by
  generalize hm : l.drop q = m at h
  induction h generalizing q with
  | @wait m hw =>
    have hlen : l.length - m.length = q := by
      rw [← hm, List.length_drop]
      omega
    refine ⟨hlen ▸ hq, fun p f hmem => ?_⟩
    exact absurd hmem List.not_mem_nil
  | @drop b m r fault ps hd hs ih =>
    have hlen := congrArg List.length hm
    rw [List.length_drop, List.length_cons] at hlen
    have hnext : l.drop (q + 1) = m := by
      rw [← List.drop_drop, hm, List.drop_one, List.tail_cons]
    refine ih (.skip hq ?_) (by omega) hnext
    rintro n ⟨f, hf⟩
    rw [hm, hd] at hf
    exact absurd hf (by simp)
  | @take w m r f ps ht hs ih =>
    have hlen := congrArg List.length hm
    rw [List.length_drop, List.length_append] at hlen
    have hnext : l.drop (q + w.length) = m := by rw [← List.drop_drop, hm, List.drop_left]
    have hpos := L.take_pos ht
    have hlook : L.look (l.drop q) = .take f w.length := by rw [hm, ht]
    obtain ⟨hend, hplaced⟩ := ih (.jump hq ⟨f, hlook⟩) (by omega) hnext
    refine ⟨hend, fun p f' hmem => ?_⟩
    rcases List.mem_cons.mp hmem with heq | hmem
    · obtain ⟨rfl, rfl⟩ := Prod.mk.inj heq
      have hrest := congrArg List.length hs.tokens_eq
      rw [List.length_append] at hrest
      exact ⟨hq, by omega, w.length, hlook⟩
    · exact hplaced p f' hmem

/-- **Which frames are read.**  A scan finds a frame at a position if and only if the frame is
there, the position is outside the frames taken before it, and no such position before it keeps
the look-ahead waiting. -/
theorem mem_placed_iff (h : Scans L l ps r) {p : ℕ} {f : F} :
    (p, f) ∈ placed 0 ps ↔ Outside (L.TakesAt l) p ∧ (∃ n, L.look (l.drop p) = .take f n) ∧
      ∀ q < p, Outside (L.TakesAt l) q → L.look (l.drop q) ≠ .wait := by
  obtain ⟨hend, hplaced⟩ := outside_placed (q := 0) h .start (Nat.zero_le _)
  have hrest : l.drop (l.length - r.length) = r := by
    rw [h.tokens_eq, List.length_append, Nat.add_sub_cancel, List.drop_left]
  have hshort : r.length ≤ l.length := by
    rw [h.tokens_eq, List.length_append]
    exact Nat.le_add_left _ _
  constructor
  · intro hmem
    obtain ⟨hp, hbefore, htake⟩ := hplaced p f hmem
    refine ⟨hp, htake, fun q hqp hq hwait => ?_⟩
    -- the scan would have stopped at `q`
    obtain ⟨ps₁, ps₂, -, -, hs⟩ := h.split hq (by omega)
    obtain ⟨-, rfl⟩ := hs.eq_of_wait hwait
    rw [List.length_drop] at hbefore
    omega
  · rintro ⟨hp, ⟨n, hlook⟩, hfree⟩
    have hle : p + r.length ≤ l.length := by
      by_contra hlate
      refine hfree (l.length - r.length) (by omega) hend ?_
      rw [hrest, h.rest_wait]
    obtain ⟨ps₁, ps₂, rfl, rfl, hs⟩ := h.split hp hle
    obtain ⟨w, ps', rfl, -, -⟩ := hs.after_take hlook
    rw [placed_append, Nat.zero_add]
    exact List.mem_append_right _ (List.mem_cons_self ..)

end Scans

end SrtGateway.Scan
