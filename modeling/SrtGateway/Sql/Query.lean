/-
The meaning of grouping queries, on tables as lists of rows.

`GROUP BY` splits a table into the groups of its keys, and an aggregate `MAX` is taken over a
group.  Where `MAX` is the only aggregate of a query, its bare columns come from the row that
attains it (`bareRow`).
-/
import Mathlib.Data.List.Dedup
import Mathlib.Data.List.MinMax

namespace SrtGateway.Sql

variable {α β κ : Type}

/-- `JOIN ... ON`, as a nested loop. -/
def joinOn (on : α → β → Bool) (l : List α) (r : List β) : List (α × β) :=
  l.flatMap fun a => (r.filter fun b => on a b).map fun b => (a, b)

lemma mem_joinOn {on : α → β → Bool} {l : List α} {r : List β} {a : α} {b : β} :
    (a, b) ∈ joinOn on l r ↔ a ∈ l ∧ b ∈ r ∧ on a b = true := by
  simp only [joinOn, List.mem_flatMap, List.mem_map, List.mem_filter, Prod.mk.injEq]
  constructor
  · rintro ⟨a', ha', b', ⟨hb', hon⟩, rfl, rfl⟩
    exact ⟨ha', hb', hon⟩
  · rintro ⟨ha, hb, hon⟩
    exact ⟨a, ha, b, ⟨hb, hon⟩, rfl, rfl⟩

/-! ### Groups -/

/-- A query that makes a row with the group's key of every group. -/
lemma map_key_filterMap {key : β → κ} {select : κ × List α → Option β} {groups : List (κ × List α)}
    (h : ∀ g ∈ groups, ∃ r, select g = some r ∧ key r = g.1) :
    (groups.filterMap select).map key = groups.map Prod.fst := by
  induction groups with
  | nil => rfl
  | cons g groups ih =>
    obtain ⟨r, hr, hkey⟩ := h g List.mem_cons_self
    rw [List.filterMap_cons_some hr, List.map_cons, List.map_cons, hkey,
      ih fun g' hg' => h g' (List.mem_cons_of_mem _ hg')]

section

variable [DecidableEq κ] {key : α → κ} {rows : List α} {k : κ}

/-- The rows with one key. -/
def group (key : α → κ) (rows : List α) (k : κ) : List α := rows.filter fun r => key r = k

/-- `GROUP BY`: the keys, each with its rows. -/
def groupBy (key : α → κ) (rows : List α) : List (κ × List α) :=
  (rows.map key).dedup.map fun k => (k, group key rows k)

lemma mem_group {r : α} : r ∈ group key rows k ↔ r ∈ rows ∧ key r = k := by
  rw [group, List.mem_filter, decide_eq_true_eq]

lemma mem_groupBy {g : List α} :
    (k, g) ∈ groupBy key rows ↔ (∃ r ∈ rows, key r = k) ∧ g = group key rows k := by
  simp only [groupBy, List.mem_map, List.mem_dedup, Prod.mk.injEq]
  constructor
  · rintro ⟨k', hk', rfl, rfl⟩
    exact ⟨hk', rfl⟩
  · rintro ⟨hk, rfl⟩
    exact ⟨k, hk, rfl, rfl⟩

/-- Every key has one group. -/
lemma groupBy_keys_nodup : ((groupBy key rows).map Prod.fst).Nodup := by
  have hkeys : (groupBy key rows).map Prod.fst = (rows.map key).dedup := by
    rw [groupBy, List.map_map]
    exact List.map_id _
  rw [hkeys]
  exact List.nodup_dedup _

end

/-! ### Aggregates -/

section

variable [LinearOrder β] {f : α → β} {rows : List α} {r : α}

/-- `MAX`; of no rows it is NULL. -/
def maxOf (f : α → β) (rows : List α) : Option β := (rows.argmax f).map f

/-- The row that attains the maximum. -/
def bareRow (f : α → β) (rows : List α) : Option α := rows.argmax f

lemma bareRow_spec (h : bareRow f rows = some r) : r ∈ rows ∧ ∀ r' ∈ rows, f r' ≤ f r :=
  ⟨List.argmax_mem h, fun _ hr' => List.le_of_mem_argmax hr' h⟩

lemma exists_bareRow (f : α → β) (h : r ∈ rows) : ∃ r', bareRow f rows = some r' := by
  cases hrow : bareRow f rows with
  | none => exact absurd h (List.argmax_eq_none.mp hrow ▸ List.not_mem_nil)
  | some r' => exact ⟨r', rfl⟩

/-- The bare row attains the maximum. -/
lemma maxOf_eq_bareRow (f : α → β) (rows : List α) : maxOf f rows = (bareRow f rows).map f := rfl

lemma maxOf_eq_some_iff {b : β} :
    maxOf f rows = some b ↔ (∃ r ∈ rows, f r = b) ∧ ∀ r ∈ rows, f r ≤ b := by
  rw [maxOf_eq_bareRow, Option.map_eq_some_iff]
  constructor
  · rintro ⟨r, hr, rfl⟩
    obtain ⟨hmem, hle⟩ := bareRow_spec hr
    exact ⟨⟨r, hmem, rfl⟩, hle⟩
  · rintro ⟨⟨r, hr, rfl⟩, hle⟩
    obtain ⟨r', hr'⟩ := exists_bareRow f hr
    obtain ⟨hmem, hle'⟩ := bareRow_spec hr'
    exact ⟨r', hr', le_antisymm (hle r' hmem) (hle' r hr)⟩

end

end SrtGateway.Sql
