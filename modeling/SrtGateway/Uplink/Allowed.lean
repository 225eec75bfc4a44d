/-
The calls that `run_once` may make, given what its calls so far have been answered.
-/
import SrtGateway.Uplink.RunOnce

namespace SrtGateway.Uplink

open SrtGateway.Store SrtGateway.Effect

/-- The fix with this id was in a POST that was answered 2xx. -/
def AcceptedIn (h : List (Event Call Answer)) (id : ℕ) : Prop :=
  ∃ fixes resp, ⟨.post fixes, .ok resp⟩ ∈ h ∧ (200 ≤ resp.status ∧ resp.status < 300) ∧
    ∃ f ∈ fixes, f.id = id

/-- The fix with this id was the only one of a POST that was answered with a status in
400..499 other than 429. -/
def RejectedAloneIn (h : List (Event Call Answer)) (id : ℕ) : Prop :=
  ∃ f resp, ⟨.post [f], .ok resp⟩ ∈ h ∧ f.id = id ∧
    (400 ≤ resp.status ∧ resp.status ≤ 499 ∧ resp.status ≠ 429)

def QuarantinedIn (h : List (Event Call Answer)) (id : ℕ) : Prop :=
  ∃ letter, ⟨.quarantine id letter, ()⟩ ∈ h

/-- The row was among those fetched at some time. -/
def FetchedIn (h : List (Event Call Answer)) (row : FixRow) : Prop :=
  ∃ (limit : ℕ) (rows : List FixRow), ⟨.getUnsynced limit, rows⟩ ∈ h ∧ row ∈ rows

/-- The calls that `run_once` may make after its fetch: it fetches no more, posts only rows
that were fetched, marks only fixes that were accepted or quarantined, and quarantines only
fixes that were rejected on their own. -/
def Allowed (h : List (Event Call Answer)) : Call → Prop
  | .getUnsynced _ => False
  | .post fixes => ∀ f ∈ fixes, ∃ row, FetchedIn h row ∧ f = rowToFix row
  | .markSynced ids => ∀ id ∈ ids, AcceptedIn h id ∨ QuarantinedIn h id
  | .quarantine id _ => RejectedAloneIn h id
  | _ => True

/-- The ids that a call marks. -/
def marksOf : Call → List ℕ
  | .markSynced ids => ids
  | .getUnsynced _ | .post _ | .getSyncCursor _ _ | .setSyncCursor _ _ | .quarantine _ _
  | .clock => []

/-- The id that a call quarantines. -/
def letterOf : Call → List ℕ
  | .quarantine id _ => [id]
  | .getUnsynced _ | .post _ | .getSyncCursor _ _ | .setSyncCursor _ _ | .markSynced _
  | .clock => []

lemma FetchedIn.mono {h h' : List (Event Call Answer)} (hle : h <+: h') {row : FixRow}
    (hrow : FetchedIn h row) : FetchedIn h' row := by
  obtain ⟨limit, rows, hmem, hrow⟩ := hrow
  exact ⟨limit, rows, hle.subset hmem, hrow⟩

lemma AcceptedIn.mono {h h' : List (Event Call Answer)} (hle : h <+: h') {id : ℕ}
    (hid : AcceptedIn h id) : AcceptedIn h' id := by
  obtain ⟨fixes, resp, hmem, hrest⟩ := hid
  exact ⟨fixes, resp, hle.subset hmem, hrest⟩

lemma RejectedAloneIn.mono {h h' : List (Event Call Answer)} (hle : h <+: h') {id : ℕ}
    (hid : RejectedAloneIn h id) : RejectedAloneIn h' id := by
  obtain ⟨f, resp, hmem, hrest⟩ := hid
  exact ⟨f, resp, hle.subset hmem, hrest⟩

end SrtGateway.Uplink
