/-
The gateway as a system: the ingest of fixes, the uplinker and the cloud, step by step.

A step inserts a fix, starts a call of `run_once`, lets the running call make its next step,
or kills the process.  Each operation on the store is one step, and the store survives a
crash; the cloud may answer anything.  What a run has done so far is kept in `history`,
`posted` and `created`, which no step reads.
-/
import SrtGateway.Uplink.Raising

namespace SrtGateway.Uplink

open SrtGateway.Protocol SrtGateway.Store SrtGateway.Effect

structure System where
  db : Db
  up : CloudUplinker
  /-- What is left of the running call of `run_once`. -/
  running : Option (UplinkM (CloudUplinker × RunStats))
  /-- The answered calls of all calls of `run_once` so far. -/
  history : List (Event Call Answer)
  /-- The bodies of all POSTs so far, answered or cut off by a crash. -/
  posted : List (List FixBody)
  /-- The uplinks for which `insert_fix` created a row, with the ids of the rows. -/
  created : List (ℕ × Uplink)

/-- A gateway that has never run. -/
def System.init : System :=
  { db := .empty, up := .new, running := none, history := [], posted := [], created := [] }

/-- What the surroundings have ready for a call: the outcome of a POST, and the time. -/
structure World where
  reply : Except PyErr Response
  now : ℚ

inductive Step where
  | insert (u : Uplink)
  | start (batchSize : ℕ)
  | advance (world : World)
  | crash

/-- The effect of a call on the store, and its answer. -/
def perform (db : Db) (world : World) : (c : Call) → Answer c × Db
  | .getUnsynced limit => (db.getUnsynced limit, db)
  | .post _ => (world.reply, db)
  | .markSynced ids => ((), db.markSynced ids)
  | .getSyncCursor key default => (db.getSyncCursor key default, db)
  | .setSyncCursor key value => ((), db.setSyncCursor key value)
  | .quarantine id letter => ((), db.quarantine id letter)
  | .clock => (world.now, db)

/-- The body that goes out with a call. -/
def bodyOf : Call → List (List FixBody)
  | .post fixes => [fixes]
  | _ => []

/-- The POST that a crash may cut off. -/
def inFlight : Option (UplinkM (CloudUplinker × RunStats)) → List (List FixBody)
  | some (.call c _) => bodyOf c
  | _ => []

def System.insert (s : System) (u : Uplink) : System :=
  let (outcome, db) := s.db.insertFix u
  { s with db := db,
           created := match outcome with
             | .ok true => s.created ++ [(s.db.nextId, u)]
             | _ => s.created }

def System.advance (s : System) (world : World) : System :=
  match s.running with
  | none => s
  | some (.pure (up, _)) => { s with up := up, running := none }
  | some (.call c next) =>
    let (answer, db) := perform s.db world c
    { s with db := db, running := some (next answer), history := s.history ++ [⟨c, answer⟩],
             posted := s.posted ++ bodyOf c }

def System.step (s : System) : Step → System
  | .insert u => s.insert u
  | .start batchSize =>
    if s.running.isSome then s else { s with running := some (runOnce s.up batchSize) }
  | .advance world => s.advance world
  | .crash =>
    { s with up := .new, running := none, posted := s.posted ++ inFlight s.running }

/-- The system after some steps. -/
def System.run (s : System) (steps : List Step) : System := steps.foldl System.step s

/-! ### The running call -/

/-- A program that makes only allowed calls. -/
abbrev Obeys {α : Type} (h : List (Event Call Answer)) (p : UplinkM α) : Prop :=
  p.Meets Allowed (fun _ _ => True) h

/-- **After its fetch `run_once` makes only allowed calls**, whatever came before and whatever
the answers are: it does what it does where its calls might raise. -/
lemma runBatch_obeys {h : List (Event Call Answer)} (up : CloudUplinker) {rows : List FixRow}
    (hrows : ∀ row ∈ rows, FetchedIn h row) : Obeys h (runBatch up rows) := by
  have hquiet := (Raising.runBatch_obeys hrows).quiet up
  rw [Raising.quiet_runBatch] at hquiet
  exact hquiet.of_bind

/-- The running call of `run_once` is at its start, or makes only allowed calls. -/
def RunningOk (s : System) : Prop :=
  ∀ p, s.running = some p → (∃ up batchSize, p = runOnce up batchSize) ∨ Obeys s.history p

/-- What the next call of a running `run_once` can be: the fetch, or an allowed one. -/
lemma RunningOk.call {s : System} (h : RunningOk s) {c : Call}
    {next : Answer c → UplinkM (CloudUplinker × RunStats)}
    (hrun : s.running = some (.call c next)) :
    (∃ up batchSize, (.call c next : UplinkM _) = runOnce up batchSize) ∨
      Allowed s.history c ∧ ∀ a, Obeys (s.history ++ [⟨c, a⟩]) (next a) :=
  h _ hrun

lemma RunningOk.step {s : System} (h : RunningOk s) (st : Step) : RunningOk (s.step st) := by
  cases st with
  | insert u => exact h
  | start batchSize =>
    rw [System.step]
    split
    · exact h
    · rintro p ⟨⟩
      exact .inl ⟨s.up, batchSize, rfl⟩
  | advance world =>
    rw [System.step, System.advance]
    rcases hrun : s.running with _ | ⟨⟨up, stats⟩⟩ | ⟨c, next⟩
    · exact h
    · rintro p ⟨⟩
    · rintro p ⟨⟩
      right
      rcases h.call hrun with ⟨up, batchSize, hstart⟩ | ⟨-, hnext⟩
      · -- the rows that were just fetched
        cases hstart
        exact runBatch_obeys up fun row hrow => ⟨batchSize, _, by simp [perform], hrow⟩
      · exact hnext _
  | crash => rintro p ⟨⟩

end SrtGateway.Uplink
