/-
Calls that are not interrupted.

The system of `SrtGateway.Uplink.System`, in which each call on the store is one step, does nothing
that the system on the shared connection cannot do.  A run of it is a run there in which every
`insert_fix`, and every statement of the uplinker with its commit, goes through before another
thread goes on, and nothing raises but what cannot be bound (`atomic_run`).
-/
import SrtGateway.Store.Alone
import SrtGateway.Uplink.Shared

namespace SrtGateway.Uplink.Shared

open SrtGateway.Protocol SrtGateway.Store SrtGateway.Effect

/-! ### Programs -/

/-- Where nothing raises, the program does what `q` does. -/
def Mirrors (q : UplinkM (CloudUplinker × RunStats)) (p : Running) : Prop :=
  p.quiet = q >>= fun r => pure (.ok r.2, r.1)

lemma Mirrors.pure {up : CloudUplinker} {stats : RunStats} {p : Running}
    (h : Mirrors (.pure (up, stats)) p) : p = .pure (.ok stats, up) := by
  cases p with
  | pure r => exact congrArg Prog.pure (Prog.pure.inj h)
  | call => cases h

lemma Mirrors.call {c : Call} {next : Answer c → UplinkM (CloudUplinker × RunStats)} {p : Running}
    (h : Mirrors (.call c next) p) :
    ∃ next', p = .call c next' ∧ ∀ a, Mirrors (next a) (next' (.ok a)) := by
  cases p with
  | pure => cases h
  | call c' next' =>
    obtain ⟨rfl, hnext⟩ := Prog.call.inj h
    exact ⟨next', rfl, fun a => congrFun (eq_of_heq hnext) a⟩

lemma perform_of_not_write {c : Call} (h : accessOf c ≠ .write) (db : Db) (world : World) :
    (perform db world c).2 = db := by
  cases c with
  | markSynced ids =>
    have hids : ids = [] := by
      by_contra hne
      exact h (if_neg hne)
    simp [perform, Db.markSynced, hids]
  | setSyncCursor | quarantine => exact absurd rfl h
  | getUnsynced | post | getSyncCursor | clock => rfl

/-- What a statement changes makes no difference to its answer. -/
lemma perform_again {c : Call} (h : accessOf c = .write) (db db' : Db) (world : World) :
    (perform db' world c).1 = (perform db world c).1 := by
  cases c with
  | markSynced | setSyncCursor | quarantine => rfl
  | getUnsynced | post | getSyncCursor | clock => cases h

/-! ### Steps -/

/-- The states agree, and nobody is in the middle of a call. -/
structure Follows (s : Uplink.System) (s' : System) : Prop where
  durable : s'.conn.durable = s.db
  working : s'.conn.working = s.db
  lock : s'.conn.lock = none
  idle : (s'.conn.threads 1).pc = .idle
  todo : (s'.conn.threads 1).todo = []
  up : s'.up = s.up
  history : s'.history = s.history
  executed : s'.executed = false
  running : Option.Rel Mirrors s.running s'.running

lemma run_other (s : System) (n : ℕ) :
    Runs.run System.step s (List.replicate n (.other 0 false)) =
      { s with conn := s.conn.run (List.replicate n (1, false)) } := by
  induction n generalizing s with
  | zero => rfl
  | succ n ih => exact ih _

section

variable {s : Uplink.System} {s' : System} (h : Follows s s')

include h

lemma Follows.insert (u : Uplink) :
    ∃ steps, Follows (s.insert u) (Runs.run System.step s' steps) := by
  have hth : (s'.conn.give 1 (.insertFix u)).threads 1 =
      ⟨[.insertFix u], .idle, (s'.conn.threads 1).returned⟩ := by
    simp [Conn.give, h.idle, h.todo, Job.op]
  obtain ⟨n, hdurable, hworking, hlock, hidle, htodo⟩ :=
    settles_insertFix hth h.lock (h.working.trans h.durable.symm)
  have hdb : (s'.conn.give 1 (.insertFix u)).durable = s.db := h.durable
  rw [hdb] at hdurable hworking
  refine ⟨.give 0 (.insertFix u) :: List.replicate n (.other 0 false), ?_⟩
  rw [Runs.run_cons, run_other]
  exact ⟨hdurable, hworking, hlock, hidle, htodo, h.up, h.history, h.executed, h.running⟩

lemma Follows.start (batchSize : ℕ) :
    Follows (s.step (.start batchSize)) (s'.step (.start batchSize)) := by
  obtain ⟨hdurable, hworking, hlock, hidle, htodo, hup, hhistory, hexecuted, hrunning⟩ := h
  rw [Uplink.System.step, System.step]
  generalize hq : s.running = q at hrunning ⊢
  generalize hp : s'.running = p at hrunning ⊢
  cases hrunning with
  | some hmirrors =>
    refine ⟨hdurable, hworking, hlock, hidle, htodo, hup, hhistory, hexecuted, ?_⟩
    simp only [Option.isSome_some, if_pos]
    rw [hq, hp]
    exact .some hmirrors
  | none =>
    refine ⟨hdurable, hworking, hlock, hidle, htodo, hup, hhistory, hexecuted, .some ?_⟩
    rw [hup]
    exact Raising.quiet_runOnce batchSize s.up

lemma Follows.advance (world : World) :
    ∃ steps, Follows (s.advance world) (Runs.run System.step s' steps) := by
  obtain ⟨hdurable, hworking, hlock, hidle, htodo, hup, hhistory, hexecuted, hrunning⟩ := h
  rw [Uplink.System.advance]
  generalize hq : s.running = q at hrunning ⊢
  generalize hp : s'.running = p at hrunning
  cases hrunning with
  | none =>
    refine ⟨[], hdurable, hworking, hlock, hidle, htodo, hup, hhistory, hexecuted, ?_⟩
    rw [hq, Runs.run_nil, hp]
    exact .none
  | @some q p hmirrors =>
    rcases q with ⟨up, stats⟩ | ⟨c, next⟩
    · -- the call returns
      obtain rfl := hmirrors.pure
      refine ⟨[.advance world none], ?_⟩
      rw [Runs.run_cons, Runs.run_nil, System.step, System.advance, hp]
      exact ⟨hdurable, hworking, hlock, hidle, htodo, rfl, hhistory, hexecuted, .none⟩
    obtain ⟨next', rfl, hnext⟩ := hmirrors.call
    by_cases haccess : accessOf c = .write
    · -- the statement and its commit
      refine ⟨[.advance world none, .advance world none], ?_⟩
      have hexecute : s'.step (.advance world none) = s'.execute (perform s.db world c).2 := by
        simp only [System.step, System.advance, hp, haccess, hexecuted, hworking]
        rfl
      have hcommit : (s'.execute (perform s.db world c).2).step (.advance world none) =
          (s'.execute (perform s.db world c).2).commit.answer ⟨c, (perform s.db world c).1⟩
            (next' (.ok (perform s.db world c).1)) := by
        have hrun : (s'.execute (perform s.db world c).2).running = some (.call c next') := hp
        have hdone : (s'.execute (perform s.db world c).2).executed = true := rfl
        simp only [System.step, System.advance, hrun, haccess, hdone, if_true]
        rw [perform_again haccess s.db]
      rw [Runs.run_cons, Runs.run_cons, Runs.run_nil, hexecute, hcommit]
      exact ⟨rfl, rfl, hlock, hidle, htodo, hup, congrArg (· ++ _) hhistory, rfl,
        .some (hnext _)⟩
    · refine ⟨[.advance world none], ?_⟩
      have hanswer : s'.step (.advance world none) =
          s'.answer ⟨c, (perform s.db world c).1⟩ (next' (.ok (perform s.db world c).1)) := by
        simp only [System.step, System.advance, hp, hworking]
        cases hcase : accessOf c with
        | none => rfl
        | read => rfl
        | write => exact absurd hcase haccess
      have hdb : (perform s.db world c).2 = s.db := perform_of_not_write haccess _ _
      rw [Runs.run_cons, Runs.run_nil, hanswer]
      exact ⟨hdurable.trans hdb.symm, hworking.trans hdb.symm, hlock, hidle, htodo, hup,
        congrArg (· ++ _) hhistory, rfl, .some (hnext _)⟩

/-- **One step** of the atomic system is made of some of the shared one. -/
lemma Follows.step (st : Uplink.Step) :
    ∃ steps, Follows (s.step st) (Runs.run System.step s' steps) := by
  cases st with
  | insert u => exact h.insert u
  | start batchSize => exact ⟨[.start batchSize], h.start batchSize⟩
  | advance world => exact h.advance world
  | crash => exact ⟨[.restart], h.durable, h.durable, rfl, rfl, rfl, rfl, h.history, rfl, .none⟩

end

/-- **The atomic system does what the shared one can do.**  Every run of it is matched by a run on
the shared connection, at the end of which the tables are the same, durable and as the connection
sees them, and so are the answered calls, the health fields, and whether a call of `run_once` is
running. -/
theorem atomic_run (steps : List Uplink.Step) :
    ∃ steps', let s := Uplink.System.init.run steps
      let s' := System.run steps'
      s'.conn.durable = s.db ∧ s'.conn.working = s.db ∧ s'.history = s.history ∧ s'.up = s.up ∧
        (s'.running = none ↔ s.running = none) := by
  have hrun : ∃ steps', Follows (Uplink.System.init.run steps) (System.run steps') := by
    induction steps using List.reverseRecOn with
    | nil => exact ⟨[], rfl, rfl, rfl, rfl, rfl, rfl, rfl, rfl, .none⟩
    | append_singleton steps st ih =>
      obtain ⟨steps', ih⟩ := ih
      obtain ⟨more, hmore⟩ := ih.step st
      refine ⟨steps' ++ more, ?_⟩
      rw [Uplink.System.run, List.foldl_concat, System.run, Runs.run_append]
      exact hmore
  obtain ⟨steps', h⟩ := hrun
  refine ⟨steps', h.durable, h.working, h.history, h.up, ?_⟩
  have hrunning := h.running
  generalize (Uplink.System.init.run steps).running = q at hrunning ⊢
  generalize (System.run steps').running = p at hrunning ⊢
  cases hrunning <;> simp

end SrtGateway.Uplink.Shared
