/-
An operation while no other thread is in the middle of one.

Its statements run on the shared connection as in `SrtGateway.Store.Connection`, and any of
the calls of an `insert_fix` may be made to raise.  Then nothing but the thread's own writes is
ever in the open transaction, every rollback is clean, and the operation either takes effect as
a whole or, having raised, leaves the tables as they were (`attempt_cases`).  Where none is made to
raise, an `insert_fix` beside threads that do not go on does what `Db.insertFix` does
(`settles_insertFix`).
-/
import SrtGateway.Store.Atomicity

namespace SrtGateway.Store

open SrtGateway.Protocol

/-! ### Attempts -/

/-- An operation, and which of its calls are made to raise. -/
structure Attempt where
  op : Op
  raises : ℕ → Bool

/-- The connection after thread 0 has carried out the operation, alone; the longest way,
an `insert_fix` whose commit raises, takes 8 steps. -/
def Conn.alone (db : Db) (a : Attempt) : Conn :=
  (Conn.start db fun t => if t = 0 then [a.op] else []).run
    ((List.range 8).map fun i => (0, a.raises i))

/-- The tables after the operation. -/
def Db.attempt (db : Db) (a : Attempt) : Db := (Conn.alone db a).durable

/-- The fix that the operation has stored: that of an `insert_fix` that has returned `True`. -/
def Db.storedBy (db : Db) (a : Attempt) : Option Uplink :=
  match a.op, ((Conn.alone db a).threads 0).returned with
  | .insertFix u, _ :: _ =>
    match (db.insertFix u).1 with
    | .ok true => some u
    | _ => none
  | _, _ => none

/-! ### What stays so while a thread runs alone -/

/-- The writes that a thread has made in the open transaction. -/
def Pc.pending : Pc → ℕ
  | .written _ => 1
  | .retired _ => 1
  | .inserted _ writes => writes
  | .summarised _ writes => writes
  | .failed _ writes => writes
  | _ => 0

/-- The operation that a thread is in the middle of. -/
def Pc.current : Pc → Option Op
  | .idle => none
  | .written w => some (.write w)
  | .locked u | .selected u _ | .retired u | .inserted u _ | .summarised u _ | .committed u
  | .failed u _ | .rolledBack u => some (.insertFix u)

/-- A bound on the steps that the current operation still takes. -/
def Pc.left : Pc → ℕ
  | .idle => 0
  | .written _ => 1
  | .locked _ => 7
  | .selected _ _ => 6
  | .retired _ => 5
  | .inserted _ _ => 4
  | .summarised _ _ => 3
  | .committed _ => 1
  | .failed _ _ => 2
  | .rolledBack _ => 1

/-- How far the thread has come with its one operation. -/
inductive Progress (op : Op) : Thread → Prop where
  | waiting : Progress op ⟨[op], .idle, []⟩
  | under {pc : Pc} (current : pc.current = some op) : Progress op ⟨[], pc, []⟩
  | returned : Progress op ⟨[], .idle, [op]⟩
  | raised (u : Uplink) (insert : op = .insertFix u) : Progress op ⟨[], .idle, []⟩

/-- Thread 0 is the only one that has anything to do. -/
structure Alone (op : Op) (s : Conn) : Prop where
  others : ∀ t ≠ 0, s.threads t = ⟨[], .idle, []⟩
  txn : s.txn = List.replicate (s.threads 0).pc.pending 0
  lock : (∀ u, (s.threads 0).pc.current ≠ some (.insertFix u)) → s.lock = none
  progress : Progress op (s.threads 0)

/-- The steps that the thread still takes. -/
def Thread.left (th : Thread) : ℕ := 8 * th.todo.length + th.pc.left

variable {op : Op} {s s' : Conn}

/-- What is to be shown when a step takes the thread to `th`. -/
lemma Alone.update {th : Thread} (h : Alone op s)
    (hthreads : s'.threads = Function.update s.threads 0 th)
    (htxn : s'.txn = List.replicate th.pc.pending 0)
    (hlock : (∀ u, th.pc.current ≠ some (.insertFix u)) → s'.lock = none)
    (hprogress : Progress op th) : Alone op s' := by
  have hself : s'.threads 0 = th := by rw [hthreads, Function.update_self]
  refine ⟨fun t ht => ?_, ?_, ?_, ?_⟩
  · rw [hthreads, Function.update_of_ne ht, h.others t ht]
  · rw [hself, htxn]
  · rwa [hself]
  · rwa [hself]

/-- What one step makes of the connection. -/
def Advances (op : Op) (s s' : Conn) : Prop :=
  Alone op s' ∧ (s'.threads 0).left ≤ (s.threads 0).left - 1

/-- The thread goes on within its `insert_fix`. -/
lemma Alone.go {pc pc' : Pc} {u : Uplink} (h : Alone (.insertFix u) s)
    (hth : s.threads 0 = ⟨[], pc, []⟩) (hcurrent : pc'.current = some (.insertFix u))
    (hleft : pc'.left < pc.left) (hthreads : s'.threads = Function.update s.threads 0 ⟨[], pc', []⟩)
    (htxn : s'.txn = List.replicate pc'.pending 0) : Advances (.insertFix u) s s' := by
  refine ⟨h.update hthreads htxn (fun hfree => absurd hcurrent (hfree u)) (.under hcurrent), ?_⟩
  rw [hthreads, hth, Function.update_self]
  simp only [Thread.left, List.length_nil]
  omega

/-- The thread is done. -/
lemma Alone.finish {done : List Op} (h : Alone op s) (hprogress : Progress op ⟨[], .idle, done⟩)
    (hthreads : s'.threads = Function.update s.threads 0 ⟨[], .idle, done⟩)
    (htxn : s'.txn = []) (hlock : s'.lock = none) : Advances op s s' := by
  refine ⟨h.update hthreads htxn (fun _ => hlock) hprogress, ?_⟩
  rw [hthreads, Function.update_self]
  simp [Thread.left, Pc.left]

lemma Alone.goto {pc pc' : Pc} {u : Uplink} (h : Alone (.insertFix u) s)
    (hth : s.threads 0 = ⟨[], pc, []⟩) (hcurrent : pc'.current = some (.insertFix u))
    (hleft : pc'.left < pc.left) (hpending : pc'.pending = pc.pending) :
    Advances (.insertFix u) s (s.goto 0 pc') := by
  refine h.go hth hcurrent hleft ?_ ?_
  · rw [Conn.goto, hth]
  · rw [hpending]
    exact h.txn.trans (by rw [hth])

/-- A statement of an `insert_fix`. -/
lemma Alone.insertWrite {pc next : Pc} {u : Uplink} (h : Alone (.insertFix u) s)
    (hth : s.threads 0 = ⟨[], pc, []⟩) (raises : Bool) (result : Except PyErr Db)
    (hcurrent : next.current = some (.insertFix u)) (hleft : next.left < pc.left)
    (hfail : 2 < pc.left) (hpending : next.pending = pc.pending + 1) :
    Advances (.insertFix u) s (s.insertWrite 0 u pc.pending raises result next) := by
  have hfailed : Advances (.insertFix u) s (s.goto 0 (.failed u pc.pending)) :=
    h.goto hth rfl hfail rfl
  unfold Conn.insertWrite
  split
  · refine h.go hth hcurrent hleft ?_ ?_
    · rw [Conn.goto, Conn.write, hth]
    · rw [hpending, List.replicate_succ', ← show s.txn = List.replicate pc.pending 0 from
        h.txn.trans (by rw [hth])]
      rfl
  · exact hfailed

lemma Alone.begin_ (h : Alone op s) (hth : s.threads 0 = ⟨[op], .idle, []⟩) :
    Advances op s (s.begin_ 0) := by
  have hlock : s.lock = none := h.lock (by simp [hth, Pc.current])
  have htxn : s.txn = [] := h.txn.trans (by rw [hth]; rfl)
  unfold Conn.begin_
  rw [hth]
  cases op with
  | insertFix u =>
    dsimp only
    rw [if_pos hlock]
    refine ⟨h.update rfl htxn (fun hfree => absurd rfl (hfree u)) (.under rfl), ?_⟩
    simp [hth, Thread.left, Pc.left]
  | write w =>
    dsimp only
    split
    · refine ⟨h.update rfl htxn (fun _ => hlock) .returned, ?_⟩
      simp [hth, Thread.left, Pc.left]
    · refine ⟨h.update rfl ?_ (fun _ => hlock) (.under rfl), ?_⟩
      · simp [Conn.write, htxn, Pc.pending]
      · simp [hth, Thread.left, Pc.left]

lemma Alone.step_under {pc : Pc} (h : Alone op s) (hth : s.threads 0 = ⟨[], pc, []⟩)
    (hcurrent : pc.current = some op) (raises : Bool) : Advances op s (s.step 0 raises) := by
  unfold Conn.step
  rw [hth]
  cases pc with
  | idle => simp [Pc.current] at hcurrent
  | written w =>
    obtain rfl := Option.some.inj hcurrent
    refine h.finish .returned ?_ rfl ?_
    · simp [Conn.return_, Conn.commit, hth]
    · exact h.lock (by simp [hth, Pc.current])
  | locked u =>
    obtain rfl := Option.some.inj hcurrent
    dsimp only
    split
    · exact h.goto hth rfl (by simp [Pc.left]) rfl
    · exact h.goto hth rfl (by simp [Pc.left]) rfl
  | selected u slot =>
    obtain rfl := Option.some.inj hcurrent
    cases slot with
    | none => exact h.insertWrite hth raises _ rfl (by simp [Pc.left]) (by simp [Pc.left]) rfl
    | some row =>
      dsimp only
      split
      · exact h.insertWrite hth raises _ rfl (by simp [Pc.left]) (by simp [Pc.left]) rfl
      · exact h.insertWrite hth raises _ rfl (by simp [Pc.left]) (by simp [Pc.left]) rfl
  | retired u =>
    obtain rfl := Option.some.inj hcurrent
    exact h.insertWrite hth raises _ rfl (by simp [Pc.left]) (by simp [Pc.left]) rfl
  | inserted u writes =>
    obtain rfl := Option.some.inj hcurrent
    exact h.insertWrite hth raises _ rfl (by simp [Pc.left]) (by simp [Pc.left]) rfl
  | summarised u writes =>
    obtain rfl := Option.some.inj hcurrent
    dsimp only
    split
    · exact h.goto hth rfl (by simp [Pc.left]) rfl
    · refine h.go hth (show (Pc.committed u).current = _ from rfl) (by simp [Pc.left]) ?_ rfl
      simp [Conn.goto, Conn.commit, hth]
  | committed u =>
    obtain rfl := Option.some.inj hcurrent
    refine h.finish .returned ?_ ?_ rfl
    · simp [Conn.return_, hth]
    · exact h.txn.trans (by rw [hth]; rfl)
  | failed u writes =>
    obtain rfl := Option.some.inj hcurrent
    refine h.go hth (show (Pc.rolledBack u).current = _ from rfl) (by simp [Pc.left]) ?_ rfl
    simp [Conn.goto, Conn.rollback, hth]
  | rolledBack u =>
    obtain rfl := Option.some.inj hcurrent
    refine h.finish (.raised u rfl) ?_ ?_ rfl
    · simp [Conn.goto, hth]
    · exact h.txn.trans (by rw [hth]; rfl)

lemma Alone.step (h : Alone op s) (raises : Bool) : Advances op s (s.step 0 raises) := by
  have hdone : ∀ done, s.threads 0 = ⟨[], .idle, done⟩ → Advances op s (s.step 0 raises) := by
    intro done hth
    have hstay : s.step 0 raises = s := by simp [Conn.step, Conn.begin_, hth]
    rw [hstay]
    exact ⟨h, by simp [hth, Thread.left, Pc.left]⟩
  have hprogress := h.progress
  generalize hth : s.threads 0 = th at hprogress
  cases hprogress with
  | waiting =>
    have hbegin : s.step 0 raises = s.begin_ 0 := by simp only [Conn.step, hth]
    rw [hbegin]
    exact h.begin_ hth
  | under hcurrent => exact h.step_under hth hcurrent raises
  | returned => exact hdone _ hth
  | raised u hinsert => exact hdone _ hth

/-- The rollback of a thread that runs alone discards what it has written. -/
lemma Alone.cleanRollback (h : Alone op s) : CleanRollback s 0 := by
  intro u writes hpc
  rw [h.txn, hpc]
  rfl

lemma Alone.run (h : Alone op s) (raises : List Bool) :
    Alone op (s.run (raises.map fun x => (0, x))) ∧
      CleanRollbacks s (raises.map fun x => (0, x)) ∧
      ((s.run (raises.map fun x => (0, x))).threads 0).left ≤
        (s.threads 0).left - raises.length := by
  induction raises generalizing s with
  | nil => exact ⟨h, trivial, le_rfl⟩
  | cons x raises ih =>
    obtain ⟨hnext, hleft⟩ := h.step x
    obtain ⟨hrun, hclean, hlast⟩ := ih hnext
    refine ⟨hrun, ⟨h.cleanRollback, hclean⟩, hlast.trans ?_⟩
    rw [List.length_cons]
    omega

/-! ### Whole attempts -/

lemma replay_eq (db : Db) (order : List (ℕ × Op)) :
    replay db order = (order.map Prod.snd).foldl Op.apply db := by
  rw [replay, List.foldl_map]

/-- An attempt takes effect as a whole and has returned; or an `insert_fix` has raised, and
there is no effect. -/
inductive AttemptCase (db : Db) (a : Attempt) : List Op → Db → Prop where
  | returned : AttemptCase db a [a.op] (a.op.apply db)
  | raised (u : Uplink) (insert : a.op = .insertFix u) : AttemptCase db a [] db

lemma attempt_cases (db : Db) (a : Attempt) :
    AttemptCase db a ((Conn.alone db a).threads 0).returned (db.attempt a) := by
  set todo : ℕ → List Op := fun t => if t = 0 then [a.op] else []
  have hschedule : (List.range 8).map (fun i => (0, a.raises i)) =
      ((List.range 8).map a.raises).map fun x => ((0 : ℕ), x) := by
    rw [List.map_map]
    rfl
  have hstart : Alone a.op (.start db todo) :=
    ⟨fun t ht => by simp [Conn.start, todo, ht], rfl, fun _ => rfl, .waiting⟩
  obtain ⟨hrun, hclean, hleft⟩ := hstart.run ((List.range 8).map a.raises)
  rw [← hschedule] at hrun hclean hleft
  change Alone a.op (Conn.alone db a) at hrun
  replace hleft : ((Conn.alone db a).threads 0).left = 0 := Nat.le_zero.mp hleft
  have hsound : Sound db (Conn.alone db a) :=
    Sound.run (.inl ⟨[], .start db todo⟩) hclean
  have hdurable : ∀ done, (Conn.alone db a).threads 0 = ⟨[], .idle, done⟩ →
      db.attempt a = done.foldl Op.apply db := by
    intro done hth
    obtain ⟨order, hops, hdurable⟩ := hsound.serializable fun t => by
      by_cases ht : t = 0
      · rw [ht, hth]
        exact ⟨rfl, rfl⟩
      · rw [hrun.others t ht]
        exact ⟨rfl, rfl⟩
    have hmap := map_snd_eq_opsOf (t := 0) fun t ht => by rw [hops t, hrun.others t ht]
    rw [Db.attempt, hdurable, replay_eq, hmap, hops 0, hth]
  have hprogress := hrun.progress
  generalize hth : (Conn.alone db a).threads 0 = th at hprogress hleft ⊢
  cases hprogress with
  | waiting => simp [Thread.left] at hleft
  | @under pc hcurrent =>
    -- within an operation there are steps left
    cases pc with
    | idle => exact absurd hcurrent (by simp [Pc.current])
    | _ => simp [Thread.left, Pc.left] at hleft
  | returned =>
    rw [hdurable _ hth]
    exact .returned
  | raised u hinsert =>
    rw [hdurable _ hth]
    exact .raised u hinsert

/-! ### Beside other threads -/

/-- When the thread goes on and no other does, it comes to be idle, with these tables and the lock
free. -/
def Settles (t : ℕ) (s : Conn) (db : Db) : Prop :=
  ∃ n, let s' := s.run (List.replicate n (t, false))
    s'.durable = db ∧ s'.working = db ∧ s'.lock = none ∧
      (s'.threads t).pc = .idle ∧ (s'.threads t).todo = []

section

variable {t : ℕ} {s : Conn} {db : Db} {u : Uplink} {done : List Op} {k : ℕ}

lemma Settles.of_step {s' : Conn} (h : Settles t s' db) (hstep : s.step t false = s') :
    Settles t s db := by
  subst hstep
  obtain ⟨n, h⟩ := h
  exact ⟨n + 1, h⟩

lemma threads_goto {pc : Pc} (next : Pc) (hth : s.threads t = ⟨[], pc, done⟩) :
    (s.goto t next).threads t = ⟨[], next, done⟩ := by
  simp [Conn.goto, hth]

lemma settles_failed (hth : s.threads t = ⟨[], .failed u k, done⟩) : Settles t s s.durable := by
  refine ⟨2, ?_⟩
  simp [List.replicate, Conn.run, Conn.step, hth, Conn.goto, Conn.rollback]

lemma settles_summarised (hth : s.threads t = ⟨[], .summarised u k, done⟩) :
    Settles t s s.working := by
  refine ⟨2, ?_⟩
  simp [List.replicate, Conn.run, Conn.step, hth, Conn.goto, Conn.commit, Conn.return_]

/-- A statement raises, or the thread goes on to what settles. -/
lemma settles_insertWrite {pc next : Pc} (result : Except PyErr Db) (rest : Db → Except PyErr Db)
    (u : Uplink) (k : ℕ) (hth : s.threads t = ⟨[], pc, done⟩)
    (hnext : ∀ db, Settles t ((s.write t db).goto t next) ((rest db).toOption.getD s.durable)) :
    Settles t (s.insertWrite t u k false result next)
      ((result >>= rest).toOption.getD s.durable) := by
  cases result with
  | ok db => exact hnext db
  | error x =>
    have hfailed := settles_failed (threads_goto (.failed u k) hth)
    exact hfailed

/-- The upsert of the node, which is the last statement. -/
lemma settles_upsert {pc : Pc} (u : Uplink) (k : ℕ) (hth : s.threads t = ⟨[], pc, done⟩) (db : Db) :
    Settles t (s.insertWrite t u k false (db.upsertNodeFromFix u) (.summarised u (k + 1)))
      ((db.upsertNodeFromFix u).toOption.getD s.durable) := by
  have h := settles_insertWrite (db.upsertNodeFromFix u) .ok u k hth fun db =>
    settles_summarised (threads_goto (s := s.write t db) (.summarised u (k + 1)) hth)
  rwa [show (db.upsertNodeFromFix u >>= Except.ok) = db.upsertNodeFromFix u from bind_pure _] at h

lemma settles_inserted (hth : s.threads t = ⟨[], .inserted u k, done⟩) :
    Settles t s ((s.working.upsertNodeFromFix u).toOption.getD s.durable) :=
  (settles_upsert u k hth s.working).of_step (by simp only [Conn.step, hth])

lemma settles_retired (hth : s.threads t = ⟨[], .retired u, done⟩) :
    Settles t s ((s.working.insertRow u >>= (·.upsertNodeFromFix u)).toOption.getD s.durable) := by
  have h := settles_insertWrite (s.working.insertRow u) (·.upsertNodeFromFix u) u 1 hth
    fun db => settles_inserted (threads_goto (s := s.write t db) (.inserted u 2) hth)
  exact h.of_step (by simp only [Conn.step, hth])

lemma settles_selected {slot : Option FixRow} (hth : s.threads t = ⟨[], .selected u slot, done⟩)
    (hslot : s.working.selectSlot u.nodeId u.sequence = slot) :
    Settles t s ((s.working.insertUnlessResend u >>= (·.2.upsertNodeFromFix u)).toOption.getD
      s.durable) := by
  rw [Db.insertUnlessResend, hslot]
  cases slot with
  | none =>
    have h : Settles t (s.insertWrite t u 0 false ((s.working.insertOrIgnore u).map Prod.snd)
        (.inserted u 1)) (((s.working.insertOrIgnore u).map Prod.snd >>=
          (·.upsertNodeFromFix u)).toOption.getD s.durable) :=
      settles_insertWrite _ _ u 0 hth
        fun db => settles_inserted (threads_goto (s := s.write t db) _ hth)
    have hstep := h.of_step (s := s) (by simp only [Conn.step, hth])
    cases hinsert : s.working.insertOrIgnore u <;> rw [hinsert] at hstep <;> exact hstep
  | some row =>
    dsimp only
    split_ifs with hresend
    · have h := settles_upsert u 0 hth s.working
      exact h.of_step (by simp only [Conn.step, hth, if_pos hresend])
    · have h : Settles t (s.insertWrite t u 0 false (.ok (s.working.retire row.id)) (.retired u))
          (((s.working.retire row.id).insertRow u >>= (·.upsertNodeFromFix u)).toOption.getD
            s.durable) :=
        settles_insertWrite _ (fun db => db.insertRow u >>= (·.upsertNodeFromFix u)) u 0 hth
          fun db => settles_retired (threads_goto (s := s.write t db) _ hth)
      have hstep := h.of_step (s := s) (by simp only [Conn.step, hth, if_neg hresend])
      cases hinsert : (s.working.retire row.id).insertRow u <;> rw [hinsert] at hstep <;>
        exact hstep

/-- What `insert_fix` leaves: the tables after its statements, or what it found. -/
lemma insertFix_snd (db : Db) (u : Uplink) : (db.insertFix u).2 =
    ((bindParams [u.nodeId, u.sequence] >>= fun _ =>
      db.insertUnlessResend u >>= (·.2.upsertNodeFromFix u)).toOption.getD db) := by
  rw [Db.insertFix, Db.insertFixBody]
  cases bindParams [u.nodeId, u.sequence] with
  | error x => rfl
  | ok =>
    rcases db.insertUnlessResend u with x | ⟨inserted, db'⟩
    · rfl
    · simp only [bind, Except.bind]
      cases db'.upsertNodeFromFix u <;> rfl

/-- **An `insert_fix` that is not interrupted** does what `Db.insertFix` does. -/
lemma settles_insertFix (hth : s.threads t = ⟨[.insertFix u], .idle, done⟩)
    (hlock : s.lock = none) (hsame : s.working = s.durable) :
    Settles t s (s.durable.insertFix u).2 := by
  have hlocked : ∀ s' : Conn, s'.threads t = ⟨[], .locked u, done⟩ →
      Settles t s' ((bindParams [u.nodeId, u.sequence] >>= fun _ =>
        s'.working.insertUnlessResend u >>= (·.2.upsertNodeFromFix u)).toOption.getD
          s'.durable) := by
    intro s' hth'
    cases hbind : bindParams [u.nodeId, u.sequence] with
    | ok =>
      have h := settles_selected (s := s'.goto t (.selected u (s'.working.selectSlot _ _)))
        (threads_goto _ hth') rfl
      exact h.of_step (by simp only [Conn.step, hth', hbind])
    | error x =>
      have h := settles_failed (threads_goto (.failed u 0) hth')
      exact h.of_step (by simp only [Conn.step, hth', hbind])
  have h := hlocked _ (show (s.begin_ t).threads t = ⟨[], .locked u, done⟩ by
    simp [Conn.begin_, hth, hlock])
  have hbegin : (s.begin_ t).working = s.durable ∧ (s.begin_ t).durable = s.durable := by
    simp [Conn.begin_, hth, hlock, hsame]
  rw [hbegin.1, hbegin.2] at h
  rw [insertFix_snd]
  exact h.of_step (by simp only [Conn.step, hth])

end

end SrtGateway.Store
