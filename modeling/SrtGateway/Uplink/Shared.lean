/-
The uplinker on the shared connection.

All threads execute their statements on one connection, and what one of them commits or rolls back
is of all.  Here `run_once` takes its steps between those of the threads that insert fixes, mirror
races and record fingerprints: each statement of it is a step, and so is each commit.  Any call of
`insert_fix` may raise, and is rolled back then; any call of `run_once` on the store may raise, an
`executemany` after any number of its rows, and the process may end after any step.  Mirroring
and recording do not raise.

Whatever happens, nothing durable is lost, and a fix that a rollback puts back into the queue is
posted again.  A rollback costs a fix only if it takes away a letter before its commit, or a row
that the running `run_once` has fetched.  As long as no rollback does, every fix that is durably out
of the queue was accepted, or rejected on its own and has a durable letter (`zero_loss_shared`).

`upsert_node`, which is left out, is like `upsert_race` a statement on another table and a commit.
-/
import SrtGateway.Runs.Simulation
import SrtGateway.Store.Layers
import SrtGateway.Uplink.Received

namespace SrtGateway.Uplink.Shared

open SrtGateway.Protocol SrtGateway.Store SrtGateway.Effect

/-! ### The system -/

/-- What is left of a call of `run_once`, whose calls may raise. -/
abbrev Running : Type :=
  Prog Call (Outcome Answer PyErr) (Except PyErr RunStats × CloudUplinker)

structure System where
  conn : Conn
  up : CloudUplinker
  running : Option Running
  /-- The statement of the next call has been executed, and is to be committed. -/
  executed : Bool
  /-- The answered calls of the running call of `run_once`. -/
  current : List (Event Call Answer)
  /-- The answered calls of all calls of `run_once` so far. -/
  history : List (Event Call Answer)

/-- A new process over the durable tables.  The uplinker is thread 0 of the connection, and its
program is `running`. -/
def System.boot (db : Db) (history : List (Event Call Answer)) : System :=
  { conn := .start db fun _ => []
    up := .new
    running := none
    executed := false
    current := []
    history := history }

/-- A call of the uplinker raises; `executemany` has changed some rows by then. -/
structure Fault where
  x : PyErr
  done : ℕ

inductive Step where
  /-- `run_once` is called. -/
  | start (batchSize : ℕ)
  /-- The running `run_once` executes its next statement, or commits it, or makes its next call
  of another kind; or this raises. -/
  | advance (world : World) (fault : Option Fault)
  /-- Another thread gets something to do. -/
  | give (t : ℕ) (job : Job)
  /-- Another thread makes its next call. -/
  | other (t : ℕ) (raises : Bool)
  /-- The process ends, and a new one starts. -/
  | restart

/-- What a call needs the connection for. -/
inductive Access where
  | none
  | read
  | write
deriving DecidableEq

/-- `mark_synced` of no ids returns at once. -/
def accessOf : Call → Access
  | .post _ | .clock => .none
  | .getUnsynced _ | .getSyncCursor _ _ => .read
  | .markSynced ids => if ids = [] then .none else .write
  | .setSyncCursor _ _ | .quarantine _ _ => .write

/-- The tables after a statement that raises: `executemany` has marked the first ids. -/
def partly (db : Db) (done : ℕ) : Call → Db
  | .markSynced ids => db.markSynced (ids.take done)
  | _ => db

/-- The call is answered, and the running `run_once` goes on. -/
def System.answer (s : System) (e : Event Call Answer) (next : Running) : System :=
  { s with running := some next, executed := false, current := s.current ++ [e],
           history := s.history ++ [e] }

/-- The call raises, and the running `run_once` goes on from there. -/
def System.raise (s : System) (next : Running) : System :=
  { s with running := some next, executed := false }

def System.write (s : System) (db : Db) : System := { s with conn := s.conn.write 0 db }

/-- The statement is executed. -/
def System.execute (s : System) (db : Db) : System := { s.write db with executed := true }

def System.commit (s : System) : System := { s with conn := s.conn.commit }

/-- One step of the running `run_once`; after what it raises, the driver calls it again. -/
def System.advance (s : System) (world : World) (fault : Option Fault) : System :=
  match s.running with
  | none => s
  | some (.pure (_, up)) => { s with up := up, running := none, current := [] }
  | some (.call c next) =>
    let (answer, db) := perform s.conn.working world c
    match accessOf c, fault with
    | .none, _ | .read, none => s.answer ⟨c, answer⟩ (next (.ok answer))
    | .read, some f => s.raise (next (.error f.x))
    | .write, none =>
      if s.executed then s.commit.answer ⟨c, answer⟩ (next (.ok answer))
      else s.execute db
    | .write, some f =>
      -- no rollback: what the statement has changed stays in the open transaction
      if s.executed then s.raise (next (.error f.x))
      else (s.write (partly s.conn.working f.done c)).raise (next (.error f.x))

def System.step (s : System) : Step → System
  | .start batchSize =>
    if s.running.isSome then s else { s with running := some (Raising.runOnce batchSize s.up) }
  | .advance world fault => s.advance world fault
  | .give t job => { s with conn := s.conn.give (t + 1) job }
  | .other t raises => { s with conn := s.conn.step (t + 1) raises }
  | .restart => .boot s.conn.durable s.history

/-- A system that has never run. -/
def System.init : System := .boot .empty []

def System.run (steps : List Step) : System := Runs.run System.step .init steps

/-! ### What is kept on record -/

/-- The body says what is in the row, but for its `seq`. -/
def Shows (f : FixBody) (r : FixRow) : Prop := { f with seq := none } = rowToFix r.lasting

/-- The fix was in a POST that was answered 2xx. -/
def Accepted (h : List (Event Call Answer)) (r : FixRow) : Prop :=
  ∃ fixes resp, ⟨.post fixes, .ok resp⟩ ∈ h ∧ (200 ≤ resp.status ∧ resp.status < 300) ∧
    ∃ f ∈ fixes, Shows f r

/-- The fix was the only one of a POST that was answered with a status in 400..499 other
than 429. -/
def RejectedAlone (h : List (Event Call Answer)) (r : FixRow) : Prop :=
  ∃ f resp, ⟨.post [f], .ok resp⟩ ∈ h ∧ Shows f r ∧
    (400 ≤ resp.status ∧ resp.status ≤ 499 ∧ resp.status ≠ 429)

/-- Why a fix may be out of the queue: it was accepted, or it was rejected on its own and has
a letter in `d`. -/
def Reason (h : List (Event Call Answer)) (d : Db) (r : FixRow) : Prop :=
  Accepted h r ∨ RejectedAlone h r ∧ (d.deadLetter r.id).isSome

/-- The fixes that are out of the queue have a reason, and so have the letters. -/
structure Accounted (h : List (Event Call Answer)) (d db : Db) : Prop where
  synced : ∀ r ∈ db.fixes, r.synced = true → Reason h d r
  dead : ∀ id, (db.deadLetter id).isSome → ∃ r ∈ db.fixes, r.id = id ∧ RejectedAlone h r

lemma shows_of_lasting {row r : FixRow} (h : r.lasting = row.lasting) : Shows (rowToFix row) r := by
  rw [Shows, h]
  rfl

section

variable {h h' : List (Event Call Answer)} {d d' db db' : Db} {r r' : FixRow}

lemma Accepted.congr (hr : Accepted h r) (hlasting : r'.lasting = r.lasting) : Accepted h r' := by
  obtain ⟨fixes, resp, hmem, hstatus, f, hf, hshows⟩ := hr
  exact ⟨fixes, resp, hmem, hstatus, f, hf, by rwa [Shows, hlasting]⟩

lemma RejectedAlone.congr (hr : RejectedAlone h r) (hlasting : r'.lasting = r.lasting) :
    RejectedAlone h r' := by
  obtain ⟨f, resp, hmem, hshows, hstatus⟩ := hr
  exact ⟨f, resp, hmem, by rwa [Shows, hlasting], hstatus⟩

lemma Reason.congr (hr : Reason h d r) (hlasting : r'.lasting = r.lasting) : Reason h d r' := by
  refine hr.imp (·.congr hlasting) fun ⟨hrejected, hletter⟩ => ⟨hrejected.congr hlasting, ?_⟩
  rwa [FixRow.id_of_lasting hlasting]

lemma Accepted.mono (hr : Accepted h r) (hle : h ⊆ h') : Accepted h' r := by
  obtain ⟨fixes, resp, hmem, hrest⟩ := hr
  exact ⟨fixes, resp, hle hmem, hrest⟩

lemma RejectedAlone.mono (hr : RejectedAlone h r) (hle : h ⊆ h') : RejectedAlone h' r := by
  obtain ⟨f, resp, hmem, hrest⟩ := hr
  exact ⟨f, resp, hle hmem, hrest⟩

/-- Reasons stay when the history and the letters grow. -/
lemma Accounted.mono (ha : Accounted h d db) (hle : h ⊆ h') (hgrows : Grows d d') :
    Accounted h' d' db where
  synced r hr hsynced := (ha.synced r hr hsynced).imp (·.mono hle)
    fun ⟨hrejected, hletter⟩ => ⟨hrejected.mono hle, hgrows.letters _ hletter⟩
  dead id hid := by
    obtain ⟨r, hr, hid, hrejected⟩ := ha.dead id hid
    exact ⟨r, hr, hid, hrejected.mono hle⟩

/-- A statement that marks only fixes with a reason. -/
lemma Accounted.touch {marks : List ℕ} (ha : Accounted h d db) (ht : Touches marks db db')
    (hmarks : ∀ r ∈ db.fixes, r.id ∈ marks → Reason h d r) : Accounted h d db' where
  synced r' hr' hsynced := by
    obtain ⟨f, new, hfixes, hf, hnew⟩ := ht.rows
    rw [hfixes] at hr'
    rcases List.mem_append.mp hr' with hr' | hr'
    · obtain ⟨r, hr, rfl⟩ := List.mem_map.mp hr'
      obtain ⟨hlasting, hmarked⟩ := hf r
      refine Reason.congr ?_ hlasting
      exact (hmarked.mp hsynced).elim (ha.synced r hr) (hmarks r hr)
    · exact absurd hsynced (by simp [hnew r' hr'])
  dead id hid := by
    rw [ht.letters] at hid
    obtain ⟨r, hr, rfl, hrejected⟩ := ha.dead id hid
    obtain ⟨r', hr', hlasting, -⟩ := ht.grows.mem hr
    exact ⟨r', hr', FixRow.id_of_lasting hlasting, hrejected.congr hlasting⟩

/-- A letter for a fix that was rejected on its own. -/
lemma Accounted.quarantine (ha : Accounted h d db) (hr : r ∈ db.fixes)
    (hrejected : RejectedAlone h r) (letter : DeadLetter) :
    Accounted h d (db.quarantine r.id letter) where
  synced := ha.synced
  dead id hid := by
    by_cases hself : id = r.id
    · exact ⟨r, hr, hself.symm, hrejected⟩
    · exact ha.dead id (by simpa [Db.quarantine, hself] using hid)

end

/-! ### Statements of the uplinker -/

lemma quarantine_grows (db : Db) (id : ℕ) (letter : DeadLetter) :
    Grows db (db.quarantine id letter) where
  rows i r hr := ⟨r, hr, rfl, fun h => h⟩
  letters i hi := by
    by_cases hself : i = id
    · simp [Db.quarantine, hself]
    · simpa [Db.quarantine, hself] using hi

lemma perform_grows (db : Db) (world : World) (c : Call) : Grows db (perform db world c).2 := by
  cases c with
  | markSynced ids => exact (markSynced_touches db ids).grows
  | quarantine id letter => exact quarantine_grows db id letter
  | setSyncCursor key value => exact ⟨fun i r hr => ⟨r, hr, rfl, fun h => h⟩, fun _ h => h⟩
  | getUnsynced | post | getSyncCursor | clock => exact .refl db

lemma perform_ordered {db : Db} (h : db.Ordered) (world : World) (c : Call) :
    (perform db world c).2.Ordered := by
  cases c with
  | markSynced ids => exact (markSynced_touches db ids).ordered h
  | getUnsynced | post | getSyncCursor | setSyncCursor | quarantine | clock => exact h

lemma partly_touches (db : Db) (done : ℕ) (c : Call) :
    Touches ((marksOf c).take done) db (partly db done c) := by
  cases c with
  | markSynced ids => exact markSynced_touches db (ids.take done)
  | getUnsynced | post | getSyncCursor | setSyncCursor | quarantine | clock =>
    rw [marksOf, List.take_nil]
    exact .of_eq rfl rfl

/-! ### One step of `run_once` -/

/-- What a step of the running `run_once` comes to. -/
inductive Advances (s : System) (world : World) : System → Prop where
  | idle (running : s.running = none) : Advances s world s
  | ends (outcome : Except PyErr RunStats) (up : CloudUplinker)
      (running : s.running = some (.pure (outcome, up))) :
      Advances s world { s with up := up, running := none, current := [] }
  | answers (c : Call) (next : Outcome Answer PyErr c → Running)
      (running : s.running = some (.call c next)) (access : accessOf c ≠ .write) :
      Advances s world (s.answer ⟨c, (perform s.conn.working world c).1⟩
        (next (.ok (perform s.conn.working world c).1)))
  | raises (c : Call) (next : Outcome Answer PyErr c → Running)
      (running : s.running = some (.call c next)) (x : PyErr) :
      Advances s world (s.raise (next (.error x)))
  | executes (c : Call) (next : Outcome Answer PyErr c → Running)
      (running : s.running = some (.call c next)) :
      Advances s world (s.execute (perform s.conn.working world c).2)
  /-- The statement raises. -/
  | breaks (c : Call) (next : Outcome Answer PyErr c → Running)
      (running : s.running = some (.call c next)) (x : PyErr) (done : ℕ) :
      Advances s world ((s.write (partly s.conn.working done c)).raise (next (.error x)))
  | commits (c : Call) (next : Outcome Answer PyErr c → Running)
      (running : s.running = some (.call c next)) (executed : s.executed = true) :
      Advances s world (s.commit.answer ⟨c, (perform s.conn.working world c).1⟩
        (next (.ok (perform s.conn.working world c).1)))

lemma advance_cases (s : System) (world : World) (fault : Option Fault) :
    Advances s world (s.advance world fault) := by
  rcases hrun : s.running with _ | ⟨outcome, up⟩ | ⟨c, next⟩
  · rw [System.advance, hrun]
    exact .idle hrun
  · rw [System.advance, hrun]
    exact .ends outcome up hrun
  · rw [System.advance, hrun]
    dsimp only
    split
    · exact .answers c next hrun (by simp [*])
    · exact .answers c next hrun (by simp [*])
    · exact .raises c next hrun _
    · split_ifs with hexecuted
      · exact .commits c next hrun hexecuted
      · exact .executes c next hrun
    · split_ifs
      · exact .raises c next hrun _
      · exact .breaks c next hrun _ _

/-! ### Layers -/

/-- What holds in every run. -/
structure Layered (s : System) : Prop where
  ordered : s.conn.working.Ordered
  grows : Grows s.conn.durable s.conn.working
  jobs : ∀ t, ∀ op ∈ (s.conn.threads (t + 1)).todo, ∃ job : Job, job.op = op

lemma layered_boot {db : Db} (h : db.Ordered) (history : List (Event Call Answer)) :
    Layered (.boot db history) where
  ordered := h
  grows := .refl db
  jobs _ _ hop := absurd hop List.not_mem_nil

/-- A statement of the uplinker. -/
lemma Layered.write {s s' : System} (h : Layered s) {db : Db} (hordered : db.Ordered)
    (hgrows : Grows s.conn.working db) (hconn : s'.conn = s.conn.write 0 db) : Layered s' := by
  refine ⟨?_, ?_, ?_⟩ <;> rw [hconn]
  · exact hordered
  · exact h.grows.trans hgrows
  · exact h.jobs

lemma Layered.advance {s : System} (h : Layered s) (world : World) (fault : Option Fault) :
    Layered (s.advance world fault) := by
  have hcase := advance_cases s world fault
  generalize s.advance world fault = s' at hcase ⊢
  cases hcase with
  | idle => exact h
  | ends | answers | raises => exact ⟨h.ordered, h.grows, h.jobs⟩
  | executes c =>
    exact h.write (perform_ordered h.ordered world c) (perform_grows _ world c) rfl
  | breaks c next hrun x done =>
    have htouches := partly_touches s.conn.working done c
    exact h.write (htouches.ordered h.ordered) htouches.grows rfl
  | commits => exact ⟨h.ordered, .refl _, h.jobs⟩

lemma Layered.other {s : System} (h : Layered s) (t : ℕ) (raises : Bool) :
    Layered (s.step (.other t raises)) := by
  have hjobs : ∀ i, ∀ op ∈ ((s.conn.step (t + 1) raises).threads (i + 1)).todo,
      ∃ job : Job, job.op = op := by
    obtain ⟨th, hthreads, hsub⟩ := step_threads s.conn (t + 1) raises
    intro i op hop
    rw [hthreads] at hop
    by_cases hi : i = t
    · subst hi
      rw [Function.update_self] at hop
      exact h.jobs i op (hsub hop)
    · rw [Function.update_of_ne (by omega)] at hop
      exact h.jobs i op hop
  rcases step_moves (h.jobs t) raises with ⟨hd, hw⟩ | ⟨hd, hw⟩ | ⟨hd, hw⟩ | ⟨-, hd, hw⟩
  · exact ⟨hw ▸ h.ordered, hd ▸ hw ▸ h.grows, hjobs⟩
  · exact ⟨hw.ordered h.ordered, hd ▸ h.grows.trans hw.grows, hjobs⟩
  · exact ⟨hw ▸ h.ordered, hd ▸ hw ▸ .refl _, hjobs⟩
  · exact ⟨hw ▸ h.grows.ordered h.ordered, hd ▸ hw ▸ .refl _, hjobs⟩

lemma Layered.give {s : System} (h : Layered s) (t : ℕ) (job : Job) :
    Layered (s.step (.give t job)) := by
  refine ⟨h.ordered, h.grows, fun i op hop => ?_⟩
  rcases give_todo hop with hop | rfl
  · exact h.jobs i op hop
  · exact ⟨job, rfl⟩

lemma Layered.step {s : System} (h : Layered s) (st : Step) : Layered (s.step st) := by
  cases st with
  | start batchSize =>
    rw [System.step]
    split
    · exact h
    · exact ⟨h.ordered, h.grows, h.jobs⟩
  | advance world fault => exact h.advance world fault
  | give t job => exact h.give t job
  | other t raises => exact h.other t raises
  | restart => exact layered_boot (h.grows.ordered h.ordered) s.history

/-- **What is durable stays**, whatever the step. -/
lemma Layered.durable_grows {s : System} (h : Layered s) (st : Step) :
    Grows s.conn.durable (s.step st).conn.durable := by
  cases st with
  | start batchSize =>
    rw [System.step]
    split <;> exact .refl _
  | advance world fault =>
    have hcase := advance_cases s world fault
    rw [System.step]
    generalize s.advance world fault = s' at hcase ⊢
    cases hcase with
    | idle | ends | answers | raises | executes | breaks => exact .refl _
    | commits => exact h.grows
  | other t raises =>
    rcases step_moves (h.jobs t) raises with ⟨hd, -⟩ | ⟨hd, -⟩ | ⟨hd, -⟩ | ⟨-, hd, -⟩
    · exact .of_eq hd
    · exact .of_eq hd
    · exact hd ▸ h.grows
    · exact .of_eq hd
  | give | restart => exact .refl _

/-! ### Where the rollbacks spare the uplinker -/

/-- The rows that a call has fetched. -/
def rowsOf : Event Call Answer → List FixRow
  | ⟨.getUnsynced _, rows⟩ => rows
  | _ => []

/-- The id of the letter that is executed and to be committed. -/
def System.writing (s : System) : List ℕ :=
  match s.executed, s.running with
  | true, some (.call c _) => letterOf c
  | _, _ => []

/-- If the step is the rollback of a failed `insert_fix`, it takes away neither the letter that is
being written nor a row that the running `run_once` has fetched: they are durable. -/
def Spares (s : System) : Step → Prop
  | .other t _ => (s.conn.threads (t + 1)).pc.isFailed = true →
      (∀ id ∈ s.writing, (s.conn.durable.deadLetter id).isSome) ∧
        ∀ row ∈ s.current.flatMap rowsOf, ∃ r ∈ s.conn.durable.fixes, r.id = row.id
  | .start _ | .advance _ _ | .give _ _ | .restart => True

instance (s : System) : (st : Step) → Decidable (Spares s st)
  | .other _ _ => inferInstanceAs (Decidable (_ → _))
  | .start _ | .advance _ _ | .give _ _ | .restart => .isTrue trivial

lemma writing_of_executed {s : System} {c : Call} {next : Outcome Answer PyErr c → Running}
    (hexecuted : s.executed = true) (hrun : s.running = some (.call c next)) :
    s.writing = letterOf c := by
  rw [System.writing, hexecuted, hrun]

lemma mem_rowsOf {h : List (Event Call Answer)} {row : FixRow} :
    row ∈ h.flatMap rowsOf ↔ FetchedIn h row := by
  rw [List.mem_flatMap]
  constructor
  · rintro ⟨⟨c, a⟩, hmem, hrow⟩
    cases c with
    | getUnsynced limit => exact ⟨limit, a, hmem, hrow⟩
    | post | markSynced | getSyncCursor | setSyncCursor | quarantine | clock => cases hrow
  · rintro ⟨limit, rows, hmem, hrow⟩
    exact ⟨_, hmem, hrow⟩

/-- What holds as long as they do. -/
structure Sound (s : System) : Prop where
  durable : Accounted s.history s.conn.durable s.conn.durable
  working : Accounted s.history s.conn.durable s.conn.working
  answered : s.current ⊆ s.history
  idle : s.running = none → s.current = []
  running : ∀ p, s.running = some p →
    (∃ batchSize up, p = Raising.runOnce batchSize up) ∧ s.current = [] ∨
      p.MeetsRaising Allowed (fun _ _ => True) s.current
  posted : ∀ fixes reply, ⟨.post fixes, reply⟩ ∈ s.current →
    ∀ f ∈ fixes, ∃ row, FetchedIn s.current row ∧ f = rowToFix row
  fetched : ∀ row, FetchedIn s.current row → ∃ r ∈ s.conn.working.fixes, r.lasting = row.lasting
  quarantined : ∀ id, QuarantinedIn s.current id → (s.conn.durable.deadLetter id).isSome
  letter : ∀ id ∈ s.writing, (s.conn.working.deadLetter id).isSome

/-- Between two calls of `run_once`. -/
lemma Sound.of_idle {s : System} (hdurable : Accounted s.history s.conn.durable s.conn.durable)
    (hworking : Accounted s.history s.conn.durable s.conn.working) (hidle : s.running = none)
    (hcurrent : s.current = []) : Sound s where
  durable := hdurable
  working := hworking
  answered := hcurrent ▸ List.nil_subset _
  idle _ := hcurrent
  running p hp := by rw [hidle] at hp; cases hp
  posted fixes reply hmem := by rw [hcurrent] at hmem; cases hmem
  fetched row hrow := by
    obtain ⟨_, _, hmem, -⟩ := hrow
    rw [hcurrent] at hmem
    cases hmem
  quarantined id hid := by
    obtain ⟨_, hmem⟩ := hid
    rw [hcurrent] at hmem
    cases hmem
  letter id hid := by
    rw [System.writing, hidle] at hid
    split at hid
    · rename_i hrun
      cases hrun
    · cases hid

lemma accounted_empty (h : List (Event Call Answer)) (d : Db) : Accounted h d .empty where
  synced _ hr := absurd hr List.not_mem_nil
  dead _ hid := absurd hid (by simp [Db.empty])

section

variable {s : System} (hs : Sound s) (hl : Layered s)

include hs

/-- What the running `run_once` may call next: its fetch, or an allowed call. -/
lemma Sound.guard {c : Call} {next : Outcome Answer PyErr c → Running}
    (hrun : s.running = some (.call c next)) :
    Allowed s.current c ∨ ∃ batchSize, c = .getUnsynced batchSize := by
  rcases hs.running _ hrun with ⟨⟨batchSize, up, hstart⟩, -⟩ | ⟨hguard, -⟩
  · cases hstart
    exact .inr ⟨batchSize, rfl⟩
  · exact .inl hguard

/-- However the call turns out, the rest makes only allowed calls. -/
lemma Sound.next {c : Call} {next : Outcome Answer PyErr c → Running}
    (hrun : s.running = some (.call c next)) :
    (∀ a, (next (.ok a)).MeetsRaising Allowed (fun _ _ => True) (s.current ++ [⟨c, a⟩])) ∧
      ∀ x, (next (.error x)).MeetsRaising Allowed (fun _ _ => True) s.current := by
  rcases hs.running _ hrun with ⟨⟨batchSize, up, hstart⟩, hcurrent⟩ | ⟨-, hnext⟩
  · cases hstart
    refine ⟨fun rows : List FixRow => ?_, fun x => trivial⟩
    have hrows : ∀ row ∈ rows, FetchedIn (s.current ++ [⟨.getUnsynced batchSize, rows⟩]) row :=
      fun row hrow => ⟨batchSize, rows, List.mem_append_right _ (List.mem_singleton_self _), hrow⟩
    exact Raising.runBatch_obeys hrows up
  · exact hnext

/-- What was posted is in the tables, as it was posted. -/
lemma Sound.posted_row {fixes : List FixBody} {reply : Except PyErr Response}
    (hmem : ⟨.post fixes, reply⟩ ∈ s.current) {f : FixBody} (hf : f ∈ fixes) :
    ∃ r ∈ s.conn.working.fixes, r.id = f.id ∧ Shows f r := by
  obtain ⟨row, hfetched, rfl⟩ := hs.posted fixes reply hmem f hf
  obtain ⟨r, hr, hlasting⟩ := hs.fetched row hfetched
  exact ⟨r, hr, FixRow.id_of_lasting hlasting, shows_of_lasting hlasting⟩

/-- What may be quarantined was rejected on its own. -/
lemma Sound.rejected {id : ℕ} {letter : DeadLetter}
    {next : Outcome Answer PyErr (.quarantine id letter) → Running}
    (hrun : s.running = some (.call (.quarantine id letter) next)) :
    ∃ r ∈ s.conn.working.fixes, r.id = id ∧ RejectedAlone s.history r := by
  rcases hs.guard hrun with ⟨f, resp, hmem, hfid, hstatus⟩ | ⟨_, hfetch⟩
  · obtain ⟨r, hr, hid, hshows⟩ := hs.posted_row hmem (List.mem_singleton_self f)
    exact ⟨r, hr, hid.trans hfid, f, resp, hs.answered hmem, hshows, hstatus⟩
  · cases hfetch

include hl

/-- What may be marked has a reason. -/
lemma Sound.reason {ids : List ℕ} {next : Outcome Answer PyErr (.markSynced ids) → Running}
    (hrun : s.running = some (.call (.markSynced ids) next)) {r : FixRow}
    (hr : r ∈ s.conn.working.fixes) (hid : r.id ∈ ids) :
    Reason s.history s.conn.durable r := by
  rcases hs.guard hrun with hguard | ⟨_, hfetch⟩
  · rcases hguard r.id hid with ⟨fixes, resp, hmem, hstatus, f, hf, hfid⟩ | hquarantined
    · obtain ⟨r', hr', hid', hshows⟩ := hs.posted_row hmem hf
      obtain rfl := hl.ordered.eq_of_id hr' hr (hid'.trans hfid)
      exact .inl ⟨fixes, resp, hs.answered hmem, hstatus, f, hf, hshows⟩
    · have hletter := hs.quarantined _ hquarantined
      obtain ⟨r₀, hr₀, hid₀, hrejected⟩ := hs.durable.dead _ hletter
      obtain ⟨r', hr', hlasting, -⟩ := hl.grows.mem hr₀
      obtain rfl := hl.ordered.eq_of_id hr' hr ((FixRow.id_of_lasting hlasting).trans hid₀)
      exact .inr ⟨hrejected.congr hlasting, hletter⟩
  · cases hfetch

/-- A statement of the uplinker leaves everything with a reason. -/
lemma Sound.perform {c : Call} {next : Outcome Answer PyErr c → Running}
    (hrun : s.running = some (.call c next)) (world : World) :
    Accounted s.history s.conn.durable (perform s.conn.working world c).2 := by
  cases c with
  | markSynced ids =>
    exact hs.working.touch (markSynced_touches _ ids) fun r hr hid => hs.reason hl hrun hr hid
  | quarantine id letter =>
    obtain ⟨r, hr, rfl, hrejected⟩ := hs.rejected hrun
    exact hs.working.quarantine hr hrejected letter
  | setSyncCursor key value =>
    exact hs.working.touch (.of_eq rfl rfl) fun _ _ hid => absurd hid List.not_mem_nil
  | getUnsynced | post | getSyncCursor | clock => exact hs.working

lemma Sound.partly {c : Call} {next : Outcome Answer PyErr c → Running}
    (hrun : s.running = some (.call c next)) (done : ℕ) :
    Accounted s.history s.conn.durable (partly s.conn.working done c) := by
  refine hs.working.touch (partly_touches s.conn.working done c) fun r hr hid => ?_
  have hmem := List.mem_of_mem_take hid
  cases c with
  | markSynced ids => exact hs.reason hl hrun hr hmem
  | getUnsynced | post | getSyncCursor | setSyncCursor | quarantine | clock => cases hmem

end

/-! ### Steps -/

section

variable {s : System} (hs : Sound s)

include hs

/-- The tables change under the running `run_once`. -/
lemma Sound.conn {conn : Conn} (hdurable : Accounted s.history conn.durable conn.durable)
    (hworking : Accounted s.history conn.durable conn.working)
    (hgrows : Grows s.conn.durable conn.durable)
    (hfetched : ∀ row, FetchedIn s.current row → ∀ r ∈ s.conn.working.fixes,
      r.lasting = row.lasting → ∃ r' ∈ conn.working.fixes, r'.lasting = r.lasting)
    (hletters : ∀ id ∈ s.writing, (s.conn.working.deadLetter id).isSome →
      (conn.working.deadLetter id).isSome) : Sound { s with conn := conn } where
  durable := hdurable
  working := hworking
  answered := hs.answered
  idle := hs.idle
  running := hs.running
  posted := hs.posted
  fetched row hrow := by
    obtain ⟨r, hr, hlasting⟩ := hs.fetched row hrow
    obtain ⟨r', hr', hlasting'⟩ := hfetched row hrow r hr hlasting
    exact ⟨r', hr', hlasting'.trans hlasting⟩
  quarantined id hid := hgrows.letters id (hs.quarantined id hid)
  letter id hid := hletters id hid (hs.letter id hid)

/-- The tables that the connection sees grow. -/
lemma Sound.grow {conn : Conn} (hdurable : conn.durable = s.conn.durable)
    (haccounted : Accounted s.history s.conn.durable conn.working)
    (hgrows : Grows s.conn.working conn.working) : Sound { s with conn := conn } := by
  refine hs.conn (hdurable ▸ hs.durable) (hdurable ▸ haccounted) (.of_eq hdurable) ?_
    fun id _ => hgrows.letters id
  intro row _ r hr _
  obtain ⟨r', hr', hlasting, -⟩ := hgrows.mem hr
  exact ⟨r', hr', hlasting⟩

/-- They become the durable ones. -/
lemma Sound.commit (hl : Layered s) {conn : Conn} (hdurable : conn.durable = s.conn.working)
    (hworking : conn.working = s.conn.working) : Sound { s with conn := conn } := by
  have haccounted := hs.working.mono (List.Subset.refl _) hl.grows
  refine hs.conn ?_ ?_ (hdurable ▸ hl.grows) ?_ ?_
  · rwa [hdurable]
  · rwa [hdurable, hworking]
  · rw [hworking]
    exact fun _ _ r hr _ => ⟨r, hr, rfl⟩
  · rw [hworking]
    exact fun _ _ h => h

/-- The call is answered; a letter is durable by then, and what is fetched is in the tables. -/
lemma Sound.answer {c : Call} {next : Outcome Answer PyErr c → Running}
    (hrun : s.running = some (.call c next)) (a : Answer c)
    (hfetch : ∀ row, FetchedIn [⟨c, a⟩] row → row ∈ s.conn.working.fixes)
    (hletter : ∀ id letter, c = .quarantine id letter → (s.conn.durable.deadLetter id).isSome) :
    Sound (s.answer ⟨c, a⟩ (next (.ok a))) := by
  have hle : s.history ⊆ s.history ++ [⟨c, a⟩] := List.subset_append_left _ _
  have hcurrent : s.current <+: s.current ++ [⟨c, a⟩] := List.prefix_append _ _
  refine ⟨hs.durable.mono hle (.refl _), hs.working.mono hle (.refl _),
    List.append_subset.mpr ⟨List.subset_append_of_subset_left _ hs.answered,
      List.subset_append_right _ _⟩, ?_, ?_, ?_, ?_, ?_, ?_⟩
  · exact fun hidle => by cases hidle
  · rintro p ⟨⟩
    exact .inr ((hs.next hrun).1 a)
  · intro fixes reply hmem f hf
    rcases List.mem_append.mp hmem with hmem | hmem
    · obtain ⟨row, hrow, hbody⟩ := hs.posted fixes reply hmem f hf
      exact ⟨row, hrow.mono hcurrent, hbody⟩
    · cases List.mem_singleton.mp hmem
      rcases hs.guard hrun with hguard | ⟨_, hcall⟩
      · obtain ⟨row, hrow, hbody⟩ := hguard f hf
        exact ⟨row, hrow.mono hcurrent, hbody⟩
      · cases hcall
  · rintro row ⟨limit, rows, hmem, hrow⟩
    rcases List.mem_append.mp hmem with hmem | hmem
    · exact hs.fetched row ⟨limit, rows, hmem, hrow⟩
    · exact ⟨row, hfetch row ⟨limit, rows, hmem, hrow⟩, rfl⟩
  · rintro id ⟨letter, hmem⟩
    rcases List.mem_append.mp hmem with hmem | hmem
    · exact hs.quarantined id ⟨letter, hmem⟩
    · cases List.mem_singleton.mp hmem
      exact hletter id letter rfl
  · exact fun id hid => by cases hid

/-- The call raises. -/
lemma Sound.raise {c : Call} {next : Outcome Answer PyErr c → Running}
    (hrun : s.running = some (.call c next)) (x : PyErr) : Sound (s.raise (next (.error x))) where
  durable := hs.durable
  working := hs.working
  answered := hs.answered
  idle hidle := by cases hidle
  running := by
    rintro p ⟨⟩
    exact .inr ((hs.next hrun).2 x)
  posted := hs.posted
  fetched := hs.fetched
  quarantined := hs.quarantined
  letter id hid := by cases hid

end

lemma fetched_perform {db : Db} {world : World} {c : Call} {row : FixRow}
    (h : FetchedIn [⟨c, (perform db world c).1⟩] row) : row ∈ db.fixes := by
  obtain ⟨limit, rows, hmem, hrow⟩ := h
  cases List.mem_singleton.mp hmem
  exact List.mem_of_mem_filter (List.mem_of_mem_take hrow)

/-- The letter that is executed is in the tables. -/
lemma letter_perform {db : Db} {world : World} {c : Call} {id : ℕ} (h : id ∈ letterOf c) :
    ((perform db world c).2.deadLetter id).isSome := by
  cases c with
  | quarantine i letter =>
    obtain rfl := List.mem_singleton.mp h
    simp [perform, Db.quarantine]
  | getUnsynced | post | markSynced | getSyncCursor | setSyncCursor | clock => cases h

lemma Sound.advance {s : System} (hs : Sound s) (hl : Layered s) (world : World)
    (fault : Option Fault) : Sound (s.advance world fault) := by
  have hcase := advance_cases s world fault
  generalize s.advance world fault = s' at hcase ⊢
  cases hcase with
  | idle => exact hs
  | ends => exact .of_idle hs.durable hs.working rfl rfl
  | answers c next hrun haccess =>
    refine hs.answer hrun _ (fun row => fetched_perform) ?_
    rintro id letter rfl
    exact absurd rfl haccess
  | raises c next hrun x => exact hs.raise hrun x
  | executes c next hrun =>
    have hwrite : Sound (s.write (Uplink.perform s.conn.working world c).2) :=
      hs.grow rfl (hs.perform hl hrun world) (perform_grows _ world c)
    refine { hwrite with letter := fun id hid => letter_perform ?_ }
    rwa [writing_of_executed (s := s.execute _) rfl hrun] at hid
  | breaks c next hrun x done =>
    have hwrite : Sound (s.write (Shared.partly s.conn.working done c)) :=
      hs.grow rfl (hs.partly hl hrun done) (partly_touches _ done c).grows
    exact hwrite.raise hrun x
  | commits c next hrun hexecuted =>
    have hcommit : Sound s.commit := hs.commit hl rfl rfl
    refine hcommit.answer hrun _ (fun row => fetched_perform) ?_
    rintro id letter rfl
    refine hs.letter id ?_
    rw [writing_of_executed hexecuted hrun]
    exact List.mem_singleton_self id

/-- A step of another thread, and if it is a rollback, one that spares the uplinker. -/
lemma Sound.other {s : System} (hs : Sound s) (hl : Layered s) {t : ℕ} {raises : Bool}
    (hspares : Spares s (.other t raises)) : Sound (s.step (.other t raises)) := by
  rcases step_moves (hl.jobs t) raises with
    ⟨hd, hw⟩ | ⟨hd, hw⟩ | ⟨hd, hw⟩ | ⟨hfailed, hd, hw⟩
  · exact hs.grow hd (hw ▸ hs.working) (.of_eq hw)
  · exact hs.grow hd (hs.working.touch hw fun _ _ hid => absurd hid List.not_mem_nil) hw.grows
  · exact hs.commit hl hd hw
  · obtain ⟨hletter, hfetched⟩ := hspares hfailed
    refine hs.conn (hd ▸ hs.durable) (hd ▸ hw ▸ hs.durable) (.of_eq hd) ?_
      fun id hid _ => hw ▸ hletter id hid
    intro row hrow r hr hlasting
    -- the row that the rollback leaves is the one that was fetched
    obtain ⟨r₀, hr₀, hid⟩ := hfetched row (mem_rowsOf.mpr hrow)
    obtain ⟨r', hr', hlasting', -⟩ := hl.grows.mem hr₀
    have hids : r'.id = r.id := by
      rw [FixRow.id_of_lasting hlasting', hid, FixRow.id_of_lasting hlasting]
    obtain rfl := hl.ordered.eq_of_id hr' hr hids
    exact ⟨r₀, hw ▸ hr₀, hlasting'.symm⟩

/-- **One step.** -/
lemma Sound.step {s : System} (hs : Sound s) (hl : Layered s) {st : Step} (hspares : Spares s st) :
    Sound (s.step st) := by
  cases st with
  | start batchSize =>
    rw [System.step]
    split
    · exact hs
    · rename_i hidle
      have hcurrent := hs.idle (Option.not_isSome_iff_eq_none.mp hidle)
      refine { hs with idle := ?_, running := ?_, letter := ?_ }
      · exact fun hnone => by cases hnone
      · rintro p ⟨⟩
        exact .inl ⟨⟨batchSize, s.up, rfl⟩, hcurrent⟩
      · intro id hid
        rw [System.writing] at hid
        split at hid
        · rename_i hrun
          cases hrun
          cases hid
        · cases hid
  | advance world fault => exact hs.advance hl world fault
  | give t job => exact hs.grow rfl hs.working (.refl _)
  | other t raises => exact hs.other hl hspares
  | restart => exact .of_idle hs.durable hs.durable rfl rfl

/-- **Zero loss on the shared connection.**  In a run in which no rollback takes away a letter
that is being written or a row that the running `run_once` has fetched, whatever else raises,
whatever is rolled back or committed by other threads and wherever processes end: every fix that
is durably out of the queue was in a POST answered 2xx, as it is in its row but for `seq`, or was
so rejected on its own and has a durable letter; and every durable letter is of a row that was
rejected on its own.  However a run goes on, with any rollbacks, what is durable stays. -/
theorem zero_loss_shared (steps more : List Step)
    (hspares : Runs.StepsMeet System.step Spares .init steps) :
    let s := System.run steps
    Accounted s.history s.conn.durable s.conn.durable ∧
      Grows s.conn.durable (Runs.run System.step s more).conn.durable := by
  intro s
  have hordered : Db.empty.Ordered := List.Pairwise.nil
  have hsound : Layered s ∧ Sound s := by
    refine hspares.preserves (P := fun s => Layered s ∧ Sound s)
      (fun s st h hspares => ⟨h.1.step st, h.2.step h.1 hspares⟩)
      ⟨layered_boot hordered [], ?_⟩
    exact .of_idle (accounted_empty _ _) (accounted_empty _ _) rfl rfl
  have hmore := Runs.run_preserves System.step
    (P := fun s' => Layered s' ∧ Grows s.conn.durable s'.conn.durable)
    (fun s' st h => ⟨h.1.step st, h.2.trans (h.1.durable_grows st)⟩) ⟨hsound.1, .refl _⟩ more
  exact ⟨hsound.2.durable, hmore.2⟩

/-! ### Rollbacks -/

/-- An `insert_fix` that nothing comes in the way of. -/
def inserting (u : Uplink) : List Step :=
  .give 0 (.insertFix u) :: List.replicate 6 (.other 0 false)

/-- An `insert_fix` whose SELECT raises, and the rollback. -/
def failing : List Step :=
  [.give 0 (.insertFix (uplinkAt 7200)), .other 0 false, .other 0 true, .other 0 false,
    .other 0 false]

/-- A mark is rolled back before its commit; the next `run_once` posts the fix again. -/
def markedTwice : List Step :=
  inserting (uplinkAt 0) ++ [.start 10] ++ List.replicate 3 (.advance accepting none) ++ failing ++
    List.replicate 6 (.advance accepting none) ++ [.start 10] ++
    List.replicate 4 (.advance accepting none)

/-- The theorem at this run. -/
theorem zero_loss_shared_marked_twice :
    let s := System.run markedTwice
    s.conn.durable.fixes.map FixRow.synced = [true] ∧
      Accounted s.history s.conn.durable s.conn.durable ∧
        Grows s.conn.durable (Runs.run System.step s failing).conn.durable :=
  ⟨by decide +kernel, zero_loss_shared markedTwice failing (by decide +kernel)⟩

/-- The cloud rejects everything. -/
def rejecting : World := { reply := .ok ⟨422, none⟩, now := 0 }

/-- A letter that is rolled back before its commit: the fix leaves the queue without one. -/
example :
    let s := System.run (inserting (uplinkAt 0) ++ [.start 10] ++
      List.replicate 5 (.advance rejecting none) ++ failing ++
      List.replicate 3 (.advance rejecting none))
    s.conn.durable.fixes.map FixRow.synced = [true] ∧ s.conn.durable.deadLetter 1 = none := by
  decide +kernel

/-- A row that is rolled back after its fetch: the next fix gets its id, and leaves the queue in
its place without having been posted. -/
example :
    let s := System.run ((inserting (uplinkAt 0)).take 4 ++
      [.start 10, .advance accepting none, .other 0 true, .other 0 false, .other 0 false] ++
      inserting (uplinkAt 7200) ++ List.replicate 3 (.advance accepting none))
    s.conn.durable.fixes.map (fun r => (r.tsMs, r.synced)) = [(7200000, true)] ∧
      s.history.flatMap (fun e => (bodyOf e.call).flatten.map FixBody.tsMs) = [0] := by
  decide +kernel

end SrtGateway.Uplink.Shared
