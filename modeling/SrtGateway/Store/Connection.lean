/-
Threads on the shared connection of the store.

All threads use one SQLite connection, hence one transaction: a statement that changes data
opens it if none is open, a commit makes all of it durable, a rollback discards all of it.
Only `insert_fix` takes the lock.  A step lets one thread make its next call; the call of an
`insert_fix` may be made to raise.
-/
import SrtGateway.Store.Tables

namespace SrtGateway.Store

open SrtGateway.Protocol

/-! ### Operations and their calls -/

/-- The data of an operation that is one statement and a commit. -/
inductive Write where
  | markSynced (ids : List ℕ)
  | quarantine (id : ℕ) (letter : DeadLetter)
  | setSyncCursor (key : String) (value : ℤ)
  | upsertRace (raceId : ℤ) (race : RaceRow)
  | storeFingerprint (fp : List Char) (appliedMs : ℤ)

/-- The statement. -/
def Write.exec : Write → Db → Db
  | .markSynced ids, db => db.markSynced ids
  | .quarantine id letter, db => db.quarantine id letter
  | .setSyncCursor key value, db => db.setSyncCursor key value
  | .upsertRace raceId race, db => db.upsertRace raceId race
  | .storeFingerprint fp appliedMs, db => db.storeFingerprint fp appliedMs

/-- `mark_synced` of no ids returns at once. -/
def Write.skips : Write → Bool
  | .markSynced ids => ids.isEmpty
  | _ => false

inductive Op where
  | insertFix (u : Uplink)
  | write (w : Write)

/-- The operation as a whole, run alone. -/
def Op.apply (db : Db) : Op → Db
  | .insertFix u => (db.insertFix u).2
  | .write w => w.exec db

/-- Where a thread is; `writes` counts the statements with which the current `insert_fix` has
changed data. -/
inductive Pc where
  | idle
  /-- After the statement of a `Write`, before its commit. -/
  | written (w : Write)
  /-- In `insert_fix`, before the SELECT. -/
  | locked (u : Uplink)
  /-- After the SELECT. -/
  | selected (u : Uplink) (slot : Option FixRow)
  /-- After the UPDATE that retires a row. -/
  | retired (u : Uplink)
  /-- After the INSERT. -/
  | inserted (u : Uplink) (writes : ℕ)
  /-- After the upsert of the node. -/
  | summarised (u : Uplink) (writes : ℕ)
  /-- After the commit, before the lock is released. -/
  | committed (u : Uplink)
  /-- A call has raised, before the rollback. -/
  | failed (u : Uplink) (writes : ℕ)
  /-- After the rollback, before the lock is released. -/
  | rolledBack (u : Uplink)

structure Thread where
  todo : List Op
  pc : Pc
  /-- The operations that returned normally. -/
  returned : List Op

structure Conn where
  durable : Db
  /-- The tables as the connection sees them. -/
  working : Db
  /-- Who made the writes of the open transaction, in order; empty when none is open. -/
  txn : List ℕ
  lock : Option ℕ
  threads : ℕ → Thread

/-- The connection at the start, with what each thread is going to do. -/
def Conn.start (db : Db) (todo : ℕ → List Op) : Conn :=
  { durable := db, working := db, txn := [], lock := none, threads := fun t => ⟨todo t, .idle, []⟩ }

/-! ### Steps -/

/-- Thread `t` goes on to `pc`. -/
def Conn.goto (s : Conn) (t : ℕ) (pc : Pc) : Conn :=
  { s with threads := Function.update s.threads t { s.threads t with pc := pc } }

/-- Thread `t` has written `db`. -/
def Conn.write (s : Conn) (t : ℕ) (db : Db) : Conn :=
  { s with working := db, txn := s.txn ++ [t] }

def Conn.commit (s : Conn) : Conn := { s with durable := s.working, txn := [] }

def Conn.rollback (s : Conn) : Conn := { s with working := s.durable, txn := [] }

/-- The current operation of thread `t` returns normally. -/
def Conn.return_ (s : Conn) (t : ℕ) (op : Op) : Conn :=
  let th := s.threads t
  { s with threads := Function.update s.threads t ⟨th.todo, .idle, th.returned ++ [op]⟩ }

/-- A statement of an `insert_fix` by thread `t` that changes data: it raises, by itself or
because it is made to, or the thread goes on to `next`. -/
def Conn.insertWrite (s : Conn) (t : ℕ) (u : Uplink) (writes : ℕ) (raises : Bool)
    (result : Except PyErr Db) (next : Pc) : Conn :=
  match raises, result with
  | false, .ok db => (s.write t db).goto t next
  | _, _ => s.goto t (.failed u writes)

/-- Thread `t` takes its next operation from the list. -/
def Conn.begin_ (s : Conn) (t : ℕ) : Conn :=
  let th := s.threads t
  match th.todo with
  | [] => s
  | .insertFix u :: rest =>
    -- the only operation under the lock; without it the thread waits
    if s.lock = none then
      { s with lock := some t,
               threads := Function.update s.threads t ⟨rest, .locked u, th.returned⟩ }
    else s
  | .write w :: rest =>
    if w.skips then
      { s with threads := Function.update s.threads t
                 ⟨rest, .idle, th.returned ++ [.write w]⟩ }
    else
      { s.write t (w.exec s.working) with
          threads := Function.update s.threads t ⟨rest, .written w, th.returned⟩ }

/-- Thread `t` makes its next call; inside the `try` of `insert_fix`, `raises` makes it
raise. -/
def Conn.step (s : Conn) (t : ℕ) (raises : Bool) : Conn :=
  match (s.threads t).pc with
  | .idle => s.begin_ t
  -- the commit ends the transaction of all threads
  | .written w => s.commit.return_ t (.write w)
  | .locked u =>
    match raises, bindParams [u.nodeId, u.sequence] with
    | false, .ok () => s.goto t (.selected u (s.working.selectSlot u.nodeId u.sequence))
    | _, _ => s.goto t (.failed u 0)
  | .selected u (some row) =>
    -- a resend only refreshes the node; a row of an earlier wrap gives up its slot first
    if isResend u row then
      s.insertWrite t u 0 raises (s.working.upsertNodeFromFix u) (.summarised u 1)
    else s.insertWrite t u 0 raises (.ok (s.working.retire row.id)) (.retired u)
  | .selected u none =>
    s.insertWrite t u 0 raises ((s.working.insertOrIgnore u).map Prod.snd) (.inserted u 1)
  | .retired u => s.insertWrite t u 1 raises (s.working.insertRow u) (.inserted u 2)
  | .inserted u writes =>
    s.insertWrite t u writes raises (s.working.upsertNodeFromFix u) (.summarised u (writes + 1))
  | .summarised u writes =>
    if raises then s.goto t (.failed u writes) else s.commit.goto t (.committed u)
  | .committed u => { s.return_ t (.insertFix u) with lock := none }
  -- whoever made the writes, they are all gone
  | .failed u _ => s.rollback.goto t (.rolledBack u)
  | .rolledBack _ => { s.goto t .idle with lock := none }

/-- The connection after a schedule: which thread goes next, and whether its call is made to
raise. -/
def Conn.run (s : Conn) (schedule : List (ℕ × Bool)) : Conn :=
  schedule.foldl (fun s st => s.step st.1 st.2) s

/-- All operations have finished. -/
def Conn.Finished (s : Conn) : Prop := ∀ t, (s.threads t).todo = [] ∧ (s.threads t).pc = .idle

/-- A rollback discards the writes of the `insert_fix` that raised, all of them, and nothing
else. -/
def CleanRollback (s : Conn) (t : ℕ) : Prop :=
  ∀ u writes, (s.threads t).pc = .failed u writes → s.txn = List.replicate writes t

/-- Every rollback of a run is clean. -/
def CleanRollbacks : Conn → List (ℕ × Bool) → Prop
  | _, [] => True
  | s, (t, raises) :: schedule => CleanRollback s t ∧ CleanRollbacks (s.step t raises) schedule

/-! ### Sequential runs -/

/-- The tables after operations one at a time. -/
def replay (db : Db) (order : List (ℕ × Op)) : Db := order.foldl (fun db op => op.2.apply db) db

/-- The operations of thread `t` in an order. -/
def opsOf (t : ℕ) (order : List (ℕ × Op)) : List Op :=
  (order.filter fun op => op.1 = t).map Prod.snd

/-- The durable tables are those of the operations that returned normally, in some sequential
order, in which each thread's operations stand as it made them. -/
def Serializable (db : Db) (s : Conn) : Prop :=
  ∃ order, (∀ t, opsOf t order = (s.threads t).returned) ∧ s.durable = replay db order

end SrtGateway.Store
