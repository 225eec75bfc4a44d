/-
The cloud uplinker (`uplink.py`): one call of `run_once`, as a program over its store, the
cloud and the clock.
-/
import SrtGateway.Effect.Prog
import SrtGateway.Floats.Nearest
import SrtGateway.Store.Tables

namespace SrtGateway.Uplink

open SrtGateway.Store SrtGateway.Effect

/-- The JSON object of a fix in a POST body. -/
structure FixBody where
  id : ℕ
  nodeId : ℤ
  seq : Option ℤ
  tsMs : ℤ
  lat : ℚ
  lon : ℚ
  sog : ℚ
  cog : ℚ
  batteryMv : ℤ
  rssi : ℤ
  snr : ℚ
  flags : ℤ
deriving DecidableEq

/-- `_row_to_fix`. -/
def rowToFix (row : FixRow) : FixBody :=
  { id := row.id, nodeId := row.nodeId, seq := row.seq, tsMs := row.tsMs, lat := row.lat,
    lon := row.lon, sog := row.sog, cog := row.cog, batteryMv := row.batteryMv,
    rssi := row.rssi, snr := row.snr, flags := row.flags }

/-- An HTTP response: its status code, and its JSON body as a string, if it has one. -/
structure Response where
  status : ℤ
  json : Option String
deriving DecidableEq

/-- The calls of the uplinker. -/
inductive Call where
  | getUnsynced (limit : ℕ)
  | post (fixes : List FixBody)
  | markSynced (ids : List ℕ)
  | getSyncCursor (key : String) (default : ℤ)
  | setSyncCursor (key : String) (value : ℤ)
  | quarantine (id : ℕ) (letter : DeadLetter)
  /-- The clock, in seconds. -/
  | clock

/-- What comes back: a POST may raise instead of returning a response. -/
def Answer : Call → Type
  | .getUnsynced _ => List FixRow
  | .post _ => Except PyErr Response
  | .markSynced _ => Unit
  | .getSyncCursor _ _ => ℤ
  | .setSyncCursor _ _ => Unit
  | .quarantine _ _ => Unit
  | .clock => ℚ

abbrev UplinkM : Type → Type := Prog Call Answer

def getUnsynced (limit : ℕ) : UplinkM (List FixRow) := Prog.lift (Call.getUnsynced limit)
def post (fixes : List FixBody) : UplinkM (Except PyErr Response) := Prog.lift (Call.post fixes)
def markSynced (ids : List ℕ) : UplinkM Unit := Prog.lift (Call.markSynced ids)
def getSyncCursor (key : String) (default : ℤ) : UplinkM ℤ :=
  Prog.lift (Call.getSyncCursor key default)
def setSyncCursor (key : String) (value : ℤ) : UplinkM Unit :=
  Prog.lift (Call.setSyncCursor key value)
def quarantine (id : ℕ) (letter : DeadLetter) : UplinkM Unit :=
  Prog.lift (Call.quarantine id letter)
def clock : UplinkM ℚ := Prog.lift Call.clock

/-! ### Status codes -/

def isRetryableStatus (status : ℤ) : Bool := status ≥ 500 || status = 429

def isRejectStatus (status : ℤ) : Bool := 400 ≤ status && status < 500 && status ≠ 429

def isAccepted (status : ℤ) : Bool := 200 ≤ status && status < 300

/-! ### One batch -/

/-- What `last_error` and the stats say went wrong. -/
inductive UplinkError where
  | transport (x : PyErr)
  | http (status : ℤ)
  | isolated (status : ℤ)
  | unexpected (status : ℤ)
deriving DecidableEq

/-- The health fields of a `CloudUplinker`. -/
structure CloudUplinker where
  lastSyncOk : Option ℚ
  lastError : Option UplinkError
  totalSynced : ℕ

def CloudUplinker.new : CloudUplinker := { lastSyncOk := none, lastError := none, totalSynced := 0 }

inductive RunStatus where
  | idle
  | ok
  | partly
  | retry
deriving DecidableEq, Repr

/-- The stats dict. -/
structure RunStats where
  fetched : ℕ := 0
  synced : ℕ := 0
  deadLettered : ℕ := 0
  retryable : Bool := false
  status : RunStatus := .idle
  error : Option UplinkError := none

/-- `_accept`; the informational cursor comes last, and a failure of it is swallowed. -/
def accept (up : CloudUplinker) (ids : List ℕ) : UplinkM CloudUplinker := do
  markSynced ids
  let now ← clock
  let hwm : ℤ := (ids.foldl max 0 : ℕ)
  let cur ← getSyncCursor "uplink_hwm" 0
  if hwm > cur then
    setSyncCursor "uplink_hwm" hwm
  return { up with totalSynced := up.totalSynced + ids.length, lastSyncOk := some now }

/-- The letter for a poison fix: the start of the response's body, and the time, a product of
floats that is cut off to an integer. -/
def deadLetterOf (resp : Response) (now : ℚ) : DeadLetter :=
  { statusCode := resp.status, body := ((resp.json.getD "None").take 1000).toString,
    quarantinedMs := (Floats.double (now * 1000)).num.tdiv (Floats.double (now * 1000)).den }

/-- The counters of `_isolate_poison`. -/
structure Isolation where
  synced : ℕ
  dead : ℕ
  retryLeft : Bool

/-- The loop of `_isolate_poison`: each fix is posted on its own. -/
def isolateLoop : CloudUplinker → Isolation → List FixRow → UplinkM (CloudUplinker × Isolation)
  | up, n, [] => return (up, n)
  | up, n, row :: rows => do
    match ← post [rowToFix row] with
    | .error x =>
      -- the fix stays in the queue, and the loop goes on
      isolateLoop { up with lastError := some (.transport x) } { n with retryLeft := true } rows
    | .ok resp =>
      if isAccepted resp.status then do
        let up ← accept up [row.id]
        isolateLoop up { n with synced := n.synced + 1 } rows
      else if isRetryableStatus resp.status then
        isolateLoop up { n with retryLeft := true } rows
      else if isRejectStatus resp.status then do
        -- the letter is committed before the fix leaves the queue
        let now ← clock
        quarantine row.id (deadLetterOf resp now)
        markSynced [row.id]
        isolateLoop up { n with dead := n.dead + 1 } rows
      else
        -- a status below 200 or a redirect
        isolateLoop up { n with retryLeft := true } rows

/-- `_isolate_poison`. -/
def isolatePoison (up : CloudUplinker) (rows : List FixRow) :
    UplinkM (CloudUplinker × Isolation) := isolateLoop up ⟨0, 0, false⟩ rows

/-- `run_once`, once the rows are fetched. -/
def runBatch (up : CloudUplinker) (rows : List FixRow) : UplinkM (CloudUplinker × RunStats) := do
  if rows = [] then
    return (up, {})
  else
    match ← post (rows.map rowToFix) with
    | .error x =>
      let err := UplinkError.transport x
      return ({ up with lastError := some err },
        { fetched := rows.length, retryable := true, status := .retry, error := some err })
    | .ok resp =>
      let status := resp.status
      if isAccepted status then do
        let up ← accept up (rows.map FixRow.id)
        return (up, { fetched := rows.length, synced := rows.length, status := .ok })
      else if isRetryableStatus status then
        return ({ up with lastError := some (.http status) },
          { fetched := rows.length, retryable := true, status := .retry,
            error := some (.http status) })
      else if isRejectStatus status then do
        let (up, n) ← isolatePoison up rows
        let up := if n.synced ≠ 0 ∨ n.dead ≠ 0 then
          { up with lastError := some (.isolated status) } else up
        return (up,
          { fetched := rows.length, synced := n.synced, deadLettered := n.dead,
            retryable := n.retryLeft, status := .partly, error := some (.isolated status) })
      else
        return ({ up with lastError := some (.unexpected status) },
          { fetched := rows.length, retryable := true, status := .retry,
            error := some (.unexpected status) })

/-- `run_once`. -/
def runOnce (up : CloudUplinker) (batchSize : ℕ) : UplinkM (CloudUplinker × RunStats) := do
  let rows ← getUnsynced batchSize
  runBatch up rows

/-! ### Rules -/

/-- A call of the end of `_accept`: the clock, and the informational cursor. -/
def Call.informs : Call → Bool
  | .clock | .getSyncCursor _ _ | .setSyncCursor _ _ => true
  | .getUnsynced _ | .post _ | .markSynced _ | .quarantine _ _ => false

section

variable {guard : List (Event Call Answer) → Call → Prop} {h : List (Event Call Answer)}
  {up : CloudUplinker}

/-- The rule of `_accept`: the ids are marked, and what comes after that only informs. -/
lemma accept_meets {ids : List ℕ} {post : List (Event Call Answer) → CloudUplinker → Prop}
    (hmark : guard h (.markSynced ids)) (hinforms : ∀ h c, c.informs → guard h c)
    (hpost : ∀ after up', (∀ e ∈ after, e.call.informs) →
      up'.totalSynced = up.totalSynced + ids.length →
      post (h ++ ⟨.markSynced ids, ()⟩ :: after) up') :
    (accept up ids).Meets guard post h := by
  refine Prog.Meets.call hmark fun _ => Prog.Meets.call (hinforms _ _ rfl) fun now =>
    Prog.Meets.call (hinforms _ _ rfl) fun cur => ?_
  dsimp only
  split
  · refine Prog.Meets.call (hinforms _ _ rfl) fun _ => Prog.Meets.pure ?_
    rw [List.append_assoc, List.append_assoc, List.append_assoc]
    refine hpost [⟨.clock, now⟩, ⟨.getSyncCursor _ _, cur⟩, ⟨.setSyncCursor _ _, ()⟩] _ ?_ rfl
    simp [Call.informs]
  · refine Prog.Meets.pure ?_
    rw [List.append_assoc, List.append_assoc]
    refine hpost [⟨.clock, now⟩, ⟨.getSyncCursor _ _, cur⟩] _ ?_ rfl
    simp [Call.informs]

/-- The rule of the loop of `_isolate_poison`: an invariant of the rows that are still to come,
kept by each of the three things that may become of a row. -/
lemma isolateLoop_meets {I : List (Event Call Answer) → CloudUplinker → Isolation →
      List FixRow → Prop}
    (hpost : ∀ {h up n row rows}, I h up n (row :: rows) → guard h (.post [rowToFix row]))
    (hleft : ∀ {h up n row rows}, I h up n (row :: rows) → ∀ reply up',
      up'.totalSynced = up.totalSynced →
      I (h ++ [⟨.post [rowToFix row], reply⟩]) up' { n with retryLeft := true } rows)
    (haccept : ∀ {h up n row rows}, I h up n (row :: rows) → ∀ resp,
      Prog.Meets guard (fun h' up' => I h' up' { n with synced := n.synced + 1 } rows)
        (h ++ [⟨.post [rowToFix row], .ok resp⟩]) (accept up [row.id]))
    (hreject : ∀ {h up n row rows}, I h up n (row :: rows) → ∀ resp,
      Prog.Meets guard (fun h' _ => I h' up { n with dead := n.dead + 1 } rows)
        (h ++ [⟨.post [rowToFix row], .ok resp⟩]) (do
          let now ← clock
          quarantine row.id (deadLetterOf resp now)
          markSynced [row.id]))
    {n : Isolation} {rows : List FixRow} (hI : I h up n rows) :
    (isolateLoop up n rows).Meets guard (fun h' r => I h' r.1 r.2 []) h := by
  induction rows generalizing h up n with
  | nil => exact hI
  | cons row rows ih =>
    refine Prog.Meets.call (hpost hI) fun reply => ?_
    cases reply with
    | error x => exact ih (hleft hI _ _ rfl)
    | ok resp =>
      dsimp only
      split_ifs
      · exact Prog.Meets.bind (haccept hI resp) fun _ _ hI' => ih hI'
      · exact ih (hleft hI _ _ rfl)
      · have hrest := Prog.Meets.bind
          (f := fun _ => isolateLoop up { n with dead := n.dead + 1 } rows)
          (hreject hI resp) fun _ _ hI' => ih hI'
        exact hrest
      · exact ih (hleft hI _ _ rfl)

end

end SrtGateway.Uplink
