/-
One call of `run_once` over a store whose calls may raise.

The health fields are the state of the program, so an exception leaves them with what has been
done before it; only what the cursor raises is swallowed.  Where nothing raises, this is
`run_once` as in `SrtGateway.Uplink.RunOnce` (`quiet_runOnce`).  Wherever something does, and
whatever the cloud answers, the program marks no fix that has not been accepted or put in
`dead_letter`, and puts none there that was not rejected on its own (`runBatch_obeys`).
-/
import SrtGateway.Effect.Raise
import SrtGateway.Uplink.Allowed

namespace SrtGateway.Uplink.Raising

open SrtGateway.Store SrtGateway.Effect

/-! ### The program -/

/-- A method of the uplinker.  A POST says in its answer whether it raised, and the clock does
not raise. -/
abbrev RunM : Type → Type := RaiseM Call Answer CloudUplinker PyErr

def getUnsynced (limit : ℕ) : RunM (List FixRow) := RaiseM.ask (Call.getUnsynced limit)
def post (fixes : List FixBody) : RunM (Except PyErr Response) := RaiseM.ask (Call.post fixes)
def markSynced (ids : List ℕ) : RunM Unit := RaiseM.ask (Call.markSynced ids)
def getSyncCursor (key : String) (default : ℤ) : RunM ℤ :=
  RaiseM.ask (Call.getSyncCursor key default)
def setSyncCursor (key : String) (value : ℤ) : RunM Unit :=
  RaiseM.ask (Call.setSyncCursor key value)
def quarantine (id : ℕ) (letter : DeadLetter) : RunM Unit :=
  RaiseM.ask (Call.quarantine id letter)
def clock : RunM ℚ := RaiseM.ask Call.clock

/-- The end of `_accept`: the informational cursor, and what it raises is swallowed. -/
def advanceCursor (ids : List ℕ) : RunM Unit :=
  try
    let hwm : ℤ := (ids.foldl max 0 : ℕ)
    let cur ← getSyncCursor "uplink_hwm" 0
    if hwm > cur then
      setSyncCursor "uplink_hwm" hwm
  catch _ => pure ()

/-- `_accept`. -/
def accept (ids : List ℕ) : RunM Unit := do
  markSynced ids
  modify fun up => { up with totalSynced := up.totalSynced + ids.length }
  let now ← clock
  modify fun up => { up with lastSyncOk := some now }
  advanceCursor ids

/-- The loop of `_isolate_poison`. -/
def isolateLoop : Isolation → List FixRow → RunM Isolation
  | n, [] => return n
  | n, row :: rows => do
    match ← post [rowToFix row] with
    | .error x => do
      modify fun up => { up with lastError := some (.transport x) }
      isolateLoop { n with retryLeft := true } rows
    | .ok resp =>
      if isAccepted resp.status then do
        accept [row.id]
        isolateLoop { n with synced := n.synced + 1 } rows
      else if isRetryableStatus resp.status then
        isolateLoop { n with retryLeft := true } rows
      else if isRejectStatus resp.status then do
        let now ← clock
        quarantine row.id (deadLetterOf resp now)
        markSynced [row.id]
        isolateLoop { n with dead := n.dead + 1 } rows
      else
        isolateLoop { n with retryLeft := true } rows

/-- `_isolate_poison`. -/
def isolatePoison (rows : List FixRow) : RunM Isolation := isolateLoop ⟨0, 0, false⟩ rows

/-- The error is noted in `last_error` and in the stats, and the batch is to be tried again. -/
def retry (fetched : ℕ) (err : UplinkError) : RunM RunStats := do
  modify fun up => { up with lastError := some err }
  return { fetched := fetched, retryable := true, status := .retry, error := some err }

/-- `run_once`, once the rows are fetched. -/
def runBatch (rows : List FixRow) : RunM RunStats := do
  if rows = [] then
    return {}
  else
    match ← post (rows.map rowToFix) with
    | .error x => retry rows.length (.transport x)
    | .ok resp =>
      let status := resp.status
      if isAccepted status then do
        accept (rows.map FixRow.id)
        return { fetched := rows.length, synced := rows.length, status := .ok }
      else if isRetryableStatus status then
        retry rows.length (.http status)
      else if isRejectStatus status then do
        let n ← isolatePoison rows
        if n.synced ≠ 0 ∨ n.dead ≠ 0 then
          modify fun up => { up with lastError := some (.isolated status) }
        return { fetched := rows.length, synced := n.synced, deadLettered := n.dead,
                 retryable := n.retryLeft, status := .partly, error := some (.isolated status) }
      else
        retry rows.length (.unexpected status)

/-- `run_once`. -/
def runOnce (batchSize : ℕ) : RunM RunStats := do
  let rows ← getUnsynced batchSize
  runBatch rows

/-! ### Where nothing raises -/

section

variable (up : CloudUplinker)

@[simp] lemma quiet_getUnsynced (limit : ℕ) : (getUnsynced limit).quiet up =
    Uplink.getUnsynced limit >>= fun rows => pure (.ok rows, up) := rfl

@[simp] lemma quiet_post (fixes : List FixBody) : (post fixes).quiet up =
    Uplink.post fixes >>= fun reply => pure (.ok reply, up) := rfl

@[simp] lemma quiet_markSynced (ids : List ℕ) : (markSynced ids).quiet up =
    Uplink.markSynced ids >>= fun _ => pure (.ok (), up) := rfl

@[simp] lemma quiet_getSyncCursor (key : String) (default : ℤ) :
    (getSyncCursor key default).quiet up =
      Uplink.getSyncCursor key default >>= fun value => pure (.ok value, up) := rfl

@[simp] lemma quiet_setSyncCursor (key : String) (value : ℤ) :
    (setSyncCursor key value).quiet up =
      Uplink.setSyncCursor key value >>= fun _ => pure (.ok (), up) := rfl

@[simp] lemma quiet_quarantine (id : ℕ) (letter : DeadLetter) :
    (quarantine id letter).quiet up =
      Uplink.quarantine id letter >>= fun _ => pure (.ok (), up) := rfl

@[simp] lemma quiet_clock : clock.quiet up = Uplink.clock >>= fun now => pure (.ok now, up) := rfl

end

lemma quiet_accept (ids : List ℕ) (up : CloudUplinker) :
    (accept ids).quiet up = Uplink.accept up ids >>= fun up => pure (.ok (), up) := by
  simp only [accept, advanceCursor, Uplink.accept, RaiseM.quiet_bind, RaiseM.quiet_modify,
    RaiseM.quiet_tryCatch, quiet_markSynced, quiet_clock, quiet_getSyncCursor, bind_assoc,
    pure_bind]
  congr! 6
  split <;> simp

lemma quiet_isolateLoop (n : Isolation) (rows : List FixRow) (up : CloudUplinker) :
    (isolateLoop n rows).quiet up =
      Uplink.isolateLoop up n rows >>= fun r => pure (.ok r.2, r.1) := by
  induction rows generalizing n up with
  | nil => rfl
  | cons row rows ih =>
    simp only [isolateLoop, Uplink.isolateLoop, RaiseM.quiet_bind, quiet_post, bind_assoc,
      pure_bind]
    refine congrArg (Prog.bind _) (funext fun reply => ?_)
    cases reply with
    | error x => simp only [RaiseM.quiet_bind, RaiseM.quiet_modify, pure_bind, ih]
    | ok resp =>
      dsimp only
      split_ifs
      · simp only [RaiseM.quiet_bind, quiet_accept, bind_assoc, pure_bind, ih]
      · exact ih _ _
      · simp only [RaiseM.quiet_bind, quiet_clock, quiet_quarantine, quiet_markSynced, bind_assoc,
          pure_bind, ih]
      · exact ih _ _

lemma quiet_retry (fetched : ℕ) (err : UplinkError) (up : CloudUplinker) :
    (retry fetched err).quiet up = pure
      (.ok { fetched := fetched, retryable := true, status := .retry, error := some err },
        { up with lastError := some err }) := rfl

lemma quiet_runBatch (rows : List FixRow) (up : CloudUplinker) :
    (runBatch rows).quiet up = Uplink.runBatch up rows >>= fun r => pure (.ok r.2, r.1) := by
  unfold runBatch Uplink.runBatch
  split
  · rfl
  · simp only [RaiseM.quiet_bind, quiet_post, bind_assoc, pure_bind]
    refine congrArg (Prog.bind _) (funext fun reply => ?_)
    cases reply with
    | error x => exact quiet_retry _ _ _
    | ok resp =>
      dsimp only
      split_ifs
      · simp only [RaiseM.quiet_bind, quiet_accept, bind_assoc, pure_bind, RaiseM.quiet_pure]
      · exact quiet_retry _ _ _
      · simp only [isolatePoison, Uplink.isolatePoison, RaiseM.quiet_bind, quiet_isolateLoop,
          bind_assoc, pure_bind]
        refine congrArg (Prog.bind _) (funext fun r => ?_)
        split_ifs <;> rfl
      · exact quiet_retry _ _ _

/-- **Where nothing raises**, `run_once` does as in the model without exceptions. -/
lemma quiet_runOnce (batchSize : ℕ) (up : CloudUplinker) :
    (runOnce batchSize).quiet up =
      Uplink.runOnce up batchSize >>= fun r => pure (.ok r.2, r.1) := by
  simp only [runOnce, Uplink.runOnce, RaiseM.quiet_bind, quiet_getUnsynced, quiet_runBatch,
    bind_assoc, pure_bind]

/-! ### What `run_once` may do -/

/-- A method that makes only allowed calls, however it ends. -/
abbrev Obeys {α : Type} (h : List (Event Call Answer)) (p : RunM α) : Prop :=
  RaiseM.Meets Allowed (fun _ _ => True) h p

section

variable {h h' : List (Event Call Answer)} {α β : Type}

lemma Obeys.bind {p : RunM α} {f : α → RunM β} (hp : Obeys h p)
    (hf : ∀ h' a, h <+: h' → Obeys h' (f a)) : Obeys h (p >>= f) :=
  RaiseM.Meets.bind hp.grows (fun _ a hmid => hf _ a hmid.2) fun _ _ _ => trivial

/-- A call, where it matters what the answer is. -/
lemma Obeys.ask_bind {c : Call} {f : Answer c → RunM β} (hguard : Allowed h c)
    (hf : ∀ a, Obeys (h ++ [⟨c, a⟩]) (f a)) : Obeys h (RaiseM.ask c >>= f) :=
  RaiseM.Meets.ask_bind hguard hf fun _ => trivial

/-- A call of whose answer nothing is to be known. -/
lemma Obeys.of_ask {c : Call} (hguard : Allowed h c) :
    Obeys h (RaiseM.ask c : RunM (Answer c)) :=
  RaiseM.Meets.ask hguard (fun _ => trivial) fun _ => trivial

lemma advanceCursor_obeys (ids : List ℕ) : Obeys h (advanceCursor ids) := by
  have htry : Obeys h (do
      let cur ← getSyncCursor "uplink_hwm" 0
      if (ids.foldl max 0 : ℕ) > cur then
        setSyncCursor "uplink_hwm" (ids.foldl max 0 : ℕ)) := by
    refine Obeys.bind (.of_ask trivial) fun _ cur _ => ?_
    split
    · exact .of_ask trivial
    · exact .pure trivial
  exact .tryCatch htry (fun _ _ _ => trivial) fun _ _ _ => .pure trivial

lemma accept_obeys {ids : List ℕ} (hids : ∀ id ∈ ids, AcceptedIn h id) : Obeys h (accept ids) := by
  refine Obeys.bind (.of_ask fun id hid => .inl (hids id hid)) fun _ _ _ => ?_
  refine Obeys.bind (.modify trivial) fun _ _ _ => ?_
  refine Obeys.bind (.of_ask trivial) fun _ now _ => ?_
  exact Obeys.bind (.modify trivial) fun _ _ _ => advanceCursor_obeys ids

/-- **One by one**: every fix is posted alone, and what happens to it follows from the answer
to that POST. -/
lemma isolateLoop_obeys (n : Isolation) {rows : List FixRow}
    (hrows : ∀ row ∈ rows, FetchedIn h row) : Obeys h (isolateLoop n rows) := by
  induction rows generalizing h n with
  | nil => exact .pure trivial
  | cons row rows ih =>
    have hpost : Allowed h (.post [rowToFix row]) := by
      intro f hf
      exact ⟨row, hrows row List.mem_cons_self, List.mem_singleton.mp hf⟩
    -- after any further history the remaining rows are still fetched ones
    have hrest : ∀ h', h <+: h' → ∀ n, Obeys h' (isolateLoop n rows) := by
      intro h' hle n
      exact ih n fun r hr => (hrows r (List.mem_cons_of_mem _ hr)).mono hle
    refine Obeys.ask_bind hpost fun reply => ?_
    have hle : h <+: h ++ [⟨.post [rowToFix row], reply⟩] := List.prefix_append _ _
    cases reply with
    | error x =>
      exact Obeys.bind (.modify trivial) fun h' _ hle' => hrest h' (hle.trans hle') _
    | ok resp =>
      have hmem : (⟨.post [rowToFix row], .ok resp⟩ : Event Call Answer) ∈
          h ++ [⟨.post [rowToFix row], .ok resp⟩] := by simp
      dsimp only
      split_ifs with haccepted hretry hreject
      · -- accepted: the fix was in this POST
        refine Obeys.bind (accept_obeys fun id hid => ?_) fun h' _ hle' =>
          hrest h' (hle.trans hle') _
        obtain rfl := List.mem_singleton.mp hid
        exact ⟨_, resp, hmem, by simpa [isAccepted] using haccepted, rowToFix row,
          List.mem_singleton_self _, rfl⟩
      · exact hrest _ hle _
      · -- rejected: the fix was alone in this POST, and is quarantined before it is marked
        have hstatus : 400 ≤ resp.status ∧ resp.status ≤ 499 ∧ resp.status ≠ 429 := by
          simp only [isRejectStatus, Bool.and_eq_true, decide_eq_true_eq] at hreject
          omega
        have halone : RejectedAloneIn (h ++ [⟨.post [rowToFix row], .ok resp⟩]) row.id :=
          ⟨rowToFix row, resp, hmem, rfl, hstatus⟩
        refine Obeys.bind (.of_ask trivial) fun h₁ now hle₁ => ?_
        refine Obeys.ask_bind (halone.mono hle₁) fun _ => ?_
        have hle₂ := hle₁.trans (List.prefix_append h₁
          [⟨.quarantine row.id (deadLetterOf resp now), ()⟩])
        refine Obeys.bind (.of_ask fun id hid => .inr ?_) fun h' _ hle' =>
          hrest h' ((hle.trans hle₂).trans hle') _
        obtain rfl := List.mem_singleton.mp hid
        exact ⟨deadLetterOf resp now, List.mem_append_right _ (List.mem_singleton_self _)⟩
      · exact hrest _ hle _

lemma retry_obeys (fetched : ℕ) (err : UplinkError) : Obeys h (retry fetched err) :=
  Obeys.bind (.modify trivial) fun _ _ _ => .pure trivial

/-- **After its fetch `run_once` makes only allowed calls**, whatever came before, whatever the
answers are and whatever raises. -/
lemma runBatch_obeys {rows : List FixRow} (hrows : ∀ row ∈ rows, FetchedIn h row) :
    Obeys h (runBatch rows) := by
  unfold runBatch
  split
  · exact .pure trivial
  · have hpost : Allowed h (.post (rows.map rowToFix)) := by
      intro f hf
      obtain ⟨row, hrow, rfl⟩ := List.mem_map.mp hf
      exact ⟨row, hrows row hrow, rfl⟩
    refine Obeys.ask_bind hpost fun reply => ?_
    cases reply with
    | error x => exact retry_obeys _ _
    | ok resp =>
      dsimp only
      split_ifs with haccepted hretry hreject
      · refine Obeys.bind (accept_obeys fun id hid => ?_) fun _ _ _ => .pure trivial
        obtain ⟨row, hrow, rfl⟩ := List.mem_map.mp hid
        exact ⟨_, resp, by simp, by simpa [isAccepted] using haccepted, rowToFix row,
          List.mem_map_of_mem hrow, rfl⟩
      · exact retry_obeys _ _
      · refine Obeys.bind (isolateLoop_obeys _ fun row hrow =>
          (hrows row hrow).mono (List.prefix_append _ _)) fun _ n _ => ?_
        split_ifs
        · exact Obeys.bind (.modify trivial) fun _ _ _ => .pure trivial
        · exact .pure trivial
      · exact retry_obeys _ _

end

end SrtGateway.Uplink.Raising
