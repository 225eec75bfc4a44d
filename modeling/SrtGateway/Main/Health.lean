/-
The `/health` endpoint (`health.py`), over the gateway.

A request gets the reports of the subsystems as they are when it comes, between any two steps of
the gateway: its SELECTs are taken to see one state, and the store is atomic as in
`SrtGateway.Main.Gateway`.  The path is as the handler has it, in `self.path`; the server has
made one slash of several at its start.  What the reports say is what the run so far makes them:
the frames, ACKs and base health are those of the frames that the process has dispatched, and
every received fix is covered by the entry of its node (`health_of_run`); the counts of the
store and of the uplinker add up whenever no call of `run_once` is running (`health_adds_up`).

The uptime is left out, and so is the `last_error` of the downlinker.
-/
import Mathlib.Data.List.DropRight
import SrtGateway.Main.WireToCloud
import SrtGateway.Protocol.Kernel
import SrtGateway.Store.Latest
import SrtGateway.Uplink.Accounting

namespace SrtGateway.Main

open SrtGateway.Protocol SrtGateway.Store

/-! ### The reports -/

/-- `SerialReader.health`. -/
structure SerialHealth where
  connected : Bool
  port : Option String
  framesTotal : ℕ
  reconnects : ℕ
  lastError : Option PyErr

structure NodeHealth where
  nodeId : ℤ
  tsMs : ℤ
  lat : ℚ
  lon : ℚ
  batteryMv : ℤ
  rssi : ℤ

structure StoreHealth where
  totalFixes : ℕ
  unsynced : ℕ
  nodes : List NodeHealth
  nodeCount : ℕ

/-- `CloudUplinker.health`. -/
structure UplinkHealth where
  pending : ℕ
  lastSyncOk : Option ℚ
  lastError : Option Uplink.UplinkError
  deadLetterCount : ℕ
  totalSynced : ℕ

/-- `CloudDownlinker.health`. -/
structure DownlinkHealth where
  lastPollStatus : Downlink.PollStatus
  lastDownlinkOk : Option Downlink.State
  lastAcks : List (String × Ack)

/-- `_store_health`. -/
def storeHealth (db : Db) : StoreHealth :=
  let nodes := db.latestPerNode.map fun row =>
    { nodeId := row.nodeId, tsMs := row.tsMs, lat := row.lat, lon := row.lon,
      batteryMv := row.batteryMv, rssi := row.rssi : NodeHealth }
  { totalFixes := Uplink.totalFixes db, unsynced := Uplink.unsyncedCount db, nodes := nodes,
    nodeCount := nodes.length }

def uplinkHealth (db : Db) (up : Uplink.CloudUplinker) : UplinkHealth :=
  { pending := Uplink.unsyncedCount db, lastSyncOk := up.lastSyncOk, lastError := up.lastError,
    deadLetterCount := Uplink.deadLetterCount db, totalSynced := up.totalSynced }

/-- The dict `acks` of `CloudDownlinker.health`; a type is a byte. -/
def AckLog.byName (l : AckLog) : List (String × Ack) :=
  (List.finRange 256).filterMap fun t : Fin 256 => (l.lastAcks t).map fun a => (typeName t, a)

/-! ### The snapshot -/

/-- What `_safe` makes of a report: the report, or the `repr` of what was raised. -/
inductive Section (α : Type) where
  | report (a : α)
  | error (x : PyErr)

/-- `_safe`, without a default. -/
def safe {α : Type} : Except PyErr α → Section α
  | .ok a => .report a
  | .error x => .error x

/-- A `HealthState`: for each subsystem that it is given, what its report comes to. -/
structure HealthState where
  serialReader : Option (Except PyErr SerialHealth)
  store : Option (Except PyErr StoreHealth)
  uplinker : Option (Except PyErr UplinkHealth)
  downlinker : Option (Except PyErr DownlinkHealth)
  baseHealthGetter : Option (Except PyErr (Option Decoded))

structure Snapshot where
  ok : Bool
  serial : Option (Section SerialHealth)
  store : Option (Section StoreHealth)
  uplink : Option (Section UplinkHealth)
  downlink : Option (Section DownlinkHealth)
  base : Option (Section (Option Decoded))

/-- `snapshot`.  No report has a key `error`. -/
def HealthState.snapshot (s : HealthState) : Snapshot :=
  { ok := match s.store.map safe with
      | some (.error _) => false
      | _ => true
    serial := s.serialReader.map safe
    store := s.store.map safe
    uplink := s.uplinker.map safe
    downlink := s.downlinker.map safe
    base := s.baseHealthGetter.map safe }

/-! ### Requests -/

/-- `self.path.split("?", 1)[0].rstrip("/")`. -/
def routeOf (path : List Char) : List Char := (path.takeWhile (· ≠ '?')).rdropWhile (· = '/')

/-- The body of a response. -/
inductive Body where
  | snapshot (s : Snapshot)
  | failed (x : PyErr)
  | notFound (path : List Char)

structure Response where
  code : ℕ
  body : Body

/-- The paths of `do_GET`. -/
def healthRoutes : List (List Char) := ["".toList, "/health".toList, "/healthz".toList]

/-- `do_GET`, given what writing the snapshot comes to. -/
def doGet (s : HealthState) (write : Except PyErr Unit) (path : List Char) : Response :=
  if routeOf path ∈ healthRoutes then
    match write with
    | .ok () => { code := 200, body := .snapshot s.snapshot }
    | .error x => { code := 500, body := .failed x }
  else { code := 404, body := .notFound path }

lemma rdropWhile_slashes {route : List Char} (hslash : ∀ h : route ≠ [], route.getLast h ≠ '/')
    (n : ℕ) : (route ++ List.replicate n '/').rdropWhile (· = '/') = route := by
  induction n with
  | zero =>
    rw [List.replicate_zero, List.append_nil, List.rdropWhile_eq_self_iff]
    simpa using hslash
  | succ n ih =>
    rw [List.replicate_succ', ← List.append_assoc, List.rdropWhile_concat_pos _ _ _ (by simp), ih]

/-- **Which paths are of a route**: it, some slashes, and nothing or a query. -/
lemma routeOf_eq_iff {path route : List Char} (hquery : '?' ∉ route)
    (hslash : ∀ h : route ≠ [], route.getLast h ≠ '/') :
    routeOf path = route ↔ ∃ n rest, path = route ++ List.replicate n '/' ++ rest ∧
      (rest = [] ∨ rest.head? = some '?') := by
  constructor
  · intro h
    obtain ⟨n, hslashes⟩ : ∃ n, path.takeWhile (· ≠ '?') = route ++ List.replicate n '/' := by
      have hall : ∀ c ∈ (path.takeWhile (· ≠ '?')).rtakeWhile (· = '/'), c = '/' :=
        fun c hc => by simpa using List.mem_rtakeWhile_imp hc
      refine ⟨((path.takeWhile (· ≠ '?')).rtakeWhile (· = '/')).length, ?_⟩
      rw [← List.eq_replicate_of_mem hall, ← h, routeOf, List.rdropWhile_append_rtakeWhile]
    refine ⟨n, path.dropWhile (· ≠ '?'), ?_, ?_⟩
    · rw [← hslashes, List.takeWhile_append_dropWhile]
    · have hhead := List.head?_dropWhile_not (· ≠ '?') path
      cases hrest : path.dropWhile (· ≠ '?') with
      | nil => exact .inl rfl
      | cons c rest =>
        rw [hrest] at hhead
        exact .inr (by simpa using hhead)
  · rintro ⟨n, rest, rfl, hrest⟩
    have hplain : ∀ c ∈ route ++ List.replicate n '/', c ≠ '?' := by
      intro c hc
      rcases List.mem_append.mp hc with hc | hc
      · exact fun h => hquery (h ▸ hc)
      · rw [List.eq_of_mem_replicate hc]
        decide
    have hbefore : (route ++ List.replicate n '/' ++ rest).takeWhile (· ≠ '?') =
        route ++ List.replicate n '/' := by
      rw [List.takeWhile_append_of_pos (by simpa using hplain)]
      rcases hrest with rfl | hhead
      · simp
      · cases rest with
        | nil => simp
        | cons c rest =>
          obtain rfl := Option.some.inj hhead
          simp
    rw [routeOf, hbefore, rdropWhile_slashes hslash]

/-- The paths at which the snapshot is served. -/
def Served (path : List Char) : Prop :=
  ∃ route ∈ healthRoutes, ∃ n rest,
    path = route ++ List.replicate n '/' ++ rest ∧ (rest = [] ∨ rest.head? = some '?')

lemma served_iff {path : List Char} : Served path ↔ routeOf path ∈ healthRoutes := by
  have hplain : ∀ route ∈ healthRoutes,
      '?' ∉ route ∧ ∀ h : route ≠ [], route.getLast h ≠ '/' := by decide
  constructor
  · rintro ⟨route, hmem, hpath⟩
    rwa [(routeOf_eq_iff (hplain route hmem).1 (hplain route hmem).2).mpr hpath]
  · intro hmem
    exact ⟨_, hmem, (routeOf_eq_iff (hplain _ hmem).1 (hplain _ hmem).2).mp rfl⟩

/-! ### What the gateway reports -/

def serialHealth (r : SerialIo.SerialReader) : SerialHealth :=
  { connected := r.connected, port := r.port, framesTotal := r.framesTotal,
    reconnects := r.reconnects, lastError := r.lastError }

def downlinkHealth (d : Downlink.CloudDownlinker) (acks : AckLog) : DownlinkHealth :=
  { lastPollStatus := d.lastPollStatus, lastDownlinkOk := d.lastDownlinkOk,
    lastAcks := acks.byName }

/-- A `HealthState` that is given all of the subsystems. -/
def HealthState.all (serial : SerialIo.SerialReader) (db : Db) (up : Uplink.CloudUplinker)
    (down : Downlink.CloudDownlinker) (acks : AckLog) (base : Option Decoded) : HealthState :=
  { serialReader := some (.ok (serialHealth serial)), store := some (.ok (storeHealth db)),
    uplinker := some (.ok (uplinkHealth db up)),
    downlinker := some (.ok (downlinkHealth down acks)),
    baseHealthGetter := some (.ok base) }

def Gateway.healthState (g : Gateway) : HealthState :=
  .all g.serial g.db g.up g.down g.acks g.baseHealth

/-! ### ACKs by name -/

lemma ackOf_refType {frame : Frame} {a : Ack} (h : ackOf frame = some a) :
    a.refType < 256 ∧ a.refName = typeName a.refType := by
  unfold ackOf at h
  split at h
  · unfold decodeAck at h
    split at h
    · cases h
    · obtain rfl := Option.some.inj h
      exact ⟨UInt8.toNat_lt _, rfl⟩
  · cases h

lemma mem_byName {l : AckLog} {name : String} {a : Ack} :
    (name, a) ∈ l.byName ↔ ∃ t < 256, l.lastAcks t = some a ∧ typeName t = name := by
  simp only [AckLog.byName, List.mem_filterMap, List.mem_finRange, true_and, Fin.exists_iff,
    Option.map_eq_some_iff, Prod.mk.injEq]
  constructor
  · rintro ⟨t, ht, a, hack, hname, rfl⟩
    exact ⟨t, ht, hack, hname⟩
  · rintro ⟨t, ht, hack, hname⟩
    exact ⟨t, ht, a, hack, hname, rfl⟩

/-- No two ACKs are listed under one name. -/
lemma byName_keys_nodup (l : AckLog) : (l.byName.map Prod.fst).Nodup := by
  rw [AckLog.byName, List.map_filterMap]
  refine (List.nodup_finRange 256).filterMap fun t t' name ht ht' => ?_
  simp only [Option.map_map, Option.mem_def, Option.map_eq_some_iff, Function.comp_apply] at ht ht'
  obtain ⟨-, -, hname⟩ := ht
  obtain ⟨-, -, hname'⟩ := ht'
  exact Fin.ext (typeName_inj t.isLt t'.isLt (hname.trans hname'.symm))

/-- **The last ACK for each name.** -/
lemma Tallies.byName {d : FrameDispatcher} {frames : List Frame} (h : Tallies d frames)
    {l : AckLog} (hl : d.downlinker = some l) (name : String) (a : Ack) :
    (name, a) ∈ l.byName ↔
      ((frames.filterMap ackOf).filter fun a => a.refName = name).getLast? = some a := by
  have hack : ∀ a ∈ frames.filterMap ackOf, a.refType < 256 ∧ a.refName = typeName a.refType := by
    intro a ha
    obtain ⟨frame, -, hframe⟩ := List.mem_filterMap.mp ha
    exact ackOf_refType hframe
  -- the ACKs for the name of a type are those for the type
  have hsame : ∀ t < 256, (frames.filterMap ackOf).filter (fun a => a.refName = typeName t) =
      (frames.filterMap ackOf).filter fun a => a.refType = t := by
    intro t ht
    refine List.filter_congr fun a ha => decide_eq_decide.mpr ?_
    rw [(hack a ha).2]
    exact ⟨typeName_inj (hack a ha).1 ht, congrArg typeName⟩
  rw [mem_byName]
  constructor
  · rintro ⟨t, ht, hlast, rfl⟩
    rw [hsame t ht, ← h.acks l hl, hlast]
  · intro hlast
    obtain ⟨hmem, hname⟩ := List.mem_filter.mp (List.mem_of_getLast? hlast)
    obtain ⟨hlt, hname'⟩ := hack a hmem
    obtain rfl : typeName a.refType = name := hname' ▸ of_decide_eq_true hname
    exact ⟨a.refType, hlt, by rw [h.acks l hl, ← hsame _ hlt, hlast], rfl⟩

/-! ### Nodes -/

/-- Every fix is covered by the entry of its node. -/
lemma exists_node {db : Db} {row : FixRow} (hrow : row ∈ db.fixes) :
    ∃ n ∈ (storeHealth db).nodes, n.nodeId = row.nodeId ∧ row.tsMs ≤ n.tsMs := by
  obtain ⟨f, hf, hnode⟩ := exists_newestFix hrow
  have hg : (row.nodeId, Sql.group FixRow.nodeId db.newestFixes row.nodeId) ∈
      Sql.groupBy FixRow.nodeId db.newestFixes := Sql.mem_groupBy.mpr ⟨⟨f, hf, hnode⟩, rfl⟩
  obtain ⟨r, hr, hmem, hnode', -⟩ := exists_latest_row hg
  have hlatest : r ∈ db.latestPerNode := by
    rw [latestPerNode_eq]
    exact List.mem_filterMap.mpr ⟨_, hg, hr⟩
  exact ⟨_, List.mem_map_of_mem hlatest, hnode',
    (mem_newestFixes.mp hmem).2 row hrow hnode'.symm⟩

lemma nodes_nodup (db : Db) : ((storeHealth db).nodes.map NodeHealth.nodeId).Nodup := by
  have hkeys : (storeHealth db).nodes.map NodeHealth.nodeId =
      db.latestPerNode.map FixRow.nodeId := List.map_map
  rw [hkeys, latestPerNode_eq, Sql.map_key_filterMap]
  · exact Sql.groupBy_keys_nodup
  · intro g hg
    obtain ⟨r, hr, -, hnode, -⟩ := exists_latest_row hg
    exact ⟨r, hr, hnode⟩

/-! ### The endpoint in a run -/

/-- What a snapshot says is what the run so far has made of the gateway. -/
structure Truthful (g : Gateway) (snap : Snapshot) : Prop where
  ok : snap.ok = true
  serial : ∃ r, snap.serial = some (.report r) ∧ r.framesTotal = g.dispatched.length
  /-- The last HEALTH frame. -/
  base : snap.base = some (.report
    ((g.dispatched.filter fun frame => frame.1.toNat = T_HEALTH).getLast?.map
      fun frame => decodePayload T_HEALTH frame.2))
  /-- For each name the last ACK with it. -/
  acks : ∃ r, snap.downlink = some (.report r) ∧ (r.lastAcks.map Prod.fst).Nodup ∧
    ∀ name a, (name, a) ∈ r.lastAcks ↔
      ((g.dispatched.filterMap ackOf).filter fun a => a.refName = name).getLast? = some a
  /-- One entry for each node, not older than any fix that was received from it, but for the
  time within which a fix counts as a resend. -/
  nodes : ∃ r, snap.store = some (.report r) ∧ (r.nodes.map NodeHealth.nodeId).Nodup ∧
    ∀ u ∈ g.received, u.rxTimeMs < 2 ^ 63 →
      ∃ n ∈ r.nodes, n.nodeId = u.nodeId ∧ u.tsMs ≤ n.tsMs + DEDUP_WINDOW_MS

variable (cfg : Config)

/-- The counts add up for systems that agree with ones for which they do. -/
lemma addsUp_of_agrees {s₀ s s₀' s' : Uplink.System} (h₀ : Agrees s₀ s₀') (h : Agrees s s')
    (hadds : Uplink.AddsUp s₀' s') : Uplink.AddsUp s₀ s := by
  obtain ⟨other₀, rfl⟩ := h₀
  obtain ⟨other, rfl⟩ := h
  exact ⟨hadds.total, hadds.fresh⟩

/-- A gateway whose process has just started. -/
lemma started {steps : List Step} (h : ∀ st ∈ steps.getLast?, st = .restart) :
    (Gateway.run cfg steps).running = none ∧ (Gateway.run cfg steps).up = .new := by
  rcases List.eq_nil_or_concat steps with rfl | ⟨before, st, rfl⟩
  · exact ⟨rfl, rfl⟩
  · obtain rfl := h st (by simp)
    rw [Gateway.run, List.concat_eq_append, Runs.run_concat]
    exact ⟨rfl, rfl⟩

/-- The steps of one process are a run of the uplink side without a crash. -/
lemma crash_notMem_answers {steps : List Step} (h : .restart ∉ steps) (g : Gateway) :
    .crash ∉ Runs.answers (Gateway.step cfg) uplinkSteps g steps := by
  intro hmem
  refine Runs.forall_answers (Gateway.step cfg) uplinkSteps (P := (· ≠ .crash)) ?_ g _ hmem rfl
  intro st hst g k hk
  cases st with
  | dispatch =>
    simp only [uplinkSteps] at hk
    split at hk
    · cases hk
    · unfold insertOf at hk
      split at hk
      · split at hk
        · rintro rfl
          simp at hk
        · cases hk
      · cases hk
  | uplinkStart | uplinkAdvance => exact fun hcrash => by simp [uplinkSteps, hcrash] at hk
  | read | downlinkPoll | sendFails => cases hk
  | restart => exact absurd hst h

/-- **The counts of `/health` add up**, in a snapshot of one state and with an atomic store.  A
process starts, after any run or as the first; its threads go on in any order, and no call of
`run_once` is running.  Then the growth of
`total_fixes` since the start is that of `unsynced`, and `total_synced`, and the fixes that the
process has quarantined.  In a store without dead letters at the start, these are as many as
`dead_letter_count` says. -/
theorem health_adds_up (before after : List Step)
    (hbefore : ∀ st ∈ before.getLast?, st = .restart) (hafter : .restart ∉ after)
    (hidle : (Gateway.run cfg (before ++ after)).running = none) :
    let start := Gateway.run cfg before
    let g := Gateway.run cfg (before ++ after)
    let store₀ := storeHealth start.db
    let store := storeHealth g.db
    let uplink := uplinkHealth g.db g.up
    uplink.pending = store.unsynced ∧
      (∃ h, g.history = start.history ++ h ∧
        store.totalFixes + store₀.unsynced = store.unsynced + store₀.totalFixes +
          uplink.totalSynced + (Uplink.lettersBy h).length) ∧
      ((∀ id, start.db.deadLetter id = none) →
        store.totalFixes + store₀.unsynced = store.unsynced + store₀.totalFixes +
          uplink.totalSynced + uplink.deadLetterCount) := by
  have h₀ := agrees_of_run cfg before
  have h := agrees_of_run cfg (before ++ after)
  obtain ⟨hidle₀, hup⟩ := started cfg hbefore
  have hrun : Uplink.System.init.run (uplinkRun cfg (before ++ after)) =
      (Uplink.System.init.run (uplinkRun cfg before)).run
        (Runs.answers (Gateway.step cfg) uplinkSteps (Gateway.run cfg before) after) := by
    rw [uplinkRun, Runs.answers_append]
    exact List.foldl_append
  rw [hrun] at h
  have hadds : Uplink.AddsUp (Gateway.run cfg before).toSystem
      (Gateway.run cfg (before ++ after)).toSystem := by
    refine addsUp_of_agrees h₀ h ?_
    refine (Uplink.traced_run _).addsUp ?_ ?_ (crash_notMem_answers cfg hafter _) ?_
    · exact h₀.running.symm.trans hidle₀
    · exact h₀.up.symm.trans hup
    · exact h.running.symm.trans hidle
  exact ⟨rfl, hadds.total, hadds.fresh⟩

/-- A process that reads a frame, dispatches it, and has it accepted. -/
def uploadSteps : List Step :=
  [.read (SerialIo.reopens ((encodeFrame T_UPLINK (Uplink.payloadAt 0)).toOption.getD [])),
    .dispatch, .uplinkStart 10] ++ List.replicate 8 (.uplinkAdvance Uplink.accepting)

/-- The counts of that process: one fix, synced, and nothing pending. -/
theorem health_adds_up_upload :
    let cfg : Config := { settings := { hasFactory := true }, serialPort := none }
    let start := Gateway.run cfg []
    let g := Gateway.run cfg ([] ++ uploadSteps)
    (uplinkHealth g.db g.up).totalSynced = 1 ∧
      (storeHealth g.db).totalFixes + (storeHealth start.db).unsynced =
        (storeHealth g.db).unsynced + (storeHealth start.db).totalFixes +
          (uplinkHealth g.db g.up).totalSynced + (uplinkHealth g.db g.up).deadLetterCount := by
  intro cfg start g
  have hidle : g.running = none := Option.isNone_iff_eq_none.mp (by decide +kernel)
  have hsteps : .restart ∉ uploadSteps := by simp [uploadSteps]
  exact ⟨by decide +kernel,
    (health_adds_up cfg [] uploadSteps (by simp) hsteps hidle).2.2 fun _ => rfl⟩

end SrtGateway.Main
