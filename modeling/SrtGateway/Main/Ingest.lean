/-
What a run makes of the store is a function of the frames.

With an atomic store, however the threads of a gateway are interleaved between their calls on
it, and whatever its cloud, its link and its restarts do: the fixes, less their flags, and the
nodes are those that the dispatched frames of all its processes make of an empty store, taken
one after another (`ingest_of_run`).  So they can be had again by replaying captures of what the
processes read (`replay_reproduces`).  Replaying a capture once more adds nothing just when the
fixes in it are still known (`replay_again_iff`).
-/
import SrtGateway.Main.WireToCloud
import SrtGateway.Store.Ingested

namespace SrtGateway.Main

open SrtGateway.Protocol SrtGateway.Store

/-! ### Ingest on its own -/

/-- The store after a frame. -/
def ingestFrame (db : Db) (frame : Frame) : Db :=
  db.run (opsOfFrame frame.1.toNat (decodePayload frame.1.toNat frame.2))

/-- The store after some frames. -/
def ingest (db : Db) (frames : List Frame) : Db := frames.foldl ingestFrame db

lemma ofIngest_opsOfFrame (frameType : ℕ) (decoded : Decoded) :
    ∀ op ∈ opsOfFrame frameType decoded, op.OfIngest := by
  cases decoded with
  | uplink u =>
    rw [opsOfFrame]
    split <;> simp [StoreOp.OfIngest]
  | nodeStats s =>
    rw [opsOfFrame]
    split <;> simp [StoreOp.OfIngest, FrameDispatcher.upsertOf]
  | raw | ack | health | log => simp [opsOfFrame]

/-! ### The simulation -/

lemma perform_ingested (db : Db) (world : Uplink.World) (c : Uplink.Call) :
    (Uplink.perform db world c).2.ingested = db.ingested := by
  cases c with
  | markSynced ids => exact exec_ingested db (.markSynced ids)
  | getUnsynced | post | getSyncCursor | setSyncCursor | quarantine | clock => rfl

lemma advance_ingested (s : Uplink.System) (world : Uplink.World) :
    (s.advance world).db.ingested = s.db.ingested := by
  rw [Uplink.System.advance]
  rcases s.running with _ | ⟨⟨up, stats⟩⟩ | ⟨c, next⟩
  · rfl
  · rfl
  · exact perform_ingested s.db world c

variable (cfg : Config)

/-- **The gateway ingests frames**, and does nothing else to the fixes and the nodes. -/
lemma ingest_simulation : Runs.Simulation (Gateway.step cfg) ingestFrame frameOf
    fun g db => Pipeline g ∧ g.db.ingested = db := by
  rintro g db st ⟨hpipeline, rfl⟩
  refine ⟨hpipeline.step cfg st, ?_⟩
  cases st with
  | read env =>
    have hsame : (g.read cfg env).db = g.db := by
      unfold Gateway.read
      split <;> rfl
    exact congrArg Db.ingested hsame
  | dispatch =>
    rcases hcalls : g.pending with _ | ⟨⟨frame, decoded⟩, pending⟩
    · simp [Gateway.step, Gateway.dispatch, frameOf, hcalls]
    · have hdecoded : decoded = decodePayload frame.1.toNat frame.2 :=
        hpipeline.decoded (frame, decoded) (hcalls ▸ List.mem_cons_self)
      have hdb : g.dispatch.db = g.db.run (opsOfFrame frame.1.toNat decoded) := by
        rw [Gateway.dispatch, hcalls]
        exact onFrame_store g.dispatcher frame.1.toNat decoded
      have hframe : frameOf g .dispatch = [frame] := by simp [frameOf, hcalls]
      rw [hframe, Runs.run_cons, Runs.run_nil, ingestFrame, ← hdecoded,
        run_ingested _ (ofIngest_opsOfFrame _ _), ← hdb]
      rfl
  | uplinkStart batchSize =>
    have hsame : (g.toSystem.step (.start batchSize)).db = g.db := by
      rw [Uplink.System.step]
      split <;> rfl
    exact congrArg Db.ingested hsame
  | uplinkAdvance world => exact advance_ingested g.toSystem world
  | downlinkPoll env nowMs =>
    simp only [Gateway.step, Gateway.downlinkPoll, recordPoll, frameOf, Runs.run_nil]
    split
    · exact exec_ingested g.db (.storeFingerprint _ nowMs)
    · rfl
  | sendFails x => rfl
  | restart => rfl

/-- What ingest has made of the store is a function of the dispatched frames. -/
lemma ingested_eq (steps : List Step) :
    (Gateway.run cfg steps).db.ingested = ingest .empty (Gateway.run cfg steps).frames := by
  have hinit : Pipeline (.init cfg) ∧ (Gateway.init cfg).db.ingested = Db.empty :=
    ⟨pipeline_init cfg, rfl⟩
  have hrun := ((ingest_simulation cfg).run hinit steps).2
  rw [frames_of_run]
  exact hrun

/-! ### Replaying captures -/

/-- A dispatcher that has got no frame. -/
def FrameDispatcher.new (db : Db) : FrameDispatcher :=
  { store := db, downlinker := some { lastAcks := fun _ => none, lastError := none },
    baseHealth := none, counts := fun _ => 0 }

/-- The dispatcher after `_run_replay` of a file that contains `data`. -/
def FrameDispatcher.replay (d : FrameDispatcher) (data : List UInt8) (readSize : ℕ) :
    FrameDispatcher :=
  let calls := ((SerialIo.SerialReader.new none none).runReplay handlers data readSize
    fun _ => false).2
  calls.foldl (fun d call => d.onFrame call.1.1.toNat call.2) d

/-- The store after a capture is replayed. -/
def replayed (readSize : ℕ) (db : Db) (data : List UInt8) : Db :=
  ((FrameDispatcher.new db).replay data readSize).store

/-- What the calls for some frames make of the store. -/
lemma onFrames_store (frames : List Frame) (d : FrameDispatcher) :
    ((frames.map fun frame => (frame, decodePayload frame.1.toNat frame.2)).foldl
      (fun d call => d.onFrame call.1.1.toNat call.2) d).store = ingest d.store frames := by
  induction frames generalizing d with
  | nil => rfl
  | cons frame frames ih =>
    rw [List.map_cons, List.foldl_cons, ih, onFrame_store]
    rfl

/-- **A replay ingests the frames** that one parser returns. -/
lemma replayed_eq {readSize : ℕ} (hread : 1 ≤ readSize) (db : Db) (data : List UInt8) :
    replayed readSize db data = ingest db (FrameParser.new.push data).1 := by
  have hcalls : ((SerialIo.SerialReader.new none none).runReplay handlers data readSize
      fun _ => false).2 = (FrameParser.new.push data).1.map
        fun frame => (frame, decodePayload frame.1.toNat frame.2) := by
    rw [SerialIo.SerialReader.runReplay, ← callsOf_handlers]
    exact (SerialIo.runReplayLoop_feeds handlers hread (fun _ => rfl) 0 data
      (r := .new none none) new_settled []).2
  rw [replayed, FrameDispatcher.replay, hcalls]
  exact onFrames_store _ _

lemma ingest_flatMap (readSize : ℕ) (hread : 1 ≤ readSize) (ps : List Process)
    (hparsed : ∀ p ∈ ps, p.dispatched = (FrameParser.new.push p.bytes).1) (db : Db) :
    ingest db (ps.flatMap Process.dispatched) =
      (ps.map Process.bytes).foldl (replayed readSize) db := by
  induction ps generalizing db with
  | nil => rfl
  | cons p ps ih =>
    rw [List.forall_mem_cons] at hparsed
    rw [List.flatMap_cons, List.map_cons, List.foldl_cons, replayed_eq hread, ← hparsed.1,
      ← ih hparsed.2]
    exact List.foldl_append

/-- **The store is a function of the frames.**  In every state of every run of the gateway in
which no call of `on_frame` is interrupted, the fixes, ids and retired sequence numbers included
but not the flags, and the nodes are those that the dispatched frames of all processes, in their
order, make of an empty store.  And when no process has left a parsed frame undispatched,
replaying what each of them read, one after another and into an empty store, gives them again. -/
theorem ingest_of_run (steps : List Step) :
    let g := Gateway.run cfg steps
    g.db.ingested = ingest .empty g.frames ∧
      ((∀ p ∈ g.processes, p.pending = []) → ∀ readSize, 1 ≤ readSize →
        g.db.ingested = (g.processes.map Process.bytes).foldl (replayed readSize) .empty) := by
  intro g
  have hingested : g.db.ingested = ingest .empty g.frames := ingested_eq cfg steps
  refine ⟨hingested, fun hdone readSize hread => ?_⟩
  have hparsed : ∀ p ∈ g.processes, p.dispatched = (FrameParser.new.push p.bytes).1 := by
    intro p hp
    have hall : p.dispatched ++ p.pending = (FrameParser.new.push p.bytes).1 :=
      (pipeline_of_run cfg steps).parsed p hp
    rwa [hdone p hp, List.append_nil] at hall
  rw [hingested]
  exact ingest_flatMap readSize hread g.processes hparsed .empty

/-! ### Replaying a capture again -/

/-- What a frame does to the fixes. -/
lemma ingestFrame_fixes (db : Db) (frame : Frame) :
    (ingestFrame db frame).fixes =
      ((uplinkOf frame).map fun u => (db.insertFix u).2.fixes).getD db.fixes := by
  rw [ingestFrame]
  by_cases ht : frame.1.toNat = T_UPLINK
  · rw [uplinkOf, if_pos ht, ht, decodePayload_uplink]
    cases decodeUplink frame.2 with
    | none => rfl
    | some u =>
      simp only [Option.map_some, Option.getD_some, opsOfFrame, if_pos]
      rfl
  · rw [uplinkOf, if_neg ht, Option.map_none, Option.getD_none]
    cases decodePayload frame.1.toNat frame.2 with
    | uplink u =>
      rw [opsOfFrame, if_neg ht]
      rfl
    | nodeStats stats =>
      rw [opsOfFrame]
      split
      · obtain ⟨nodes, hnodes⟩ := run_upserts db stats.entries
        rw [hnodes]
        rfl
      · rfl
    | raw | ack | health | log => rfl

/-- **Inserting a fix** adds a row, or the fix is known or cannot be bound and the rows stay. -/
lemma insertFix_fixes_cases {db : Db} (hdb : db.UniqueSlots) (u : Uplink) :
    ((db.insertFix u).2.fixes = db.fixes ∧ (db.CanBind u → db.Holds u)) ∨
      ((db.insertFix u).2.fixes.length = db.fixes.length + 1 ∧ db.CanBind u ∧ ¬ db.Holds u) := by
  have hbind := insertFix_ok_iff hdb u
  rw [← hdb.knows_iff]
  rcases hcase : db.insertFix u with ⟨outcome, db'⟩
  rw [hcase] at hbind
  cases hcase ▸ insertFix_cases db u with
  | raised x =>
    refine .inl ⟨rfl, fun hcan => ?_⟩
    obtain ⟨inserted, hok⟩ := hbind.mpr hcan
    cases hok
  | resend row nodes hslot hrecent =>
    exact .inl ⟨rfl, fun _ => by rw [Db.knows, hslot]; exact hrecent⟩
  | fresh nodes hslot =>
    refine .inr ⟨List.length_append, hbind.mp ⟨true, rfl⟩, ?_⟩
    simp [Db.knows, hslot]
  | wrapped row nodes hslot hstale =>
    refine .inr ⟨?_, hbind.mp ⟨true, rfl⟩, ?_⟩
    · simp [Db.retire]
    · simp [Db.knows, hslot, hstale]

/-- The uplink of a frame is still known, if it can be bound. -/
def StillKnown (db : Db) (frame : Frame) : Prop :=
  ∀ u, uplinkOf frame = some u → u.rxTimeMs < 2 ^ 63 → db.Holds u

/-- A frame adds a row, or its uplink is known and the rows stay. -/
lemma ingestFrame_cases {db : Db} (hdb : db.UniqueSlots) (frame : Frame) :
    ((ingestFrame db frame).fixes = db.fixes ∧ StillKnown db frame) ∨
      ((ingestFrame db frame).fixes.length = db.fixes.length + 1 ∧ ¬ StillKnown db frame) := by
  rw [ingestFrame_fixes]
  cases huplink : uplinkOf frame with
  | none => exact .inl ⟨rfl, fun u hu => absurd (huplink.symm.trans hu) (by simp)⟩
  | some u =>
    obtain ⟨ht, hdecode⟩ : frame.1.toNat = T_UPLINK ∧ decodeUplink frame.2 = some u := by
      unfold uplinkOf at huplink
      split at huplink
      · exact ⟨‹_›, huplink⟩
      · cases huplink
    have hiff := canBind_or_holds_iff hdb hdecode
    have hknown : StillKnown db frame ↔ (u.rxTimeMs < 2 ^ 63 → db.Holds u) := by
      refine ⟨fun h => h u huplink, fun h u' hu' hrx => ?_⟩
      obtain rfl := Option.some.inj (huplink.symm.trans hu')
      exact h hrx
    rw [hknown]
    rcases insertFix_fixes_cases hdb u with ⟨hsame, hheld⟩ | ⟨hlen, hcan, hnot⟩
    · refine .inl ⟨hsame, fun hrx => ?_⟩
      exact (hiff.mpr (.inl hrx)).elim hheld id
    · refine .inr ⟨hlen, fun hheld => hnot ?_⟩
      exact (hiff.mp (.inl hcan)).elim hheld id

lemma ingest_uniqueSlots {db : Db} (hdb : db.UniqueSlots) (frames : List Frame) :
    (ingest db frames).UniqueSlots := by
  induction frames generalizing db with
  | nil => exact hdb
  | cons frame frames ih => exact ih (hdb.run _)

/-- Ingest only adds rows. -/
lemma length_ingest {db : Db} (hdb : db.UniqueSlots) (frames : List Frame) :
    db.fixes.length ≤ (ingest db frames).fixes.length := by
  induction frames generalizing db with
  | nil => exact le_rfl
  | cons frame frames ih =>
    have hrest : (ingestFrame db frame).fixes.length ≤
        (ingest (ingestFrame db frame) frames).fixes.length := ih (hdb.run _)
    rcases ingestFrame_cases hdb frame with ⟨hsame, -⟩ | ⟨hlen, -⟩
    · rwa [hsame] at hrest
    · exact (Nat.le_of_lt (hlen ▸ Nat.lt_succ_self _)).trans hrest

/-- Frames leave the rows as they are just when all their uplinks are known. -/
lemma ingest_fixes_iff {db : Db} (hdb : db.UniqueSlots) (frames : List Frame) :
    (ingest db frames).fixes = db.fixes ↔ ∀ frame ∈ frames, StillKnown db frame := by
  induction frames generalizing db with
  | nil => simp [ingest]
  | cons frame frames ih =>
    have hslots : (ingestFrame db frame).UniqueSlots := hdb.run _
    have hcons : ingest db (frame :: frames) = ingest (ingestFrame db frame) frames := rfl
    rw [List.forall_mem_cons, hcons]
    rcases ingestFrame_cases hdb frame with ⟨hsame, hknown⟩ | ⟨hlen, hunknown⟩
    · have hholds : ∀ f, StillKnown (ingestFrame db frame) f ↔ StillKnown db f := by
        intro f
        simp only [StillKnown, Db.Holds, hsame]
      have hrest := ih hslots
      simp only [hholds, hsame] at hrest
      rw [hrest, and_iff_right hknown]
    · -- the first of the frames has added a row, and the others take none away
      refine iff_of_false (fun hall => ?_) fun hall => hunknown hall.1
      have hrest := length_ingest hslots frames
      rw [hall] at hrest
      omega

/-- **Replaying a capture again.**  Whatever the store held before, and whatever has been marked
or quarantined since: a second replay of a capture leaves all rows as they are, their flags
included, just when every uplink of the capture that can be bound is still known after the
first; that is, when the capture itself has not displaced it, by a later uplink with the same
sequence number. -/
theorem replay_again_iff (db : Db) (hdb : Reachable db) (data : List UInt8) (readSize : ℕ)
    (hread : 1 ≤ readSize) (since : Db)
    (hsince : since.ingested = (replayed readSize db data).ingested) :
    (replayed readSize since data).fixes = since.fixes ↔
      ∀ frame ∈ (FrameParser.new.push data).1, StillKnown (replayed readSize db data) frame := by
  have hslots : since.UniqueSlots := by
    rw [← uniqueSlots_ingested, hsince, uniqueSlots_ingested, replayed_eq hread]
    exact ingest_uniqueSlots hdb.uniqueSlots _
  have hknown : ∀ frame, StillKnown since frame ↔ StillKnown (replayed readSize db data) frame := by
    intro frame
    have hholds : ∀ u, since.Holds u ↔ (replayed readSize db data).Holds u := by
      intro u
      rw [← holds_ingested, hsince, holds_ingested]
    simp only [StillKnown, hholds]
  rw [replayed_eq hread since data, ingest_fixes_iff hslots]
  simp only [hknown]

/-- A capture with two fixes, two hours apart, of one sequence number. -/
def wrapCapture : List UInt8 :=
  [0, 7200].flatMap fun gpsTime =>
    (encodeFrame T_UPLINK (Uplink.payloadAt gpsTime)).toOption.getD []

/-- The first fix of that capture has been displaced, so a second replay adds rows. -/
theorem replay_again_wrap :
    (replayed 64 .empty wrapCapture).fixes.length = 2 ∧
      (replayed 64 (replayed 64 .empty wrapCapture) wrapCapture).fixes ≠
        (replayed 64 .empty wrapCapture).fixes := by
  refine ⟨by decide +kernel, fun hsame => ?_⟩
  have hall := (replay_again_iff .empty ⟨[], rfl⟩ wrapCapture 64 (by decide) _ rfl).mp hsame
  have hfirst : (1, Uplink.payloadAt 0) ∈ (FrameParser.new.push wrapCapture).1 := by
    decide +kernel
  have hgone : ¬ (replayed 64 .empty wrapCapture).Holds (Uplink.uplinkAt 0) := by
    unfold Db.Holds
    decide +kernel
  exact hgone (hall _ hfirst (Uplink.uplinkAt 0) (by decide +kernel) (by decide))

end SrtGateway.Main
