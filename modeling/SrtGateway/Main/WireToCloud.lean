/-
From the wire to the cloud.

The uplink side of a gateway goes through the states of an `Uplink.System` into which the
decoded UPLINK frames are inserted as they are dispatched (`gateway_simulates`): reading,
programming the base and dispatching other frames change nothing that it uses.  What holds in
every run of that system therefore holds in every run of the gateway.  In both the store is
atomic: no call on it is interrupted, by another thread or by the end of the process, and only
`insert_fix` raises, for a time that cannot be bound.
-/
import SrtGateway.Main.Gateway
import SrtGateway.Protocol.Recovery
import SrtGateway.Store.Independence
import SrtGateway.Uplink.Traced

namespace SrtGateway.Main

open SrtGateway.Protocol SrtGateway.Store

/-! ### The uplink side -/

/-- The systems agree, up to the tables that the uplink side does not use. -/
def Agrees (s s' : Uplink.System) : Prop := ∃ other, s = { s' with db := s'.db.over other }

lemma Agrees.refl (s : Uplink.System) : Agrees s s := ⟨s.db, rfl⟩

lemma Agrees.trans {s s' s'' : Uplink.System} (h : Agrees s s') (h' : Agrees s' s'') :
    Agrees s s'' := by
  obtain ⟨other, rfl⟩ := h
  obtain ⟨other', rfl⟩ := h'
  exact ⟨other, rfl⟩

lemma Agrees.running {s s' : Uplink.System} (h : Agrees s s') : s.running = s'.running := by
  obtain ⟨other, rfl⟩ := h
  rfl

lemma Agrees.up {s s' : Uplink.System} (h : Agrees s s') : s.up = s'.up := by
  obtain ⟨other, rfl⟩ := h
  rfl

/-- An answered call uses no other tables. -/
lemma perform_over (db other : Db) (world : Uplink.World) (c : Uplink.Call) :
    Uplink.perform (db.over other) world c =
      ((Uplink.perform db world c).1, (Uplink.perform db world c).2.over other) := by
  cases c <;> rfl

/-- **Systems that agree go on agreeing.** -/
lemma Agrees.step {s s' : Uplink.System} (h : Agrees s s') (st : Uplink.Step) :
    Agrees (s.step st) (s'.step st) := by
  obtain ⟨other, rfl⟩ := h
  obtain ⟨db, up, running, history, posted, created⟩ := s'
  cases st with
  | insert u =>
    obtain ⟨nodes, hinsert⟩ := insertFix_over db other u
    refine ⟨{ other with nodes := nodes }, ?_⟩
    simp only [Uplink.System.step, Uplink.System.insert, hinsert]
    rfl
  | start batchSize =>
    refine ⟨other, ?_⟩
    cases running <;> rfl
  | advance world =>
    refine ⟨other, ?_⟩
    rcases running with _ | ⟨⟨up', stats⟩⟩ | ⟨c, next⟩
    · rfl
    · rfl
    · simp only [Uplink.System.step, Uplink.System.advance, perform_over]
  | crash => exact ⟨other, rfl⟩

lemma Agrees.run {s s' : Uplink.System} (h : Agrees s s') (steps : List Uplink.Step) :
    Agrees (Runs.run Uplink.System.step s steps) (Runs.run Uplink.System.step s' steps) := by
  induction steps generalizing s s' with
  | nil => exact h
  | cons st steps ih => exact ih (h.step st)

/-! ### The simulation -/

/-- The step of the uplink side that a dispatched frame is. -/
def insertOf (frame : Frame) (decoded : Decoded) : List Uplink.Step :=
  match decoded with
  | .uplink u => if frame.1.toNat = T_UPLINK then [.insert u] else []
  | _ => []

/-- The steps of the uplink side that a step of the gateway is. -/
def uplinkSteps (g : Gateway) : Step → List Uplink.Step
  | .dispatch =>
    match g.pending with
    | [] => []
    | (frame, decoded) :: _ => insertOf frame decoded
  | .uplinkStart batchSize => [.start batchSize]
  | .uplinkAdvance world => [.advance world]
  | .restart => [.crash]
  | .read _ | .downlinkPoll _ _ | .sendFails _ => []

/-- The entries of NODE_STATS change nothing but `nodes`. -/
lemma run_upserts (db : Db) (entries : List NodeStatsEntry) :
    ∃ nodes, db.run (entries.map FrameDispatcher.upsertOf) =
      db.over { db with nodes := nodes } := by
  induction entries generalizing db with
  | nil => exact ⟨db.nodes, rfl⟩
  | cons entry entries ih =>
    obtain ⟨nodes, hnodes⟩ : ∃ nodes, (FrameDispatcher.upsertOf entry).apply db =
        db.over { db with nodes := nodes } := by
      simp only [FrameDispatcher.upsertOf, StoreOp.apply]
      cases hupsert : db.upsertNode entry.nodeId _ with
      | error x => exact ⟨db.nodes, rfl⟩
      | ok db' =>
        obtain ⟨_, -, h⟩ := bind_eq_ok.mp hupsert
        exact ⟨_, (Except.ok.inj h).symm⟩
    obtain ⟨nodes', hrest⟩ := ih ((FrameDispatcher.upsertOf entry).apply db)
    refine ⟨nodes', ?_⟩
    rw [List.map_cons]
    refine hrest.trans ?_
    rw [hnodes]
    rfl

/-- What a call of `on_frame` is to the uplink side. -/
lemma dispatch_agrees {g : Gateway} {frame : Frame} {decoded : Decoded}
    {pending : List (Frame × Decoded)} (hpending : g.pending = (frame, decoded) :: pending) :
    Agrees g.dispatch.toSystem
      (Runs.run Uplink.System.step g.toSystem (insertOf frame decoded)) := by
  have hsystem : g.dispatch.toSystem = { g.toSystem with
      db := g.db.run (opsOfFrame frame.1.toNat decoded)
      created := g.created ++ createdOf g.db frame.1.toNat decoded } := by
    have hstore := onFrame_store g.dispatcher frame.1.toNat decoded
    unfold Gateway.dispatch
    rw [hpending]
    dsimp only
    rw [hstore]
    rfl
  rw [hsystem]
  cases decoded with
  | uplink u =>
    by_cases ht : frame.1.toNat = T_UPLINK
    · -- the fix is inserted, and its row noted
      simp only [insertOf, opsOfFrame, createdOf, if_pos ht, Runs.run_cons, Runs.run_nil]
      refine ⟨(g.db.insertFix u).2, ?_⟩
      simp only [Uplink.System.step, Uplink.System.insert]
      rcases hinsert : g.db.insertFix u with ⟨x | _ | _, db⟩
      all_goals simp [Db.run, StoreOp.apply, Op.apply, hinsert, Db.over]
    · simp only [insertOf, opsOfFrame, createdOf, if_neg ht, List.append_nil]
      exact .refl _
  | nodeStats stats =>
    by_cases ht : frame.1.toNat = T_NODE_STATS
    · obtain ⟨nodes, hnodes⟩ := run_upserts g.db stats.entries
      simp only [insertOf, opsOfFrame, createdOf, if_pos ht, List.append_nil, hnodes]
      exact ⟨_, rfl⟩
    · simp only [insertOf, opsOfFrame, createdOf, if_neg ht, List.append_nil]
      exact .refl _
  | raw | ack | health | log =>
    simp only [insertOf, opsOfFrame, createdOf, List.append_nil]
    exact .refl _

variable (cfg : Config)

/-- **The simulation.** -/
lemma simulation : Runs.Simulation (Gateway.step cfg) Uplink.System.step uplinkSteps
    fun g s => Agrees g.toSystem s := by
  intro g s st h
  cases st with
  | read env =>
    have hsame : (g.read cfg env).toSystem = g.toSystem := by
      unfold Gateway.read
      split <;> rfl
    exact (show Agrees (g.read cfg env).toSystem s from hsame ▸ h)
  | dispatch =>
    rcases hcalls : g.pending with _ | ⟨⟨frame, decoded⟩, pending⟩
    · have hsame : g.dispatch = g := by rw [Gateway.dispatch, hcalls]
      simp only [Gateway.step, uplinkSteps, hcalls, hsame]
      exact h
    · simp only [Gateway.step, uplinkSteps, hcalls]
      exact (dispatch_agrees hcalls).trans (h.run _)
  | uplinkStart batchSize => exact h.step (.start batchSize)
  | uplinkAdvance world => exact h.step (.advance world)
  | downlinkPoll env nowMs =>
    refine Agrees.trans ?_ h
    simp only [Gateway.step, Gateway.downlinkPoll, recordPoll]
    split
    · exact ⟨g.db.storeFingerprint _ nowMs, rfl⟩
    · exact .refl _
  | sendFails x => exact h
  | restart => exact h.step .crash

/-! ### What has been received -/

/-- The uplink in a frame, if there is one. -/
def uplinkOf (frame : Frame) : Option Uplink :=
  if frame.1.toNat = T_UPLINK then decodeUplink frame.2 else none

/-- The uplinks in the frames that have been dispatched, by all processes. -/
def Gateway.received (g : Gateway) : List Uplink := g.frames.filterMap uplinkOf

lemma decodePayload_uplink (payload : List UInt8) : decodePayload T_UPLINK payload =
    ((decodeUplink payload).map Decoded.uplink).getD (.raw payload) := by
  rw [decodePayload, if_neg (by decide), if_neg (by decide), if_pos rfl]

/-- A frame is answered by the insertion of its uplink. -/
lemma insertOf_decodePayload (frame : Frame) :
    (insertOf frame (decodePayload frame.1.toNat frame.2)).flatMap Uplink.insertedBy =
      (uplinkOf frame).toList := by
  by_cases ht : frame.1.toNat = T_UPLINK
  · rw [uplinkOf, ht, if_pos rfl, decodePayload_uplink]
    cases decodeUplink frame.2 with
    | none => rfl
    | some u => simp [insertOf, ht, Uplink.insertedBy]
  · have hnone : ∀ decoded, insertOf frame decoded = [] := by
      intro decoded
      cases decoded <;> simp [insertOf, ht]
    rw [uplinkOf, if_neg ht, hnone]
    rfl

/-- What a step receives is what its answer inserts. -/
lemma received_step {g : Gateway} (h : Pipeline g) (st : Step) :
    (g.step cfg st).received =
      g.received ++ (uplinkSteps g st).flatMap Uplink.insertedBy := by
  rw [Gateway.received, frames_step, List.filterMap_append, ← Gateway.received]
  congr 1
  cases st with
  | dispatch =>
    rcases hcalls : g.pending with _ | ⟨⟨frame, decoded⟩, pending⟩
    · simp [frameOf, uplinkSteps, hcalls]
    · have hdecoded : decoded = decodePayload frame.1.toNat frame.2 :=
        h.decoded (frame, decoded) (hcalls ▸ List.mem_cons_self)
      simp only [uplinkSteps, hcalls]
      rw [hdecoded, insertOf_decodePayload]
      cases huplink : uplinkOf frame <;> simp [frameOf, hcalls, huplink]
  | read | uplinkStart | uplinkAdvance | downlinkPoll | sendFails | restart => rfl

/-- The run of the uplink side that a run of the gateway is. -/
def uplinkRun (steps : List Step) : List Uplink.Step :=
  Runs.answers (Gateway.step cfg) uplinkSteps (.init cfg) steps

lemma agrees_of_run (steps : List Step) :
    Agrees (Gateway.run cfg steps).toSystem (Uplink.System.init.run (uplinkRun cfg steps)) :=
  (simulation cfg).run (.refl _) steps

lemma inserted_of_run (steps : List Step) :
    (uplinkRun cfg steps).flatMap Uplink.insertedBy = (Gateway.run cfg steps).received :=
  (Runs.record_answers (Gateway.step cfg) uplinkSteps Gateway.received Uplink.insertedBy
    (fun _ st h => h.step cfg st) (fun _ st h => received_step cfg h st) (pipeline_init cfg)
    steps).symm

/-- **The gateway's uplink side is an `Uplink.System`.**  With an atomic store, every run of the
gateway is a run of the system in which the uplinks of the dispatched frames, of all processes
and in their order, are inserted; the states agree but for the tables that the uplink side does
not use.  So what holds in every run of the system, that no synced fix is without a reason on
record, holds in every run of the gateway. -/
theorem gateway_simulates (steps : List Step) :
    let g := Gateway.run cfg steps
    (∃ run : List Uplink.Step, run.flatMap Uplink.insertedBy = g.received ∧
        Agrees g.toSystem (Uplink.System.init.run run)) ∧
      Uplink.Provenance g.toSystem := by
  intro g
  have hagrees := agrees_of_run cfg steps
  refine ⟨⟨uplinkRun cfg steps, inserted_of_run cfg steps, hagrees⟩, ?_⟩
  obtain ⟨other, hsystem⟩ := hagrees
  have hprovenance := (Uplink.traced_run (uplinkRun cfg steps)).base.provenance
  rw [show g.toSystem = _ from hsystem]
  exact ⟨hprovenance.synced, hprovenance.dead⟩

/-! ### Nothing received is lost -/

lemma Agrees.kept {s s' : Uplink.System} (h : Agrees s s') {id : ℕ} {u : Uplink}
    (hkept : Uplink.Kept s' id u) : Uplink.Kept s id u := by
  obtain ⟨other, rfl⟩ := h
  exact hkept

lemma decodeUplink_of_received {g : Gateway} {u : Uplink} (hu : u ∈ g.received) :
    ∃ frame ∈ g.frames, frame.1.toNat = T_UPLINK ∧ decodeUplink frame.2 = some u := by
  obtain ⟨frame, hframe, huplink⟩ := List.mem_filterMap.mp hu
  unfold uplinkOf at huplink
  split at huplink
  · exact ⟨frame, hframe, ‹_›, huplink⟩
  · cases huplink

/-- What is inserted in a run of the uplink side has been noted by its end. -/
lemma noted_of_inserted {steps : List Uplink.Step} {payload : List UInt8} {u : Uplink}
    (hu : .insert u ∈ steps) (hdecode : decodeUplink payload = some u)
    (hrx : u.rxTimeMs < 2 ^ 63) :
    ∃ id u', (id, u') ∈ (Uplink.System.init.run steps).created ∧ Uplink.SameFix u u' := by
  obtain ⟨before, after, rfl⟩ := List.append_of_mem hu
  have htraced := Uplink.traced_run before
  have hbind := (canBind_or_holds_iff htraced.slots hdecode).mpr (.inl hrx)
  have hrun : Uplink.System.init.run (before ++ .insert u :: after) =
      ((Uplink.System.init.run before).insert u).run after := List.foldl_append
  rw [hrun]
  exact htraced.insert_noted hbind after

/-- A received uplink has been noted, or an earlier fix of which it is a resend. -/
lemma noted_of_received (steps : List Step) {u : Uplink}
    (hu : u ∈ (Gateway.run cfg steps).received) (hrx : u.rxTimeMs < 2 ^ 63) :
    ∃ id u', (id, u') ∈ (Uplink.System.init.run (uplinkRun cfg steps)).created ∧
      Uplink.SameFix u u' := by
  obtain ⟨frame, -, -, hdecode⟩ := decodeUplink_of_received hu
  rw [← inserted_of_run] at hu
  obtain ⟨st, hst, hmem⟩ := List.mem_flatMap.mp hu
  obtain rfl : st = .insert u := by
    cases st with
    | insert u' => rw [List.mem_singleton.mp hmem]
    | _ => exact absurd hmem List.not_mem_nil
  exact noted_of_inserted hst hdecode hrx

/-- A received uplink has a row, or an earlier fix of which it is a resend. -/
lemma kept_of_received (steps : List Step) {u : Uplink}
    (hu : u ∈ (Gateway.run cfg steps).received) (hrx : u.rxTimeMs < 2 ^ 63) :
    ∃ id u', Uplink.SameFix u u' ∧ Uplink.Kept (Gateway.run cfg steps).toSystem id u' := by
  obtain ⟨id, u', hcreated, hsame⟩ := noted_of_received cfg steps hu hrx
  exact ⟨id, u', hsame, (agrees_of_run cfg steps).kept ((Uplink.traced_run _).kept hcreated)⟩

/-! ### Nothing is made up -/

lemma map_snd_frameStarts (offset : ℕ) (blocks : List (List UInt8 × Frame)) :
    (frameStarts offset blocks).map Prod.snd = blocks.map Prod.snd := by
  induction blocks generalizing offset with
  | nil => rfl
  | cons block blocks ih => rw [frameStarts, List.map_cons, List.map_cons, ih]

/-- The description of the bytes that are pushed at once. -/
lemma deframes_of_push (bytes : List UInt8) : ∃ blocks last,
    Deframes bytes blocks last (FrameParser.new.push bytes).2.buf ∧
      (FrameParser.new.push bytes).1 = blocks.map Prod.snd := by
  obtain ⟨blocks, last, hd, hframes, -⟩ := exists_deframes [bytes]
  have hall : FrameParser.new.pushAll [bytes] = FrameParser.new.push bytes := by
    simp [FrameParser.pushAll]
  rw [List.flatten_singleton, hall] at hd
  rw [hall] at hframes
  exact ⟨blocks, last, hd, hframes⟩

/-- A frame that a parser returns stands in the bytes. -/
lemma frameAt_of_mem_push {bytes : List UInt8} {frame : Frame}
    (h : frame ∈ (FrameParser.new.push bytes).1) : ∃ pos, FrameAt bytes pos frame := by
  obtain ⟨blocks, last, hd, hframes⟩ := deframes_of_push bytes
  rw [hframes, ← map_snd_frameStarts 0] at h
  obtain ⟨⟨pos, f⟩, hmem, rfl⟩ := List.mem_map.mp h
  exact ⟨pos, (hd.mem_frameStarts_iff.mp hmem).2.1⟩

/-- **Nothing is made up, and no frame is uploaded as two fixes.**  In every run of the gateway,
with an atomic store: the ids of all fixes ever posted are those of distinct received uplinks, in
the order of their dispatch, and each body says what its uplink says, but for a null `seq`; and
every received uplink is the payload of a complete frame with a valid CRC in the bytes that one
of the processes read. -/
theorem cloud_from_wire (steps : List Step) :
    let g := Gateway.run cfg steps
    (∃ created : List (ℕ × Uplink), (created.map Prod.fst).Nodup ∧
      (created.map Prod.snd).Sublist g.received ∧
      ∀ fixes ∈ g.bodies, ∀ f ∈ fixes, ∃ u, (f.id, u) ∈ created ∧ Uplink.Renders f u) ∧
    ∀ u ∈ g.received, ∃ p ∈ g.processes, ∃ pos frame, FrameAt p.bytes pos frame ∧
      frame.1.toNat = T_UPLINK ∧ decodeUplink frame.2 = some u := by
  intro g
  constructor
  · obtain ⟨other, hsystem⟩ := agrees_of_run cfg steps
    have htraced := Uplink.traced_run (uplinkRun cfg steps)
    refine ⟨(Uplink.System.init.run (uplinkRun cfg steps)).created, ?_, ?_, ?_⟩
    · rw [← Uplink.ids_created htraced.created]
      exact (List.pairwise_map.mpr htraced.base.ordered).imp fun hlt => hlt.ne
    · obtain ⟨new, hnew, hsub⟩ := Uplink.created_run .init (uplinkRun cfg steps)
      rw [hnew, ← inserted_of_run]
      exact hsub
    · have hbodies : g.bodies = (Uplink.System.init.run (uplinkRun cfg steps)).bodies := by
        rw [show g.toSystem = _ from hsystem]
        rfl
      intro fixes hfixes f hf
      exact htraced.body (hbodies ▸ hfixes) hf
  · intro u hu
    obtain ⟨frame, hframe, ht, hdecode⟩ := decodeUplink_of_received hu
    obtain ⟨p, hp, hmem⟩ := List.mem_flatMap.mp hframe
    have hparsed : p.Parsed := (pipeline_of_run cfg steps).parsed p hp
    obtain ⟨pos, hpos⟩ := frameAt_of_mem_push (hparsed ▸ List.mem_append_left _ hmem)
    exact ⟨p, hp, pos, frame, hpos, ht, hdecode⟩

/-! ### What becomes of a frame on the wire -/

/-- What can become of an UPLINK frame in the bytes that a process has read. -/
inductive Outcome (g : Gateway) (p : Process) (pos : ℕ) (frame : Frame) (u : Uplink) : Prop where
  /-- It lies across a frame that was returned before it. -/
  | hidden (q : ℕ) (f' : Frame) (standing : FrameAt p.bytes q f')
      (returned : f' ∈ p.dispatched ++ p.pending) (before : q < pos)
      (across : pos < q + (f'.2.length + SERIAL_OVERHEAD))
  /-- It waits for its dispatch, or waited for it when its process ended. -/
  | pending (waiting : frame ∈ p.pending)
  /-- Its time of reception cannot be bound. -/
  | unbound (late : 2 ^ 63 ≤ u.rxTimeMs)
  | kept (id : ℕ) (u' : Uplink) (same : Uplink.SameFix u u') (kept : Uplink.Kept g.toSystem id u')

lemma outcome_of_frameAt (steps : List Step) {p : Process}
    (hp : p ∈ (Gateway.run cfg steps).processes) {pos : ℕ} {frame : Frame} {u : Uplink}
    (hframe : FrameAt p.bytes pos frame) (hpos : pos + 2054 ≤ p.bytes.length)
    (ht : frame.1.toNat = T_UPLINK) (hdecode : decodeUplink frame.2 = some u) :
    Outcome (Gateway.run cfg steps) p pos frame u := by
  have hparsed : p.dispatched ++ p.pending = (FrameParser.new.push p.bytes).1 :=
    (pipeline_of_run cfg steps).parsed p hp
  obtain ⟨blocks, last, hd, hframes⟩ := deframes_of_push p.bytes
  rw [← hparsed, ← map_snd_frameStarts 0] at hframes
  rcases hd.recovers hframe hpos with hmem | ⟨q, f', hmem, hlt, hover⟩
  · have hreturned : frame ∈ p.dispatched ++ p.pending := hframes ▸ List.mem_map_of_mem hmem
    rcases List.mem_append.mp hreturned with hdispatched | hpending
    · rcases lt_or_ge u.rxTimeMs (2 ^ 63) with hrx | hrx
      · have hreceived : u ∈ (Gateway.run cfg steps).received := by
          refine List.mem_filterMap.mpr ⟨frame, List.mem_flatMap.mpr ⟨p, hp, hdispatched⟩, ?_⟩
          rw [uplinkOf, if_pos ht, hdecode]
        obtain ⟨id, u', hsame, hkept⟩ := kept_of_received cfg steps hreceived hrx
        exact .kept id u' hsame hkept
      · exact .unbound hrx
    · exact .pending hpending
  · exact .hidden q f' (hd.mem_frameStarts_iff.mp hmem).2.1 (hframes ▸ List.mem_map_of_mem hmem)
      hlt hover

/-- **From the wire to the cloud.**  In every run of the gateway over an atomic store, with any
interleaving of its threads, any faults of the link, any answers of the cloud and any number of
restarts: an UPLINK frame that stands complete in the bytes that a process has read, 2054 bytes
or more before their end, lies across a frame returned before it, or is parsed and not dispatched
by its process, or has a time of reception that cannot be bound, or is kept.  And every uplink
that was dispatched, and whose time of reception can be bound, is kept: it has a row, or an
earlier fix has of which it is a resend; and the row is in the queue unless the cloud accepted a
rendering of it with a 2xx, or rejected one on its own. -/
theorem wire_to_cloud (steps : List Step) :
    let g := Gateway.run cfg steps
    (∀ p ∈ g.processes, ∀ pos frame u, FrameAt p.bytes pos frame →
      pos + 2054 ≤ p.bytes.length → frame.1.toNat = T_UPLINK →
      decodeUplink frame.2 = some u → Outcome g p pos frame u) ∧
    ∀ u ∈ g.received, u.rxTimeMs < 2 ^ 63 →
      ∃ id u', Uplink.SameFix u u' ∧ Uplink.Kept g.toSystem id u' :=
  ⟨fun _ hp _ _ _ hframe hpos ht hdecode => outcome_of_frameAt cfg steps hp hframe hpos ht hdecode,
    fun _ hu hrx => kept_of_received cfg steps hu hrx⟩

/-- A frame that is read, dispatched, posted and accepted. -/
example :
    let wire := (encodeFrame T_UPLINK (Uplink.payloadAt 0)).toOption.getD []
    let g := Gateway.run { settings := { hasFactory := true }, serialPort := none }
      ([.read (SerialIo.reopens wire), .dispatch, .uplinkStart 10] ++
        List.replicate 8 (.uplinkAdvance Uplink.accepting))
    g.dispatched.length = 1 ∧ g.db.fixes.map FixRow.synced = [true] := by
  decide +kernel

end SrtGateway.Main
