/-
What is uploaded is what was received.

A row keeps the fields it was inserted with, except that a later wrap-cycle's insert sets its
`seq` to NULL.  A row that is fetched for upload before that goes out as it was received; one
that is fetched after goes out with a null `seq`, and so do the bodies of the retries.  Hence
uploads are faithful exactly when no fetch returns a retired row
(`uploads_received_iff_no_retired_fetch`).
-/
import SrtGateway.Uplink.ZeroLoss

namespace SrtGateway.Uplink

open SrtGateway.Protocol SrtGateway.Store SrtGateway.Effect

/-! ### Faithful uploads -/

/-- The POST body of an uplink that was stored under `id`. -/
def fixOf (id : ℕ) (u : Uplink) : FixBody := rowToFix (rowOf id u)

/-- The bodies of the POSTs made so far, with the one the uplinker is about to make. -/
def System.bodies (s : System) : List (List FixBody) := s.posted ++ inFlight s.running

/-- Every fix of a POST is the one uplink that created its id; so all bodies with one id are
the same, and every `seq` is an integer in 0..65535. -/
structure UploadsReceived (s : System) : Prop where
  received : ∀ fixes ∈ s.bodies, ∀ f ∈ fixes, ∃ u, (f.id, u) ∈ s.created ∧ f = fixOf f.id u
  one : ∀ id u u', (id, u) ∈ s.created → (id, u') ∈ s.created → u = u'
  same : ∀ fixes ∈ s.bodies, ∀ fixes' ∈ s.bodies, ∀ f ∈ fixes, ∀ f' ∈ fixes', f.id = f'.id → f = f'
  seq : ∀ fixes ∈ s.bodies, ∀ f ∈ fixes, ∃ n, f.seq = some n ∧ 0 ≤ n ∧ n < 65536

/-- No row that `get_unsynced` is about to return has been retired. -/
def NoRetiredFetch (s : System) : Step → Prop
  | .advance _ => ∀ limit next, s.running = some (.call (.getUnsynced limit) next) →
      ∀ r ∈ s.db.getUnsynced limit, r.seq ≠ none
  | _ => True

/-- Every step of a run meets a condition on the state before it. -/
def StepsMeet (cond : System → Step → Prop) : System → List Step → Prop
  | _, [] => True
  | s, st :: steps => cond s st ∧ StepsMeet cond (s.step st) steps

/-- Every state of a run has a property. -/
def Always (P : System → Prop) : System → List Step → Prop
  | s, [] => P s
  | s, st :: steps => P s ∧ Always P (s.step st) steps

lemma Always.head {P : System → Prop} {s : System} {steps : List Step} (h : Always P s steps) :
    P s := by
  cases steps with
  | nil => exact h
  | cons st steps => exact h.1

/-! ### Rows and the uplinks that created them -/

/-- The row holds the uplink; it may have been retired or synced since. -/
def Holds (row : FixRow) (u : Uplink) : Prop :=
  ∃ seq, (seq = some u.sequence ∨ seq = none) ∧
    row = { rowOf row.id u with seq := seq, synced := row.synced }

/-- The row was created by the uplink logged in `c`. -/
def CreatedBy (row : FixRow) (c : ℕ × Uplink) : Prop := row.id = c.1 ∧ Holds row c.2

lemma holds_rowOf (id : ℕ) (u : Uplink) : Holds (rowOf id u) u := ⟨_, .inl rfl, rfl⟩

lemma Holds.retired {row : FixRow} {u : Uplink} (h : Holds row u) :
    Holds { row with seq := none } u := by
  obtain ⟨seq, -, hrow⟩ := h
  refine ⟨none, .inr rfl, ?_⟩
  rw [hrow]
  rfl

lemma Holds.marked {row : FixRow} {u : Uplink} (h : Holds row u) :
    Holds { row with synced := true } u := by
  obtain ⟨seq, hseq, hrow⟩ := h
  refine ⟨seq, hseq, ?_⟩
  rw [hrow]
  rfl

/-- A row that was not retired goes out as it was received. -/
lemma Holds.rowToFix {row : FixRow} {u : Uplink} (h : Holds row u) (hseq : row.seq ≠ none) :
    rowToFix row = fixOf row.id u := by
  obtain ⟨seq, rfl | rfl, hrow⟩ := h
  · rw [hrow]
    rfl
  · rw [hrow] at hseq
    exact absurd rfl hseq

/-- Updates of single rows that keep what the rows hold. -/
lemma createdBy_map {rows : List FixRow} {created : List (ℕ × Uplink)}
    (h : List.Forall₂ CreatedBy rows created) {f : FixRow → FixRow} (hid : ∀ r, (f r).id = r.id)
    (hf : ∀ r u, Holds r u → Holds (f r) u) : List.Forall₂ CreatedBy (rows.map f) created :=
  List.forall₂_map_left_iff.mpr (h.imp fun r c hrc => ⟨(hid r).trans hrc.1, hf r c.2 hrc.2⟩)

lemma createdBy_append {rows : List FixRow} {created : List (ℕ × Uplink)}
    (h : List.Forall₂ CreatedBy rows created) (id : ℕ) (u : Uplink) :
    List.Forall₂ CreatedBy (rows ++ [rowOf id u]) (created ++ [(id, u)]) :=
  List.rel_append h (.cons ⟨rfl, holds_rowOf id u⟩ .nil)

lemma createdBy_retire {rows : List FixRow} {created : List (ℕ × Uplink)}
    (h : List.Forall₂ CreatedBy rows created) (id : ℕ) :
    List.Forall₂ CreatedBy (rows.map fun r => if r.id = id then { r with seq := none } else r)
      created := by
  refine createdBy_map h (retire_id id) fun r u hr => ?_
  split
  · exact hr.retired
  · exact hr

lemma createdBy_markSynced {rows : List FixRow} {created : List (ℕ × Uplink)}
    (h : List.Forall₂ CreatedBy rows created) (ids : List ℕ) :
    List.Forall₂ CreatedBy
      (rows.map fun r => if r.id ∈ ids then { r with synced := true } else r) created := by
  refine createdBy_map h (markSynced_id ids) fun r u hr => ?_
  split
  · exact hr.marked
  · exact hr

lemma exists_created {rows : List FixRow} {created : List (ℕ × Uplink)}
    (h : List.Forall₂ CreatedBy rows created) {r : FixRow} (hr : r ∈ rows) :
    ∃ u, (r.id, u) ∈ created ∧ Holds r u := by
  induction h with
  | nil => simp at hr
  | @cons r' c rows created hrc _ ih =>
    rcases List.mem_cons.mp hr with rfl | hr
    · obtain ⟨hid, hholds⟩ := hrc
      exact ⟨c.2, hid ▸ List.mem_cons_self, hholds⟩
    · obtain ⟨u, hmem, hholds⟩ := ih hr
      exact ⟨u, List.mem_cons_of_mem _ hmem, hholds⟩

lemma ids_created {rows : List FixRow} {created : List (ℕ × Uplink)}
    (h : List.Forall₂ CreatedBy rows created) : rows.map FixRow.id = created.map Prod.fst := by
  induction h with
  | nil => rfl
  | cons hrc _ ih => rw [List.map_cons, List.map_cons, hrc.1, ih]

/-- The log has one uplink for each id. -/
lemma created_unique {db : Db} (hordered : db.Ordered) {created : List (ℕ × Uplink)}
    (h : List.Forall₂ CreatedBy db.fixes created) {id : ℕ} {u u' : Uplink}
    (hu : (id, u) ∈ created) (hu' : (id, u') ∈ created) : u = u' := by
  have hnodup : (created.map Prod.fst).Nodup :=
    ids_created h ▸ (List.pairwise_map.mpr hordered).imp fun hlt => hlt.ne
  exact congrArg Prod.snd (List.inj_on_of_nodup_map hnodup hu hu' rfl)

/-! ### The invariant -/

/-- The dict that `decode_uplink` returns for some payload. -/
def Decoded (u : Uplink) : Prop := ∃ payload, decodeUplink payload = some u

/-- What holds as long as no retired row is fetched. -/
structure Faithful (s : System) : Prop where
  base : Invariant s
  created : List.Forall₂ CreatedBy s.db.fixes s.created
  decoded : ∀ c ∈ s.created, Decoded c.2
  fetched : ∀ row, FetchedIn s.history row →
    ∃ u, (row.id, u) ∈ s.created ∧ rowToFix row = fixOf row.id u
  posted : ∀ fixes ∈ s.posted, ∀ f ∈ fixes, ∃ row, FetchedIn s.history row ∧ f = rowToFix row

lemma faithful_init : Faithful System.init where
  base := invariant_init
  created := .nil
  decoded := by simp [System.init]
  fetched := by
    rintro row ⟨_, _, hmem, -⟩
    simp [System.init] at hmem
  posted := by simp [System.init]

/-- A POST that is under way, or about to be, is of fetched rows. -/
lemma RunningOk.inFlight {s : System} (h : RunningOk s) :
    ∀ fixes ∈ inFlight s.running, ∀ f ∈ fixes,
      ∃ row, FetchedIn s.history row ∧ f = rowToFix row := by
  intro fixes hfixes f hf
  rcases hrun : s.running with _ | ⟨_⟩ | ⟨c, next⟩ <;> rw [hrun] at hfixes
  · simp [Uplink.inFlight] at hfixes
  · simp [Uplink.inFlight] at hfixes
  · cases c with
    | post body =>
      obtain rfl := List.mem_singleton.mp hfixes
      rcases h.call hrun with ⟨_, _, hstart⟩ | ⟨hallowed, -⟩
      · cases hstart
      · exact hallowed f hf
    | _ => simp [Uplink.inFlight, bodyOf] at hfixes

lemma Faithful.uploadsReceived {s : System} (h : Faithful s) : UploadsReceived s := by
  have hreceived : ∀ fixes ∈ s.bodies, ∀ f ∈ fixes,
      ∃ u, (f.id, u) ∈ s.created ∧ f = fixOf f.id u := by
    intro fixes hfixes f hf
    obtain ⟨row, hrow, rfl⟩ : ∃ row, FetchedIn s.history row ∧ f = rowToFix row := by
      rcases List.mem_append.mp hfixes with hfixes | hfixes
      · exact h.posted fixes hfixes f hf
      · exact h.base.running.inFlight fixes hfixes f hf
    exact h.fetched row hrow
  refine ⟨hreceived, fun id u u' => created_unique h.base.ordered h.created, ?_, ?_⟩
  · intro fixes hfixes fixes' hfixes' f hf f' hf' hid
    obtain ⟨u, hu, hfu⟩ := hreceived fixes hfixes f hf
    obtain ⟨u', hu', hfu'⟩ := hreceived fixes' hfixes' f' hf'
    rw [← hid] at hu' hfu'
    rw [hfu, hfu', created_unique h.base.ordered h.created hu hu']
  · intro fixes hfixes f hf
    obtain ⟨u, hu, hfu⟩ := hreceived fixes hfixes f hf
    obtain ⟨payload, hpayload⟩ := h.decoded _ hu
    refine ⟨u.sequence, ?_, decodeUplink_sequence hpayload⟩
    rw [hfu]
    rfl

lemma Faithful.insert {s : System} (h : Faithful s) {u : Uplink} (hu : Decoded u) :
    Faithful (s.insert u) := by
  have hbase := h.base.insert u
  rw [System.insert] at hbase ⊢
  rcases hcase : s.db.insertFix u with ⟨outcome, db⟩
  rw [hcase] at hbase
  have hfetched : ∀ row, FetchedIn s.history row →
      ∃ u', (row.id, u') ∈ s.created ++ [(s.db.nextId, u)] ∧ rowToFix row = fixOf row.id u' := by
    intro row hrow
    obtain ⟨u', hu', hfix⟩ := h.fetched row hrow
    exact ⟨u', List.mem_append_left _ hu', hfix⟩
  have hdecoded : ∀ c ∈ s.created ++ [(s.db.nextId, u)], Decoded c.2 := by
    intro c hc
    rcases List.mem_append.mp hc with hc | hc
    · exact h.decoded c hc
    · exact List.mem_singleton.mp hc ▸ hu
  cases hcase ▸ insertFix_cases s.db u with
  | raised => exact ⟨hbase, h.created, h.decoded, h.fetched, h.posted⟩
  | resend => exact ⟨hbase, h.created, h.decoded, h.fetched, h.posted⟩
  | fresh =>
    exact ⟨hbase, createdBy_append h.created _ u, hdecoded, hfetched, h.posted⟩
  | wrapped row =>
    exact ⟨hbase, createdBy_append (createdBy_retire h.created row.id) _ u, hdecoded, hfetched,
      h.posted⟩

/-- A step of `run_once` that fetches nothing. -/
lemma Faithful.call_frame {s s' : System} (h : Faithful s) (hbase : Invariant s')
    (e : Event Call Answer) (hhistory : s'.history = s.history ++ [e])
    (he : ∀ limit, e.call ≠ .getUnsynced limit)
    (hcreated : List.Forall₂ CreatedBy s'.db.fixes s.created) (hlog : s'.created = s.created)
    (hposted : s'.posted = s.posted ++ inFlight s.running) : Faithful s' := by
  have hle : s.history <+: s'.history := hhistory ▸ List.prefix_append _ _
  refine ⟨hbase, hlog ▸ hcreated, hlog ▸ h.decoded, ?_, ?_⟩
  · rintro row ⟨limit, rows, hmem, hrow⟩
    rw [hlog]
    rw [hhistory] at hmem
    rcases List.mem_append.mp hmem with hmem | hmem
    · exact h.fetched row ⟨limit, rows, hmem, hrow⟩
    · exact absurd (congrArg Event.call (List.mem_singleton.mp hmem)).symm (he limit)
  · intro fixes hfixes f hf
    obtain ⟨row, hrow, hfix⟩ : ∃ row, FetchedIn s.history row ∧ f = rowToFix row := by
      rcases List.mem_append.mp (hposted ▸ hfixes) with hfixes | hfixes
      · exact h.posted fixes hfixes f hf
      · exact h.base.running.inFlight fixes hfixes f hf
    exact ⟨row, hrow.mono hle, hfix⟩

/-- **One step of `run_once`.** -/
lemma Faithful.advance {s : System} (h : Faithful s) (world : World)
    (hlive : NoRetiredFetch s (.advance world)) : Faithful (s.advance world) := by
  have hbase := h.base.advance world
  rw [System.advance] at hbase ⊢
  rcases hrun : s.running with _ | ⟨⟨up, stats⟩⟩ | ⟨c, next⟩ <;> rw [hrun] at hbase
  · exact h
  · exact ⟨hbase, h.created, h.decoded, h.fetched, h.posted⟩
  have hinFlight : s.posted ++ bodyOf c = s.posted ++ Uplink.inFlight s.running := by
    rw [hrun]
    rfl
  cases c with
  | getUnsynced limit =>
    refine ⟨hbase, h.created, h.decoded, ?_, ?_⟩
    · rintro row ⟨limit', rows, hmem, hrow⟩
      rcases List.mem_append.mp hmem with hmem | hmem
      · exact h.fetched row ⟨limit', rows, hmem, hrow⟩
      · -- a row that was just fetched: it is in the table, and not retired
        cases List.mem_singleton.mp hmem
        have hrow : row ∈ s.db.getUnsynced limit := hrow
        obtain ⟨u, hu, hholds⟩ :=
          exists_created h.created (List.mem_of_mem_filter (List.mem_of_mem_take hrow))
        exact ⟨u, hu, hholds.rowToFix (hlive limit next hrun row hrow)⟩
    · intro fixes hfixes f hf
      rcases List.mem_append.mp hfixes with hfixes | hfixes
      · obtain ⟨row, hrow, hfix⟩ := h.posted fixes hfixes f hf
        exact ⟨row, hrow.mono (List.prefix_append _ _), hfix⟩
      · simp [bodyOf] at hfixes
  | markSynced ids =>
    exact h.call_frame hbase _ rfl (by simp) (createdBy_markSynced h.created ids) rfl hinFlight
  | post => exact h.call_frame hbase _ rfl (by simp) h.created rfl hinFlight
  | getSyncCursor => exact h.call_frame hbase _ rfl (by simp) h.created rfl hinFlight
  | setSyncCursor => exact h.call_frame hbase _ rfl (by simp) h.created rfl hinFlight
  | quarantine => exact h.call_frame hbase _ rfl (by simp) h.created rfl hinFlight
  | clock => exact h.call_frame hbase _ rfl (by simp) h.created rfl hinFlight

/-- **One step of the system.** -/
lemma Faithful.step {s : System} (h : Faithful s) {st : Step}
    (hst : ∀ u, st = .insert u → Decoded u) (hlive : NoRetiredFetch s st) :
    Faithful (s.step st) := by
  have hbase := h.base.step st
  cases st with
  | insert u => exact h.insert (hst u rfl)
  | start batchSize =>
    rw [System.step] at hbase ⊢
    split
    · exact h
    · rename_i hidle
      rw [if_neg hidle] at hbase
      exact ⟨hbase, h.created, h.decoded, h.fetched, h.posted⟩
  | advance world => exact h.advance world hlive
  | crash =>
    refine ⟨hbase, h.created, h.decoded, h.fetched, fun fixes hfixes => ?_⟩
    rcases List.mem_append.mp hfixes with hfixes | hfixes
    · exact h.posted fixes hfixes
    · exact h.base.running.inFlight fixes hfixes

/-- A fetch of a retired row puts a null `seq` into the next POST. -/
lemma not_uploadsReceived_of_retired {s : System} (h : Faithful s) {st : Step}
    (hretired : ¬ NoRetiredFetch s st) : ¬ UploadsReceived (s.step st) := by
  cases st with
  | advance world =>
    simp only [NoRetiredFetch, not_forall, not_not] at hretired
    obtain ⟨limit, next, hrun, r, hr, hseq⟩ := hretired
    have hstart : ∃ up, (.call (.getUnsynced limit) next : UplinkM _) = runOnce up limit := by
      rcases h.base.running.call hrun with ⟨up, batchSize, hstart⟩ | ⟨hfalse, -⟩
      · cases hstart
        exact ⟨up, rfl⟩
      · exact hfalse.elim
    obtain ⟨up, hstart⟩ := hstart
    have hnext : (s.step (.advance world)).running =
        some (runBatch up (s.db.getUnsynced limit)) := by
      rw [System.step, System.advance, hrun, hstart]
      rfl
    -- the batch with the retired row is posted next
    have hbody : (s.db.getUnsynced limit).map rowToFix ∈ (s.step (.advance world)).bodies := by
      refine List.mem_append_right _ ?_
      rw [hnext, runBatch, if_neg (List.ne_nil_of_mem hr)]
      exact List.mem_singleton_self _
    intro hup
    obtain ⟨n, hn, -⟩ := hup.seq _ hbody _ (List.mem_map_of_mem hr)
    exact absurd (hseq.symm.trans hn) (by simp)
  | insert u => exact absurd trivial hretired
  | start batchSize => exact absurd trivial hretired
  | crash => exact absurd trivial hretired

/-- **Uploads are faithful exactly when no fetch returns a retired row.**  For every run from
an empty store that inserts decoded uplinks, runs `run_once` step by step with any answers of
the cloud, and crashes: in every state every fix in a POST body is the uplink that created its
id, if and only if no `get_unsynced` of the run returns a row whose `seq` is NULL. -/
theorem uploads_received_iff_no_retired_fetch (steps : List Step)
    (hdecoded : ∀ u, .insert u ∈ steps → Decoded u) :
    Always UploadsReceived System.init steps ↔ StepsMeet NoRetiredFetch System.init steps := by
  suffices hgen : ∀ s, Faithful s →
      (Always UploadsReceived s steps ↔ StepsMeet NoRetiredFetch s steps) from
    hgen _ faithful_init
  induction steps with
  | nil => exact fun s h => iff_of_true h.uploadsReceived trivial
  | cons st steps ih =>
    intro s h
    by_cases hlive : NoRetiredFetch s st
    · have hst : ∀ u, st = .insert u → Decoded u :=
        fun u hu => hdecoded u (hu ▸ List.mem_cons_self)
      have hnext := ih (fun u hu => hdecoded u (List.mem_cons_of_mem _ hu)) _ (h.step hst hlive)
      exact ⟨fun hall => ⟨hlive, hnext.mp hall.2⟩,
        fun hmeet => ⟨h.uploadsReceived, hnext.mpr hmeet.2⟩⟩
    · exact ⟨fun hall => absurd hall.2.head (not_uploadsReceived_of_retired h hlive),
        fun hmeet => absurd hmeet.1 hlive⟩

/-! ### A row that is retired before it is uploaded -/

/-- A payload of node 1 with sequence number 5, sent at `gpsTime`. -/
def payloadAt (gpsTime : ℕ) : List UInt8 :=
  [1] ++ Bytes.packLE 2 1 ++ Bytes.packLE 2 5 ++ List.replicate 14 0 ++
    Bytes.packLE 4 gpsTime ++ List.replicate 15 0

/-- What it decodes to. -/
def uplinkAt (gpsTime : ℕ) : Uplink :=
  { version := 1, nodeId := 1, sequence := 5, lat := 0, lon := 0, speedCms := 0, courseCdeg := 0,
    batteryMv := 0, gpsTime := gpsTime, subsecMs := 0, flags := 0, rssiDbm := 0, snrDb := 0,
    rxTimeMs := 0, tsMs := gpsTime * 1000 }

/-- The cloud accepts everything. -/
def accepting : World := { reply := .ok ⟨200, none⟩, now := 0 }

/-- The theorem at a run that uploads one fix. -/
theorem uploads_received_one_fix :
    Always UploadsReceived System.init
      [.insert (uplinkAt 0), .start 10, .advance accepting, .advance accepting] := by
  refine (uploads_received_iff_no_retired_fetch _ ?_).mpr ⟨trivial, trivial, ?_, ?_, trivial⟩
  · rintro u hu
    obtain rfl : u = uplinkAt 0 := by simpa using hu
    exact ⟨payloadAt 0, by decide +kernel⟩
  · intro limit _ _ r hr
    have hlive : ∀ r ∈ (System.init.run [.insert (uplinkAt 0), .start 10]).db.fixes,
        r.seq ≠ none := by
      decide +kernel
    exact hlive r (List.mem_of_mem_filter (List.mem_of_mem_take hr))
  · intro limit _ hrun
    cases hrun

/-- A fix waits for its upload while the sequence numbers of its node wrap around: its row is
retired, and it is uploaded with a null `seq`. -/
theorem retired_fix_uploads_null :
    let steps : List Step :=
      [.insert (uplinkAt 0), .insert (uplinkAt 7200), .start 10, .advance accepting,
        .advance accepting]
    (∀ u, .insert u ∈ steps → Decoded u) ∧
      (System.init.run steps).posted.map (·.map fun f => (f.id, f.seq)) =
        [[(1, none), (2, some 5)]] ∧
      ¬ Always UploadsReceived System.init steps := by
  intro steps
  have hposted : (System.init.run steps).posted.map (·.map fun f => (f.id, f.seq)) =
      [[(1, none), (2, some 5)]] := by
    decide +kernel
  refine ⟨fun u hu => ?_, hposted, fun hall => ?_⟩
  · obtain rfl | rfl : u = uplinkAt 0 ∨ u = uplinkAt 7200 := by simpa [steps] using hu
    · exact ⟨payloadAt 0, by decide +kernel⟩
    · exact ⟨payloadAt 7200, by decide +kernel⟩
  · have hlast : UploadsReceived (System.init.run steps) := hall.2.2.2.2.2
    have hnull : ∃ fixes ∈ (System.init.run steps).posted, ∃ f ∈ fixes, f.seq = none := by
      decide +kernel
    obtain ⟨fixes, hfixes, f, hf, hseq⟩ := hnull
    obtain ⟨n, hn, -⟩ := hlast.seq fixes (List.mem_append_left _ hfixes) f hf
    exact absurd (hseq.symm.trans hn) (by simp)

end SrtGateway.Uplink
