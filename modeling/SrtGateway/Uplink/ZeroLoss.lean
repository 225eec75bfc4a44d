/-
Zero loss with provenance.

A fix leaves the queue only with a reason that is on record: a POST with it that was answered
2xx, or its letter in `dead_letter`; and a letter is written only after the fix was rejected
on its own.  The reasons are in the history of answered calls, which a crash does not undo,
so they hold in every reachable state (`zero_loss`).
-/
import SrtGateway.Uplink.System

namespace SrtGateway.Uplink

open SrtGateway.Protocol SrtGateway.Store SrtGateway.Effect

/-- Why the fixes that are out of the queue are out of it. -/
structure Provenance (s : System) : Prop where
  synced : ∀ r ∈ s.db.fixes, r.synced = true →
    AcceptedIn s.history r.id ∨ (s.db.deadLetter r.id).isSome
  dead : ∀ id, (s.db.deadLetter id).isSome → RejectedAloneIn s.history id

/-- No row that is synced before is un-synced, or gone, after. -/
def StaysSynced (before after : Db) : Prop :=
  ∀ r ∈ before.fixes, r.synced = true →
    (∃ r' ∈ after.fixes, r'.id = r.id) ∧ ∀ r' ∈ after.fixes, r'.id = r.id → r'.synced = true

/-! ### Histories -/

/-- An event that quarantines nothing adds nothing to what was quarantined. -/
lemma QuarantinedIn.of_append {h : List (Event Call Answer)} {e : Event Call Answer} {id : ℕ}
    (hid : QuarantinedIn (h ++ [e]) id) :
    QuarantinedIn h id ∨ ∃ letter, e.call = .quarantine id letter := by
  obtain ⟨letter, hmem⟩ := hid
  rcases List.mem_append.mp hmem with hmem | hmem
  · exact .inl ⟨letter, hmem⟩
  · obtain rfl := List.mem_singleton.mp hmem
    exact .inr ⟨letter, rfl⟩

/-! ### Rows that stay synced -/

lemma StaysSynced.refl (db : Db) (h : db.Ordered) : StaysSynced db db := by
  intro r hr hsynced
  refine ⟨⟨r, hr, rfl⟩, fun r' hr' hid => ?_⟩
  rwa [h.eq_of_id hr' hr hid]

lemma StaysSynced.trans {a b c : Db} (hab : StaysSynced a b) (hbc : StaysSynced b c) :
    StaysSynced a c := by
  intro r hr hsynced
  obtain ⟨⟨r₁, hr₁, hid₁⟩, hall₁⟩ := hab r hr hsynced
  have h := hbc r₁ hr₁ (hall₁ r₁ hr₁ hid₁)
  rwa [hid₁] at h

/-- An update of each row on its own that keeps ids and synced rows. -/
lemma StaysSynced.map {db db' : Db} (h : db.Ordered) {f : FixRow → FixRow}
    (hid : ∀ r, (f r).id = r.id) (hsync : ∀ r, r.synced = true → (f r).synced = true)
    (hdb' : db'.fixes = db.fixes.map f) : StaysSynced db db' := by
  intro r hr hsynced
  rw [hdb']
  refine ⟨⟨f r, List.mem_map_of_mem hr, hid r⟩, fun r' hr' hidr => ?_⟩
  obtain ⟨r₀, hr₀, rfl⟩ := List.mem_map.mp hr'
  rw [hid] at hidr
  rw [h.eq_of_id hr₀ hr hidr]
  exact hsync r hsynced

/-- A new row at the end. -/
lemma StaysSynced.append {db mid db' : Db} (h : StaysSynced db mid) {u : Uplink}
    (hnew : ∀ r ∈ db.fixes, r.id < db.nextId)
    (hdb' : db'.fixes = mid.fixes ++ [rowOf db.nextId u]) : StaysSynced db db' := by
  intro r hr hsynced
  obtain ⟨⟨r₁, hr₁, hid₁⟩, hall⟩ := h r hr hsynced
  rw [hdb']
  refine ⟨⟨r₁, List.mem_append_left _ hr₁, hid₁⟩, fun r' hr' hid => ?_⟩
  rcases List.mem_append.mp hr' with hr' | hr'
  · exact hall r' hr' hid
  · obtain rfl := List.mem_singleton.mp hr'
    exact absurd hid.symm (hnew r hr).ne

lemma markSynced_id (ids : List ℕ) (r : FixRow) :
    (if r.id ∈ ids then { r with synced := true } else r).id = r.id := by
  split <;> rfl

lemma markSynced_synced {ids : List ℕ} {r : FixRow} (h : r.synced = true) :
    (if r.id ∈ ids then { r with synced := true } else r).synced = true := by
  split
  · rfl
  · exact h

lemma retire_synced (id : ℕ) (r : FixRow) :
    (if r.id = id then { r with seq := none } else r).synced = r.synced := by
  split <;> rfl

lemma insertFix_staysSynced {db : Db} (h : db.Ordered) (u : Uplink) :
    StaysSynced db (db.insertFix u).2 := by
  rcases hcase : db.insertFix u with ⟨outcome, db'⟩
  cases hcase ▸ insertFix_cases db u with
  | raised => exact .refl db h
  | resend => exact .refl db h
  | fresh => exact (StaysSynced.refl db h).append (fun _ => lt_nextId) rfl
  | wrapped row =>
    have hretire : StaysSynced db (db.retire row.id) :=
      .map h (retire_id row.id) (fun r hr => by rwa [retire_synced]) rfl
    exact hretire.append (fun _ => lt_nextId) rfl

lemma markSynced_staysSynced {db : Db} (h : db.Ordered) (ids : List ℕ) :
    StaysSynced db (db.markSynced ids) :=
  .map h (markSynced_id ids) (fun _ => markSynced_synced) rfl

/-! ### The invariant -/

/-- What holds in every reachable state. -/
structure Invariant (s : System) : Prop where
  ordered : s.db.Ordered
  provenance : Provenance s
  quarantined : ∀ id, QuarantinedIn s.history id → (s.db.deadLetter id).isSome
  running : RunningOk s

lemma invariant_init : Invariant System.init where
  ordered := List.Pairwise.nil
  provenance := ⟨by simp [System.init, Db.empty], by simp [System.init, Db.empty]⟩
  quarantined := by simp [System.init, QuarantinedIn]
  running := by simp [System.init, RunningOk]

/-- An insert leaves synced rows with the reasons they had: a new row is not synced. -/
lemma Invariant.insert {s : System} (h : Invariant s) (u : Uplink) : Invariant (s.insert u) := by
  have hordered := insertFix_ordered h.ordered u
  rw [System.insert]
  rcases hcase : s.db.insertFix u with ⟨outcome, db⟩
  rw [hcase] at hordered
  refine ⟨hordered, ⟨?_, ?_⟩, ?_, h.running⟩
  · cases hcase ▸ insertFix_cases s.db u with
    | raised => exact h.provenance.synced
    | resend => exact h.provenance.synced
    | fresh =>
      intro r hr hsynced
      rcases List.mem_append.mp hr with hr | hr
      · exact h.provenance.synced r hr hsynced
      · obtain rfl := List.mem_singleton.mp hr
        simp [rowOf] at hsynced
    | wrapped row =>
      intro r hr hsynced
      rcases List.mem_append.mp hr with hr | hr
      · obtain ⟨r₀, hr₀, rfl⟩ := List.mem_map.mp hr
        rw [retire_synced] at hsynced
        rw [retire_id]
        exact h.provenance.synced r₀ hr₀ hsynced
      · obtain rfl := List.mem_singleton.mp hr
        simp [rowOf] at hsynced
  · cases hcase ▸ insertFix_cases s.db u <;> exact h.provenance.dead
  · cases hcase ▸ insertFix_cases s.db u <;> exact h.quarantined

/-- A call that changes neither `fixes` nor `dead_letter`. -/
lemma Invariant.call_frame {s : System} (h : Invariant s) (e : Event Call Answer) {s' : System}
    (hrunning : RunningOk s') (hhistory : s'.history = s.history ++ [e])
    (hfixes : s'.db.fixes = s.db.fixes) (hdead : s'.db.deadLetter = s.db.deadLetter)
    (he : ∀ id letter, e.call ≠ .quarantine id letter) : Invariant s' := by
  have hle : s.history <+: s'.history := hhistory ▸ List.prefix_append _ _
  refine ⟨?_, ⟨fun r hr hsynced => ?_, fun id hid => ?_⟩, fun id hid => ?_, hrunning⟩
  · rw [Db.Ordered, hfixes]
    exact h.ordered
  · rw [hdead]
    exact (h.provenance.synced r (hfixes ▸ hr) hsynced).imp_left (·.mono hle)
  · exact (h.provenance.dead id (hdead ▸ hid)).mono hle
  · rw [hdead]
    rw [hhistory] at hid
    rcases hid.of_append with hid | ⟨letter, hletter⟩
    · exact h.quarantined id hid
    · exact absurd hletter (he id letter)

/-- Fixes are marked that were accepted, or are quarantined. -/
lemma Invariant.markSynced {s s' : System} (h : Invariant s) {ids : List ℕ}
    (hallowed : ∀ id ∈ ids, AcceptedIn s.history id ∨ QuarantinedIn s.history id)
    (hrunning : RunningOk s') (hhistory : s'.history = s.history ++ [⟨.markSynced ids, ()⟩])
    (hdb : s'.db = s.db.markSynced ids) : Invariant s' := by
  have hle : s.history <+: s'.history := hhistory ▸ List.prefix_append _ _
  refine ⟨?_, ⟨fun r hr hsynced => ?_, fun id hid => ?_⟩, fun id hid => ?_, hrunning⟩
  · rw [hdb]
    exact h.ordered.map (markSynced_id ids) rfl
  · -- a row that is synced now was so before, or has just been marked
    rw [hdb] at hr ⊢
    obtain ⟨r₀, hr₀, rfl⟩ := List.mem_map.mp hr
    rw [markSynced_id]
    by_cases hmem : r₀.id ∈ ids
    · exact (hallowed _ hmem).imp (·.mono hle) (h.quarantined _)
    · rw [if_neg hmem] at hsynced
      exact (h.provenance.synced r₀ hr₀ hsynced).imp_left (·.mono hle)
  · rw [hdb] at hid
    exact (h.provenance.dead id hid).mono hle
  · rw [hhistory] at hid
    rw [hdb]
    rcases hid.of_append with hid | ⟨_, hcall⟩
    · exact h.quarantined id hid
    · simp at hcall

/-- A fix is quarantined that was rejected on its own. -/
lemma Invariant.quarantine {s s' : System} (h : Invariant s) {id : ℕ} {letter : DeadLetter}
    (hallowed : RejectedAloneIn s.history id) (hrunning : RunningOk s')
    (hhistory : s'.history = s.history ++ [⟨.quarantine id letter, ()⟩])
    (hdb : s'.db = s.db.quarantine id letter) : Invariant s' := by
  have hle : s.history <+: s'.history := hhistory ▸ List.prefix_append _ _
  have hself : (s'.db.deadLetter id).isSome := by simp [hdb, Db.quarantine]
  have hother : ∀ i ≠ id, s'.db.deadLetter i = s.db.deadLetter i := fun i hi => by
    rw [hdb]
    exact Function.update_of_ne hi _ _
  have hdead : ∀ i, (s.db.deadLetter i).isSome → (s'.db.deadLetter i).isSome := by
    intro i hi
    by_cases hid : i = id
    · exact hid ▸ hself
    · rwa [hother i hid]
  have hfixes : s'.db.fixes = s.db.fixes := by rw [hdb]; rfl
  refine ⟨?_, ⟨fun r hr hsynced => ?_, fun i hi => ?_⟩, fun i hi => ?_, hrunning⟩
  · rw [Db.Ordered, hfixes]
    exact h.ordered
  · exact (h.provenance.synced r (hfixes ▸ hr) hsynced).imp (·.mono hle) (hdead _)
  · -- a letter was there before, or is the one just written
    by_cases hid : i = id
    · exact hid ▸ hallowed.mono hle
    · exact (h.provenance.dead i (hother i hid ▸ hi)).mono hle
  · rw [hhistory] at hi
    rcases hi.of_append with hi | ⟨_, hcall⟩
    · exact hdead i (h.quarantined i hi)
    · obtain ⟨rfl, -⟩ := Call.quarantine.inj hcall
      exact hself

/-- **One step of `run_once`.** -/
lemma Invariant.advance {s : System} (h : Invariant s) (world : World) :
    Invariant (s.advance world) := by
  have hrunning : RunningOk (s.advance world) := h.running.step (.advance world)
  rw [System.advance] at hrunning ⊢
  rcases hrun : s.running with _ | ⟨⟨up, stats⟩⟩ | ⟨c, next⟩ <;> rw [hrun] at hrunning
  · exact h
  · exact ⟨h.ordered, ⟨h.provenance.synced, h.provenance.dead⟩, h.quarantined, hrunning⟩
  cases c with
  | getUnsynced => exact h.call_frame _ hrunning rfl rfl rfl (by simp)
  | post => exact h.call_frame _ hrunning rfl rfl rfl (by simp)
  | getSyncCursor => exact h.call_frame _ hrunning rfl rfl rfl (by simp)
  | setSyncCursor => exact h.call_frame _ hrunning rfl rfl rfl (by simp)
  | clock => exact h.call_frame _ hrunning rfl rfl rfl (by simp)
  | markSynced ids =>
    rcases h.running.call hrun with ⟨_, _, hstart⟩ | ⟨hallowed, -⟩
    · cases hstart
    · exact h.markSynced hallowed hrunning rfl rfl
  | quarantine id letter =>
    rcases h.running.call hrun with ⟨_, _, hstart⟩ | ⟨hallowed, -⟩
    · cases hstart
    · exact h.quarantine hallowed hrunning rfl rfl

/-- **One step of the system.** -/
lemma Invariant.step {s : System} (h : Invariant s) (st : Step) : Invariant (s.step st) := by
  have hrunning := h.running.step st
  cases st with
  | insert u => exact h.insert u
  | start batchSize =>
    rw [System.step] at hrunning ⊢
    split
    · exact h
    · rename_i hidle
      rw [if_neg hidle] at hrunning
      exact ⟨h.ordered, ⟨h.provenance.synced, h.provenance.dead⟩, h.quarantined, hrunning⟩
  | advance world => exact h.advance world
  | crash => exact ⟨h.ordered, ⟨h.provenance.synced, h.provenance.dead⟩, h.quarantined, hrunning⟩

/-- **A run of the system.** -/
lemma Invariant.run {s : System} (h : Invariant s) (steps : List Step) :
    Invariant (s.run steps) := by
  induction steps generalizing s with
  | nil => exact h
  | cons st steps ih => exact ih (h.step st)

lemma step_staysSynced {s : System} (h : s.db.Ordered) (st : Step) :
    StaysSynced s.db (s.step st).db := by
  cases st with
  | insert u => exact insertFix_staysSynced h u
  | start batchSize =>
    rw [System.step]
    split <;> exact .refl _ h
  | advance world =>
    rw [System.step, System.advance]
    rcases s.running with _ | ⟨⟨up, stats⟩⟩ | ⟨c, next⟩
    · exact .refl _ h
    · exact .refl _ h
    · cases c with
      | markSynced ids => exact markSynced_staysSynced h ids
      | _ => exact .refl _ h
  | crash => exact .refl _ h

lemma run_staysSynced {s : System} (h : Invariant s) (steps : List Step) :
    StaysSynced s.db (s.run steps).db := by
  induction steps generalizing s with
  | nil => exact .refl _ h.ordered
  | cons st steps ih => exact (step_staysSynced h.ordered st).trans (ih (h.step st))

/-- **Zero loss.**  In every state that a run of inserts, steps of `run_once` and crashes
reaches, with any batch sizes and any answers of the cloud, every synced fix was in a POST
answered 2xx or is in `dead_letter`, every id in `dead_letter` was rejected on its own, and
whatever the run goes on to do, no synced fix becomes un-synced. -/
theorem zero_loss (steps more : List Step) :
    let s := System.init.run steps
    Provenance s ∧ StaysSynced s.db (s.run more).db := by
  intro s
  have h : Invariant s := invariant_init.run steps
  exact ⟨h.provenance, run_staysSynced h more⟩

end SrtGateway.Uplink
