/-
The stats of `run_once` against the tables.

A call of `run_once` counts what it does on separate paths: a batch that is accepted, a fix that
is accepted on its own, a fix that is rejected on its own, and the ways to leave a fix alone.
`Did` says what a stretch of the call does to the store, in terms of the ids of the fixes that
were accepted and of those that were rejected alone.  Stretches compose (`Did.append`), so the
loop of `_isolate_poison` is an induction over the rows (`isolateLoop_did`), and the stats of
the whole call agree with the tables (`runOnce_reports`).
-/
import Mathlib.Data.Set.Card
import SrtGateway.Store.History
import SrtGateway.Uplink.Drain

namespace SrtGateway.Uplink

open SrtGateway.Store SrtGateway.Effect

/-! ### Changes to the store -/

/-- From `db` to `db'` the accepted fixes and the dead ones are marked, the dead ones are in
`dead_letter`, and the informational cursor follows the accepted ones.  Nothing else changes. -/
structure Changed (accepted dead : List ℕ) (db db' : Db) : Prop where
  fixes : db'.fixes = (db.markSynced (accepted ++ dead)).fixes
  letters : ∀ id ∈ dead, (db'.deadLetter id).isSome
  otherLetters : ∀ id ∉ dead, db'.deadLetter id = db.deadLetter id
  cursor : IsGreatest (insert (db.getSyncCursor "uplink_hwm" 0) {n : ℤ | ∃ id ∈ accepted, ↑id = n})
    (db'.getSyncCursor "uplink_hwm" 0)
  otherCursors : ∀ key ≠ "uplink_hwm", db'.syncState key = db.syncState key
  nodes : db'.nodes = db.nodes
  races : db'.races = db.races
  downlinkState : db'.downlinkState = db.downlinkState

lemma isGreatest_insert_append {old mid new : ℤ} {ids ids' : List ℕ}
    (h : IsGreatest (insert old {n : ℤ | ∃ id ∈ ids, ↑id = n}) mid)
    (h' : IsGreatest (insert mid {n : ℤ | ∃ id ∈ ids', ↑id = n}) new) :
    IsGreatest (insert old {n : ℤ | ∃ id ∈ ids ++ ids', ↑id = n}) new := by
  have hmid : mid ≤ new := h'.2 (Set.mem_insert _ _)
  constructor
  · rcases h'.1 with rfl | ⟨id, hid, heq⟩
    · rcases h.1 with heq | ⟨id, hid, heq⟩
      · exact .inl heq
      · exact .inr ⟨id, List.mem_append_left _ hid, heq⟩
    · exact .inr ⟨id, List.mem_append_right _ hid, heq⟩
  · rintro n (rfl | ⟨id, hid, rfl⟩)
    · exact (h.2 (Set.mem_insert _ _)).trans hmid
    · rcases List.mem_append.mp hid with hid | hid
      · exact (h.2 (.inr ⟨id, hid, rfl⟩)).trans hmid
      · exact h'.2 (.inr ⟨id, hid, rfl⟩)

lemma markSynced_congr_mem (db : Db) {ids ids' : List ℕ} (h : ∀ id, id ∈ ids ↔ id ∈ ids') :
    db.markSynced ids = db.markSynced ids' := by
  simp only [Db.markSynced, h]

lemma Changed.refl (db : Db) : Changed [] [] db db where
  fixes := (markSynced_nil db).symm
  letters := fun _ hid => absurd hid List.not_mem_nil
  otherLetters := fun _ _ => rfl
  cursor := by simp
  otherCursors := fun _ _ => rfl
  nodes := rfl
  races := rfl
  downlinkState := rfl

/-- **One after the other.** -/
lemma Changed.append {accepted accepted' dead dead' : List ℕ} {db db' db'' : Db}
    (h : Changed accepted dead db db') (h' : Changed accepted' dead' db' db'') :
    Changed (accepted ++ accepted') (dead ++ dead') db db'' where
  fixes := by
    rw [h'.fixes, markSynced_congr h.fixes, markSynced_append]
    refine congrArg Db.fixes (markSynced_congr_mem db fun id => ?_)
    simp only [List.mem_append]
    tauto
  letters := by
    intro id hid
    by_cases hid' : id ∈ dead'
    · exact h'.letters id hid'
    · rw [h'.otherLetters id hid']
      exact h.letters id ((List.mem_append.mp hid).resolve_right hid')
  otherLetters := by
    intro id hid
    rw [List.mem_append, not_or] at hid
    rw [h'.otherLetters id hid.2, h.otherLetters id hid.1]
  cursor := isGreatest_insert_append h.cursor h'.cursor
  otherCursors := fun key hkey => (h'.otherCursors key hkey).trans (h.otherCursors key hkey)
  nodes := h'.nodes.trans h.nodes
  races := h'.races.trans h.races
  downlinkState := h'.downlinkState.trans h.downlinkState

/-- A dead fix gets its letter and is marked. -/
lemma changed_quarantine (db : Db) (id : ℕ) (letter : DeadLetter) :
    Changed [] [id] db ((db.quarantine id letter).markSynced [id]) where
  fixes := rfl
  letters := by
    intro i hi
    obtain rfl := List.mem_singleton.mp hi
    simp [Db.quarantine, Db.markSynced]
  otherLetters := fun i hi => Function.update_of_ne (List.mem_singleton.not.mp hi) _ _
  cursor := by simp [Db.getSyncCursor, Db.quarantine, Db.markSynced]
  otherCursors := fun _ _ => rfl
  nodes := rfl
  races := rfl
  downlinkState := rfl

/-! ### Answers -/

/-- Calls among which there is no POST. -/
def Quiet (events : List (Event Call Answer)) : Prop := ∀ e ∈ events, bodyOf e.call = []

lemma Quiet.not_post {events : List (Event Call Answer)} (h : Quiet events)
    {fixes : List FixBody} {reply : Except PyErr Response} :
    (⟨.post fixes, reply⟩ : Event Call Answer) ∉ events :=
  fun hmem => absurd (h _ hmem) (List.cons_ne_nil _ _)

lemma Quiet.not_acceptedIn {events : List (Event Call Answer)} (h : Quiet events) (id : ℕ) :
    ¬ AcceptedIn events id := by
  rintro ⟨fixes, resp, hmem, -⟩
  exact h.not_post hmem

lemma Quiet.not_rejectedAloneIn {events : List (Event Call Answer)} (h : Quiet events) (id : ℕ) :
    ¬ RejectedAloneIn events id := by
  rintro ⟨f, resp, hmem, -⟩
  exact h.not_post hmem

lemma acceptedIn_append {h h' : List (Event Call Answer)} {id : ℕ} :
    AcceptedIn (h ++ h') id ↔ AcceptedIn h id ∨ AcceptedIn h' id := by
  constructor
  · rintro ⟨fixes, resp, hmem, hrest⟩
    rcases List.mem_append.mp hmem with hmem | hmem
    · exact .inl ⟨fixes, resp, hmem, hrest⟩
    · exact .inr ⟨fixes, resp, hmem, hrest⟩
  · rintro (⟨fixes, resp, hmem, hrest⟩ | ⟨fixes, resp, hmem, hrest⟩)
    · exact ⟨fixes, resp, List.mem_append_left _ hmem, hrest⟩
    · exact ⟨fixes, resp, List.mem_append_right _ hmem, hrest⟩

lemma rejectedAloneIn_append {h h' : List (Event Call Answer)} {id : ℕ} :
    RejectedAloneIn (h ++ h') id ↔ RejectedAloneIn h id ∨ RejectedAloneIn h' id := by
  constructor
  · rintro ⟨f, resp, hmem, hrest⟩
    rcases List.mem_append.mp hmem with hmem | hmem
    · exact .inl ⟨f, resp, hmem, hrest⟩
    · exact .inr ⟨f, resp, hmem, hrest⟩
  · rintro (⟨f, resp, hmem, hrest⟩ | ⟨f, resp, hmem, hrest⟩)
    · exact ⟨f, resp, List.mem_append_left _ hmem, hrest⟩
    · exact ⟨f, resp, List.mem_append_right _ hmem, hrest⟩

lemma acceptedIn_post {fixes : List FixBody} {reply : Except PyErr Response} {id : ℕ} :
    AcceptedIn [⟨.post fixes, reply⟩] id ↔
      ∃ resp, reply = .ok resp ∧ isAccepted resp.status = true ∧ ∃ f ∈ fixes, f.id = id := by
  simp only [isAccepted, Bool.and_eq_true, decide_eq_true_eq]
  constructor
  · rintro ⟨fixes', resp, hmem, hstatus, hf⟩
    cases List.mem_singleton.mp hmem
    exact ⟨resp, rfl, hstatus, hf⟩
  · rintro ⟨resp, rfl, hstatus, hf⟩
    exact ⟨fixes, resp, List.mem_singleton_self _, hstatus, hf⟩

lemma rejectedAloneIn_post {fixes : List FixBody} {reply : Except PyErr Response} {id : ℕ} :
    RejectedAloneIn [⟨.post fixes, reply⟩] id ↔
      ∃ resp f, reply = .ok resp ∧ isRejectStatus resp.status = true ∧ fixes = [f] ∧
        f.id = id := by
  constructor
  · rintro ⟨f, resp, hmem, hid, hstatus⟩
    cases List.mem_singleton.mp hmem
    refine ⟨resp, f, rfl, ?_, rfl, hid⟩
    simp only [isRejectStatus, Bool.and_eq_true, decide_eq_true_eq]
    omega
  · rintro ⟨resp, f, rfl, hstatus, rfl, hid⟩
    refine ⟨f, resp, List.mem_singleton_self _, hid, ?_⟩
    simp only [isRejectStatus, Bool.and_eq_true, decide_eq_true_eq] at hstatus
    omega

/-! ### What a stretch of the call does -/

/-- The uplinker, the counters of `_isolate_poison`, and the store with the calls so far. -/
abbrev Stage : Type := (CloudUplinker × Isolation) × Site

/-- From `a` to `b` these fixes were accepted, these were rejected alone, and these are left;
the counters and the tables say so. -/
structure Did (accepted dead left : List ℕ) (events : List (Event Call Answer))
    (a b : Stage) : Prop where
  history : b.2.history = a.2.history ++ events
  acceptedIn : ∀ id, AcceptedIn events id ↔ id ∈ accepted
  rejectedIn : ∀ id, RejectedAloneIn events id ↔ id ∈ dead
  changed : Changed accepted dead a.2.db b.2.db
  total : b.1.1.totalSynced = a.1.1.totalSynced + accepted.length
  synced : b.1.2.synced = a.1.2.synced + accepted.length
  dead : b.1.2.dead = a.1.2.dead + dead.length
  retryLeft : b.1.2.retryLeft = true ↔ a.1.2.retryLeft = true ∨ left ≠ []

lemma Did.refl (a : Stage) : Did [] [] [] [] a a where
  history := (List.append_nil _).symm
  acceptedIn := fun id => iff_of_false
    (Quiet.not_acceptedIn (fun _ he => absurd he List.not_mem_nil) id) List.not_mem_nil
  rejectedIn := fun id => iff_of_false
    (Quiet.not_rejectedAloneIn (fun _ he => absurd he List.not_mem_nil) id) List.not_mem_nil
  changed := .refl _
  total := rfl
  synced := rfl
  dead := rfl
  retryLeft := by simp

/-- **One after the other.** -/
lemma Did.append {accepted accepted' dead dead' left left' : List ℕ}
    {events events' : List (Event Call Answer)} {a b c : Stage}
    (h : Did accepted dead left events a b) (h' : Did accepted' dead' left' events' b c) :
    Did (accepted ++ accepted') (dead ++ dead') (left ++ left') (events ++ events') a c where
  history := by rw [h'.history, h.history, List.append_assoc]
  acceptedIn := fun id => by
    rw [acceptedIn_append, h.acceptedIn, h'.acceptedIn, List.mem_append]
  rejectedIn := fun id => by
    rw [rejectedAloneIn_append, h.rejectedIn, h'.rejectedIn, List.mem_append]
  changed := h.changed.append h'.changed
  total := by rw [h'.total, h.total, List.length_append, Nat.add_assoc]
  synced := by rw [h'.synced, h.synced, List.length_append, Nat.add_assoc]
  dead := by rw [h'.dead, h.dead, List.length_append, Nat.add_assoc]
  retryLeft := by
    rw [h'.retryLeft, h.retryLeft, or_assoc, ne_eq, ne_eq, ne_eq, List.append_eq_nil_iff,
      not_and_or]

variable {env : Env}

lemma isGreatest_foldl_max {ids : List ℕ} (hids : ids ≠ []) :
    IsGreatest {n : ℤ | ∃ id ∈ ids, ↑id = n} (ids.foldl max 0 : ℕ) := by
  obtain ⟨m, hm⟩ := Option.ne_none_iff_exists'.mp (mt List.max?_eq_none_iff.mp hids)
  have hfold : ids.foldl max 0 = m := by rw [List.foldl_max, hm, Option.getD_some, Nat.zero_max]
  obtain ⟨hmem, hle⟩ := List.max?_eq_some_iff.mp hm
  rw [hfold]
  refine ⟨⟨m, hmem, rfl⟩, ?_⟩
  rintro n ⟨id, hid, rfl⟩
  exact Int.ofNat_le.mpr (hle id hid)

/-- Accepted fixes are marked, and the cursor is what it has to be. -/
lemma changed_accept (db : Db) (ids : List ℕ) {syncState : String → Option ℤ}
    (hcursor : IsGreatest (insert (db.getSyncCursor "uplink_hwm" 0) {n : ℤ | ∃ id ∈ ids, ↑id = n})
      ((syncState "uplink_hwm").getD 0))
    (hother : ∀ key ≠ "uplink_hwm", syncState key = db.syncState key) :
    Changed ids [] db { db.markSynced ids with syncState := syncState } where
  fixes := by rw [List.append_nil]
  letters := fun _ hid => absurd hid List.not_mem_nil
  otherLetters := fun _ _ => rfl
  cursor := hcursor
  otherCursors := hother
  nodes := rfl
  races := rfl
  downlinkState := rfl

/-- **Acceptance** marks the fixes, counts them, and moves the cursor up to them. -/
lemma accept_changed (env : Env) (up : CloudUplinker) {ids : List ℕ} (hids : ids ≠ []) (s : Site) :
    ∃ events, Quiet events ∧
      ((accept up ids).exec env.respond s).2.history = s.history ++ events ∧
      Changed ids [] s.db ((accept up ids).exec env.respond s).2.db ∧
      ((accept up ids).exec env.respond s).1.totalSynced = up.totalSynced + ids.length := by
  -- the cursor is the old one, or the greatest id if that is greater
  have hcursor := (isGreatest_foldl_max hids).insert (s.db.getSyncCursor "uplink_hwm" 0)
  -- the three calls before the test of the cursor
  set s₁ := (env.respond s (.markSynced ids)).2
  set s₂ := (env.respond s₁ .clock).2
  set s₃ := (env.respond s₂ (.getSyncCursor "uplink_hwm" 0)).2
  set up' : CloudUplinker :=
    { up with totalSynced := up.totalSynced + ids.length,
              lastSyncOk := some (env.respond s₁ .clock).1 }
  have hexec : (accept up ids).exec env.respond s =
      Prog.exec env.respond s₃
        (if ((ids.foldl max 0 : ℕ) : ℤ) > s.db.getSyncCursor "uplink_hwm" 0 then do
          setSyncCursor "uplink_hwm" (ids.foldl max 0 : ℕ)
          return up'
        else return up') := rfl
  have hhistory : s₃.history = s.history ++ ([⟨.markSynced ids, ()⟩] ++
      [⟨.clock, (env.respond s₁ .clock).1⟩] ++
      [⟨.getSyncCursor "uplink_hwm" 0, s.db.getSyncCursor "uplink_hwm" 0⟩]) := by
    simp only [← List.append_assoc]
    rfl
  rw [hexec]
  split_ifs with hlt
  · rw [max_eq_right hlt.le] at hcursor
    refine ⟨_ ++ [⟨.setSyncCursor "uplink_hwm" _, ()⟩], ?_,
      (congrArg (· ++ _) hhistory).trans (List.append_assoc _ _ _), ?_, rfl⟩
    · simp [Quiet, bodyOf]
    · exact changed_accept _ _ hcursor fun key hkey => Function.update_of_ne hkey _ _
  · rw [max_eq_left (not_lt.mp hlt)] at hcursor
    refine ⟨_, ?_, hhistory, ?_, rfl⟩
    · simp [Quiet, bodyOf]
    · exact changed_accept _ _ hcursor fun _ _ => rfl

/-! ### One fix -/

/-- A POST of one fix that is neither accepted nor rejected leaves the fix alone. -/
lemma leave_did (up up' : CloudUplinker) (htotal : up'.totalSynced = up.totalSynced)
    (n : Isolation) (s : Site) {row : FixRow} {reply : Except PyErr Response}
    (hreply : (env.respond s (.post [rowToFix row])).1 = reply)
    (hleft : ∀ resp, reply = .ok resp →
      isAccepted resp.status = false ∧ isRejectStatus resp.status = false) :
    Did [] [] [row.id] [⟨.post [rowToFix row], reply⟩] ((up, n), s)
      ((up', { n with retryLeft := true }), (env.respond s (.post [rowToFix row])).2) where
  history := by rw [← hreply]; rfl
  acceptedIn := by
    intro id
    rw [acceptedIn_post]
    refine iff_of_false ?_ List.not_mem_nil
    rintro ⟨resp, heq, haccepted, -⟩
    rw [(hleft resp heq).1] at haccepted
    cases haccepted
  rejectedIn := by
    intro id
    rw [rejectedAloneIn_post]
    refine iff_of_false ?_ List.not_mem_nil
    rintro ⟨resp, f, heq, hreject, -⟩
    rw [(hleft resp heq).2] at hreject
    cases hreject
  changed := .refl _
  total := htotal
  synced := rfl
  dead := rfl
  retryLeft := by simp

/-- A fix that is accepted on its own is marked. -/
lemma accept_did (up : CloudUplinker) (n : Isolation) (s : Site) {row : FixRow} {resp : Response}
    (hreply : (env.respond s (.post [rowToFix row])).1 = .ok resp)
    (hstatus : isAccepted resp.status = true) (hreject : isRejectStatus resp.status = false)
    (r : CloudUplinker × Site)
    (hr : (accept up [row.id]).exec env.respond (env.respond s (.post [rowToFix row])).2 = r) :
    ∃ events, Did [row.id] [] [] events ((up, n), s)
      ((r.1, { n with synced := n.synced + 1 }), r.2) := by
  obtain ⟨events, hquiet, hhistory, hchanged, htotal⟩ :=
    accept_changed env up (List.cons_ne_nil row.id [])
      (env.respond s (.post [rowToFix row])).2
  rw [hr] at hhistory hchanged htotal
  refine ⟨[⟨.post [rowToFix row], .ok resp⟩] ++ events, ?_, ?_, ?_, hchanged, htotal, rfl, rfl, ?_⟩
  · rw [hhistory, ← List.append_assoc, ← hreply]
    rfl
  · intro id
    rw [acceptedIn_append, acceptedIn_post, or_iff_left (hquiet.not_acceptedIn id),
      List.mem_singleton, eq_comm]
    simp [hstatus, rowToFix]
  · intro id
    rw [rejectedAloneIn_append, rejectedAloneIn_post, or_iff_left (hquiet.not_rejectedAloneIn id)]
    simp [hreject]
  · simp

/-- A fix that is rejected on its own gets a letter and is marked. -/
lemma quarantine_did (up : CloudUplinker) (n : Isolation) (s : Site) {row : FixRow}
    {resp : Response} (hreply : (env.respond s (.post [rowToFix row])).1 = .ok resp)
    (hstatus : isRejectStatus resp.status = true) (letter : DeadLetter) :
    let s₁ := (env.respond s (.post [rowToFix row])).2
    let s₂ := (env.respond s₁ .clock).2
    ∃ events, Did [] [row.id] [] events ((up, n), s)
      ((up, { n with dead := n.dead + 1 }),
        (env.respond (env.respond s₂ (.quarantine row.id letter)).2 (.markSynced [row.id])).2) := by
  intro s₁ s₂
  set s₃ := (env.respond s₂ (.quarantine row.id letter)).2
  obtain ⟨events, hquiet, hhistory⟩ : ∃ events, Quiet events ∧
      (env.respond s₃ (.markSynced [row.id])).2.history = s₁.history ++ events := by
    refine ⟨[⟨.clock, (env.respond s₁ .clock).1⟩] ++ [⟨.quarantine row.id letter, ()⟩] ++
      [⟨.markSynced [row.id], ()⟩], by simp [Quiet, bodyOf], ?_⟩
    rw [← List.append_assoc, ← List.append_assoc]
    rfl
  refine ⟨[⟨.post [rowToFix row], .ok resp⟩] ++ events, ?_, ?_, ?_,
    changed_quarantine s.db row.id letter, rfl, rfl, rfl, by simp⟩
  · rw [hhistory, ← List.append_assoc, ← hreply]
    rfl
  · intro id
    rw [acceptedIn_append, acceptedIn_post, or_iff_left (hquiet.not_acceptedIn id)]
    simp [(isReject_not_accepted hstatus).1]
  · intro id
    rw [rejectedAloneIn_append, rejectedAloneIn_post,
      or_iff_left (hquiet.not_rejectedAloneIn id), List.mem_singleton, eq_comm]
    simp [hstatus, rowToFix]

/-! ### The loop -/

lemma exec_post_bind {α : Type} (fixes : List FixBody) (f : Except PyErr Response → UplinkM α)
    (s : Site) : (Uplink.post fixes >>= f).exec env.respond s =
      (f (env.respond s (.post fixes)).1).exec env.respond (env.respond s (.post fixes)).2 := rfl

/-- The other outcomes of a POST exclude a rejection. -/
lemma isRejectStatus_eq_false {status : ℤ}
    (h : isAccepted status = true ∨ isRetryableStatus status = true) :
    isRejectStatus status = false := by
  rw [← Bool.not_eq_true]
  intro hreject
  obtain ⟨hnotAccepted, hnotRetryable⟩ := isReject_not_accepted hreject
  rw [hnotAccepted, hnotRetryable] at h
  exact h.elim Bool.false_ne_true Bool.false_ne_true

/-- **One fix**, posted on its own, before the rest of the loop. -/
lemma isolateLoop_cons (env : Env) (up : CloudUplinker) (n : Isolation) (row : FixRow)
    (rows : List FixRow) (s : Site) :
    ∃ accepted dead left events up' n' s',
      Did accepted dead left events ((up, n), s) ((up', n'), s') ∧
      accepted ++ dead ++ left = [row.id] ∧
      (isolateLoop up n (row :: rows)).exec env.respond s =
        (isolateLoop up' n' rows).exec env.respond s' := by
  rw [isolateLoop, exec_post_bind]
  cases hreply : (env.respond s (.post [rowToFix row])).1 with
  | error x =>
    have hdid := leave_did up { up with lastError := some (.transport x) } rfl n s hreply
      (by simp)
    exact ⟨_, _, _, _, _, _, _, hdid, rfl, rfl⟩
  | ok resp =>
    dsimp only
    split_ifs with haccepted hretryable hreject
    · obtain ⟨events, hdid⟩ := accept_did up n s hreply haccepted
        (isRejectStatus_eq_false (.inl haccepted)) _ rfl
      exact ⟨_, _, _, events, _, _, _, hdid, rfl, Prog.exec_bind _ _ _ _⟩
    · refine ⟨_, _, _, _, _, _, _, leave_did up up rfl n s hreply ?_, rfl, rfl⟩
      rintro _ ⟨⟩
      exact ⟨by simpa using haccepted, isRejectStatus_eq_false (.inr hretryable)⟩
    · obtain ⟨events, hdid⟩ := quarantine_did up n s hreply hreject
        (deadLetterOf resp (env.respond (env.respond s (.post [rowToFix row])).2 .clock).1)
      exact ⟨_, _, _, events, _, _, _, hdid, rfl, rfl⟩
    · refine ⟨_, _, _, _, _, _, _, leave_did up up rfl n s hreply ?_, rfl, rfl⟩
      rintro _ ⟨⟩
      exact ⟨by simpa using haccepted, by simpa using hreject⟩

/-- **One by one**: the loop splits the rows into those accepted, those dead and those left. -/
lemma isolateLoop_did (env : Env) (up : CloudUplinker) (n : Isolation) (rows : List FixRow)
    (s : Site) :
    ∃ accepted dead left events, Did accepted dead left events ((up, n), s)
        ((isolateLoop up n rows).exec env.respond s) ∧
      (accepted ++ dead ++ left).Perm (rows.map FixRow.id) := by
  induction rows generalizing up n s with
  | nil => exact ⟨[], [], [], [], .refl _, .refl _⟩
  | cons row rows ih =>
    obtain ⟨accepted, dead, left, events, up', n', s', hrow, hid, hexec⟩ :=
      isolateLoop_cons env up n row rows s
    obtain ⟨accepted', dead', left', events', hrest, hperm⟩ := ih up' n' s'
    rw [hexec]
    refine ⟨_, _, _, _, hrow.append hrest, ?_⟩
    -- each of the three lists keeps the new fix at its head
    have hsplit : (accepted ++ accepted' ++ (dead ++ dead') ++ (left ++ left')).Perm
        ((accepted ++ dead ++ left) ++ (accepted' ++ dead' ++ left')) := by
      rw [List.perm_iff_count]
      intro id
      simp only [List.count_append]
      omega
    rw [List.map_cons, ← List.singleton_append, ← hid]
    exact hsplit.trans (hperm.append_left _)

/-! ### The report -/

/-- The row is among the `n` un-synced rows with the lowest ids. -/
def AmongLowest (db : Db) (n : ℕ) (r : FixRow) : Prop :=
  r ∈ db.fixes ∧ r.synced = false ∧
    (db.fixes.filter fun r' => !r'.synced ∧ r'.id < r.id).length < n

/-- The fixes whose `synced` flag differs. -/
def changedIds (db db' : Db) : Set ℕ :=
  {id | ∃ r ∈ db.fixes, ∃ r' ∈ db'.fixes, r.id = id ∧ r'.id = id ∧ r.synced ≠ r'.synced}

/-- The calls of `run_once` after its fetch and the POST of the batch. -/
def oneByOne (events : List (Event Call Answer)) : List (Event Call Answer) := events.drop 2

/-- The fixes that were fetched, rejected individually, and are in `dead_letter`. -/
def deadIds (db : Db) (batchSize : ℕ) (events : List (Event Call Answer)) (db' : Db) : Set ℕ :=
  {id | (∃ r, AmongLowest db batchSize r ∧ r.id = id) ∧ RejectedAloneIn (oneByOne events) id ∧
    (db'.deadLetter id).isSome}

/-- `run_once` went from `db` to `db'` with these calls, and what it returned is true of
them. -/
structure Reports (batchSize : ℕ) (up : CloudUplinker) (db : Db)
    (events : List (Event Call Answer)) (up' : CloudUplinker) (stats : RunStats) (db' : Db) :
    Prop where
  changed : ∀ id ∈ changedIds db db', ∃ r, AmongLowest db batchSize r ∧ r.id = id
  changedCount : (changedIds db db').ncard = stats.synced + stats.deadLettered
  deadCount : (deadIds db batchSize events db').ncard = stats.deadLettered
  retryable : stats.retryable = true ↔
    ∃ r, AmongLowest db batchSize r ∧ ∃ r' ∈ db'.fixes, r'.id = r.id ∧ r'.synced = false
  retry : stats.status = .retry → db' = db
  total : up'.totalSynced = up.totalSynced + stats.synced
  cursor : IsGreatest (insert (db.getSyncCursor "uplink_hwm" 0)
    {n : ℤ | ∃ id, AcceptedIn events id ∧ ↑id = n}) (db'.getSyncCursor "uplink_hwm" 0)
  fixes : db'.fixes.map FixRow.unmark = db.fixes.map FixRow.unmark
  letters : ∀ id ∉ deadIds db batchSize events db', db'.deadLetter id = db.deadLetter id
  cursors : ∀ key ≠ "uplink_hwm", db'.syncState key = db.syncState key
  nodes : db'.nodes = db.nodes
  races : db'.races = db.races
  downlinkState : db'.downlinkState = db.downlinkState

lemma mem_take_iff_lowest {α : Type} {key : α → ℕ} {l : List α}
    (h : l.Pairwise fun a b => key a < key b) {n : ℕ} {a : α} :
    a ∈ l.take n ↔ a ∈ l ∧ (l.filter fun b => key b < key a).length < n := by
  induction l generalizing n with
  | nil => simp
  | cons b l ih =>
    obtain ⟨hb, hl⟩ := List.pairwise_cons.mp h
    cases n with
    | zero => simp
    | succ n =>
      rw [List.take_succ_cons, List.mem_cons, List.mem_cons, ih hl]
      constructor
      · rintro (rfl | ⟨ha, hlt⟩)
        · have hnone : (a :: l).filter (fun b => key b < key a) = [] := by
            refine List.filter_eq_nil_iff.mpr fun c hc => ?_
            rcases List.mem_cons.mp hc with rfl | hc
            · simp
            · simpa using (hb c hc).le
          exact ⟨.inl rfl, by rw [hnone]; exact Nat.succ_pos n⟩
        · refine ⟨.inr ha, ?_⟩
          rw [List.filter_cons_of_pos (by simpa using hb a ha), List.length_cons]
          omega
      · rintro ⟨rfl | ha, hlt⟩
        · exact .inl rfl
        · rw [List.filter_cons_of_pos (by simpa using hb a ha), List.length_cons] at hlt
          exact .inr ⟨ha, by omega⟩

/-- `get_unsynced` returns the un-synced rows with the lowest ids. -/
lemma mem_getUnsynced {db : Db} (h : db.Ordered) {n : ℕ} {r : FixRow} :
    r ∈ db.getUnsynced n ↔ AmongLowest db n r := by
  rw [Db.getUnsynced, mem_take_iff_lowest (h.sublist List.filter_sublist), List.mem_filter,
    List.filter_filter, AmongLowest, and_assoc]
  simp [Bool.and_comm]

section Tables

variable {db db' : Db} {batchSize : ℕ} {accepted dead left : List ℕ}

lemma ncard_mem {l : List ℕ} (h : l.Nodup) : {id | id ∈ l}.ncard = l.length := by
  rw [← List.coe_toFinset, Set.ncard_coe_finset, List.toFinset_card_of_nodup h]

/-- The ids of the fetched rows. -/
lemma mem_fetched (hs : db.Ordered)
    (hperm : (accepted ++ dead ++ left).Perm ((db.getUnsynced batchSize).map FixRow.id)) {id : ℕ} :
    (∃ r, AmongLowest db batchSize r ∧ r.id = id) ↔ id ∈ accepted ++ dead ++ left := by
  simp only [hperm.mem_iff, List.mem_map, mem_getUnsynced hs]

/-- The changed rows are the marked ones. -/
lemma changedIds_eq (hs : db.Ordered)
    (hperm : (accepted ++ dead ++ left).Perm ((db.getUnsynced batchSize).map FixRow.id))
    (hfixes : db'.fixes = (db.markSynced (accepted ++ dead)).fixes) :
    changedIds db db' = {id | id ∈ accepted ++ dead} := by
  ext id
  rw [changedIds, hfixes, Set.mem_ofPred_eq, Set.mem_ofPred_eq]
  constructor
  · rintro ⟨r, hr, r', hr', hid, hid', hne⟩
    obtain ⟨r₀, hr₀, rfl⟩ := List.mem_map.mp hr'
    rw [markSynced_id] at hid'
    obtain rfl := hs.eq_of_id hr hr₀ (hid.trans hid'.symm)
    by_contra hnot
    rw [← hid] at hnot
    exact hne (by rw [if_neg hnot])
  · intro hid
    obtain ⟨r, ⟨hr, hsynced, -⟩, rfl⟩ :=
      (mem_fetched hs hperm).mpr (List.mem_append_left left hid)
    refine ⟨r, hr, _, List.mem_map_of_mem hr, rfl, markSynced_id _ r, ?_⟩
    rw [if_pos hid, hsynced]
    exact Bool.false_ne_true

/-- A fetched row is still un-synced exactly when it is left. -/
lemma unsynced_iff (hs : db.Ordered)
    (hperm : (accepted ++ dead ++ left).Perm ((db.getUnsynced batchSize).map FixRow.id))
    (hfixes : db'.fixes = (db.markSynced (accepted ++ dead)).fixes)
    (hnodup : (accepted ++ dead ++ left).Nodup) :
    (∃ r, AmongLowest db batchSize r ∧ ∃ r' ∈ db'.fixes, r'.id = r.id ∧ r'.synced = false) ↔
      left ≠ [] := by
  rw [hfixes]
  constructor
  · rintro ⟨r, hr, r', hr', hid, hsynced⟩ rfl
    have hmarked : r.id ∈ accepted ++ dead := by
      have := (mem_fetched hs hperm).mp ⟨r, hr, rfl⟩
      rwa [List.append_nil] at this
    obtain ⟨r₀, hr₀, rfl⟩ := List.mem_map.mp hr'
    rw [markSynced_id] at hid
    rw [← hid] at hmarked
    rw [if_pos hmarked] at hsynced
    cases hsynced
  · intro hleft
    obtain ⟨id, hid⟩ := List.exists_mem_of_ne_nil left hleft
    obtain ⟨r, hr, rfl⟩ := (mem_fetched hs hperm).mpr (List.mem_append_right _ hid)
    refine ⟨r, hr, _, List.mem_map_of_mem hr.1, markSynced_id _ r, ?_⟩
    have hnot : r.id ∉ accepted ++ dead := fun hmem =>
      List.disjoint_of_nodup_append hnodup hmem hid
    rw [if_neg hnot]
    exact hr.2.1

end Tables

/-- A split of the fetched rows, the changes it makes, and counters that agree with it make a
report. -/
lemma Changed.reports {db db' : Db} {batchSize : ℕ} {accepted dead left : List ℕ}
    (hchanged : Changed accepted dead db db') (hs : db.Ordered)
    (hperm : (accepted ++ dead ++ left).Perm ((db.getUnsynced batchSize).map FixRow.id))
    {events : List (Event Call Answer)} (haccepted : ∀ id, AcceptedIn events id ↔ id ∈ accepted)
    (hrejected : ∀ id, RejectedAloneIn (oneByOne events) id ↔ id ∈ dead)
    {up up' : CloudUplinker} {stats : RunStats} (hsynced : stats.synced = accepted.length)
    (hdead : stats.deadLettered = dead.length) (hretryable : stats.retryable = true ↔ left ≠ [])
    (hretry : stats.status = .retry → db' = db)
    (htotal : up'.totalSynced = up.totalSynced + accepted.length) :
    Reports batchSize up db events up' stats db' := by
  have hnodup : (accepted ++ dead ++ left).Nodup := by
    refine hperm.nodup_iff.mpr ?_
    exact ((List.pairwise_map.mpr hs).imp fun hlt => hlt.ne).sublist
      (((List.take_sublist _ _).trans List.filter_sublist).map _)
  have hmarked : (accepted ++ dead).Nodup := hnodup.of_append_left
  have hdeadIds : deadIds db batchSize events db' = {id | id ∈ dead} := by
    ext id
    rw [deadIds, Set.mem_ofPred_eq, mem_fetched hs hperm, hrejected]
    refine ⟨fun h => h.2.1, fun hid => ⟨?_, hid, hchanged.letters id hid⟩⟩
    exact List.mem_append_left _ (List.mem_append_right _ hid)
  have hchangedIds := changedIds_eq hs hperm hchanged.fixes
  exact {
    changed := fun id hid => by
      rw [hchangedIds] at hid
      exact (mem_fetched hs hperm).mpr (List.mem_append_left left hid)
    changedCount := by
      rw [hchangedIds, ncard_mem hmarked, List.length_append, hsynced, hdead]
    deadCount := by rw [hdeadIds, ncard_mem hmarked.of_append_right, hdead]
    retryable := by rw [hretryable, unsynced_iff hs hperm hchanged.fixes hnodup]
    retry := hretry
    total := by rw [htotal, hsynced]
    cursor := by simpa only [haccepted] using hchanged.cursor
    fixes := by rw [hchanged.fixes, markSynced_unmark]
    letters := fun id hid => hchanged.otherLetters id (by rwa [hdeadIds] at hid)
    cursors := hchanged.otherCursors
    nodes := hchanged.nodes
    races := hchanged.races
    downlinkState := hchanged.downlinkState }

/-- Where nothing was accepted and no fix was posted on its own, every fetched row is left. -/
lemma reports_left {db : Db} (hs : db.Ordered) {batchSize : ℕ} {events : List (Event Call Answer)}
    (haccepted : ∀ id, ¬ AcceptedIn events id) (hone : oneByOne events = [])
    {up up' : CloudUplinker} {stats : RunStats} (hsynced : stats.synced = 0)
    (hdead : stats.deadLettered = 0)
    (hretryable : stats.retryable = true ↔ db.getUnsynced batchSize ≠ [])
    (htotal : up'.totalSynced = up.totalSynced) :
    Reports batchSize up db events up' stats db := by
  have hquiet : Quiet (oneByOne events) := by
    rw [hone]
    exact fun _ he => absurd he List.not_mem_nil
  refine (Changed.refl db).reports hs (.refl _)
    (fun id => iff_of_false (haccepted id) List.not_mem_nil)
    (fun id => iff_of_false (hquiet.not_rejectedAloneIn id) List.not_mem_nil)
    hsynced hdead ?_ (fun _ => rfl) htotal
  simpa using hretryable

section Batch

variable {s s₂ : Site} {batchSize : ℕ} {sent : List (Event Call Answer)} (up : CloudUplinker)
  (hs : s.db.Ordered) (hdb : s₂.db = s.db) (hhistory : s₂.history = s.history ++ sent)

include hs hdb hhistory

/-- The call after the POST of a batch that is accepted. -/
lemma acceptBatch_reports (env : Env) (hnil : s.db.getUnsynced batchSize ≠ [])
    (haccepted : ∀ id, AcceptedIn sent id ↔ id ∈ (s.db.getUnsynced batchSize).map FixRow.id)
    (hone : ∀ events, oneByOne (sent ++ events) = events) :
    let rows := s.db.getUnsynced batchSize
    let r := (accept up (rows.map FixRow.id)).exec env.respond s₂
    ∃ events, r.2.history = s.history ++ events ∧ Reports batchSize up s.db events r.1
      { fetched := rows.length, synced := rows.length, status := .ok } r.2.db := by
  intro rows r
  obtain ⟨events, hquiet, hgrows, hchanged, htotal⟩ :=
    accept_changed env up (mt List.map_eq_nil_iff.mp hnil) s₂
  rw [hdb] at hchanged
  have hperm : (rows.map FixRow.id ++ [] ++ []).Perm (rows.map FixRow.id) := by simp
  refine ⟨sent ++ events, ?_, hchanged.reports hs hperm (fun id => ?_) (fun id => ?_)
    (List.length_map _).symm rfl ?_ ?_ htotal⟩
  · rw [hgrows, hhistory, List.append_assoc]
  · rw [acceptedIn_append, haccepted, or_iff_left (hquiet.not_acceptedIn id)]
  · rw [hone]
    exact iff_of_false (hquiet.not_rejectedAloneIn id) List.not_mem_nil
  · exact iff_of_false Bool.false_ne_true (not_not_intro rfl)
  · rintro ⟨⟩

/-- The call after the POST of a batch that is rejected: each fix is posted on its own. -/
lemma isolateBatch_reports (env : Env) (haccepted : ∀ id, ¬ AcceptedIn sent id)
    (hone : ∀ events, oneByOne (sent ++ events) = events) (error : Option UplinkError) :
    let rows := s.db.getUnsynced batchSize
    let r := (isolatePoison up rows).exec env.respond s₂
    ∃ events, r.2.history = s.history ++ events ∧
      ∀ up', up'.totalSynced = r.1.1.totalSynced → Reports batchSize up s.db events up'
        { fetched := rows.length, synced := r.1.2.synced, deadLettered := r.1.2.dead,
          retryable := r.1.2.retryLeft, status := .partly, error := error } r.2.db := by
  intro rows r
  obtain ⟨accepted, dead, left, events, hdid, hperm⟩ := isolateLoop_did env up ⟨0, 0, false⟩ rows s₂
  have hchanged := hdid.changed
  dsimp only at hchanged
  rw [hdb] at hchanged
  refine ⟨sent ++ events, ?_, fun up' htotal => hchanged.reports hs hperm (fun id => ?_)
    (fun id => ?_) (hdid.synced.trans (Nat.zero_add _)) (hdid.dead.trans (Nat.zero_add _))
    (hdid.retryLeft.trans (or_iff_right Bool.false_ne_true)) ?_ (htotal.trans hdid.total)⟩
  · rw [← List.append_assoc, ← hhistory]
    exact hdid.history
  · rw [acceptedIn_append, hdid.acceptedIn, or_iff_right (haccepted id)]
  · rw [hone, hdid.rejectedIn]
  · rintro ⟨⟩

end Batch

/-- A cloud that rejects every batch, and on its own accepts the fix 1, rejects the fix 2 and is
out of reach for the others. -/
def sorting : Env := fun _ c =>
  { reply := match bodyOf c with
      | [[f]] => if f.id = 1 then .ok ⟨201, none⟩ else if f.id = 2 then .ok ⟨422, none⟩
        else .error .transportError
      | _ => .ok ⟨400, none⟩
    now := 0 }

end SrtGateway.Uplink
