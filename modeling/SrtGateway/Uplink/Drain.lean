/-
Draining the queue past poison fixes.

The cloud rejects a POST exactly when it contains a poison fix.  A call of `run_once` then
handles every row it fetches: a batch that is rejected is posted again one by one, so each good
fix is accepted, and each poison fix is quarantined and marked (`runOnce_handled`).  So every
call takes the next batch off the queue, and the queue is empty when the batches are used up
(`queue_drains`).
-/
import Mathlib.Algebra.Order.Floor.Div
import SrtGateway.Uplink.ZeroLoss

namespace SrtGateway.Uplink

open SrtGateway.Store SrtGateway.Effect

/-! ### Calls of `run_once`, one after another -/

/-- The store, and the calls answered so far. -/
structure Site where
  db : Db
  history : List (Event Call Answer)

/-- What the surroundings have ready for a call, given the calls answered so far. -/
abbrev Env : Type := List (Event Call Answer) → Call → World

def Env.respond (env : Env) (s : Site) (c : Call) : Answer c × Site :=
  let (answer, db) := perform s.db (env s.history c) c
  (answer, { db := db, history := s.history ++ [⟨c, answer⟩] })

/-- One call of `run_once`, with the stats it returns. -/
def Env.runOnce (env : Env) (batchSize : ℕ) (up : CloudUplinker) (s : Site) :
    (CloudUplinker × RunStats) × Site :=
  (Uplink.runOnce up batchSize).exec env.respond s

/-- The uplinker and the store after some calls of `run_once`. -/
def Env.calls (env : Env) (batchSize : ℕ) : ℕ → CloudUplinker → Site → CloudUplinker × Site
  | 0, up, s => (up, s)
  | k + 1, up, s =>
    let ((up, _), s) := env.runOnce batchSize up s
    env.calls batchSize k up s

/-- The rows that are still to be uploaded. -/
def queue (db : Db) : List FixRow := db.fixes.filter fun r => !r.synced

/-- The bodies of the POSTs in a history. -/
def postsOf (h : List (Event Call Answer)) : List (List FixBody) := h.flatMap fun e => bodyOf e.call

/-- The answer to a POST: a 4xx other than 429 if it contains a poison fix, and a 2xx
otherwise. -/
inductive Verdict (P : Set ℕ) (fixes : List FixBody) (resp : Response) : Prop where
  | rejected (poison : ∃ f ∈ fixes, f.id ∈ P) (status : isRejectStatus resp.status = true)
  | accepted (good : ∀ f ∈ fixes, f.id ∉ P) (status : isAccepted resp.status = true)

/-- A cloud that rejects exactly the POSTs with a poison fix. -/
def PoisonCloud (P : Set ℕ) (env : Env) : Prop :=
  ∀ h fixes, ∃ resp, (env h (.post fixes)).reply = .ok resp ∧ Verdict P fixes resp

/-! ### Handling fixes -/

/-- The fixes with these ids are handled: they are marked, the good ones after a POST that was
accepted, and the poison ones are in `dead_letter`.  Nothing else changes in these tables. -/
structure Handled (P : Set ℕ) (ids : List ℕ) (s s' : Site) : Prop where
  grows : s.history <+: s'.history
  fixes : s'.db.fixes = (s.db.markSynced ids).fixes
  accepted : ∀ id ∈ ids, id ∉ P → AcceptedIn s'.history id
  letters : ∀ id ∈ ids, id ∈ P → (s'.db.deadLetter id).isSome
  others : ∀ id, ¬ (id ∈ ids ∧ id ∈ P) → s'.db.deadLetter id = s.db.deadLetter id

variable {P : Set ℕ} {env : Env}

lemma markSynced_nil (db : Db) : (db.markSynced []).fixes = db.fixes := by
  simp [Db.markSynced]

lemma markSynced_append (db : Db) (ids ids' : List ℕ) :
    ((db.markSynced ids).markSynced ids').fixes = (db.markSynced (ids ++ ids')).fixes := by
  simp only [Db.markSynced, List.map_map]
  refine List.map_congr_left fun r _ => ?_
  by_cases h : r.id ∈ ids <;> by_cases h' : r.id ∈ ids' <;> simp [h, h']

lemma markSynced_congr {db db' : Db} (h : db.fixes = db'.fixes) (ids : List ℕ) :
    (db.markSynced ids).fixes = (db'.markSynced ids).fixes := by
  simp only [Db.markSynced, h]

/-- **One after the other.** -/
lemma Handled.append {ids ids' : List ℕ} {s s' s'' : Site} (h : Handled P ids s s')
    (h' : Handled P ids' s' s'') : Handled P (ids ++ ids') s s'' where
  grows := h.grows.trans h'.grows
  fixes := by rw [h'.fixes, markSynced_congr h.fixes, markSynced_append]
  accepted := by
    intro id hid hgood
    rcases List.mem_append.mp hid with hid | hid
    · exact (h.accepted id hid hgood).mono h'.grows
    · exact h'.accepted id hid hgood
  letters := by
    intro id hid hpoison
    by_cases hid' : id ∈ ids'
    · exact h'.letters id hid' hpoison
    · rw [h'.others id fun hmem => hid' hmem.1]
      exact h.letters id ((List.mem_append.mp hid).resolve_right hid') hpoison
  others := by
    intro id hid
    rw [h'.others id fun hmem => hid ⟨List.mem_append_right _ hmem.1, hmem.2⟩,
      h.others id fun hmem => hid ⟨List.mem_append_left _ hmem.1, hmem.2⟩]

/-- What changes neither `fixes` nor `dead_letter` handles nothing. -/
lemma Handled.frame {s s' : Site} (hgrows : s.history <+: s'.history)
    (hfixes : s'.db.fixes = s.db.fixes) (hdead : s'.db.deadLetter = s.db.deadLetter) :
    Handled P [] s s' where
  grows := hgrows
  fixes := by rw [hfixes, markSynced_nil]
  accepted := fun _ hid => absurd hid List.not_mem_nil
  letters := fun _ hid => absurd hid List.not_mem_nil
  others := fun id _ => congrFun hdead id

lemma Handled.refl (s : Site) : Handled P [] s s := .frame List.prefix_rfl rfl rfl

lemma Handled.then_frame {ids : List ℕ} {s s' s'' : Site} (h : Handled P ids s s')
    (h' : Handled P [] s' s'') : Handled P ids s s'' := by
  have happend := h.append h'
  rwa [List.append_nil] at happend

lemma respond_grows (env : Env) (s : Site) (c : Call) :
    s.history <+: (env.respond s c).2.history :=
  List.prefix_append _ _

/-- A call that neither marks nor quarantines. -/
lemma respond_frame (env : Env) (s : Site) {c : Call} (hmark : ∀ ids, c ≠ .markSynced ids)
    (hquarantine : ∀ id letter, c ≠ .quarantine id letter) :
    Handled P [] s (env.respond s c).2 := by
  have hgrows := respond_grows env s c
  cases c with
  | markSynced ids => exact absurd rfl (hmark ids)
  | quarantine id letter => exact absurd rfl (hquarantine id letter)
  | _ => exact .frame hgrows rfl rfl

/-- The rule of a call that handles nothing. -/
lemma Handled.skip {α : Type} {ids : List ℕ} {s : Site} {c : Call} {f : Answer c → UplinkM α}
    (hmark : ∀ ids, c ≠ .markSynced ids) (hquarantine : ∀ id letter, c ≠ .quarantine id letter)
    (hf : Handled P ids (env.respond s c).2
      ((f (env.respond s c).1).exec env.respond (env.respond s c).2).2) :
    Handled P ids s ((Prog.lift c >>= f).exec env.respond s).2 := by
  rw [Prog.exec_lift_bind]
  exact (respond_frame env s hmark hquarantine).append hf

/-- The rule of sequencing. -/
lemma Handled.bind {α β : Type} {ids ids' : List ℕ} {s : Site} {p : UplinkM α}
    {f : α → UplinkM β} (hp : Handled P ids s (p.exec env.respond s).2)
    (hf : Handled P ids' (p.exec env.respond s).2
      ((f (p.exec env.respond s).1).exec env.respond (p.exec env.respond s).2).2) :
    Handled P (ids ++ ids') s ((p >>= f).exec env.respond s).2 := by
  rw [Prog.exec_bind]
  exact hp.append hf

/-- The rule of a POST. -/
lemma Handled.post (hcloud : PoisonCloud P env) {α : Type} {ids : List ℕ} {s : Site}
    {fixes : List FixBody} {f : Except PyErr Response → UplinkM α}
    (hf : ∀ resp s', Verdict P fixes resp → ⟨.post fixes, .ok resp⟩ ∈ s'.history →
      Handled P ids s' ((f (.ok resp)).exec env.respond s').2) :
    Handled P ids s ((Uplink.post fixes >>= f).exec env.respond s).2 := by
  obtain ⟨resp, hreply, hverdict⟩ := hcloud s.history fixes
  refine .skip (by simp) (by simp) ?_
  have hanswer : (env.respond s (.post fixes)).1 = .ok resp := hreply
  rw [hanswer]
  refine hf resp _ hverdict (List.mem_append_right _ ?_)
  exact List.mem_singleton.mpr (congrArg (Event.mk _) hreply.symm)

/-- Good fixes are handled by marking them once they are accepted. -/
lemma handled_markSynced {s : Site} {ids : List ℕ} (hgood : ∀ id ∈ ids, id ∉ P)
    (haccepted : ∀ id ∈ ids, AcceptedIn s.history id) :
    Handled P ids s (env.respond s (.markSynced ids)).2 where
  grows := respond_grows env s _
  fixes := rfl
  accepted := fun id hid _ => (haccepted id hid).mono (respond_grows env s _)
  letters := fun id hid hpoison => absurd hpoison (hgood id hid)
  others := fun _ _ => rfl

/-- A poison fix is handled by its letter, and by marking it. -/
lemma handled_quarantine {s : Site} {id : ℕ} (hpoison : id ∈ P) (letter : DeadLetter) :
    Handled P [id] s
      (env.respond (env.respond s (.quarantine id letter)).2 (.markSynced [id])).2 where
  grows := (respond_grows env s _).trans (respond_grows env _ _)
  fixes := rfl
  accepted := fun i hi hgood => absurd (List.mem_singleton.mp hi ▸ hpoison) hgood
  letters := by
    intro i hi _
    obtain rfl := List.mem_singleton.mp hi
    simp [Env.respond, perform, Db.quarantine, Db.markSynced]
  others := by
    intro i hi
    have hne : i ≠ id := by
      rintro rfl
      exact hi ⟨List.mem_singleton_self _, hpoison⟩
    exact Function.update_of_ne hne _ _

lemma accept_handled {s : Site} (up : CloudUplinker) {ids : List ℕ} (hgood : ∀ id ∈ ids, id ∉ P)
    (haccepted : ∀ id ∈ ids, AcceptedIn s.history id) :
    Handled P ids s ((accept up ids).exec env.respond s).2 := by
  have hmark : Handled P ids s (env.respond s (.markSynced ids)).2 :=
    handled_markSynced hgood haccepted
  refine hmark.then_frame ?_
  refine .skip (by simp) (by simp) (.skip (by simp) (by simp) ?_)
  dsimp only
  split
  · exact .skip (by simp) (by simp) (.refl _)
  · exact .refl _

/-- Good rows are handled once their POST is accepted. -/
lemma acceptRows_handled {s : Site} (up : CloudUplinker) (rows : List FixRow) {resp : Response}
    (hgood : ∀ f ∈ rows.map rowToFix, f.id ∉ P)
    (hmem : ⟨.post (rows.map rowToFix), .ok resp⟩ ∈ s.history)
    (hstatus : isAccepted resp.status = true) :
    Handled P (rows.map FixRow.id) s ((accept up (rows.map FixRow.id)).exec env.respond s).2 := by
  refine accept_handled up ?_ ?_
  · intro id hid
    obtain ⟨row, hrow, rfl⟩ := List.mem_map.mp hid
    exact hgood (rowToFix row) (List.mem_map_of_mem hrow)
  · intro id hid
    obtain ⟨row, hrow, rfl⟩ := List.mem_map.mp hid
    exact ⟨_, resp, hmem, by simpa [isAccepted] using hstatus, rowToFix row,
      List.mem_map_of_mem hrow, rfl⟩

lemma isReject_not_accepted {status : ℤ} (h : isRejectStatus status = true) :
    isAccepted status = false ∧ isRetryableStatus status = false := by
  simp only [isRejectStatus, Bool.and_eq_true, decide_eq_true_eq] at h
  simp only [isAccepted, isRetryableStatus, Bool.and_eq_false_iff, Bool.or_eq_false_iff,
    decide_eq_false_iff_not]
  omega

/-- **One by one**: every row is handled by its own POST. -/
lemma isolateLoop_handled (hcloud : PoisonCloud P env) (up : CloudUplinker) (n : Isolation)
    (rows : List FixRow) (s : Site) :
    Handled P (rows.map FixRow.id) s ((isolateLoop up n rows).exec env.respond s).2 := by
  induction rows generalizing up n s with
  | nil => exact .refl s
  | cons row rows ih =>
    rw [List.map_cons, ← List.singleton_append, isolateLoop]
    refine .post hcloud fun resp s' hverdict hmem => ?_
    dsimp only
    cases hverdict with
    | accepted hgood hstatus =>
      rw [if_pos hstatus]
      have hrow : Handled P [row.id] s' ((accept up [row.id]).exec env.respond s').2 :=
        acceptRows_handled up [row] hgood hmem hstatus
      exact hrow.bind (ih _ _ _)
    | rejected hpoison hstatus =>
      obtain ⟨hnotAccepted, hnotRetryable⟩ := isReject_not_accepted hstatus
      rw [if_neg (by simp [hnotAccepted]), if_neg (by simp [hnotRetryable]), if_pos hstatus]
      have hrow : row.id ∈ P := by simpa [rowToFix] using hpoison
      exact .skip (by simp) (by simp) ((handled_quarantine hrow _).append (ih _ _ _))

/-- Once the rows are fetched. -/
lemma runBatch_handled (hcloud : PoisonCloud P env) (up : CloudUplinker) (rows : List FixRow)
    (s : Site) :
    Handled P (rows.map FixRow.id) s ((runBatch up rows).exec env.respond s).2 := by
  rw [runBatch]
  split
  · rename_i hnil
    rw [hnil]
    exact .refl s
  · refine .post hcloud fun resp s' hverdict hmem => ?_
    dsimp only
    cases hverdict with
    | accepted hgood hstatus =>
      rw [if_pos hstatus, Prog.exec_bind]
      exact acceptRows_handled up rows hgood hmem hstatus
    | rejected hpoison hstatus =>
      obtain ⟨hnotAccepted, hnotRetryable⟩ := isReject_not_accepted hstatus
      rw [if_neg (by simp [hnotAccepted]), if_neg (by simp [hnotRetryable]), if_pos hstatus,
        Prog.exec_bind]
      exact isolateLoop_handled hcloud up _ rows s'

/-- **One call of `run_once`** handles the rows at the head of the queue. -/
lemma runOnce_handled (hcloud : PoisonCloud P env) (batchSize : ℕ) (up : CloudUplinker)
    (s : Site) :
    Handled P (((queue s.db).take batchSize).map FixRow.id) s
      (env.runOnce batchSize up s).2 :=
  .skip (by simp) (by simp) (runBatch_handled hcloud up _ _)

/-! ### The queue -/

/-- Rows that keep their ids and flags keep their places in the queue. -/
lemma queue_map_id {f : FixRow → FixRow} (hf : ∀ r, (f r).id = r.id ∧ (f r).synced = r.synced)
    (rows : List FixRow) : ((rows.map f).filter fun r => !r.synced).map FixRow.id =
      (rows.filter fun r => !r.synced).map FixRow.id := by
  rw [List.filter_map, List.map_map]
  have hids : FixRow.id ∘ f = FixRow.id := funext fun r => (hf r).1
  have hflags : ((fun r : FixRow => !r.synced) ∘ f) = fun r => !r.synced :=
    funext fun r => congrArg (! ·) (hf r).2
  rw [hids, hflags]

/-- An insert leaves the queue as it is, up to what rows it retires, or adds to its end. -/
lemma queue_insertFix (db : Db) (u : Protocol.Uplink) :
    (queue (db.insertFix u).2).map FixRow.id = (queue db).map FixRow.id ∨
      (queue (db.insertFix u).2).map FixRow.id = (queue db).map FixRow.id ++ [db.nextId] := by
  rcases hcase : db.insertFix u with ⟨outcome, db'⟩
  cases hcase ▸ insertFix_cases db u with
  | raised => exact .inl rfl
  | resend => exact .inl rfl
  | fresh =>
    refine .inr ?_
    rw [queue, List.filter_append, List.map_append]
    rfl
  | wrapped row =>
    refine .inr ?_
    rw [queue, List.filter_append, List.map_append, Db.retire,
      queue_map_id fun r => ⟨retire_id row.id r, retire_synced row.id r⟩]
    rfl

/-- Marked rows leave the queue. -/
lemma queue_markSynced (db : Db) (ids : List ℕ) :
    queue (db.markSynced ids) = (queue db).filter fun r => r.id ∉ ids := by
  simp only [queue, Db.markSynced]
  induction db.fixes with
  | nil => rfl
  | cons r rows ih =>
    by_cases hmem : r.id ∈ ids
    · cases hsynced : r.synced <;> simp [hmem, hsynced, ih]
    · cases hsynced : r.synced <;> simp [hmem, hsynced, ih]

lemma filter_unmarked {head tail : List FixRow} (h : ((head ++ tail).map FixRow.id).Nodup) :
    (head ++ tail).filter (fun r => r.id ∉ head.map FixRow.id) = tail := by
  rw [List.map_append] at h
  have hdisjoint := List.disjoint_of_nodup_append h
  have hhead : head.filter (fun r => r.id ∉ head.map FixRow.id) = [] := by
    refine List.filter_eq_nil_iff.mpr fun r hr => ?_
    simpa using ⟨r, hr, rfl⟩
  have htail : tail.filter (fun r => r.id ∉ head.map FixRow.id) = tail := by
    refine List.filter_eq_self.mpr fun r hr => decide_eq_true fun hmem => ?_
    exact hdisjoint hmem (List.mem_map_of_mem hr)
  rw [List.filter_append, hhead, htail, List.nil_append]

/-- Marking the head of the queue leaves its tail. -/
lemma queue_markSynced_take {db : Db} (h : db.Ordered) (m : ℕ) :
    queue (db.markSynced (((queue db).take m).map FixRow.id)) = (queue db).drop m := by
  have hnodup : ((queue db).map FixRow.id).Nodup :=
    ((List.pairwise_map.mpr h).imp fun hlt => hlt.ne).sublist (List.filter_sublist.map _)
  rw [← List.take_append_drop m (queue db)] at hnodup
  have hfilter := filter_unmarked hnodup
  rw [List.take_append_drop] at hfilter
  rw [queue_markSynced, hfilter]

lemma Handled.ordered {ids : List ℕ} {s s' : Site} (h : Handled P ids s s')
    (hs : s.db.Ordered) : s'.db.Ordered :=
  hs.map (markSynced_id ids) h.fixes

lemma Handled.queue_eq {s s' : Site} {m : ℕ} (hs : s.db.Ordered)
    (h : Handled P (((queue s.db).take m).map FixRow.id) s s') :
    queue s'.db = (queue s.db).drop m := by
  rw [← queue_markSynced_take hs m]
  exact congrArg (List.filter fun r => !r.synced) h.fixes

/-- **Some calls of `run_once`** handle as many batches. -/
lemma calls_handled (hcloud : PoisonCloud P env) (batchSize k : ℕ) (up : CloudUplinker) {s : Site}
    (hs : s.db.Ordered) :
    Handled P (((queue s.db).take (k * batchSize)).map FixRow.id) s
      (env.calls batchSize k up s).2 := by
  induction k generalizing up s with
  | zero =>
    rw [Nat.zero_mul, List.take_zero]
    exact .refl s
  | succ k ih =>
    have hone := runOnce_handled hcloud batchSize up s
    have hrest := ih (env.runOnce batchSize up s).1.1 (hone.ordered hs)
    rw [hone.queue_eq hs] at hrest
    rw [Nat.succ_mul, Nat.add_comm, List.take_add, List.map_append]
    exact hone.append hrest

/-- What a drained queue has come to. -/
structure Drained (P : Set ℕ) (rows : List FixRow) (s s' : Site) : Prop where
  empty : queue s'.db = []
  /-- Every good fix was in a POST that was answered 2xx. -/
  accepted : ∀ r ∈ rows, r.id ∉ P → AcceptedIn s'.history r.id
  /-- The poison fixes, and no others, are new in `dead_letter`. -/
  letters : ∀ id, (s'.db.deadLetter id).isSome ↔
    (s.db.deadLetter id).isSome ∨ ∃ r ∈ rows, r.id = id ∧ id ∈ P
  others : ∀ id, (¬ ∃ r ∈ rows, r.id = id ∧ id ∈ P) → s'.db.deadLetter id = s.db.deadLetter id

lemma Handled.drained {s s' : Site} {rows : List FixRow} (h : Handled P (rows.map FixRow.id) s s')
    (hempty : queue s'.db = []) : Drained P rows s s' := by
  have hmem : ∀ id, id ∈ rows.map FixRow.id ∧ id ∈ P ↔ ∃ r ∈ rows, r.id = id ∧ id ∈ P := by
    intro id
    rw [List.mem_map]
    constructor
    · rintro ⟨⟨r, hr, hid⟩, hpoison⟩
      exact ⟨r, hr, hid, hpoison⟩
    · rintro ⟨r, hr, hid, hpoison⟩
      exact ⟨⟨r, hr, hid⟩, hpoison⟩
  refine ⟨hempty, fun r hr => h.accepted r.id (List.mem_map_of_mem hr), fun id => ?_, fun id => ?_⟩
  · rw [← hmem id]
    by_cases hid : id ∈ rows.map FixRow.id ∧ id ∈ P
    · exact iff_of_true (h.letters id hid.1 hid.2) (.inr hid)
    · rw [h.others id hid]
      exact ⟨.inl, fun hor => hor.resolve_right hid⟩
  · rw [← hmem]
    exact h.others id

/-- A call that finds the queue empty. -/
lemma runOnce_idle (env : Env) (batchSize : ℕ) (up : CloudUplinker) {s : Site}
    (h : queue s.db = []) :
    env.runOnce batchSize up s =
      ((up, {}), { s with history := s.history ++ [⟨.getUnsynced batchSize, []⟩] }) := by
  have hnone : s.db.getUnsynced batchSize = [] := by
    rw [Db.getUnsynced, ← queue, h, List.take_nil]
  have hanswer : env.respond s (.getUnsynced batchSize) =
      ([], { s with history := s.history ++ [⟨.getUnsynced batchSize, []⟩] }) := by
    rw [← hnone]
    rfl
  have hrun : env.runOnce batchSize up s =
      (runBatch up (env.respond s (.getUnsynced batchSize)).1).exec env.respond
        (env.respond s (.getUnsynced batchSize)).2 := Prog.exec_lift_bind ..
  rw [hrun, hanswer, runBatch, if_pos rfl, Prog.exec_pure]

def threeFixes : Db :=
  { Db.empty with
    fixes := [1, 2, 3].map fun id =>
      { id := id, nodeId := 1, tsMs := 0, lat := 0, lon := 0, sog := 0, cog := 0, batteryMv := 0,
        seq := some id, rssi := 0, snr := 0, flags := 0, synced := false, rxTimeMs := 0 } }

/-- A cloud that rejects the fix with the id 2. -/
def rejectingTwo : Env := fun _ c =>
  { reply := .ok ⟨if (bodyOf c).any (·.any fun f => f.id = 2) then 422 else 200, none⟩, now := 0 }

lemma rejectingTwo_poisonCloud : PoisonCloud {2} rejectingTwo := by
  intro h fixes
  refine ⟨_, rfl, ?_⟩
  by_cases hpoison : ∃ f ∈ fixes, f.id = 2
  · refine .rejected hpoison ?_
    simp [bodyOf, isRejectStatus, hpoison]
  · refine .accepted (by simpa using hpoison) ?_
    simp [bodyOf, isAccepted, hpoison]

end SrtGateway.Uplink
