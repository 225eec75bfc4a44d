/-
The queue moves on, whatever comes in between.

A call of `run_once` that returns with nothing to retry has marked all rows that it fetched.
The fetch takes the oldest rows, and new rows are younger than all others; so the rows that are
in the queue at some time are out of it once there have been enough such calls, however many
inserts, calls that fail and crashes come in between (`Traced.cleared`).
-/
import SrtGateway.Uplink.Accounting
import SrtGateway.Uplink.Drain

namespace SrtGateway.Uplink

open SrtGateway.Protocol SrtGateway.Store SrtGateway.Effect

/-! ### What a return says -/

/-- A program that makes any calls, and ends in a way that `post` allows. -/
abbrev Returns {α : Type} (post : List (Event Call Answer) → α → Prop)
    (h : List (Event Call Answer)) (p : UplinkM α) : Prop :=
  p.Meets (fun _ _ => True) post h

section

variable {h : List (Event Call Answer)}

lemma accept_marks (up : CloudUplinker) (ids : List ℕ) :
    Returns (fun h' _ => markedBy h' = markedBy h ++ ids) h (accept up ids) :=
  accept_meets trivial (fun _ _ _ => trivial) fun _ _ hafter _ => markedBy_accepted h ids hafter

/-- **One by one**: where no fix is left for a retry, all of them are marked. -/
lemma isolateLoop_marks (up : CloudUplinker) (n : Isolation) (rows : List FixRow) :
    Returns (fun h' r => r.2.retryLeft = false → markedBy h ++ rows.map FixRow.id ⊆ markedBy h')
      h (isolateLoop up n rows) := by
  -- with the rows that are still to come, all are marked
  have hloop : Returns (fun h' r => r.2.retryLeft = false →
      markedBy h ++ rows.map FixRow.id ⊆ markedBy h' ++ []) h (isolateLoop up n rows) := by
    refine isolateLoop_meets (I := fun h' _ n' rows' => n'.retryLeft = false →
      markedBy h ++ rows.map FixRow.id ⊆ markedBy h' ++ rows'.map FixRow.id) ?_ ?_ ?_ ?_ ?_
    · intros
      trivial
    · rintro h' up n row rows - reply up' - hfalse
      exact absurd hfalse (by simp)
    · intro h' up n row rows hrest resp
      refine (accept_marks up [row.id]).mono fun h'' up' hmarked hfalse => ?_
      rw [hmarked, markedBy_concat, marksOf, List.append_nil, List.append_assoc]
      exact hrest hfalse
    · intro h' up n row rows hrest resp
      refine Prog.Meets.call trivial fun now => Prog.Meets.call trivial fun _ =>
        Prog.Meets.call trivial fun _ hfalse => ?_
      simp only [markedBy_concat, marksOf, List.append_nil]
      rw [List.append_assoc]
      exact hrest hfalse
    · exact fun _ => List.Subset.refl _
  refine hloop.mono fun h' r hr hfalse => ?_
  rw [← List.append_nil (markedBy h')]
  exact hr hfalse

/-- **Once the rows are fetched**: where there is nothing to retry, all of them are marked. -/
lemma runBatch_marks (up : CloudUplinker) (rows : List FixRow) :
    Returns (fun h' r => r.2.retryable = false → rows.map FixRow.id ⊆ markedBy h') h
      (runBatch up rows) := by
  unfold runBatch
  split
  · rename_i hnil
    intro _
    rw [hnil]
    exact List.nil_subset _
  · refine Prog.Meets.call trivial fun reply => ?_
    cases reply with
    | error x => exact fun hfalse => absurd hfalse (by simp)
    | ok resp =>
      dsimp only
      split_ifs
      · refine Prog.Meets.bind (accept_marks up _) fun h' up' hup' => Prog.Meets.pure fun _ => ?_
        rw [hup']
        exact List.subset_append_right _ _
      · exact fun hfalse => absurd hfalse (by simp)
      · refine Prog.Meets.bind (isolateLoop_marks up _ rows) fun h' r hr =>
          Prog.Meets.pure fun hfalse => ?_
        exact (List.append_subset.mp (hr hfalse)).2
      · exact fun hfalse => absurd hfalse (by simp)

end

/-! ### The backlog -/

/-- The ids below `n` of the rows in the queue. -/
def backlog (n : ℕ) (db : Db) : List ℕ := ((queue db).map FixRow.id).filter (· < n)

/-- Of the least elements of a list, dropping those among its first ones drops the first. -/
lemma filter_notMem_take {l : List ℕ} (h : l.Pairwise (· < ·)) (n k : ℕ) :
    (l.filter (· < n)).filter (· ∉ l.take k) = (l.filter (· < n)).drop k := by
  induction l generalizing k with
  | nil => simp
  | cons a l ih =>
    obtain ⟨hhead, htail⟩ := List.pairwise_cons.mp h
    cases k with
    | zero => simp
    | succ k =>
      have hrest : (l.filter (· < n)).filter (· ∉ a :: l.take k) =
          (l.filter (· < n)).filter (· ∉ l.take k) := by
        refine List.filter_congr fun i hi => ?_
        have hne : i ≠ a := (hhead i (List.mem_of_mem_filter hi)).ne'
        simp [hne]
      by_cases ha : a < n
      · have hfirst : (a :: l).filter (· < n) = a :: l.filter (· < n) :=
          List.filter_cons_of_pos (decide_eq_true ha)
        rw [hfirst, List.take_succ_cons, List.filter_cons_of_neg (by simp), List.drop_succ_cons,
          hrest, ih htail]
      · -- nothing after `a` is below `n`
        have hnil : l.filter (· < n) = [] := by
          refine List.filter_eq_nil_iff.mpr fun i hi => ?_
          have hlt := hhead i hi
          simp only [decide_eq_true_eq]
          omega
        simp [ha, hnil]

lemma backlog_insertFix {n : ℕ} {db : Db} (h : n ≤ db.nextId) (u : Uplink) :
    backlog n (db.insertFix u).2 = backlog n db := by
  rcases queue_insertFix db u with hqueue | hqueue
  · rw [backlog, hqueue, backlog]
  · rw [backlog, hqueue, List.filter_append, backlog]
    simp [h]

lemma backlog_perform (n : ℕ) (db : Db) (world : World) (c : Call) :
    backlog n (perform db world c).2 = (backlog n db).filter (· ∉ marksOf c) := by
  have hqueue : queue (perform db world c).2 = queue (db.markSynced (marksOf c)) :=
    congrArg (List.filter fun r : FixRow => !r.synced) (perform_tables db world c).1
  have hids : ((queue db).filter fun r => r.id ∉ marksOf c).map FixRow.id =
      ((queue db).map FixRow.id).filter (· ∉ marksOf c) := by
    rw [List.filter_map]
    rfl
  rw [backlog, hqueue, queue_markSynced, hids, List.filter_comm, backlog]

/-- **The fetch** takes the head of the backlog, and maybe more. -/
lemma backlog_fetch {db : Db} (h : db.Ordered) (n k : ℕ) :
    (backlog n db).filter (· ∉ (db.getUnsynced k).map FixRow.id) = (backlog n db).drop k := by
  have hids : ((queue db).map FixRow.id).Pairwise (· < ·) :=
    List.pairwise_map.mpr (h.sublist List.filter_sublist)
  have htake : (db.getUnsynced k).map FixRow.id = ((queue db).map FixRow.id).take k :=
    List.map_take
  rw [htake]
  exact filter_notMem_take hids n k

lemma nextId_perform (db : Db) (world : World) (c : Call) :
    (perform db world c).2.nextId = db.nextId := by
  have hids : (perform db world c).2.fixes.map FixRow.id = db.fixes.map FixRow.id := by
    rw [(perform_tables db world c).1, Db.markSynced, List.map_map]
    exact List.map_congr_left fun r _ => markSynced_id _ r
  rw [Db.nextId, hids, Db.nextId]

lemma le_nextId_insertFix (db : Db) (u : Uplink) : db.nextId ≤ (db.insertFix u).2.nextId := by
  -- a new row has the next id, and is in the new store
  have hnew : ∀ db' : Db, rowOf db.nextId u ∈ db'.fixes → db.nextId ≤ db'.nextId := by
    intro db' hmem
    have hlt : (rowOf db.nextId u).id < db'.nextId := lt_nextId hmem
    exact hlt.le
  rcases hcase : db.insertFix u with ⟨outcome, db'⟩
  cases hcase ▸ insertFix_cases db u with
  | raised => exact le_rfl
  | resend => exact le_rfl
  | fresh => exact hnew _ (List.mem_append_right _ (List.mem_singleton_self _))
  | wrapped => exact hnew _ (List.mem_append_right _ (List.mem_singleton_self _))

/-! ### Calls that clear their batch -/

/-- A call returns with nothing to retry. -/
def cleared (s : System) : Step → ℕ
  | .advance _ =>
    match s.running with
    | some (.pure (_, stats)) => if stats.retryable then 0 else 1
    | _ => 0
  | .insert _ | .start _ | .crash => 0

/-- At most `m` of the rows below `n` are in the queue, and at most `m - b` once the running call
has marked what it fetched. -/
structure Clearing (n b m : ℕ) (s : System) : Prop where
  known : n ≤ s.db.nextId
  left : (backlog n s.db).length ≤ m
  running : ∀ p, s.running = some p →
    (∃ up batchSize, b ≤ batchSize ∧ p = runOnce up batchSize) ∨
    ∃ h ids, Returns (fun h' r => r.2.retryable = false → ids ⊆ markedBy h') h p ∧
      (∀ id ∈ markedBy h, id ∉ backlog n s.db) ∧
      ((backlog n s.db).filter (· ∉ ids)).length ≤ m - b

section

variable {n b m : ℕ} {s : System} (hs : Clearing n b m s)

include hs

lemma Clearing.insert (u : Uplink) : Clearing n b m (s.insert u) := by
  have hbacklog : backlog n (s.insert u).db = backlog n s.db := backlog_insertFix hs.known u
  refine ⟨hs.known.trans (le_nextId_insertFix s.db u), ?_, ?_⟩
  · rw [hbacklog]
    exact hs.left
  · rw [hbacklog]
    exact hs.running

lemma Clearing.start {batchSize : ℕ} (hbatch : b ≤ batchSize) :
    Clearing n b m (s.step (.start batchSize)) := by
  rw [System.step]
  split
  · exact hs
  · refine ⟨hs.known, hs.left, ?_⟩
    rintro p ⟨⟩
    exact .inl ⟨s.up, batchSize, hbatch, rfl⟩

/-- One step of a call: the rows that it marks leave the backlog. -/
lemma Clearing.advance (hordered : s.db.Ordered) (world : World) :
    Clearing n b (m - b * cleared s (.advance world)) (s.advance world) := by
  rcases hrun : s.running with _ | ⟨⟨up, stats⟩⟩ | ⟨c, next⟩
  · have hcleared : cleared s (.advance world) = 0 := by rw [cleared, hrun]
    rw [System.advance, hrun, hcleared]
    exact hs
  · have hcleared : cleared s (.advance world) = if stats.retryable then 0 else 1 := by
      rw [cleared, hrun]
    rw [System.advance, hrun, hcleared]
    refine ⟨hs.known, ?_, by rintro p ⟨⟩⟩
    rcases hs.running _ hrun with ⟨up', batchSize, -, hstart⟩ | ⟨h, ids, hends, hmarked, hleft⟩
    · cases hstart
    · split_ifs with hretry
      · exact hs.left
      · -- all that the call fetched is marked
        have hall : (backlog n s.db).filter (· ∉ ids) = backlog n s.db := by
          refine List.filter_eq_self.mpr fun id hid => decide_eq_true fun hmem => ?_
          exact hmarked id (hends (Bool.eq_false_iff.mpr hretry) hmem) hid
        rw [hall] at hleft
        rwa [Nat.mul_one]
  · have hcleared : cleared s (.advance world) = 0 := by rw [cleared, hrun]
    rw [System.advance, hrun, hcleared]
    have hbacklog := backlog_perform n s.db world c
    have hsub : (backlog n (perform s.db world c).2).Sublist (backlog n s.db) := by
      rw [hbacklog]
      exact List.filter_sublist
    refine ⟨(nextId_perform s.db world c).symm ▸ hs.known, hsub.length_le.trans hs.left, ?_⟩
    rintro p ⟨⟩
    right
    rcases hs.running _ hrun with ⟨up, batchSize, hbatch, hstart⟩ | ⟨h, ids, hends, hmarked, hleft⟩
    · -- the rows that are fetched are the oldest ones
      cases hstart
      refine ⟨[], (s.db.getUnsynced batchSize).map FixRow.id, runBatch_marks up _,
        fun _ hid => absurd hid List.not_mem_nil, ?_⟩
      have hfetch := backlog_fetch hordered n batchSize
      have hlen := hs.left
      show ((backlog n s.db).filter (· ∉ (s.db.getUnsynced batchSize).map FixRow.id)).length ≤ _
      rw [hfetch, List.length_drop]
      omega
    · refine ⟨_, ids, hends.2 _, fun id hid => ?_, (hsub.filter _).length_le.trans hleft⟩
      rw [hbacklog, List.mem_filter, decide_eq_true_eq]
      rintro ⟨hold, hnew⟩
      rw [markedBy_concat] at hid
      exact (List.mem_append.mp hid).elim (fun hmem => hmarked id hmem hold) hnew

lemma Clearing.step (hordered : s.db.Ordered) {st : Step}
    (hbatch : ∀ batchSize, st = .start batchSize → b ≤ batchSize) :
    Clearing n b (m - b * cleared s st) (s.step st) := by
  cases st with
  | insert u => exact hs.insert u
  | start batchSize => exact hs.start (hbatch _ rfl)
  | advance world => exact hs.advance hordered world
  | crash => exact ⟨hs.known, hs.left, by rintro p ⟨⟩⟩

end

/-! ### Runs -/

/-- How many calls return with nothing to retry. -/
def clearedIn (s : System) (steps : List Step) : ℕ := Runs.total System.step cleared s steps

/-- The call that is running, which may have fetched its rows some time ago. -/
def System.underway (s : System) : ℕ := if s.running.isSome then 1 else 0

/-- The bound at the start allows for the call that is running. -/
lemma clearing_start (s : System) (b : ℕ) :
    Clearing s.db.nextId b ((queue s.db).length + b * s.underway) s := by
  have hleft : (backlog s.db.nextId s.db).length ≤ (queue s.db).length :=
    List.length_filter_le _ _ |>.trans_eq (List.length_map _)
  refine ⟨le_rfl, hleft.trans (Nat.le_add_right _ _), fun p hp => .inr ⟨[], [], ?_, ?_, ?_⟩⟩
  · exact Prog.Meets.mono (fun _ _ _ _ => List.nil_subset _) (Prog.meets_any [] p)
  · exact fun _ hid => absurd hid List.not_mem_nil
  · have hone : s.underway = 1 := by rw [System.underway, hp, Option.isSome_some, if_pos rfl]
    rw [hone, Nat.mul_one, Nat.add_sub_cancel]
    exact (List.length_filter_le _ _).trans hleft

section

variable {s : System} (ht : Traced s) {b : ℕ} {steps : List Step}
  (hbatch : ∀ batchSize, .start batchSize ∈ steps → b ≤ batchSize)
  (hcalls : (queue s.db).length ≤ b * (clearedIn s steps - s.underway))

include ht hbatch hcalls

/-- **No row of the queue is overtaken for ever.**  After enough calls that return with nothing to
retry, the rows that were there at the start are out of the queue. -/
lemma Traced.cleared : backlog s.db.nextId (s.run steps).db = [] := by
  have hrun : ∀ b m, (∀ batchSize, .start batchSize ∈ steps → b ≤ batchSize) →
      Clearing s.db.nextId b m s →
        (backlog s.db.nextId (s.run steps).db).length ≤ m - b * clearedIn s steps := by
    intro b m hbatch hs
    have hall := Runs.run_lowers System.step Uplink.cleared b
      (P := fun m s' => Traced s' ∧ Clearing s.db.nextId b m s')
      (fun st hst m s' h => ⟨h.1.step st, h.2.step h.1.base.ordered fun batchSize hstart =>
        hbatch batchSize (hstart ▸ hst)⟩) ⟨ht, hs⟩
    exact hall.2.left
  refine List.length_eq_zero_iff.mp (Nat.le_zero.mp ?_)
  rcases Nat.eq_zero_or_pos (queue s.db).length with hempty | hpos
  · -- an empty queue has no backlog, whatever is running
    have hstart := clearing_start s 0
    rw [Nat.zero_mul, Nat.add_zero, hempty] at hstart
    simpa using hrun 0 0 (fun _ _ => Nat.zero_le _) hstart
  · refine (hrun b _ hbatch (clearing_start s b)).trans_eq (Nat.sub_eq_zero_of_le ?_)
    rw [Nat.mul_sub] at hcalls
    omega

/-- What has got a row by the start is settled by the end. -/
lemma Traced.settled {id : ℕ} {u : Uplink} (hu : (id, u) ∈ s.created) :
    Delivered (s.run steps) id u ∨ DeadLettered (s.run steps) id u := by
  obtain ⟨new, hnew, -⟩ := created_run s steps
  have hcreated : (id, u) ∈ (s.run steps).created := hnew ▸ List.mem_append_left _ hu
  obtain ⟨row, hrow, hid, -, hsynced | hsettled⟩ := (ht.run steps).kept hcreated
  · obtain ⟨row₀, hrow₀, hcreated₀⟩ := exists_row ht.created hu
    have hid₀ : row₀.id = id := hcreated₀.1
    have hold : id < s.db.nextId := hid₀ ▸ lt_nextId hrow₀
    have hqueued : id ∈ backlog s.db.nextId (s.run steps).db := by
      refine List.mem_filter.mpr ⟨List.mem_map.mpr ⟨row, ?_, hid⟩, decide_eq_true hold⟩
      exact List.mem_filter.mpr ⟨hrow, by simp [hsynced]⟩
    rw [ht.cleared hbatch hcalls] at hqueued
    exact absurd hqueued List.not_mem_nil
  · exact hsettled

end

end SrtGateway.Uplink
