/-
The counters of the uplinker and the tables of the store.

`total_synced` counts what a process has had accepted since it started; `dead_letter` and the
`synced` flags are on disk.  Between two calls of `run_once` they agree: the rows that a
process has taken off the queue are those it has counted and those it has quarantined
(`Traced.addsUp`), however inserts come in between.  The argument follows the calls of a
process: no id is marked twice, since a fetched row is not marked and nobody else marks.
-/
import SrtGateway.Uplink.Traced

namespace SrtGateway.Uplink

open SrtGateway.Protocol SrtGateway.Store SrtGateway.Effect

/-! ### Marks and letters -/

def markedBy (h : List (Event Call Answer)) : List ℕ := h.flatMap fun e => marksOf e.call

def lettersBy (h : List (Event Call Answer)) : List ℕ := h.flatMap fun e => letterOf e.call

@[simp] lemma markedBy_concat (h : List (Event Call Answer)) (e : Event Call Answer) :
    markedBy (h ++ [e]) = markedBy h ++ marksOf e.call := by
  simp [markedBy]

@[simp] lemma lettersBy_concat (h : List (Event Call Answer)) (e : Event Call Answer) :
    lettersBy (h ++ [e]) = lettersBy h ++ letterOf e.call := by
  simp [lettersBy]

/-- The calls at the end of `_accept` neither mark nor quarantine. -/
lemma marksOf_informs {c : Call} (hc : c.informs) : marksOf c = [] ∧ letterOf c = [] := by
  cases c with
  | getUnsynced | post | markSynced | quarantine => cases hc
  | clock | getSyncCursor | setSyncCursor => exact ⟨rfl, rfl⟩

section

variable (h : List (Event Call Answer)) (ids : List ℕ) {after : List (Event Call Answer)}
  (hafter : ∀ e ∈ after, e.call.informs)

include hafter

lemma markedBy_accepted :
    markedBy (h ++ ⟨.markSynced ids, ()⟩ :: after) = markedBy h ++ ids := by
  have hnone : after.flatMap (fun e => marksOf e.call) = [] :=
    List.flatMap_eq_nil_iff.mpr fun e he => (marksOf_informs (hafter e he)).1
  rw [markedBy, List.flatMap_append, List.flatMap_cons, hnone, List.append_nil]
  rfl

lemma lettersBy_accepted : lettersBy (h ++ ⟨.markSynced ids, ()⟩ :: after) = lettersBy h := by
  have hnone : after.flatMap (fun e => letterOf e.call) = [] :=
    List.flatMap_eq_nil_iff.mpr fun e he => (marksOf_informs (hafter e he)).2
  rw [lettersBy, List.flatMap_append, List.flatMap_cons, hnone, List.append_nil]
  exact List.append_nil _

end

/-- The counter of a process agrees with what it has marked and quarantined. -/
structure Balanced (h : List (Event Call Answer)) (up : CloudUplinker) : Prop where
  total : up.totalSynced + (lettersBy h).length = (markedBy h).length
  letters : lettersBy h ⊆ markedBy h

/-- A call that neither marks nor quarantines. -/
lemma Balanced.quiet {h : List (Event Call Answer)} {up : CloudUplinker} (hb : Balanced h up)
    {e : Event Call Answer} (hmarks : marksOf e.call = []) (hletter : letterOf e.call = []) :
    Balanced (h ++ [e]) up := by
  refine ⟨?_, ?_⟩
  · rw [markedBy_concat, lettersBy_concat, hmarks, hletter, List.append_nil, List.append_nil]
    exact hb.total
  · rw [markedBy_concat, lettersBy_concat, hmarks, hletter, List.append_nil, List.append_nil]
    exact hb.letters

lemma Balanced.congr {h : List (Event Call Answer)} {up up' : CloudUplinker} (hb : Balanced h up)
    (htotal : up'.totalSynced = up.totalSynced) : Balanced h up' :=
  ⟨htotal ▸ hb.total, hb.letters⟩

/-! ### The calls of a process -/

/-- After the calls `h` of a process that found the ids `old` marked, it fetches no more, marks
only what has not been marked, and quarantines only what it has not quarantined. -/
def OnceOnly (old : List ℕ) (h : List (Event Call Answer)) : Call → Prop
  | .getUnsynced _ => False
  | .markSynced ids => (old ++ markedBy h ++ ids).Nodup
  | .quarantine id _ => id ∉ lettersBy h
  | .post _ | .getSyncCursor _ _ | .setSyncCursor _ _ | .clock => True

/-- A program that makes such calls, and ends with a counter that agrees with them. -/
abbrev Counts {α : Type} (old : List ℕ) (post : List (Event Call Answer) → α → Prop)
    (h : List (Event Call Answer)) (p : UplinkM α) : Prop :=
  p.Meets (OnceOnly old) post h

section

variable {old : List ℕ} {h : List (Event Call Answer)}

/-- `_accept` counts the ids that it marks. -/
lemma accept_counts {up : CloudUplinker} {ids : List ℕ} (hb : Balanced h up)
    (hids : (old ++ markedBy h ++ ids).Nodup) :
    Counts old (fun h' up' => Balanced h' up' ∧ markedBy h' = markedBy h ++ ids) h
      (accept up ids) := by
  have hinforms : ∀ h c, c.informs → OnceOnly old h c := by
    intro h c hc
    cases c with
    | getUnsynced | markSynced | quarantine => cases hc
    | post | getSyncCursor | setSyncCursor | clock => trivial
  refine accept_meets hids hinforms fun after up' hafter htotal => ?_
  have hmarks := markedBy_accepted h ids hafter
  have hletters := lettersBy_accepted h ids hafter
  have hbefore := hb.total
  refine ⟨⟨?_, ?_⟩, hmarks⟩
  · rw [hmarks, hletters, List.length_append, htotal]
    omega
  · rw [hmarks, hletters]
    exact List.subset_append_of_subset_left _ hb.letters

/-- The rows after the first are still to be marked. -/
lemma nodup_tail {row : FixRow} {rows : List FixRow}
    (hrows : (old ++ markedBy h ++ (row :: rows).map FixRow.id).Nodup) :
    (old ++ markedBy h ++ rows.map FixRow.id).Nodup :=
  hrows.sublist (List.Sublist.append_left (List.sublist_cons_self _ _) _)

lemma nodup_head {row : FixRow} {rows : List FixRow}
    (hrows : (old ++ markedBy h ++ (row :: rows).map FixRow.id).Nodup) :
    (old ++ markedBy h ++ [row.id]).Nodup :=
  hrows.sublist (List.Sublist.append_left ((List.nil_sublist _).cons_cons _) _)

/-- **One by one**: each fix is marked once, whatever becomes of it. -/
lemma isolateLoop_counts {up : CloudUplinker} {n : Isolation} {rows : List FixRow}
    (hb : Balanced h up) (hrows : (old ++ markedBy h ++ rows.map FixRow.id).Nodup) :
    Counts old (fun h' r => Balanced h' r.1) h (isolateLoop up n rows) := by
  -- the process agrees with its calls, and the rows that are left are not marked
  have hloop : Counts old (fun h' r => Balanced h' r.1 ∧ (old ++ markedBy h' ++ []).Nodup) h
      (isolateLoop up n rows) := by
    refine isolateLoop_meets (I := fun h' up' _ rows' =>
      Balanced h' up' ∧ (old ++ markedBy h' ++ rows'.map FixRow.id).Nodup) ?_ ?_ ?_ ?_ ⟨hb, hrows⟩
    · intros
      trivial
    · rintro h up n row rows ⟨hb, hrows⟩ reply up' htotal
      refine ⟨(hb.quiet rfl rfl).congr htotal, ?_⟩
      rw [markedBy_concat, marksOf, List.append_nil]
      exact nodup_tail hrows
    · rintro h up n row rows ⟨hb, hrows⟩ resp
      have hsame : markedBy (h ++ [⟨.post [rowToFix row], .ok resp⟩]) = markedBy h := by
        rw [markedBy_concat, marksOf, List.append_nil]
      refine (accept_counts (hb.quiet rfl rfl) (hsame ▸ nodup_head hrows)).mono
        fun h' up' hup' => ⟨hup'.1, ?_⟩
      rw [hup'.2, hsame, ← List.append_assoc, List.append_assoc _ [row.id]]
      exact hrows
    · rintro h up n row rows ⟨hb, hrows⟩ resp
      have hfresh : row.id ∉ lettersBy h := by
        intro hmem
        have hdisjoint := List.disjoint_of_nodup_append hrows
        exact hdisjoint (List.mem_append_right _ (hb.letters hmem)) List.mem_cons_self
      -- quarantined, and then marked
      refine Prog.Meets.call trivial fun now => Prog.Meets.call ?_ fun _ =>
        Prog.Meets.call ?_ fun _ => ⟨⟨?_, ?_⟩, ?_⟩
      · simp only [OnceOnly, lettersBy_concat, letterOf, List.append_nil]
        exact hfresh
      · simp only [OnceOnly, markedBy_concat, marksOf, List.append_nil]
        exact nodup_head hrows
      · have htotal := hb.total
        simp only [markedBy_concat, lettersBy_concat, marksOf, letterOf, List.append_nil,
          List.length_append, List.length_singleton]
        omega
      · simp only [markedBy_concat, lettersBy_concat, marksOf, letterOf, List.append_nil]
        exact List.append_subset.mpr ⟨List.subset_append_of_subset_left _ hb.letters,
          List.subset_append_right _ _⟩
      · simp only [markedBy_concat, marksOf, List.append_nil]
        rw [← List.append_assoc, List.append_assoc _ [row.id]]
        exact hrows
  exact hloop.mono fun _ _ hr => hr.1

/-- **A call of `run_once`, once its rows are fetched.** -/
lemma runBatch_counts {up : CloudUplinker} {rows : List FixRow} (hb : Balanced h up)
    (hrows : (old ++ markedBy h ++ rows.map FixRow.id).Nodup) :
    Counts old (fun h' r => Balanced h' r.1) h (runBatch up rows) := by
  unfold runBatch
  split
  · exact hb
  · refine Prog.Meets.call trivial fun reply => ?_
    cases reply with
    | error x => exact (hb.quiet rfl rfl).congr rfl
    | ok resp =>
      have hposted : Balanced (h ++ [⟨.post (rows.map rowToFix), .ok resp⟩]) up :=
        hb.quiet rfl rfl
      have hrows' : (old ++ markedBy (h ++ [⟨.post (rows.map rowToFix), .ok resp⟩]) ++
          rows.map FixRow.id).Nodup := by
        rwa [markedBy_concat, marksOf, List.append_nil]
      dsimp only
      split_ifs
      · exact Prog.Meets.bind (accept_counts hposted hrows') fun h' up' hup' => hup'.1
      · exact hposted.congr rfl
      · refine Prog.Meets.bind (isolateLoop_counts hposted hrows') fun h' r hb' => ?_
        refine Prog.Meets.pure ?_
        dsimp only
        split
        · exact hb'.congr rfl
        · exact hb'
      · exact hposted.congr rfl

end

/-! ### A process -/

/-- The ids of the rows that are out of the queue. -/
def syncedIds (db : Db) : List ℕ := (db.fixes.filter FixRow.synced).map FixRow.id

/-- What a process that started in `s₀` has done, with the calls `h`, when it is in `s`. -/
structure Ledger (s₀ : System) (h : List (Event Call Answer)) (s : System) : Prop where
  history : s.history = s₀.history ++ h
  nodup : (syncedIds s₀.db ++ markedBy h).Nodup
  synced : ∀ r ∈ s.db.fixes, r.synced = true ↔ r.id ∈ syncedIds s₀.db ++ markedBy h
  known : ∀ id ∈ syncedIds s₀.db ++ markedBy h, ∃ r ∈ s.db.fixes, r.id = id
  letters : ∀ id, (s.db.deadLetter id).isSome ↔ (s₀.db.deadLetter id).isSome ∨ id ∈ lettersBy h
  distinct : (lettersBy h).Nodup
  idle : s.running = none → Balanced h s.up
  running : ∀ p, s.running = some p → (∃ batchSize, p = runOnce s.up batchSize) ∧ Balanced h s.up ∨
    Counts (syncedIds s₀.db) (fun h' r => Balanced h' r.1) h p

lemma nodup_ids {db : Db} (h : db.Ordered) : (db.fixes.map FixRow.id).Nodup :=
  (List.pairwise_map.mpr h).imp fun hlt => hlt.ne

/-- A process that has just started. -/
lemma ledger_start {s₀ : System} (ht : Traced s₀) (hidle : s₀.running = none)
    (hup : s₀.up = .new) : Ledger s₀ [] s₀ where
  history := (List.append_nil _).symm
  nodup := by
    rw [markedBy, List.flatMap_nil, List.append_nil]
    exact (nodup_ids ht.base.ordered).sublist (List.filter_sublist.map _)
  synced r hr := by
    rw [markedBy, List.flatMap_nil, List.append_nil, syncedIds, List.mem_map]
    refine ⟨fun h => ⟨r, List.mem_filter.mpr ⟨hr, h⟩, rfl⟩, ?_⟩
    rintro ⟨r', hr', hid⟩
    obtain ⟨hmem, hsynced⟩ := List.mem_filter.mp hr'
    rwa [ht.base.ordered.eq_of_id hr hmem hid.symm]
  known id hid := by
    rw [markedBy, List.flatMap_nil, List.append_nil] at hid
    obtain ⟨r, hr, rfl⟩ := List.mem_map.mp hid
    exact ⟨r, List.mem_of_mem_filter hr, rfl⟩
  letters id := by simp [lettersBy]
  distinct := List.nodup_nil
  idle _ := ⟨by rw [hup]; rfl, fun _ h => h⟩
  running p hp := absurd (hidle.symm.trans hp) (by simp)

/-! ### Steps -/

/-- An insert adds a row that is in the queue. -/
lemma Ledger.insert {s₀ s : System} {h : List (Event Call Answer)} (hl : Ledger s₀ h s)
    (u : Uplink) : Ledger s₀ h (s.insert u) := by
  have hnew : s.db.nextId ∉ syncedIds s₀.db ++ markedBy h := by
    intro hmem
    obtain ⟨r, hr, hid⟩ := hl.known _ hmem
    exact absurd hid (lt_nextId hr).ne
  -- rows that keep their ids and flags, with a new one after them
  have hrows : ∀ (f : FixRow → FixRow), (∀ r, (f r).id = r.id ∧ (f r).synced = r.synced) →
      (∀ r ∈ s.db.fixes.map f ++ [rowOf s.db.nextId u],
        r.synced = true ↔ r.id ∈ syncedIds s₀.db ++ markedBy h) ∧
      ∀ id ∈ syncedIds s₀.db ++ markedBy h,
        ∃ r ∈ s.db.fixes.map f ++ [rowOf s.db.nextId u], r.id = id := by
    intro f hf
    constructor
    · intro r hr
      rcases List.mem_append.mp hr with hr | hr
      · obtain ⟨r₀, hr₀, rfl⟩ := List.mem_map.mp hr
        rw [(hf r₀).1, (hf r₀).2]
        exact hl.synced r₀ hr₀
      · obtain rfl := List.mem_singleton.mp hr
        exact iff_of_false Bool.false_ne_true hnew
    · intro id hid
      obtain ⟨r, hr, rfl⟩ := hl.known id hid
      exact ⟨f r, List.mem_append_left _ (List.mem_map_of_mem hr), (hf r).1⟩
  rw [System.insert]
  rcases hcase : s.db.insertFix u with ⟨outcome, db⟩
  cases hcase ▸ insertFix_cases s.db u with
  | raised =>
    exact ⟨hl.history, hl.nodup, hl.synced, hl.known, hl.letters, hl.distinct, hl.idle, hl.running⟩
  | resend =>
    exact ⟨hl.history, hl.nodup, hl.synced, hl.known, hl.letters, hl.distinct, hl.idle, hl.running⟩
  | fresh =>
    obtain ⟨hsynced, hknown⟩ := hrows id fun _ => ⟨rfl, rfl⟩
    rw [List.map_id] at hsynced hknown
    exact ⟨hl.history, hl.nodup, hsynced, hknown, hl.letters, hl.distinct, hl.idle, hl.running⟩
  | wrapped row =>
    obtain ⟨hsynced, hknown⟩ := hrows _ fun r => ⟨retire_id row.id r, retire_synced row.id r⟩
    exact ⟨hl.history, hl.nodup, hsynced, hknown, hl.letters, hl.distinct, hl.idle, hl.running⟩

/-- What is posted has a row. -/
lemma Traced.posted_known {s : System} (ht : Traced s) {fixes : List FixBody}
    {reply : Except PyErr Response} (hmem : ⟨.post fixes, reply⟩ ∈ s.history) {f : FixBody}
    (hf : f ∈ fixes) : ∃ r ∈ s.db.fixes, r.id = f.id := by
  obtain ⟨u, hu, -⟩ := ht.body (List.mem_append_left _ (ht.answered fixes reply hmem)) hf
  obtain ⟨r, hr, hcreated⟩ := exists_row ht.created hu
  exact ⟨r, hr, hcreated.1⟩

/-- What is quarantined has a row. -/
lemma Traced.letter_known {s : System} (ht : Traced s) {id : ℕ}
    (hid : (s.db.deadLetter id).isSome) : ∃ r ∈ s.db.fixes, r.id = id := by
  obtain ⟨f, resp, hmem, rfl, -⟩ := ht.base.provenance.dead id hid
  exact ht.posted_known hmem (List.mem_singleton_self f)

/-- What is marked has a row. -/
lemma Traced.known {s : System} (ht : Traced s) {ids : List ℕ}
    (hallowed : Allowed s.history (.markSynced ids)) {id : ℕ} (hid : id ∈ ids) :
    ∃ r ∈ s.db.fixes, r.id = id := by
  rcases hallowed id hid with ⟨fixes, resp, hmem, -, f, hf, rfl⟩ | hquarantined
  · exact ht.posted_known hmem hf
  · exact ht.letter_known (ht.base.quarantined id hquarantined)

/-- What an answered call does to the rows and the letters. -/
lemma perform_tables (db : Db) (world : World) (c : Call) :
    (perform db world c).2.fixes = (db.markSynced (marksOf c)).fixes ∧
      ∀ id, ((perform db world c).2.deadLetter id).isSome ↔
        (db.deadLetter id).isSome ∨ id ∈ letterOf c := by
  cases c with
  | markSynced ids => exact ⟨rfl, fun id => by simp [perform, letterOf, Db.markSynced]⟩
  | quarantine id letter =>
    refine ⟨by simp [perform, marksOf, Db.markSynced, Db.quarantine], fun i => ?_⟩
    by_cases hi : i = id
    · subst hi
      simp [perform, letterOf, Db.quarantine]
    · simp [perform, letterOf, Db.quarantine, hi]
  | getUnsynced | post | getSyncCursor | setSyncCursor | clock =>
    exact ⟨by simp [perform, marksOf, Db.markSynced, Db.setSyncCursor],
      fun id => by simp [perform, letterOf, Db.setSyncCursor]⟩

section

variable {s₀ s : System} {h : List (Event Call Answer)} (hl : Ledger s₀ h s)

include hl

/-- A call that marks rows that are there and not marked, and quarantines what is not
quarantined. -/
lemma Ledger.call {world : World} {c : Call} {next : Answer c → UplinkM (CloudUplinker × RunStats)}
    (hrun : s.running = some (.call c next))
    (hnodup : (syncedIds s₀.db ++ markedBy h ++ marksOf c).Nodup)
    (hfresh : ∀ id ∈ letterOf c, id ∉ lettersBy h)
    (hknown : ∀ id ∈ marksOf c, ∃ r ∈ s.db.fixes, r.id = id)
    (hnext : Counts (syncedIds s₀.db) (fun h' r => Balanced h' r.1)
      (h ++ [⟨c, (perform s.db world c).1⟩]) (next (perform s.db world c).1)) :
    Ledger s₀ (h ++ [⟨c, (perform s.db world c).1⟩]) (s.advance world) := by
  obtain ⟨hfixes, hletters⟩ := perform_tables s.db world c
  have hadvance : s.advance world = { s with
      db := (perform s.db world c).2
      running := some (next (perform s.db world c).1)
      history := s.history ++ [⟨c, (perform s.db world c).1⟩]
      posted := s.posted ++ bodyOf c } := by
    rw [System.advance, hrun]
  rw [hadvance]
  refine ⟨?_, ?_, ?_, ?_, ?_, ?_, ?_, ?_⟩
  · rw [hl.history, List.append_assoc]
  · rw [markedBy_concat, ← List.append_assoc]
    exact hnodup
  · intro r hr
    rw [markedBy_concat, ← List.append_assoc, List.mem_append]
    change r ∈ (perform s.db world c).2.fixes at hr
    rw [hfixes] at hr
    obtain ⟨r₀, hr₀, rfl⟩ := List.mem_map.mp hr
    rw [markSynced_id]
    split
    · exact iff_of_true rfl (.inr ‹_›)
    · rename_i hnot
      rw [or_iff_left hnot]
      exact hl.synced r₀ hr₀
  · intro id hid
    rw [markedBy_concat, ← List.append_assoc] at hid
    obtain ⟨r, hr, rfl⟩ := (List.mem_append.mp hid).elim (hl.known id) (hknown id)
    refine ⟨_, ?_, markSynced_id (marksOf c) r⟩
    change _ ∈ (perform s.db world c).2.fixes
    rw [hfixes]
    exact List.mem_map_of_mem hr
  · intro id
    rw [lettersBy_concat, List.mem_append, ← or_assoc, ← hl.letters]
    exact hletters id
  · rw [lettersBy_concat]
    refine List.Nodup.append hl.distinct ?_ fun id hid hletter => hfresh id hletter hid
    cases c <;> simp [letterOf]
  · intro hidle
    cases hidle
  · rintro p ⟨⟩
    exact .inr hnext

/-- The rows that are fetched are not marked. -/
lemma Ledger.fetched (hordered : s.db.Ordered) (batchSize : ℕ) :
    (syncedIds s₀.db ++ markedBy h ++ (s.db.getUnsynced batchSize).map FixRow.id).Nodup := by
  refine List.Nodup.append hl.nodup ?_ ?_
  · exact (nodup_ids hordered).sublist (((List.take_sublist _ _).trans List.filter_sublist).map _)
  · intro id hid hfetched
    obtain ⟨r, hr, rfl⟩ := List.mem_map.mp hfetched
    obtain ⟨hmem, hunsynced⟩ := List.mem_filter.mp (List.mem_of_mem_take hr)
    have hsynced := (hl.synced r hmem).mpr hid
    simp [hsynced] at hunsynced

/-- **One step of `run_once`.** -/
lemma Ledger.advance (ht : Traced s) (world : World) :
    ∃ h', Ledger s₀ h' (s.advance world) := by
  rcases hrun : s.running with _ | ⟨⟨up, stats⟩⟩ | ⟨c, next⟩
  · refine ⟨h, ?_⟩
    rw [System.advance, hrun]
    exact hl
  · -- the call ends, with the counters that agree
    refine ⟨h, ?_⟩
    have hend : Balanced h up := by
      rcases hl.running _ hrun with ⟨⟨_, hstart⟩, -⟩ | hcounts
      · cases hstart
      · exact hcounts
    rw [System.advance, hrun]
    exact ⟨hl.history, hl.nodup, hl.synced, hl.known, hl.letters, hl.distinct, fun _ => hend,
      fun _ hp => by cases hp⟩
  rcases hl.running _ hrun with ⟨⟨batchSize, hstart⟩, hb⟩ | ⟨hguard, hnext⟩
  · -- the fetch
    cases hstart
    refine ⟨_, hl.call hrun ?_ (by simp [letterOf]) (by simp [marksOf]) ?_⟩
    · rw [marksOf, List.append_nil]
      exact hl.nodup
    · refine runBatch_counts (hb.quiet rfl rfl) ?_
      rw [markedBy_concat, marksOf, List.append_nil]
      exact hl.fetched ht.base.ordered batchSize
  · have hmarks : (syncedIds s₀.db ++ markedBy h ++ marksOf c).Nodup := by
      cases c with
      | markSynced ids => exact hguard
      | _ => simpa only [marksOf, List.append_nil] using hl.nodup
    have hfresh : ∀ id ∈ letterOf c, id ∉ lettersBy h := by
      cases c with
      | quarantine id letter =>
        intro i hi
        rwa [List.mem_singleton.mp hi]
      | _ => simp [letterOf]
    have hknown : ∀ id ∈ marksOf c, ∃ r ∈ s.db.fixes, r.id = id := by
      cases c with
      | markSynced ids =>
        rcases ht.base.running.call hrun with ⟨_, _, hstart⟩ | ⟨hallowed, -⟩
        · cases hstart
        · exact fun id hid => ht.known hallowed hid
      | _ => simp [marksOf]
    exact ⟨_, hl.call hrun hmarks hfresh hknown (hnext _)⟩

lemma Ledger.step (ht : Traced s) {st : Step} (hst : st ≠ .crash) :
    ∃ h', Ledger s₀ h' (s.step st) := by
  cases st with
  | insert u => exact ⟨h, hl.insert u⟩
  | start batchSize =>
    refine ⟨h, ?_⟩
    rw [System.step]
    split
    · exact hl
    · rename_i hidle
      have hnone : s.running = none := by simpa using hidle
      refine ⟨hl.history, hl.nodup, hl.synced, hl.known, hl.letters, hl.distinct,
        fun hrun => (by cases hrun), ?_⟩
      rintro p ⟨⟩
      exact .inl ⟨⟨batchSize, rfl⟩, hl.idle hnone⟩
  | advance world => exact hl.advance ht world
  | crash => exact absurd rfl hst

end

/-! ### What adds up -/

/-- `total_fixes` of the store. -/
def totalFixes (db : Db) : ℕ := db.fixes.length

/-- `unsynced_count` of the store. -/
def unsyncedCount (db : Db) : ℕ := db.fixes.countP fun r => !r.synced

lemma unsynced_add_synced (db : Db) :
    unsyncedCount db + (syncedIds db).length = totalFixes db := by
  have hunsynced : unsyncedCount db = db.fixes.countP fun r => decide ¬ r.synced = true := by
    rw [unsyncedCount]
    congr 1
    funext r
    cases r.synced <;> rfl
  have hsplit := List.length_eq_countP_add_countP (l := db.fixes) FixRow.synced
  rw [hunsynced, syncedIds, List.length_map, ← List.countP_eq_length_filter, totalFixes]
  omega

/-- The rows that are out of the queue are those that were so at the start, and those that the
process has marked. -/
lemma Ledger.total {s₀ s : System} {h : List (Event Call Answer)} (hl : Ledger s₀ h s)
    (hordered : s.db.Ordered) :
    (syncedIds s.db).length = (syncedIds s₀.db).length + (markedBy h).length := by
  rw [← List.length_append]
  refine List.Perm.length_eq ((List.perm_ext_iff_of_nodup ?_ hl.nodup).mpr fun id => ?_)
  · exact (nodup_ids hordered).sublist (List.filter_sublist.map _)
  · constructor
    · intro hid
      obtain ⟨r, hr, rfl⟩ := List.mem_map.mp hid
      obtain ⟨hmem, hsynced⟩ := List.mem_filter.mp hr
      exact (hl.synced r hmem).mp hsynced
    · intro hid
      obtain ⟨r, hr, rfl⟩ := hl.known id hid
      exact List.mem_map_of_mem (List.mem_filter.mpr ⟨hr, (hl.synced r hr).mpr hid⟩)

/-- A run without a crash is one process. -/
lemma Ledger.run {s₀ s : System} {h : List (Event Call Answer)} (hl : Ledger s₀ h s)
    (ht : Traced s) {steps : List Step} (hsteps : .crash ∉ steps) :
    ∃ h', Ledger s₀ h' (s.run steps) := by
  induction steps generalizing s h with
  | nil => exact ⟨h, hl⟩
  | cons st steps ih =>
    rw [List.mem_cons, not_or] at hsteps
    obtain ⟨h', hl'⟩ := hl.step ht (Ne.symm hsteps.1)
    exact ih hl' (ht.step st) hsteps.2

/-- `dead_letter_count`: the rows of `dead_letter`, whose ids are ids of fixes. -/
def deadLetterCount (db : Db) : ℕ :=
  (List.range db.nextId).countP fun id => (db.deadLetter id).isSome

/-- No row of `dead_letter` is left out of the count. -/
lemma Traced.deadLetterCount_eq {s : System} (ht : Traced s) {ids : List ℕ} (hids : ids.Nodup)
    (h : ∀ id, (s.db.deadLetter id).isSome ↔ id ∈ ids) : deadLetterCount s.db = ids.length := by
  rw [deadLetterCount, List.countP_eq_length_filter]
  refine List.Perm.length_eq ((List.perm_ext_iff_of_nodup ?_ hids).mpr fun id => ?_)
  · exact List.nodup_range.filter _
  · rw [List.mem_filter, List.mem_range, h, and_iff_right_iff_imp]
    intro hid
    obtain ⟨r, hr, rfl⟩ := ht.letter_known ((h id).mpr hid)
    exact lt_nextId hr

/-- What a process that started in `s₀` has done when it is between two calls of `run_once`: as
many fixes have left the queue as it has counted as synced and has quarantined. -/
structure AddsUp (s₀ s : System) : Prop where
  total : ∃ h, s.history = s₀.history ++ h ∧
    totalFixes s.db + unsyncedCount s₀.db = unsyncedCount s.db + totalFixes s₀.db +
      s.up.totalSynced + (lettersBy h).length
  /-- In a store without letters at the start, the quarantined fixes are those with a letter. -/
  fresh : (∀ id, s₀.db.deadLetter id = none) →
    totalFixes s.db + unsyncedCount s₀.db = unsyncedCount s.db + totalFixes s₀.db +
      s.up.totalSynced + deadLetterCount s.db

/-- **The counters add up.**  A process starts, after any run; it goes on without a crash, its
threads interleaved in any way, and is between two calls of `run_once`. -/
lemma Traced.addsUp {s₀ : System} (ht : Traced s₀) (hidle₀ : s₀.running = none)
    (hup : s₀.up = .new) {steps : List Step} (hsteps : .crash ∉ steps)
    (hidle : (s₀.run steps).running = none) : AddsUp s₀ (s₀.run steps) := by
  obtain ⟨h, hl⟩ := (ledger_start ht hidle₀ hup).run ht hsteps
  have hsteps := ht.run steps
  have htotal := hl.total hsteps.base.ordered
  have hbalance := (hl.idle hidle).total
  have hstart := unsynced_add_synced s₀.db
  have hend := unsynced_add_synced (s₀.run steps).db
  refine ⟨⟨h, hl.history, by omega⟩, fun hnone => ?_⟩
  have hdead : deadLetterCount (s₀.run steps).db = (lettersBy h).length := by
    refine hsteps.deadLetterCount_eq hl.distinct fun id => ?_
    rw [hl.letters, hnone]
    simp
  omega

end SrtGateway.Uplink
