/-
What is uploaded, and what is kept, in every run.

Whether or not retired rows are fetched, a fix in a POST is the uplink for which its row was
created, up to a null `seq` (`Renders`); and the row of every uplink that got one stays, until
it is accepted or quarantined in the queue (`Traced.kept`).  Both are read off one invariant
(`Traced`), whose parts no crash undoes.
-/
import SrtGateway.Runs.Simulation
import SrtGateway.Store.Nodes
import SrtGateway.Uplink.Received

namespace SrtGateway.Uplink

open SrtGateway.Protocol SrtGateway.Store SrtGateway.Effect

/-- The body says what the uplink says, but for its `seq`, which may be null. -/
def Renders (f : FixBody) (u : Uplink) : Prop :=
  ∃ seq, (seq = some u.sequence ∨ seq = none) ∧ f = { fixOf f.id u with seq := seq }

/-- Where rows and bodies come from. -/
structure Traced (s : System) : Prop where
  base : Invariant s
  slots : s.db.UniqueSlots
  created : List.Forall₂ CreatedBy s.db.fixes s.created
  fetched : ∀ row, FetchedIn s.history row → ∃ u, (row.id, u) ∈ s.created ∧ Holds row u
  posted : ∀ fixes ∈ s.posted, ∀ f ∈ fixes, ∃ row, FetchedIn s.history row ∧ f = rowToFix row
  answered : ∀ fixes reply, ⟨.post fixes, reply⟩ ∈ s.history → fixes ∈ s.posted

lemma renders_of_holds {row : FixRow} {u : Uplink} (h : Holds row u) :
    Renders (rowToFix row) u := by
  obtain ⟨seq, hseq, hrow⟩ := h
  exact ⟨seq, hseq, by rw [hrow]; rfl⟩

lemma traced_init : Traced System.init where
  base := invariant_init
  slots := uniqueSlots_empty
  created := .nil
  fetched := by
    rintro row ⟨_, _, hmem, -⟩
    exact absurd hmem List.not_mem_nil
  posted := fun _ h => absurd h List.not_mem_nil
  answered := fun _ _ h => absurd h List.not_mem_nil

/-! ### Inserts -/

/-- What an insert does to the rows and to what is noted of them. -/
lemma createdBy_insert {s : System} (h : List.Forall₂ CreatedBy s.db.fixes s.created)
    (u : Uplink) : List.Forall₂ CreatedBy (s.insert u).db.fixes (s.insert u).created := by
  rw [System.insert]
  rcases hcase : s.db.insertFix u with ⟨outcome, db⟩
  cases hcase ▸ insertFix_cases s.db u with
  | raised => exact h
  | resend => exact h
  | fresh => exact createdBy_append h _ u
  | wrapped row => exact createdBy_append (createdBy_retire h row.id) _ u

/-- An insert notes nothing, or the uplink with the id of its row. -/
lemma created_insert (s : System) (u : Uplink) :
    (s.insert u).created = s.created ∨
      (s.insert u).created = s.created ++ [(s.db.nextId, u)] := by
  rw [System.insert]
  rcases s.db.insertFix u with ⟨⟨x⟩ | ⟨_ | _⟩, db⟩
  · exact .inl rfl
  · exact .inl rfl
  · exact .inr rfl

lemma created_prefix_insert (s : System) (u : Uplink) : s.created <+: (s.insert u).created := by
  rcases created_insert s u with h | h <;> rw [h]
  exact List.prefix_append _ _

lemma Traced.insert {s : System} (h : Traced s) (u : Uplink) : Traced (s.insert u) where
  base := h.base.insert u
  slots := h.slots.insertFix u
  created := createdBy_insert h.created u
  fetched row hrow := by
    obtain ⟨u', hu', hholds⟩ := h.fetched row hrow
    exact ⟨u', (created_prefix_insert s u).subset hu', hholds⟩
  posted := h.posted
  answered := h.answered

/-! ### Calls of `run_once` -/

/-- The rows after a call that is answered, against what is noted of them. -/
lemma createdBy_perform {db : Db} {created : List (ℕ × Uplink)}
    (h : List.Forall₂ CreatedBy db.fixes created) (world : World) (c : Call) :
    List.Forall₂ CreatedBy (perform db world c).2.fixes created := by
  cases c with
  | markSynced ids => exact createdBy_markSynced h ids
  | _ => exact h

/-- What an answered call does to the store is a write, if it does anything. -/
lemma perform_write (db : Db) (world : World) (c : Call) :
    (perform db world c).2 = db ∨ ∃ w : Write, (perform db world c).2 = w.exec db := by
  cases c with
  | markSynced ids => exact .inr ⟨.markSynced ids, rfl⟩
  | setSyncCursor key value => exact .inr ⟨.setSyncCursor key value, rfl⟩
  | quarantine id letter => exact .inr ⟨.quarantine id letter, rfl⟩
  | _ => exact .inl rfl

lemma perform_uniqueSlots {db : Db} (h : db.UniqueSlots) (world : World) (c : Call) :
    (perform db world c).2.UniqueSlots := by
  rcases perform_write db world c with hsame | ⟨w, hwrite⟩
  · rwa [hsame]
  · rw [hwrite]
    exact h.apply (.op (.write w))

/-- What has been fetched after one more answered call. -/
lemma fetchedIn_concat {h : List (Event Call Answer)} {db : Db} {world : World} {c : Call}
    {row : FixRow} (hrow : FetchedIn (h ++ [⟨c, (perform db world c).1⟩]) row) :
    FetchedIn h row ∨ row ∈ db.fixes := by
  obtain ⟨limit, rows, hmem, hrow⟩ := hrow
  rcases List.mem_append.mp hmem with hmem | hmem
  · exact .inl ⟨limit, rows, hmem, hrow⟩
  · right
    cases c with
    | getUnsynced limit' =>
      cases List.mem_singleton.mp hmem
      exact List.mem_of_mem_filter (List.mem_of_mem_take hrow)
    | _ => cases List.mem_singleton.mp hmem

lemma Traced.advance {s : System} (h : Traced s) (world : World) : Traced (s.advance world) := by
  have hbase := h.base.advance world
  rw [System.advance] at hbase ⊢
  rcases hrun : s.running with _ | ⟨⟨up, stats⟩⟩ | ⟨c, next⟩ <;> rw [hrun] at hbase
  · exact h
  · exact ⟨hbase, h.slots, h.created, h.fetched, h.posted, h.answered⟩
  have hle : s.history <+: s.history ++ [⟨c, (perform s.db world c).1⟩] := List.prefix_append _ _
  have hinFlight : Uplink.inFlight s.running = bodyOf c := by rw [hrun]; rfl
  refine ⟨hbase, perform_uniqueSlots h.slots world c, createdBy_perform h.created world c, ?_, ?_,
    ?_⟩
  · intro row hrow
    rcases fetchedIn_concat hrow with hrow | hrow
    · exact h.fetched row hrow
    · exact exists_created h.created hrow
  · intro fixes hfixes f hf
    obtain ⟨row, hrow, hfix⟩ : ∃ row, FetchedIn s.history row ∧ f = rowToFix row := by
      rcases List.mem_append.mp hfixes with hfixes | hfixes
      · exact h.posted fixes hfixes f hf
      · exact h.base.running.inFlight fixes (hinFlight ▸ hfixes) f hf
    exact ⟨row, hrow.mono hle, hfix⟩
  · intro fixes reply hmem
    rcases List.mem_append.mp hmem with hmem | hmem
    · exact List.mem_append_left _ (h.answered fixes reply hmem)
    · cases List.mem_singleton.mp hmem
      exact List.mem_append_right _ (List.mem_singleton_self _)

/-! ### Runs -/

lemma Traced.step {s : System} (h : Traced s) (st : Step) : Traced (s.step st) := by
  have hbase := h.base.step st
  cases st with
  | insert u => exact h.insert u
  | start batchSize =>
    rw [System.step] at hbase ⊢
    split
    · exact h
    · rename_i hidle
      rw [if_neg hidle] at hbase
      exact ⟨hbase, h.slots, h.created, h.fetched, h.posted, h.answered⟩
  | advance world => exact h.advance world
  | crash =>
    refine ⟨hbase, h.slots, h.created, h.fetched, fun fixes hfixes => ?_,
      fun fixes reply hmem => ?_⟩
    · rcases List.mem_append.mp hfixes with hfixes | hfixes
      · exact h.posted fixes hfixes
      · exact h.base.running.inFlight fixes hfixes
    · exact List.mem_append_left _ (h.answered fixes reply hmem)

lemma Traced.run {s : System} (h : Traced s) (steps : List Step) : Traced (s.run steps) :=
  Runs.run_preserves System.step (fun _ st h => h.step st) h steps

lemma traced_run (steps : List Step) : Traced (System.init.run steps) := traced_init.run steps

/-! ### What is noted -/

/-- What a step inserts. -/
def insertedBy : Step → List Uplink
  | .insert u => [u]
  | .start _ | .advance _ | .crash => []

/-- What is noted of a row stays noted, and what is added is of an inserted uplink. -/
lemma created_step (s : System) (st : Step) : ∃ new,
    (s.step st).created = s.created ++ new ∧ (new.map Prod.snd).Sublist (insertedBy st) := by
  cases st with
  | insert u =>
    rcases created_insert s u with h | h
    · exact ⟨[], h.trans (List.append_nil _).symm, List.nil_sublist _⟩
    · exact ⟨_, h, List.Sublist.refl _⟩
  | start batchSize =>
    refine ⟨[], ?_, List.nil_sublist _⟩
    rw [System.step, List.append_nil]
    split <;> rfl
  | advance world =>
    refine ⟨[], ?_, List.nil_sublist _⟩
    rw [System.step, System.advance, List.append_nil]
    rcases s.running with _ | ⟨⟨up, stats⟩⟩ | ⟨c, next⟩ <;> rfl
  | crash => exact ⟨[], (List.append_nil _).symm, List.nil_sublist _⟩

/-- **The uplinks that got rows are among the inserted ones**, in their order. -/
lemma created_run (s : System) (steps : List Step) : ∃ new,
    (s.run steps).created = s.created ++ new ∧
      (new.map Prod.snd).Sublist (steps.flatMap insertedBy) := by
  induction steps generalizing s with
  | nil => exact ⟨[], (List.append_nil _).symm, List.nil_sublist _⟩
  | cons st steps ih =>
    obtain ⟨new, hnew, hsub⟩ := created_step s st
    obtain ⟨more, hmore, hsub'⟩ := ih (s.step st)
    refine ⟨new ++ more, ?_, ?_⟩
    · rw [← List.append_assoc, ← hnew]
      exact hmore
    · rw [List.map_append, List.flatMap_cons]
      exact hsub.append hsub'

/-- The second fix is a resend of the first. -/
def SameFix (u u' : Uplink) : Prop :=
  u'.nodeId = u.nodeId ∧ u'.sequence = u.sequence ∧ |u'.tsMs - u.tsMs| ≤ DEDUP_WINDOW_MS

/-- What a row of the table holds has been noted. -/
lemma Traced.noted {s : System} (h : Traced s) {u : Uplink} (hholds : s.db.Holds u) :
    ∃ id u', (id, u') ∈ s.created ∧ SameFix u u' := by
  obtain ⟨row, hrow, hnode, hseq, hts⟩ := hholds
  obtain ⟨u', hu', seq, hseq', hrow'⟩ := exists_created h.created hrow
  rw [hrow'] at hnode hseq hts
  obtain rfl | rfl := hseq'
  · exact ⟨row.id, u', hu', hnode, Option.some.inj hseq, hts⟩
  · exact absurd hseq (by simp)

/-- **An inserted fix is noted**, or it was a resend of one that is; unless it cannot be
bound. -/
lemma Traced.insert_noted {s : System} (h : Traced s) {u : Uplink}
    (hu : s.db.CanBind u ∨ s.db.Holds u) (steps : List Step) :
    ∃ id u', (id, u') ∈ ((s.insert u).run steps).created ∧ SameFix u u' := by
  obtain ⟨id, u', hu', hsame⟩ :=
    (h.insert u).noted ((insertFix_holds_iff h.slots u).mpr hu)
  obtain ⟨new, hnew, -⟩ := created_run (s.insert u) steps
  exact ⟨id, u', hnew ▸ List.mem_append_left _ hu', hsame⟩

/-! ### What follows -/

/-- **Every body is an uplink that got a row.** -/
lemma Traced.body {s : System} (h : Traced s) {fixes : List FixBody} (hfixes : fixes ∈ s.bodies)
    {f : FixBody} (hf : f ∈ fixes) : ∃ u, (f.id, u) ∈ s.created ∧ Renders f u := by
  obtain ⟨row, hrow, rfl⟩ : ∃ row, FetchedIn s.history row ∧ f = rowToFix row := by
    rcases List.mem_append.mp hfixes with hfixes | hfixes
    · exact h.posted fixes hfixes f hf
    · exact h.base.running.inFlight fixes hfixes f hf
  obtain ⟨u, hu, hholds⟩ := h.fetched row hrow
  exact ⟨u, hu, renders_of_holds hholds⟩

/-- The cloud has accepted the uplink under this id. -/
def Delivered (s : System) (id : ℕ) (u : Uplink) : Prop :=
  ∃ fixes resp, ⟨.post fixes, .ok resp⟩ ∈ s.history ∧ (200 ≤ resp.status ∧ resp.status < 300) ∧
    ∃ f ∈ fixes, f.id = id ∧ Renders f u

/-- The cloud has rejected the uplink alone, and it is in `dead_letter`. -/
def DeadLettered (s : System) (id : ℕ) (u : Uplink) : Prop :=
  (s.db.deadLetter id).isSome ∧
    ∃ f resp, ⟨.post [f], .ok resp⟩ ∈ s.history ∧ f.id = id ∧ Renders f u ∧
      (400 ≤ resp.status ∧ resp.status ≤ 499 ∧ resp.status ≠ 429)

/-- The row of the uplink is there, and in the queue unless the cloud has decided on it. -/
def Kept (s : System) (id : ℕ) (u : Uplink) : Prop :=
  ∃ row ∈ s.db.fixes, row.id = id ∧ Holds row u ∧
    (row.synced = false ∨ Delivered s id u ∨ DeadLettered s id u)

/-- What is noted has a row. -/
lemma exists_row {rows : List FixRow} {created : List (ℕ × Uplink)}
    (h : List.Forall₂ CreatedBy rows created) {c : ℕ × Uplink} (hc : c ∈ created) :
    ∃ row ∈ rows, CreatedBy row c := by
  induction h with
  | nil => exact absurd hc List.not_mem_nil
  | @cons row c' rows created hrow _ ih =>
    rcases List.mem_cons.mp hc with rfl | hc
    · exact ⟨row, List.mem_cons_self, hrow⟩
    · obtain ⟨row', hmem, hrow'⟩ := ih hc
      exact ⟨row', List.mem_cons_of_mem _ hmem, hrow'⟩

lemma Traced.of_history {s : System} (h : Traced s) {fixes : List FixBody}
    {reply : Except PyErr Response} (hmem : ⟨.post fixes, reply⟩ ∈ s.history) {f : FixBody}
    (hf : f ∈ fixes) {u : Uplink} (hu : (f.id, u) ∈ s.created) : Renders f u := by
  obtain ⟨u', hu', hrenders⟩ :=
    h.body (List.mem_append_left _ (h.answered fixes reply hmem)) hf
  rwa [created_unique h.base.ordered h.created hu hu']

/-- **Every uplink that got a row is kept.** -/
lemma Traced.kept {s : System} (h : Traced s) {id : ℕ} {u : Uplink} (hu : (id, u) ∈ s.created) :
    Kept s id u := by
  obtain ⟨row, hrow, hid, hholds⟩ := exists_row h.created hu
  obtain rfl : row.id = id := hid
  refine ⟨row, hrow, rfl, hholds, ?_⟩
  cases hsynced : row.synced with
  | false => exact .inl rfl
  | true =>
    right
    rcases h.base.provenance.synced row hrow hsynced with haccepted | hdead
    · obtain ⟨fixes, resp, hmem, hstatus, f, hf, hid⟩ := haccepted
      exact .inl ⟨fixes, resp, hmem, hstatus, f, hf, hid, h.of_history hmem hf (hid ▸ hu)⟩
    · obtain ⟨f, resp, hmem, hid, hstatus⟩ := h.base.provenance.dead row.id hdead
      have hrenders := h.of_history hmem (List.mem_singleton_self f) (hid ▸ hu)
      exact .inr ⟨hdead, f, resp, hmem, hid, hrenders, hstatus⟩

end SrtGateway.Uplink
