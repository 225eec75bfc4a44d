/-
What a crash leaves of the operations on the shared connection.

A crash leaves the durable tables.  A commit makes durable whatever any thread has written, so it
can catch the `insert_fix` of another thread half way, and a crash before that one has committed
itself leaves it torn (`Torn`): an earlier row has given up its slot and the fix is not there, or
the fix is there and its node has not been refreshed.

In every state of a run whose rollbacks are all clean, the tables that the connection sees and
the durable ones are both those of operations in some order, up to one torn `insert_fix`
(`Lasting`): all that have returned, and at most the one in progress of each thread.  Receiving
the torn fix again completes it (`crash_leaves`).
-/
import SrtGateway.Store.Alone
import SrtGateway.Store.Nodes

namespace SrtGateway.Store

open SrtGateway.Protocol

/-! ### Torn operations -/

/-- The row of the fix has its slot. -/
def Stored (u : Uplink) (db : Db) : Prop :=
  ∃ row, db.selectSlot u.nodeId u.sequence = some row ∧ row.tsMs = u.tsMs

/-- The tables `d` have a part of an `insert_fix`; `whole` are the tables without it or with all
of it, as the list says. -/
inductive Torn (u : Uplink) (d whole : Db) : List Op → Prop where
  | retired (row : FixRow) (stale : isResend u row = false)
      (slot : (whole.selectSlot u.nodeId u.sequence).map FixRow.key = some row.key)
      (tables : d = whole.retire row.id) : Torn u d whole []
  | unsummarised (stored : Stored u d) (upsert : d.upsertNodeFromFix u = .ok whole) :
      Torn u d whole [.insertFix u]

lemma Stored.exec {u : Uplink} {d : Db} (h : Stored u d) (w : Write) : Stored u (w.exec d) := by
  obtain ⟨row, hslot, hts⟩ := h
  have hkey := exec_selectSlot w d u.nodeId u.sequence
  rw [hslot] at hkey
  obtain ⟨row', hslot', hsame⟩ := Option.map_eq_some_iff.mp hkey
  exact ⟨row', hslot', (congrArg Prod.snd hsame).trans hts⟩

lemma Torn.exec {u : Uplink} {d whole : Db} {l : List Op} (h : Torn u d whole l) (w : Write) :
    Torn u (w.exec d) (w.exec whole) l := by
  cases h with
  | retired row stale slot tables =>
    refine .retired row stale ?_ ?_
    · rw [exec_selectSlot, slot]
    · rw [tables, exec_retire]
  | unsummarised stored upsert => exact .unsummarised (stored.exec w) (exec_upsertNode w upsert)

/-- **Receiving a torn fix again** completes it. -/
lemma Torn.heals {u : Uplink} {d whole : Db} {l : List Op} (h : Torn u d whole l)
    (hslots : whole.UniqueSlots) (hbind : bindParams (insertParams u) = .ok ()) :
    (l = [] ∧ (d.insertFix u).2 = (whole.insertFix u).2) ∨
      (l = [.insertFix u] ∧ (d.insertFix u).2 = whole) := by
  have hselect : bindParams [u.nodeId, u.sequence] = .ok () :=
    bindParams_subset hbind (by simp [insertParams])
  cases h with
  | retired row stale slot tables =>
    -- the INSERT of a fix that finds its slot free does what that of a fix that frees it does
    obtain ⟨row', hrow', hid, hresend⟩ := exists_slot slot u
    have hfree : d.selectSlot u.nodeId u.sequence = none := by
      rw [tables, ← hid]
      exact hslots.selectSlot_retire hrow'
    have hrow : d.insertRow u = .ok { d with fixes := d.fixes ++ [rowOf d.nextId u] } := by
      simp [Db.insertRow, hbind, hfree, bind, Except.bind]
    have hinsert : d.insertOrIgnore u =
        .ok (true, { d with fixes := d.fixes ++ [rowOf d.nextId u] }) := by
      simp [Db.insertOrIgnore, hbind, hfree, bind, Except.bind]
    obtain ⟨db', hnode⟩ :=
      exists_upsertNode hbind { d with fixes := d.fixes ++ [rowOf d.nextId u] }
    refine .inl ⟨rfl, ?_⟩
    rw [insertFix_of_fresh hselect hfree hinsert hnode]
    rw [tables, ← hid] at hrow hnode
    exact (insertFix_of_wrapped hselect hrow' (hresend.trans stale) hrow hnode).symm
  | unsummarised stored upsert =>
    obtain ⟨row, hslot, hts⟩ := stored
    have hresend : isResend u row = true := by
      simp [isResend, hts, DEDUP_WINDOW_MS]
    exact .inr ⟨rfl, insertFix_of_resend hselect hslot hresend upsert⟩

/-! ### The invariant -/

/-- The fix that a thread has begun to insert, and may have written some of. -/
def Pc.midway : Pc → Option Uplink
  | .retired u | .inserted u _ | .summarised u _ | .failed u _ => some u
  | .idle | .written _ | .locked _ | .selected _ _ | .committed _ | .rolledBack _ => none

/-- What an order may have of the current operation of a thread. -/
def Pc.mayHave : Pc → List (List Op)
  | .idle | .locked _ | .selected _ _ | .rolledBack _ => [[]]
  | .written w => [[], [.write w]]
  | .retired u | .inserted u _ | .summarised u _ | .failed u _ => [[], [.insertFix u]]
  | .committed u => [[.insertFix u]]

lemma placed_mem_mayHave (pc : Pc) : pc.placed ∈ pc.mayHave := by
  cases pc <;> simp [Pc.placed, Pc.mayHave]

lemma prefix_of_mem_mayHave {pc : Pc} {l : List Op} (h : l ∈ pc.mayHave) :
    l <+: pc.current.toList := by
  cases pc <;> simp only [Pc.mayHave, List.mem_cons, List.not_mem_nil, or_false] at h
  all_goals rcases h with rfl | rfl <;> simp [Pc.current]

/-- The tables are those of the operations in the order, up to a part of one `insert_fix`. -/
structure Leaves (db : Db) (s : Conn) (order : List (ℕ × Op)) (d : Db) : Prop where
  ops : ∀ t, ∃ l ∈ (s.threads t).pc.mayHave, opsOf t order = (s.threads t).returned ++ l
  tables : d = replay db order ∨ ∃ t u l, (s.threads t).pc.midway = some u ∧
    opsOf t order = (s.threads t).returned ++ l ∧ Torn u d (replay db order) l

/-- What a thread has written by itself, and not committed, is in the order. -/
def Includes (s : Conn) (order : List (ℕ × Op)) : Prop :=
  ∀ t w, (s.threads t).pc = .written w → opsOf t order = (s.threads t).returned ++ [.write w]

/-- What the INSERT of the holder has left. -/
def HolderStored (s : Conn) : Prop :=
  ∀ t u k, s.lock = some t → (s.threads t).pc = .inserted u k → Stored u s.working

/-- The holder has not raised. -/
def HolderUnraised (s : Conn) : Prop :=
  ∀ t u k, s.lock = some t → (s.threads t).pc ≠ .failed u k

/-- The invariant: what the connection sees, and what is durable. -/
structure Lasting (db : Db) (s : Conn) : Prop where
  sound : Sound db s
  stored : HolderStored s
  working : ∃ order, Leaves db s order s.working ∧ Includes s order
  durable : ∃ order, Leaves db s order s.durable

variable {db d d' : Db} {s s' : Conn} {order order' : List (ℕ × Op)} {t : ℕ}

/-- What is to be shown when the step of a thread takes it to `th`. -/
lemma Leaves.update {th : Thread} (h : Leaves db s order d)
    (hthreads : s'.threads = Function.update s.threads t th)
    (hself : ∃ l ∈ th.pc.mayHave, opsOf t order' = th.returned ++ l)
    (hothers : ∀ t' ≠ t, opsOf t' order' = opsOf t' order)
    (hmidway : ∀ u, (s.threads t).pc.midway = some u → th.pc.midway = some u ∧
      th.returned = (s.threads t).returned ∧ opsOf t order' = opsOf t order)
    (hwhole : d = replay db order → d' = replay db order')
    (htorn : ∀ u l, Torn u d (replay db order) l → Torn u d' (replay db order') l) :
    Leaves db s' order' d' := by
  have hself' : s'.threads t = th := by rw [hthreads, Function.update_self]
  have hother : ∀ t' ≠ t, s'.threads t' = s.threads t' := fun t' hne => by
    rw [hthreads, Function.update_of_ne hne]
  refine ⟨fun t' => ?_, ?_⟩
  · by_cases hne : t' = t
    · rw [hne, hself']
      exact hself
    · rw [hother t' hne, hothers t' hne]
      exact h.ops t'
  · obtain htables | ⟨t', u, l, hmid, hops, hpart⟩ := h.tables
    · exact .inl (hwhole htables)
    · refine .inr ⟨t', u, l, ?_, ?_, htorn u l hpart⟩ <;> by_cases hne : t' = t
      · rw [hne] at hmid ⊢
        rw [hself']
        exact (hmidway u hmid).1
      · rwa [hother t' hne]
      · rw [hne] at hmid hops ⊢
        obtain ⟨-, hreturned, hsame⟩ := hmidway u hmid
        rw [hself', hsame, hops, hreturned]
      · rw [hother t' hne, hothers t' hne, hops]

/-- An order that may have had what it has of the current operation at the one may have it at the
other. -/
structure Pc.Goes (pc pc' : Pc) : Prop where
  mayHave : pc.mayHave ⊆ pc'.mayHave
  midway : ∀ u, pc.midway = some u → pc'.midway = some u

/-- From a point at which nothing has been written. -/
lemma Pc.Goes.of_nil {pc pc' : Pc} (hpc : pc.mayHave = [[]]) (hpc' : [] ∈ pc'.mayHave) :
    pc.Goes pc' := by
  refine ⟨?_, fun u hu => ?_⟩
  · rw [hpc]
    exact List.cons_subset.mpr ⟨hpc', List.nil_subset _⟩
  · cases pc <;> simp [Pc.mayHave, Pc.midway] at hpc hu

/-- Within an `insert_fix`. -/
lemma Pc.Goes.of_midway {pc pc' : Pc} {u : Uplink} (hpc : pc.midway = some u)
    (hpc' : pc'.midway = some u) : pc.Goes pc' := by
  have hhas : ∀ {pc : Pc}, pc.midway = some u → pc.mayHave = [[], [.insertFix u]] := by
    intro pc hmidway
    cases pc <;> simp_all [Pc.midway, Pc.mayHave]
  refine ⟨?_, fun v hv => ?_⟩
  · rw [hhas hpc, hhas hpc']
    exact List.Subset.refl _
  · rw [hpc', ← hpc, hv]

/-- A step that changes the tables not at all, as far as `d` is concerned. -/
lemma Leaves.goto {todo : List Op} {pc : Pc} (h : Leaves db s order d)
    (hgoes : (s.threads t).pc.Goes pc)
    (hthreads : s'.threads = Function.update s.threads t ⟨todo, pc, (s.threads t).returned⟩) :
    Leaves db s' order d := by
  obtain ⟨l, hl, hops⟩ := h.ops t
  exact h.update hthreads ⟨l, hgoes.mayHave hl, hops⟩ (fun _ _ => rfl)
    (fun u hu => ⟨hgoes.midway u hu, rfl, rfl⟩) id fun _ _ => id

/-- The current operation, of which the order has just `l`, returns. -/
lemma Leaves.return_ {todo : List Op} {pc : Pc} {l : List Op} (h : Leaves db s order d)
    (hpc : (s.threads t).pc = pc) (hmidway : pc.midway = none)
    (hops : opsOf t order = (s.threads t).returned ++ l)
    (hthreads : s'.threads =
      Function.update s.threads t ⟨todo, .idle, (s.threads t).returned ++ l⟩) :
    Leaves db s' order d := by
  refine h.update hthreads ⟨[], List.mem_singleton_self _, ?_⟩ (fun _ _ => rfl) ?_ id fun _ _ => id
  · rw [hops, List.append_nil]
  · intro u hu
    rw [hpc, hmidway] at hu
    cases hu

/-- A thread between two operations makes a statement, or an empty one. -/
lemma Leaves.write {todo returned : List Op} {pc : Pc} (h : Leaves db s order d) (w : Write)
    (hidle : (s.threads t).pc = .idle)
    (hself : ∃ l ∈ pc.mayHave, (s.threads t).returned ++ [.write w] = returned ++ l)
    (hthreads : s'.threads = Function.update s.threads t ⟨todo, pc, returned⟩) :
    Leaves db s' (order ++ [(t, .write w)]) (w.exec d) := by
  have hops : opsOf t order = (s.threads t).returned := by
    obtain ⟨l, hl, hops⟩ := h.ops t
    rw [hidle] at hl
    rw [hops, List.mem_singleton.mp hl, List.append_nil]
  refine h.update hthreads ?_ (fun t' hne => opsOf_concat_of_ne hne.symm _ _) ?_ ?_ ?_
  · obtain ⟨l, hl, heq⟩ := hself
    exact ⟨l, hl, by rw [opsOf_concat_self, hops, heq]⟩
  · intro u hu
    rw [hidle] at hu
    cases hu
  · rintro rfl
    rw [replay_concat, Op.apply]
  · intro u l hpart
    rw [replay_concat]
    exact hpart.exec w

/-- Where the connection stands in the order of its operations, unless an `insert_fix` has
raised. -/
lemma Ordered.leaves (h : Ordered db s order) (hstored : HolderStored s)
    (hraised : HolderUnraised s) :
    Leaves db s order s.working ∧ Includes s order := by
  refine ⟨⟨fun t => ⟨_, placed_mem_mayHave _, h.ops t⟩, ?_⟩, fun t w hpc => ?_⟩
  · cases hlock : s.lock with
    | none => exact .inl (h.free hlock)
    | some t =>
      have hops := h.ops t
      cases hpc : (s.threads t).pc with
      | idle => exact (h.held_at hlock hpc).elim
      | written w => exact (h.held_at hlock hpc).elim
      | locked u => exact .inl (h.held_at hlock hpc)
      | selected u slot => exact .inl (h.held_at hlock hpc).1
      | retired u =>
        obtain ⟨-, ⟨row, htables, hstale, hslot⟩, -⟩ := h.held_at hlock hpc
        rw [hpc] at hops
        exact .inr ⟨t, u, [], by rw [hpc]; rfl, hops, .retired row hstale hslot htables⟩
      | inserted u k =>
        obtain ⟨-, hupsert, -⟩ := h.held_at hlock hpc
        rw [hpc] at hops
        exact .inr ⟨t, u, _, by rw [hpc]; rfl, hops,
          .unsummarised (hstored t u k hlock hpc) hupsert⟩
      | summarised u k => exact .inl (h.held_at hlock hpc).2.1
      | committed u => exact .inl (h.held_at hlock hpc)
      | failed u k => exact absurd hpc (hraised t u k hlock)
      | rolledBack u => exact .inl (h.held_at hlock hpc)
  · rw [h.ops t, hpc]
    rfl

/-- Only an `insert_fix` that has raised can be doomed. -/
lemma Sound.ordered (h : Sound db s) (hraised : HolderUnraised s) :
    ∃ order, Ordered db s order := by
  obtain hordered | ⟨t, u, k, hdoomed⟩ := h
  · exact hordered
  · exact absurd hdoomed.pc (hraised t u k hdoomed.lock)

/-- After a commit or a rollback the durable tables are those that the connection sees. -/
lemma Lasting.of_closed (hsound : Sound db s)
    (hstored : HolderStored s)
    (hworking : ∃ order, Leaves db s order s.working ∧ Includes s order)
    (hclosed : s.durable = s.working) : Lasting db s := by
  refine ⟨hsound, hstored, hworking, ?_⟩
  obtain ⟨order, hleaves, -⟩ := hworking
  exact ⟨order, hclosed ▸ hleaves⟩

/-! ### Steps of threads that do not hold the lock -/

lemma Includes.update {th : Thread} (h : Includes s order)
    (hthreads : s'.threads = Function.update s.threads t th)
    (hself : ∀ w, th.pc = .written w → opsOf t order' = th.returned ++ [.write w])
    (hothers : ∀ t' ≠ t, opsOf t' order' = opsOf t' order) : Includes s' order' := by
  intro t' w
  rw [hthreads]
  by_cases hne : t' = t
  · rw [hne, Function.update_self]
    exact hself w
  · rw [Function.update_of_ne hne, hothers t' hne]
    exact h t' w

lemma Lasting.step_foreign (h : Lasting db s) (hclean : CleanRollback s t)
    (hpc : (s.threads t).pc = .idle ∨ ∃ w, (s.threads t).pc = .written w) (raises : Bool) :
    Lasting db (s.step t raises) := by
  have hsound := h.sound.step hclean raises
  have hstep := foreignStep_of hpc raises
  obtain ⟨order, hworking, hincludes⟩ := h.working
  obtain ⟨kept, hdurable⟩ := h.durable
  generalize s.step t raises = s' at hsound hstep ⊢
  -- no thread but this one has moved
  have hinserted {th : Thread} (hthreads : s'.threads = Function.update s.threads t th)
      (hth : ∀ u k, th.pc ≠ .inserted u k) {t' : ℕ} {u : Uplink} {k : ℕ}
      (hpc' : (s'.threads t').pc = .inserted u k) : (s.threads t').pc = .inserted u k := by
    rw [hthreads] at hpc'
    by_cases hne : t' = t
    · rw [hne, Function.update_self] at hpc'
      exact absurd hpc' (hth u k)
    · rwa [Function.update_of_ne hne] at hpc'
  cases hstep with
  | stay => exact ⟨hsound, h.stored, ⟨order, hworking, hincludes⟩, ⟨kept, hdurable⟩⟩
  | acquire u rest idle free =>
    have hgoes : (s.threads t).pc.Goes (.locked u) := idle ▸ .of_nil rfl List.mem_cons_self
    refine ⟨hsound, ?_, ⟨order, hworking.goto hgoes rfl, ?_⟩, ⟨kept, hdurable.goto hgoes rfl⟩⟩
    · rintro t' u' k ⟨⟩ hpc'
      simp at hpc'
    · exact hincludes.update rfl (fun w hw => by cases hw) fun _ _ => rfl
  | skip w rest idle skips =>
    have hexec : ∀ d, w.exec d = d := exec_of_skips skips
    have hself : ∃ l ∈ Pc.idle.mayHave, (s.threads t).returned ++ [.write w] =
        (s.threads t).returned ++ [.write w] ++ l :=
      ⟨[], List.mem_singleton_self _, (List.append_nil _).symm⟩
    refine ⟨hsound, ?_, ⟨order ++ [(t, .write w)], ?_, ?_⟩, ⟨kept ++ [(t, .write w)], ?_⟩⟩
    · exact fun t' u k hlock hpc' => h.stored t' u k hlock (hinserted rfl (by simp) hpc')
    · simpa only [hexec] using hworking.write w idle hself rfl
    · exact hincludes.update rfl (fun w hw => by cases hw) fun t' hne =>
        opsOf_concat_of_ne hne.symm _ _
    · simpa only [hexec] using hdurable.write w idle hself rfl
  | statement w rest idle =>
    have hself : ∃ l ∈ (Pc.written w).mayHave, (s.threads t).returned ++ [.write w] =
        (s.threads t).returned ++ l := ⟨_, List.mem_cons_of_mem _ (List.mem_singleton_self _), rfl⟩
    refine ⟨hsound, ?_, ⟨_, hworking.write w idle hself rfl, ?_⟩, ⟨kept, ?_⟩⟩
    · intro t' u k hlock hpc'
      exact (h.stored t' u k hlock (hinserted rfl (by simp) hpc')).exec w
    · refine hincludes.update rfl ?_ fun t' hne => opsOf_concat_of_ne hne.symm _ _
      rintro w' ⟨⟩
      obtain ⟨l, hl, hops⟩ := hworking.ops t
      rw [idle] at hl
      rw [opsOf_concat_self, hops, List.mem_singleton.mp hl, List.append_nil]
    · exact hdurable.goto (idle ▸ .of_nil rfl List.mem_cons_self) rfl
  | commit w written =>
    refine .of_closed hsound ?_ ⟨order, ?_, ?_⟩ rfl
    · exact fun t' u k hlock hpc' => h.stored t' u k hlock (hinserted rfl (by simp) hpc')
    · exact hworking.return_ written rfl (hincludes t w written) rfl
    · exact hincludes.update rfl (fun w hw => by cases hw) fun _ _ => rfl

/-! ### Steps of the thread that holds the lock -/

lemma stored_append {u : Uplink} (hfree : db.selectSlot u.nodeId u.sequence = none) (id : ℕ) :
    Stored u { db with fixes := db.fixes ++ [rowOf id u] } := by
  refine ⟨rowOf id u, ?_, rfl⟩
  rw [Db.selectSlot] at hfree ⊢
  rw [List.find?_append, hfree, Option.none_or]
  simp [rowOf]

lemma stored_of_insertRow {u : Uplink} (h : db.insertRow u = .ok d) : Stored u d := by
  obtain ⟨_, -, h⟩ := bind_eq_ok.mp h
  split_ifs at h with htaken
  obtain rfl := Except.ok.inj h
  exact stored_append (by simpa using htaken) db.nextId

/-- What is to be shown when the holder keeps the lock and has not raised. -/
lemma Lasting.of_held {pc : Pc} (hsound : Sound db s) (hlock : s.lock = some t)
    (hpc : (s.threads t).pc = pc) (hraised : ∀ u k, pc ≠ .failed u k)
    (hstored : ∀ u k, pc = .inserted u k → Stored u s.working)
    (hdurable : s.durable = s.working ∨ ∃ order, Leaves db s order s.durable) : Lasting db s := by
  have hholder : ∀ {t'}, s.lock = some t' → (s.threads t').pc = pc := fun hlock' => by
    rw [← hpc, Option.some.inj (hlock'.symm.trans hlock)]
  have hstored' : HolderStored s := fun t' u k hlock' hpc' =>
    hstored u k ((hholder hlock').symm.trans hpc')
  have hraised' : HolderUnraised s := fun t' u k hlock' hpc' =>
    hraised u k ((hholder hlock').symm.trans hpc')
  obtain ⟨order, hordered⟩ := hsound.ordered hraised'
  have hworking := hordered.leaves hstored' hraised'
  obtain hclosed | hdurable := hdurable
  · exact .of_closed hsound hstored' ⟨order, hworking⟩ hclosed
  · exact ⟨hsound, hstored', ⟨order, hworking⟩, hdurable⟩

/-- What is to be shown when the lock is released. -/
lemma Lasting.of_free (hsound : Sound db s) (hfree : s.lock = none)
    (hdurable : ∃ order, Leaves db s order s.durable) : Lasting db s := by
  have hnone : ∀ t, s.lock ≠ some t := fun t hlock => by
    rw [hfree] at hlock
    cases hlock
  have hstored : HolderStored s := fun t _ _ hlock => absurd hlock (hnone t)
  have hraised : HolderUnraised s := fun t _ _ hlock => absurd hlock (hnone t)
  obtain ⟨order, hordered⟩ := hsound.ordered hraised
  exact ⟨hsound, hstored, ⟨order, hordered.leaves hstored hraised⟩, hdurable⟩

/-- The holder raises. -/
lemma Lasting.fail (h : Lasting db s) (hlock : s.lock = some t) {u : Uplink} {k : ℕ}
    (hgoes : (s.threads t).pc.Goes (.failed u k)) (hsound : Sound db (s.goto t (.failed u k))) :
    Lasting db (s.goto t (.failed u k)) := by
  obtain ⟨order, hworking, hincludes⟩ := h.working
  obtain ⟨kept, hdurable⟩ := h.durable
  refine ⟨hsound, ?_, ⟨order, hworking.goto hgoes rfl, ?_⟩, ⟨kept, hdurable.goto hgoes rfl⟩⟩
  · intro t' u' k' hlock' hpc'
    obtain rfl := Option.some.inj (hlock'.symm.trans hlock)
    simp [Conn.goto] at hpc'
  · exact hincludes.update rfl (fun w hw => by cases hw) fun _ _ => rfl

lemma Lasting.insertWrite (h : Lasting db s) (hlock : s.lock = some t) {u : Uplink} {k : ℕ}
    {raises : Bool} {result : Except PyErr Db} {next : Pc}
    (hfails : (s.threads t).pc.Goes (.failed u k)) (hgoes : (s.threads t).pc.Goes next)
    (hraised : ∀ u k, next ≠ .failed u k)
    (hstored : ∀ db', result = .ok db' → ∀ u k, next = .inserted u k → Stored u db')
    (hsound : Sound db (s.insertWrite t u k raises result next)) :
    Lasting db (s.insertWrite t u k raises result next) := by
  unfold Conn.insertWrite at hsound ⊢
  obtain ⟨kept, hdurable⟩ := h.durable
  cases raises with
  | true => exact h.fail hlock hfails hsound
  | false =>
    cases result with
    | error x => exact h.fail hlock hfails hsound
    | ok db' =>
      have hleaves : Leaves db ((s.write t db').goto t next) kept s.durable :=
        hdurable.goto hgoes rfl
      exact .of_held hsound hlock (by simp [Conn.goto]) hraised (hstored db' rfl)
        (.inr ⟨kept, hleaves⟩)

/-- The holder is in the middle of an `insert_fix`. -/
lemma Sound.held (h : Sound db s) (hlock : s.lock = some t) :
    (s.threads t).pc ≠ .idle ∧ ∀ w, (s.threads t).pc ≠ .written w := by
  obtain ⟨order, h⟩ | ⟨t', u, k, h⟩ := h
  · exact ⟨fun hpc => h.held_at hlock hpc, fun w hpc => h.held_at hlock hpc⟩
  · obtain rfl := Option.some.inj (h.lock.symm.trans hlock)
    rw [h.pc]
    exact ⟨by simp, by simp⟩

/-- The holder has its answer to the SELECT, and makes the first write of its branch. -/
lemma Lasting.step_selected (h : Lasting db s) (hlock : s.lock = some t) {u : Uplink}
    {slot : Option FixRow} (hpc : (s.threads t).pc = .selected u slot) {raises : Bool}
    (hsound : Sound db (s.step t raises)) : Lasting db (s.step t raises) := by
  have hgoes {next : Pc} (hnext : [] ∈ next.mayHave) : (s.threads t).pc.Goes next :=
    hpc ▸ .of_nil rfl hnext
  cases slot with
  | none =>
    have hfree : s.working.selectSlot u.nodeId u.sequence = none := by
      obtain ⟨order, hordered⟩ := h.sound.ordered fun t' u k hlock' hpc' => by
        rw [Option.some.inj (hlock'.symm.trans hlock), hpc] at hpc'
        cases hpc'
      obtain ⟨hworking, -, hslot⟩ := hordered.held_at hlock hpc
      rw [hworking]
      exact Option.map_eq_none_iff.mp hslot
    simp only [Conn.step, hpc] at hsound ⊢
    refine h.insertWrite hlock (hgoes List.mem_cons_self) (hgoes List.mem_cons_self)
      (by simp) ?_ hsound
    rintro db' hinsert u' k ⟨⟩
    obtain ⟨⟨inserted, mid⟩, hmid, rfl⟩ := map_eq_ok.mp hinsert
    obtain ⟨-, -, rfl⟩ := insertOrIgnore_eq_ok hfree hmid
    exact stored_append hfree _
  | some row =>
    by_cases hrecent : isResend u row <;>
      simp only [Conn.step, hpc, hrecent, if_true] at hsound ⊢
    · exact h.insertWrite hlock (hgoes List.mem_cons_self) (hgoes List.mem_cons_self)
        (by simp) (by simp) hsound
    · exact h.insertWrite hlock (hgoes List.mem_cons_self) (hgoes List.mem_cons_self)
        (by simp) (by simp) hsound

lemma Lasting.step_held (h : Lasting db s) (hlock : s.lock = some t)
    (hclean : CleanRollback s t) (raises : Bool) : Lasting db (s.step t raises) := by
  have hsound := h.sound.step hclean raises
  obtain ⟨kept, hdurable⟩ := h.durable
  cases hpc : (s.threads t).pc with
  | idle => exact absurd hpc (h.sound.held hlock).1
  | written w => exact absurd hpc ((h.sound.held hlock).2 w)
  | locked u =>
    have hstep : s.step t raises = s.goto t (.failed u 0) ∨
        ∃ slot, s.step t raises = s.goto t (.selected u slot) := by
      simp only [Conn.step, hpc]
      split
      · exact .inr ⟨_, rfl⟩
      · exact .inl rfl
    obtain hstep | ⟨slot, hstep⟩ := hstep <;> rw [hstep] at hsound ⊢
    · exact h.fail hlock (hpc ▸ .of_nil rfl List.mem_cons_self) hsound
    · have hgoes : (s.threads t).pc.Goes (.selected u slot) :=
        hpc ▸ .of_nil rfl List.mem_cons_self
      exact .of_held hsound hlock rfl (by simp [Conn.goto]) (by simp [Conn.goto])
        (.inr ⟨kept, hdurable.goto hgoes rfl⟩)
  | selected u slot => exact h.step_selected hlock hpc hsound
  | retired u =>
    simp only [Conn.step, hpc] at hsound ⊢
    refine h.insertWrite hlock (hpc ▸ .of_midway rfl rfl) (hpc ▸ .of_midway rfl rfl)
      (by simp) ?_ hsound
    rintro db' hinsert u' k ⟨⟩
    exact stored_of_insertRow hinsert
  | inserted u k =>
    simp only [Conn.step, hpc] at hsound ⊢
    exact h.insertWrite hlock (hpc ▸ .of_midway rfl rfl) (hpc ▸ .of_midway rfl rfl)
      (by simp) (by simp) hsound
  | summarised u k =>
    cases raises <;> simp only [Conn.step, hpc, if_true] at hsound ⊢
    · exact .of_held hsound hlock rfl (by simp [Conn.goto]) (by simp [Conn.goto]) (.inl rfl)
    · exact h.fail hlock (hpc ▸ .of_midway rfl rfl) hsound
  | committed u =>
    simp only [Conn.step, hpc] at hsound ⊢
    obtain ⟨l, hl, hops⟩ := hdurable.ops t
    rw [hpc] at hl
    rw [List.mem_singleton.mp hl] at hops
    exact .of_free hsound rfl ⟨kept, hdurable.return_ hpc rfl hops rfl⟩
  | failed u k =>
    simp only [Conn.step, hpc] at hsound ⊢
    exact .of_held hsound hlock rfl (by simp [Conn.goto]) (by simp [Conn.goto]) (.inl rfl)
  | rolledBack u =>
    simp only [Conn.step, hpc] at hsound ⊢
    exact .of_free hsound rfl ⟨kept, hdurable.goto (hpc ▸ .of_nil rfl List.mem_cons_self) rfl⟩

/-! ### Runs -/

lemma Lasting.step (h : Lasting db s) (hclean : CleanRollback s t) (raises : Bool) :
    Lasting db (s.step t raises) := by
  by_cases hlock : s.lock = some t
  · exact h.step_held hlock hclean raises
  · refine h.step_foreign hclean ?_ raises
    obtain ⟨order, hordered⟩ | ⟨t', u, k, hdoomed⟩ := h.sound
    · exact hordered.others t hlock
    · exact hdoomed.others t fun heq => hlock (heq ▸ hdoomed.lock)

lemma Lasting.start (db : Db) (todo : ℕ → List Op) : Lasting db (.start db todo) := by
  refine .of_free (.inl ⟨[], .start db todo⟩) rfl ⟨[], fun t => ?_, .inl rfl⟩
  exact ⟨[], List.mem_singleton_self _, rfl⟩

lemma Lasting.run (h : Lasting db s) {schedule : List (ℕ × Bool)}
    (hclean : CleanRollbacks s schedule) : Lasting db (s.run schedule) := by
  induction schedule generalizing s with
  | nil => exact h
  | cons st schedule ih => exact ih (h.step hclean.1 st.2) hclean.2

lemma replay_uniqueSlots (hdb : db.UniqueSlots) (order : List (ℕ × Op)) :
    (replay db order).UniqueSlots := by
  induction order generalizing db with
  | nil => exact hdb
  | cons op order ih => exact ih (hdb.apply (.op op.2))

/-- **What a crash leaves.**  At any point of any run of threads on the shared connection whose
rollbacks have all been clean: the durable tables are those of operations in some order, in which
each thread's operations stand as it made them, all that have returned and at most the one in
progress; or one `insert_fix` in progress is torn beside them.  If its fix can be bound, receiving
it again completes it: the tables are then those of an order that has it as a whole. -/
theorem crash_leaves (db : Db) (hdb : db.UniqueSlots) (todo : ℕ → List Op)
    (schedule : List (ℕ × Bool)) (hclean : CleanRollbacks (.start db todo) schedule) :
    let s := (Conn.start db todo).run schedule
    ∃ order, (∀ t, (s.threads t).returned <+: opsOf t order ∧
        opsOf t order <+: (s.threads t).returned ++ (s.threads t).pc.current.toList) ∧
      (s.durable = replay db order ∨ ∃ t u l, (s.threads t).pc.midway = some u ∧
        Torn u s.durable (replay db order) l ∧
          (bindParams (insertParams u) = .ok () → ∃ order',
            opsOf t order' = (s.threads t).returned ++ [.insertFix u] ∧
              (∀ t' ≠ t, opsOf t' order' = opsOf t' order) ∧
                (s.durable.insertFix u).2 = replay db order')) := by
  intro s
  obtain ⟨order, hops, htables⟩ := ((Lasting.start db todo).run hclean).durable
  refine ⟨order, fun t => ?_, ?_⟩
  · obtain ⟨l, hl, heq⟩ := hops t
    rw [heq]
    exact ⟨List.prefix_append _ _, List.prefix_append_right_inj _ |>.mpr (prefix_of_mem_mayHave hl)⟩
  · obtain hwhole | ⟨t, u, l, hmidway, hops, htorn⟩ := htables
    · exact .inl hwhole
    · refine .inr ⟨t, u, l, hmidway, htorn, fun hbind => ?_⟩
      obtain ⟨rfl, hheals⟩ | ⟨rfl, hheals⟩ := htorn.heals (replay_uniqueSlots hdb order) hbind
      · refine ⟨order ++ [(t, .insertFix u)], ?_, fun t' hne => opsOf_concat_of_ne hne.symm _ _, ?_⟩
        · rw [opsOf_concat_self, hops, List.append_nil]
        · rw [replay_concat]
          exact hheals
      · exact ⟨order, hops, fun _ _ => rfl, hheals⟩

/-- Thread 0 is to insert a fix with the sequence number of the one in the store, from the next
wrap; thread 1 to mark the other one as synced. -/
def wrapAndMark : ℕ → List Op
  | 0 => [.insertFix afterWrap]
  | 1 => [.write (.markSynced [1])]
  | _ => []

/-- The theorem at a crash after thread 1 has committed the UPDATE of thread 0, which has still
to make its INSERT: `mark_synced` has returned, and the row has no `seq`. -/
theorem crash_leaves_torn :
    let s := (Conn.start oneFix wrapAndMark).run
      [(0, false), (0, false), (0, false), (1, false), (1, false)]
    s.durable.fixes.map (fun r => (r.seq, r.synced)) = [(none, true)] ∧
      ∃ order, [.write (.markSynced [1])] <+: opsOf 1 order := by
  intro s
  have hclean : CleanRollbacks (.start oneFix wrapAndMark)
      [(0, false), (0, false), (0, false), (1, false), (1, false)] :=
    ⟨by decide +kernel, by decide +kernel, by decide +kernel, by decide +kernel,
      by decide +kernel, trivial⟩
  obtain ⟨order, hops, -⟩ := crash_leaves oneFix (List.pairwise_singleton _ _) wrapAndMark _ hclean
  exact ⟨by decide +kernel, order, (hops 1).1⟩

end SrtGateway.Store
