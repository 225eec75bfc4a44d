/-
The latest fix of each node, for `/health`.

The query joins `fixes` with the newest time stamp of each node, groups the result by node, and
takes the row with the greatest id from each group.  So it returns, for each node with a fix,
the whole row that is greatest by time stamp and id (`latestPerNode_spec`).
-/
import Mathlib.Data.Prod.Lex
import SrtGateway.Sql.Query
import SrtGateway.Store.Nodes

namespace SrtGateway.Store

open SrtGateway.Protocol SrtGateway.Sql

/-- `SELECT node_id, MAX(ts_ms) AS m FROM fixes GROUP BY node_id`. -/
def Db.newestPerNode (db : Db) : List (ℤ × Option ℤ) :=
  (groupBy FixRow.nodeId db.fixes).map fun (nodeId, rows) => (nodeId, maxOf FixRow.tsMs rows)

/-- The rows of `fixes` in the join, which the rest of the query reads. -/
def Db.newestFixes (db : Db) : List FixRow :=
  (joinOn (fun f g => f.nodeId = g.1 ∧ some f.tsMs = g.2) db.fixes db.newestPerNode).map Prod.fst

/-- `latest_per_node`: the bare columns of a group, if they meet the HAVING clause. -/
def Db.latestPerNode (db : Db) : List FixRow :=
  (groupBy FixRow.nodeId db.newestFixes).filterMap fun (_, rows) =>
    (bareRow FixRow.id rows).filter fun f => some f.id = maxOf FixRow.id rows

/-! ### The rows of the query -/

variable {db : Db}

lemma mem_newestPerNode {node : ℤ} {m : Option ℤ} :
    (node, m) ∈ db.newestPerNode ↔
      (∃ f ∈ db.fixes, f.nodeId = node) ∧
        m = maxOf FixRow.tsMs (group FixRow.nodeId db.fixes node) := by
  simp only [Db.newestPerNode, List.mem_map, Prod.exists, mem_groupBy, Prod.mk.injEq]
  constructor
  · rintro ⟨_, _, ⟨hnode, rfl⟩, rfl, rfl⟩
    exact ⟨hnode, rfl⟩
  · rintro ⟨hnode, rfl⟩
    exact ⟨node, _, ⟨hnode, rfl⟩, rfl, rfl⟩

/-- The join keeps the fixes with the newest time stamp of their node. -/
lemma mem_newestFixes {f : FixRow} :
    f ∈ db.newestFixes ↔
      f ∈ db.fixes ∧ ∀ f' ∈ db.fixes, f'.nodeId = f.nodeId → f'.tsMs ≤ f.tsMs := by
  simp only [Db.newestFixes, List.mem_map, Prod.exists, exists_and_right, exists_eq_right,
    mem_joinOn, mem_newestPerNode, decide_eq_true_eq]
  constructor
  · rintro ⟨node, m, hf, ⟨-, rfl⟩, rfl, hmax⟩
    obtain ⟨-, hle⟩ := maxOf_eq_some_iff.mp hmax.symm
    exact ⟨hf, fun f' hf' hnode => hle f' (mem_group.mpr ⟨hf', hnode⟩)⟩
  · rintro ⟨hf, hle⟩
    refine ⟨f.nodeId, _, hf, ⟨⟨f, hf, rfl⟩, rfl⟩, rfl, (maxOf_eq_some_iff.mpr ⟨?_, ?_⟩).symm⟩
    · exact ⟨f, mem_group.mpr ⟨hf, rfl⟩, rfl⟩
    · exact fun f' hf' => hle f' (mem_group.mp hf').1 (mem_group.mp hf').2

/-- The HAVING clause holds of the bare row of every group. -/
lemma latest_select (rows : List FixRow) :
    ((bareRow FixRow.id rows).filter fun f => some f.id = maxOf FixRow.id rows) =
      bareRow FixRow.id rows := by
  rw [maxOf_eq_bareRow]
  cases bareRow FixRow.id rows with
  | none => rfl
  | some f => simp

lemma latestPerNode_eq : db.latestPerNode =
    (groupBy FixRow.nodeId db.newestFixes).filterMap fun g => bareRow FixRow.id g.2 := by
  simp only [Db.latestPerNode, latest_select]

/-- The row of a group. -/
lemma exists_latest_row {g : ℤ × List FixRow} (hg : g ∈ groupBy FixRow.nodeId db.newestFixes) :
    ∃ r, bareRow FixRow.id g.2 = some r ∧ r ∈ db.newestFixes ∧ r.nodeId = g.1 ∧
      ∀ f ∈ db.newestFixes, f.nodeId = g.1 → f.id ≤ r.id := by
  obtain ⟨⟨f, hf, hnode⟩, hrows⟩ := mem_groupBy.mp hg
  obtain ⟨r, hr⟩ := exists_bareRow FixRow.id (hrows ▸ mem_group.mpr ⟨hf, hnode⟩)
  obtain ⟨hmem, hle⟩ := bareRow_spec hr
  rw [hrows] at hmem hle
  obtain ⟨hmem, hnode'⟩ := mem_group.mp hmem
  exact ⟨r, hr, hmem, hnode', fun f' hf' hnode => hle f' (mem_group.mpr ⟨hf', hnode⟩)⟩

lemma mem_latestPerNode {r : FixRow} (hr : r ∈ db.latestPerNode) :
    r ∈ db.newestFixes ∧ ∀ f ∈ db.newestFixes, f.nodeId = r.nodeId → f.id ≤ r.id := by
  rw [latestPerNode_eq, List.mem_filterMap] at hr
  obtain ⟨g, hg, hrow⟩ := hr
  obtain ⟨r', hr', hmem, hnode, hle⟩ := exists_latest_row hg
  obtain rfl := Option.some.inj (hr'.symm.trans hrow)
  exact ⟨hmem, hnode ▸ hle⟩

/-- Each node has its newest fixes in the join. -/
lemma exists_newestFix {f : FixRow} (hf : f ∈ db.fixes) :
    ∃ f' ∈ db.newestFixes, f'.nodeId = f.nodeId := by
  obtain ⟨f', hf'⟩ :=
    exists_bareRow FixRow.tsMs (mem_group.mpr ⟨hf, rfl⟩ : f ∈ group FixRow.nodeId db.fixes f.nodeId)
  obtain ⟨hmem, hle⟩ := bareRow_spec hf'
  obtain ⟨hmem, hnode⟩ := mem_group.mp hmem
  refine ⟨f', mem_newestFixes.mpr ⟨hmem, fun f'' hf'' hnode' => ?_⟩, hnode⟩
  exact hle f'' (mem_group.mpr ⟨hf'', hnode'.trans hnode⟩)

/-! ### Reachable tables -/

lemma Db.Ordered.congr {db db' : Db} (h : db.Ordered) (hfixes : db'.fixes = db.fixes) :
    db'.Ordered := by
  rwa [Db.Ordered, hfixes]

lemma Db.Ordered.apply (h : db.Ordered) (op : StoreOp) : (op.apply db).Ordered := by
  cases op with
  | upsertNode nodeId given => exact h.congr (apply_upsertNode_fixes db nodeId given)
  | op o =>
    cases o with
    | insertFix u => exact insertFix_ordered h u
    | write w =>
      obtain ⟨f, hf, hfixes⟩ := exec_fixes_map w db
      exact h.map (fun r => (hf r).2.2.1) hfixes

lemma Reachable.ordered (h : Reachable db) : db.Ordered := by
  obtain ⟨ops, rfl⟩ := h
  induction ops using List.reverseRecOn with
  | nil => exact List.Pairwise.nil
  | append_singleton ops op ih =>
    rw [Db.run_concat]
    exact ih.apply op

/-- The rows are the latest fixes of their nodes. -/
structure LatestOf (db : Db) (rows : List FixRow) : Prop where
  whole : ∀ r ∈ rows, r ∈ db.fixes
  one : (rows.map FixRow.nodeId).Nodup
  each : ∀ f ∈ db.fixes, ∃ r ∈ rows, r.nodeId = f.nodeId
  greatest : ∀ r ∈ rows, ∀ f ∈ db.fixes, f.nodeId = r.nodeId → f ≠ r →
    toLex (f.tsMs, f.id) < toLex (r.tsMs, r.id)

/-- **`latest_per_node` is the maximum of each node** by time stamp and id. -/
theorem latestPerNode_spec (db : Db) (hdb : Reachable db) : LatestOf db db.latestPerNode where
  whole r hr := (mem_newestFixes.mp (mem_latestPerNode hr).1).1
  one := by
    rw [latestPerNode_eq, map_key_filterMap]
    · exact groupBy_keys_nodup
    · intro g hg
      obtain ⟨r, hr, -, hnode, -⟩ := exists_latest_row hg
      exact ⟨r, hr, hnode⟩
  each f hf := by
    obtain ⟨f', hf', hnode⟩ := exists_newestFix hf
    have hg : (f.nodeId, group FixRow.nodeId db.newestFixes f.nodeId) ∈
        groupBy FixRow.nodeId db.newestFixes := mem_groupBy.mpr ⟨⟨f', hf', hnode⟩, rfl⟩
    obtain ⟨r, hr, -, hnode', -⟩ := exists_latest_row hg
    refine ⟨r, ?_, hnode'⟩
    rw [latestPerNode_eq]
    exact List.mem_filterMap.mpr ⟨_, hg, hr⟩
  greatest r hr f hf hnode hne := by
    obtain ⟨hmem, hid⟩ := mem_latestPerNode hr
    obtain ⟨hrfix, hts⟩ := mem_newestFixes.mp hmem
    rw [Prod.Lex.toLex_lt_toLex]
    rcases (hts f hf hnode).lt_or_eq with hlt | heq
    · exact .inl hlt
    · -- an equally new fix is in the join as well, and ids are unique
      have hf' : f ∈ db.newestFixes := mem_newestFixes.mpr
        ⟨hf, fun f' hf' hnode' => heq ▸ hts f' hf' (hnode'.trans hnode)⟩
      refine .inr ⟨heq, lt_of_le_of_ne (hid f hf' hnode) fun hids => hne ?_⟩
      exact hdb.ordered.eq_of_id hf hrfix hids

/-- A fix, one with the same sequence number after a wrap, and one of the same time as that. -/
def tiedFixes : List StoreOp :=
  [(5, 0), (5, 7200000), (6, 7200000)].map fun (sequence, tsMs) =>
    .op (.insertFix { fixOfNode sequence with tsMs := tsMs })

/-- The theorem at a table with a retired row and a tie. -/
theorem latestPerNode_spec_tied :
    (Db.empty.run tiedFixes).fixes.map FixRow.seq = [none, some 5, some 6] ∧
      (Db.empty.run tiedFixes).latestPerNode.map FixRow.id = [3] ∧
        LatestOf (Db.empty.run tiedFixes) (Db.empty.run tiedFixes).latestPerNode :=
  ⟨by decide +kernel, by decide +kernel, latestPerNode_spec _ ⟨tiedFixes, rfl⟩⟩

end SrtGateway.Store
