/-
The node summary that a list of fixes leaves behind.

Whether a fix is inserted, recognised as a resend or takes over a slot, its node is summarised
from it, so the `nodes` table is a fold over the fixes as they arrive.  The row of a node is
that of the last of its newest fixes (`insertFixes_nodes`), and so it does not depend on the
order of arrival when the newest time stamp comes once.
-/
import SrtGateway.Lists.LastMax
import SrtGateway.Store.Inserts
import SrtGateway.Store.Resends

namespace SrtGateway.Store

open SrtGateway.Protocol SrtGateway.Lists

/-- The fixes of a node. -/
def ofNode (node : ℤ) (us : List Uplink) : List Uplink := us.filter fun u => u.nodeId = node

/-- The row of a node of which this is the first fix. -/
def summaryOf (u : Uplink) : NodeRow := nodeFromFix none u

/-- A fix that is not older than the summary replaces it. -/
lemma nodeFromFix_summaryOf (v u : Uplink) :
    nodeFromFix (some (summaryOf v)) u = if v.tsMs ≤ u.tsMs then summaryOf u else summaryOf v := by
  split_ifs with hle
  · simp [nodeFromFix, summaryOf, hle]
  · simp [nodeFromFix, summaryOf, hle, (not_le.mp hle).le]

lemma ofNode_concat (node : ℤ) (us : List Uplink) (u : Uplink) :
    ofNode node (us ++ [u]) =
      if u.nodeId = node then ofNode node us ++ [u] else ofNode node us := by
  rw [ofNode, List.filter_append, List.filter_singleton]
  split_ifs with hnode
  · simp [hnode, ofNode]
  · simp [hnode, ofNode]

/-- **One more fix** of the node. -/
lemma nodeFromFix_lastMax (us : List Uplink) (u : Uplink) :
    some (nodeFromFix ((lastMax Uplink.tsMs us).map summaryOf) u) =
      (lastMax Uplink.tsMs (us ++ [u])).map summaryOf := by
  rw [lastMax_concat]
  cases lastMax Uplink.tsMs us with
  | none => rfl
  | some v =>
    rw [Option.map_some, nodeFromFix_summaryOf]
    dsimp only
    split_ifs
    · rfl
    · rfl

variable {db : Db} {us : List Uplink}

/-- The integers that `insert_fix` binds for any of these fixes fit in 64 bits. -/
def Fit (us : List Uplink) : Prop := ∀ u ∈ us, ∀ n ∈ insertParams u, -2 ^ 63 ≤ n ∧ n < 2 ^ 63

instance (us : List Uplink) : Decidable (Fit us) :=
  inferInstanceAs (Decidable (∀ u ∈ us, ∀ n ∈ insertParams u, -2 ^ 63 ≤ n ∧ n < 2 ^ 63))

lemma canBind_of_fit {u : Uplink} (h : ∀ n ∈ insertParams u, -2 ^ 63 ≤ n ∧ n < 2 ^ 63) :
    db.CanBind u := by
  rw [Db.CanBind, Db.boundBy]
  split
  · exact fun n hn => h n ((by simp [insertParams] :
      [u.nodeId, u.sequence, u.tsMs, u.batteryMv, u.rssiDbm] ⊆ insertParams u) hn)
  · exact h

/-- The slots and the summaries after the fixes. -/
lemma insertFixes_spec (hslots : db.UniqueSlots) (hempty : ∀ node, db.nodes node = none)
    (hfit : Fit us) :
    (db.insertFixes us).UniqueSlots ∧ ∀ node,
      (db.insertFixes us).nodes node = (lastMax Uplink.tsMs (ofNode node us)).map summaryOf := by
  induction us using List.reverseRecOn with
  | nil => exact ⟨hslots, hempty⟩
  | append_singleton us u ih =>
    obtain ⟨hslots', hnodes⟩ := ih fun v hv => hfit v (List.mem_append_left _ hv)
    rw [insertFixes_concat]
    refine ⟨hslots'.insertFix u, fun node => ?_⟩
    obtain ⟨inserted, hok⟩ := (insertFix_ok_iff hslots' u).mpr
      (canBind_of_fit (hfit u (List.mem_append_right _ (List.mem_singleton_self u))))
    rw [insertFix_nodes hok, hnodes, nodeFromFix_lastMax, ofNode_concat]
    by_cases hnode : u.nodeId = node
    · obtain rfl := hnode
      rw [Function.update_self, if_pos rfl]
    · rw [Function.update_of_ne (Ne.symm hnode), hnodes, if_neg hnode]

/-- The row says of the fixes of a node what it should. -/
structure Summarises (node : ℤ) (us : List Uplink) (row : NodeRow) : Prop where
  lastSeen : ∃ t, row.lastSeen = some t ∧ IsGreatest {t | ∃ u ∈ us, u.nodeId = node ∧ u.tsMs = t} t
  newest : ∃ u, IsLastMax Uplink.tsMs (ofNode node us) u ∧
    row.lastBatteryMv = some u.batteryMv ∧ row.lastRssi = some u.rssiDbm

lemma summarises_of_lastMax {node : ℤ} {u : Uplink}
    (h : lastMax Uplink.tsMs (ofNode node us) = some u) : Summarises node us (summaryOf u) := by
  have hmem : ∀ v, v ∈ ofNode node us ↔ v ∈ us ∧ v.nodeId = node := by
    intro v
    rw [ofNode, List.mem_filter, decide_eq_true_eq]
  refine ⟨⟨u.tsMs, rfl, ?_, ?_⟩, u, isLastMax_of_lastMax h, rfl, rfl⟩
  · obtain ⟨hu, hnode⟩ := (hmem u).mp (mem_of_lastMax h)
    exact ⟨u, hu, hnode, rfl⟩
  · rintro t ⟨v, hv, hnode, rfl⟩
    exact le_of_lastMax h v ((hmem v).mpr ⟨hv, hnode⟩)

/-- **The node summary is that of the newest fixes**, whatever became of each fix in the `fixes`
table; the order in which the fixes arrive matters only between fixes of one node with the
newest time stamp. -/
theorem insertFixes_nodes (db : Db) (hslots : db.UniqueSlots)
    (hempty : ∀ node, db.nodes node = none) (us : List Uplink) (hfit : Fit us) :
    (∀ node, (∃ u ∈ us, u.nodeId = node) →
      ∃ row, (db.insertFixes us).nodes node = some row ∧ Summarises node us row) ∧
    (∀ node, (¬ ∃ u ∈ us, u.nodeId = node) → (db.insertFixes us).nodes node = none) ∧
    ∀ us', us.Perm us' → (∀ node, MaxAttainedOnce Uplink.tsMs (ofNode node us)) →
      (db.insertFixes us').nodes = (db.insertFixes us).nodes := by
  obtain ⟨-, hnodes⟩ := insertFixes_spec hslots hempty hfit
  have hnil : ∀ node, ofNode node us = [] ↔ ¬ ∃ u ∈ us, u.nodeId = node := by
    intro node
    simp [ofNode, List.filter_eq_nil_iff]
  refine ⟨fun node hnode => ?_, fun node hnode => ?_, fun us' hperm honce => ?_⟩
  · cases hlast : lastMax Uplink.tsMs (ofNode node us) with
    | none => exact absurd hnode ((hnil node).mp (lastMax_eq_none.mp hlast))
    | some u => exact ⟨summaryOf u, by rw [hnodes, hlast]; rfl, summarises_of_lastMax hlast⟩
  · rw [hnodes, lastMax_eq_none.mpr ((hnil node).mpr hnode)]
    rfl
  · have hfit' : Fit us' := fun u hu => hfit u (hperm.mem_iff.mpr hu)
    funext node
    have hsame : lastMax Uplink.tsMs (ofNode node us) = lastMax Uplink.tsMs (ofNode node us') :=
      lastMax_perm (hperm.filter _) (honce node)
    rw [hnodes, (insertFixes_spec hslots hempty hfit').2, hsame]

/-- A fix of the node 1 with its time and its battery voltage. -/
def timedFix (tsMs batteryMv : ℤ) : Uplink :=
  { fixOfNode (tsMs / 1000) with tsMs := tsMs, batteryMv := batteryMv }

/-- The theorem at two fixes of one node that arrive in either order. -/
theorem insertFixes_nodes_two_orders :
    let us := [timedFix 1000 3700, timedFix 2000 3600]
    Db.empty.UniqueSlots ∧ Fit us ∧ Summarises 1 us (summaryOf (timedFix 2000 3600)) ∧
      (Db.empty.insertFixes us.reverse).nodes = (Db.empty.insertFixes us).nodes := by
  intro us
  have hfit : Fit us := by decide +kernel
  have honce : ∀ node, MaxAttainedOnce Uplink.tsMs (ofNode node us) := by
    intro node u hu v hv hle heq
    have hu' : u ∈ us := List.mem_of_mem_filter hu
    have hv' : v ∈ us := List.mem_of_mem_filter hv
    have hkeys : ∀ u ∈ us, ∀ v ∈ us, v.tsMs = u.tsMs → v = u := by decide +kernel
    exact hkeys u hu' v hv' heq
  obtain ⟨hrows, -, hperm⟩ :=
    insertFixes_nodes .empty uniqueSlots_empty (fun _ => rfl) us hfit
  obtain ⟨row, hrow, hsummary⟩ := hrows 1 ⟨timedFix 1000 3700, by decide +kernel⟩
  have hlast : (Db.empty.insertFixes us).nodes 1 = some (summaryOf (timedFix 2000 3600)) := rfl
  obtain rfl := Option.some.inj (hlast.symm.trans hrow)
  exact ⟨uniqueSlots_empty, hfit, hsummary, hperm _ us.reverse_perm.symm honce⟩

end SrtGateway.Store
