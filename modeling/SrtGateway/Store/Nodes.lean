/-
The `nodes` table and its two writers.

`insert_fix` lets a node's summary advance only, by comparisons that are not true of NULLs;
`upsert_node` overwrites whatever it is given.  So the liveness of the nodes goes forward in a
run just when neither the NULLs nor the overwriting get in its way
(`liveness_forward_iff`): no fix is inserted for a node whose `last_seen` is NULL, and no
`last_seen` is given that is older than the recorded one.
-/
import SrtGateway.Store.Connection
import SrtGateway.Store.Inserts

namespace SrtGateway.Store

open SrtGateway.Protocol

/-! ### `upsert_node` -/

/-- The integer parameters of the statement; a field that is not given is bound as NULL. -/
def upsertParams (nodeId : ℤ) (given : NodeRow) : List ℤ :=
  nodeId :: [given.slot, given.lastSeen, given.lastBatteryMv, given.lastRssi].reduceOption

/-- `upsert_node`; only the given fields overwrite. -/
def Db.upsertNode (db : Db) (nodeId : ℤ) (given : NodeRow) : Except PyErr Db := do
  bindParams (upsertParams nodeId given)
  let row := match db.nodes nodeId with
    | none => given
    | some old =>
      { slot := given.slot.or old.slot, lastSeen := given.lastSeen.or old.lastSeen,
        lastBatteryMv := given.lastBatteryMv.or old.lastBatteryMv,
        lastRssi := given.lastRssi.or old.lastRssi, fwVersion := given.fwVersion.or old.fwVersion }
  .ok { db with nodes := Function.update db.nodes nodeId (some row) }

/-- The node's `last_seen`, if it has a row and the field is set. -/
def Db.lastSeen (db : Db) (node : ℤ) : Option ℤ := (db.nodes node).bind NodeRow.lastSeen

/-! ### Runs -/

/-- An operation on the store. -/
inductive StoreOp where
  | op (o : Op)
  | upsertNode (nodeId : ℤ) (given : NodeRow)

/-- An operation that raises changes nothing. -/
def StoreOp.apply (db : Db) : StoreOp → Db
  | .op o => o.apply db
  | .upsertNode nodeId given =>
    match db.upsertNode nodeId given with
    | .ok db' => db'
    | .error _ => db

/-- The store after some operations. -/
def Db.run (db : Db) (ops : List StoreOp) : Db := ops.foldl StoreOp.apply db

/-- The stores of gateways. -/
def Reachable (db : Db) : Prop := ∃ ops, Db.empty.run ops = db

lemma Db.run_append (db : Db) (ops ops' : List StoreOp) :
    db.run (ops ++ ops') = (db.run ops).run ops' := List.foldl_append

lemma Db.run_concat (db : Db) (ops : List StoreOp) (op : StoreOp) :
    db.run (ops ++ [op]) = op.apply (db.run ops) := Db.run_append ..

lemma exec_fixes_map (w : Write) (db : Db) : ∃ f : FixRow → FixRow,
    (∀ r, (f r).nodeId = r.nodeId ∧ (f r).seq = r.seq ∧ (f r).id = r.id ∧ (f r).tsMs = r.tsMs) ∧
      (w.exec db).fixes = db.fixes.map f := by
  cases w with
  | markSynced ids =>
    refine ⟨fun r => if r.id ∈ ids then { r with synced := true } else r, fun r => ?_, rfl⟩
    dsimp only
    split
    · exact ⟨rfl, rfl, rfl, rfl⟩
    · exact ⟨rfl, rfl, rfl, rfl⟩
  | _ => exact ⟨id, fun _ => ⟨rfl, rfl, rfl, rfl⟩, (List.map_id _).symm⟩

lemma exec_nodes (w : Write) (db : Db) : (w.exec db).nodes = db.nodes := by
  cases w <;> rfl

lemma apply_upsertNode_fixes (db : Db) (nodeId : ℤ) (given : NodeRow) :
    ((StoreOp.upsertNode nodeId given).apply db).fixes = db.fixes := by
  rw [StoreOp.apply]
  split
  · rename_i h
    obtain ⟨_, -, h⟩ := bind_eq_ok.mp h
    rw [← Except.ok.inj h]
  · rfl

lemma Db.UniqueSlots.apply {db : Db} (h : db.UniqueSlots) (op : StoreOp) :
    (op.apply db).UniqueSlots := by
  cases op with
  | upsertNode nodeId given => exact h.congr (apply_upsertNode_fixes db nodeId given)
  | op o =>
    cases o with
    | insertFix u => exact h.insertFix u
    | write w =>
      obtain ⟨f, hf, hfixes⟩ := exec_fixes_map w db
      exact h.map (fun r => (hf r).1) (fun r => .inl (hf r).2.1) hfixes

lemma Db.UniqueSlots.run {db : Db} (h : db.UniqueSlots) (ops : List StoreOp) :
    (db.run ops).UniqueSlots := by
  induction ops using List.reverseRecOn with
  | nil => exact h
  | append_singleton ops op ih =>
    rw [Db.run_concat]
    exact ih.apply op

lemma Reachable.uniqueSlots {db : Db} (h : Reachable db) : db.UniqueSlots := by
  obtain ⟨ops, rfl⟩ := h
  exact uniqueSlots_empty.run ops

/-! ### Liveness -/

/-- No `last_seen` that is set decreases from `db` to `db'`. -/
def Forward (db db' : Db) : Prop :=
  ∀ node t, db.lastSeen node = some t → ∃ t', db'.lastSeen node = some t' ∧ t ≤ t'

/-- The node of a fix has been credited with it. -/
structure Credited (db : Db) (u : Uplink) (db' : Db) : Prop where
  seen : ∃ t, db'.lastSeen u.nodeId = some t ∧ u.tsMs ≤ t
  newest : (∀ t, db.lastSeen u.nodeId = some t → t ≤ u.tsMs) →
    ∃ row, db'.nodes u.nodeId = some row ∧ row.lastBatteryMv = some u.batteryMv ∧
      row.lastRssi = some u.rssiDbm

/-- In a run the liveness of the nodes goes forward. -/
structure LivenessForward (db : Db) (ops : List StoreOp) : Prop where
  forward : ∀ before between after, ops = before ++ between ++ after →
    Forward (db.run before) (db.run (before ++ between))
  credited : ∀ before u after, ops = before ++ .op (.insertFix u) :: after →
    (∃ inserted, ((db.run before).insertFix u).1 = .ok inserted) →
      Credited (db.run before) u ((db.run before).insertFix u).2

/-- Neither NULLs nor overwriting get in the way of this operation. -/
def Harmless (db : Db) : StoreOp → Prop
  | .op (.insertFix u) =>
    db.CanBind u → ∀ row, db.nodes u.nodeId = some row → row.lastSeen ≠ none
  | .op (.write _) => True
  | .upsertNode nodeId given =>
    (∀ n ∈ upsertParams nodeId given, -2 ^ 63 ≤ n ∧ n < 2 ^ 63) →
      ∀ t t', db.lastSeen nodeId = some t → given.lastSeen = some t' → t ≤ t'

lemma Forward.refl (db : Db) : Forward db db := fun _ t h => ⟨t, h, le_rfl⟩

lemma Forward.trans {db db' db'' : Db} (h : Forward db db') (h' : Forward db' db'') :
    Forward db db'' := by
  intro node t ht
  obtain ⟨t', ht', hle⟩ := h node t ht
  obtain ⟨t'', ht'', hle'⟩ := h' node t' ht'
  exact ⟨t'', ht'', hle.trans hle'⟩

/-- Only one node's row changes, and its `last_seen` goes forward. -/
lemma Forward.update {db db' : Db} {node : ℤ} {row : NodeRow}
    (hnodes : db'.nodes = Function.update db.nodes node (some row))
    (hrow : ∀ t, db.lastSeen node = some t → ∃ t', row.lastSeen = some t' ∧ t ≤ t') :
    Forward db db' := by
  intro n t ht
  by_cases hn : n = node
  · obtain rfl := hn
    obtain ⟨t', ht', hle⟩ := hrow t ht
    exact ⟨t', by rw [Db.lastSeen, hnodes, Function.update_self]; exact ht', hle⟩
  · exact ⟨t, by rwa [Db.lastSeen, hnodes, Function.update_of_ne hn], le_rfl⟩

/-! ### A fix -/

lemma nodeFromFix_lastSeen_none {old : Option NodeRow} {u : Uplink}
    (h : old.bind NodeRow.lastSeen = none) (hrow : ∀ row, old = some row → row.lastSeen ≠ none) :
    (nodeFromFix old u).lastSeen = some u.tsMs ∧
      (nodeFromFix old u).lastBatteryMv = some u.batteryMv ∧
      (nodeFromFix old u).lastRssi = some u.rssiDbm := by
  cases old with
  | none => exact ⟨rfl, rfl, rfl⟩
  | some row => exact absurd h (hrow row rfl)

lemma nodeFromFix_lastSeen_some {old : Option NodeRow} {u : Uplink} {t : ℤ}
    (h : old.bind NodeRow.lastSeen = some t) :
    (nodeFromFix old u).lastSeen = some (max t u.tsMs) ∧
      (t ≤ u.tsMs → (nodeFromFix old u).lastBatteryMv = some u.batteryMv ∧
        (nodeFromFix old u).lastRssi = some u.rssiDbm) := by
  cases old with
  | none => cases h
  | some row =>
    have hrow : row.lastSeen = some t := h
    exact ⟨by simp [nodeFromFix, hrow], fun hle => by simp [nodeFromFix, hrow, hle]⟩

variable {db : Db} {u : Uplink} {inserted : Bool}

/-- The row of the node after a fix. -/
lemma nodes_insertFix (h : (db.insertFix u).1 = .ok inserted) :
    (db.insertFix u).2.nodes u.nodeId = some (nodeFromFix (db.nodes u.nodeId) u) := by
  rw [insertFix_nodes h, Function.update_self]

/-- A fix takes no node's liveness back. -/
lemma insertFix_forward (db : Db) (u : Uplink) : Forward db (db.insertFix u).2 := by
  cases hok : (db.insertFix u).1 with
  | error x =>
    have hsame : (db.insertFix u).2 = db := by
      rcases hcase : db.insertFix u with ⟨outcome, db'⟩
      cases hcase ▸ insertFix_cases db u with
      | raised => rfl
      | resend | fresh | wrapped => simp [hcase] at hok
    rw [hsame]
    exact .refl db
  | ok inserted =>
    refine .update (insertFix_nodes hok) fun t ht => ?_
    exact ⟨_, (nodeFromFix_lastSeen_some ht).1, le_max_left _ _⟩

/-- **A fix is credited to its node** unless the node has a row whose `last_seen` is NULL. -/
lemma credited_iff (h : (db.insertFix u).1 = .ok inserted) :
    Credited db u (db.insertFix u).2 ↔
      ∀ row, db.nodes u.nodeId = some row → row.lastSeen ≠ none := by
  have hnode := nodes_insertFix h
  constructor
  · rintro ⟨⟨t, hseen, -⟩, -⟩ row hrow hnull
    rw [Db.lastSeen, hnode, hrow, Option.bind_some, nodeFromFix, hnull] at hseen
    cases hseen
  · intro hrow
    cases hlast : db.lastSeen u.nodeId with
    | none =>
      obtain ⟨hseen, hbattery, hrssi⟩ := nodeFromFix_lastSeen_none hlast hrow (u := u)
      exact ⟨⟨u.tsMs, by rw [Db.lastSeen, hnode]; exact hseen, le_rfl⟩,
        fun _ => ⟨_, hnode, hbattery, hrssi⟩⟩
    | some t =>
      obtain ⟨hseen, hnewest⟩ := nodeFromFix_lastSeen_some hlast (u := u)
      exact ⟨⟨max t u.tsMs, by rw [Db.lastSeen, hnode]; exact hseen, le_max_right _ _⟩,
        fun hle => ⟨_, hnode, hnewest (hle t hlast)⟩⟩

/-! ### An upsert -/

/-- An upsert that can be bound. -/
lemma upsertNode_nodes (db : Db) {nodeId : ℤ} {given : NodeRow}
    (h : ∀ n ∈ upsertParams nodeId given, -2 ^ 63 ≤ n ∧ n < 2 ^ 63) :
    ∃ row, ((StoreOp.upsertNode nodeId given).apply db).nodes =
        Function.update db.nodes nodeId (some row) ∧
      row.lastSeen = given.lastSeen.or (db.lastSeen nodeId) := by
  rw [StoreOp.apply, Db.upsertNode, bindParams_eq_ok (x := ()) |>.mpr h]
  refine ⟨_, rfl, ?_⟩
  cases hrow : db.nodes nodeId with
  | none => simp [Db.lastSeen, hrow]
  | some old => simp [Db.lastSeen, hrow]

lemma upsertNode_raises {db : Db} {nodeId : ℤ} {given : NodeRow}
    (h : ¬ ∀ n ∈ upsertParams nodeId given, -2 ^ 63 ≤ n ∧ n < 2 ^ 63) :
    (StoreOp.upsertNode nodeId given).apply db = db := by
  rw [StoreOp.apply]
  cases hupsert : db.upsertNode nodeId given with
  | error x => rfl
  | ok db' =>
    obtain ⟨_, hbind, -⟩ := bind_eq_ok.mp hupsert
    exact absurd (bindParams_ok hbind) h

/-- **An upsert takes a node's liveness back** just when it gives an older `last_seen`. -/
lemma upsertNode_forward_iff (db : Db) (nodeId : ℤ) (given : NodeRow) :
    Forward db ((StoreOp.upsertNode nodeId given).apply db) ↔
      Harmless db (.upsertNode nodeId given) := by
  by_cases hfit : ∀ n ∈ upsertParams nodeId given, -2 ^ 63 ≤ n ∧ n < 2 ^ 63
  · obtain ⟨row, hnodes, hlast⟩ := upsertNode_nodes db hfit
    constructor
    · intro hforward _ t t' ht hgiven
      obtain ⟨t'', ht'', hle⟩ := hforward nodeId t ht
      rw [Db.lastSeen, hnodes, Function.update_self, Option.bind_some, hlast, hgiven,
        Option.some_or] at ht''
      rwa [Option.some.inj ht'']
    · intro hharmless
      refine .update hnodes fun t ht => ?_
      rw [hlast, ht]
      cases hgiven : given.lastSeen with
      | none => exact ⟨t, rfl, le_rfl⟩
      | some t' => exact ⟨t', rfl, hharmless hfit t t' ht hgiven⟩
  · rw [upsertNode_raises hfit]
    exact iff_of_true (.refl db) fun h => absurd h hfit

/-! ### Runs -/

lemma Harmless.forward {db : Db} {op : StoreOp} (h : Harmless db op) :
    Forward db (op.apply db) := by
  cases op with
  | upsertNode nodeId given => exact (upsertNode_forward_iff db nodeId given).mpr h
  | op o =>
    cases o with
    | insertFix u => exact insertFix_forward db u
    | write w =>
      have hsame : ((StoreOp.op (.write w)).apply db).nodes = db.nodes := exec_nodes w db
      exact fun node t ht => ⟨t, by rwa [Db.lastSeen, hsame], le_rfl⟩

/-- **Node liveness never goes backwards** in a run, and every fix is credited to its node,
just when every operation of the run is harmless where it comes. -/
theorem liveness_forward_iff (db : Db) (hdb : db.UniqueSlots) (ops : List StoreOp) :
    LivenessForward db ops ↔
      ∀ before op after, ops = before ++ op :: after → Harmless (db.run before) op := by
  constructor
  · intro h before op after hops
    cases op with
    | upsertNode nodeId given =>
      have hstep := h.forward before [.upsertNode nodeId given] after (by rw [hops]; simp)
      rw [Db.run_concat] at hstep
      exact (upsertNode_forward_iff _ nodeId given).mp hstep
    | op o =>
      cases o with
      | insertFix u =>
        intro hfit
        obtain ⟨inserted, hok⟩ := (insertFix_ok_iff (hdb.run before) u).mpr hfit
        exact (credited_iff hok).mp (h.credited before u after hops ⟨inserted, hok⟩)
      | write w => trivial
  · intro h
    constructor
    · intro before between after hops
      induction between using List.reverseRecOn generalizing after with
      | nil =>
        rw [List.append_nil]
        exact .refl _
      | append_singleton between op ih =>
        have hrest : ops = before ++ between ++ op :: after := by rw [hops]; simp
        rw [← List.append_assoc, Db.run_concat]
        exact (ih _ hrest).trans (h _ op after hrest).forward
    · rintro before u after hops ⟨inserted, hok⟩
      have hfit := (insertFix_ok_iff (hdb.run before) u).mp ⟨inserted, hok⟩
      exact (credited_iff hok).mpr (h before _ after hops hfit)

/-! ### Going backwards -/

/-- A fix of the node 1. -/
def recentFix : StoreOp :=
  .op (.insertFix { fixOfNode 5 with gpsTime := 1700000000, tsMs := 1700000000000 })

/-- What an entry of NODE_STATS makes of the node 1, last heard at the given time. -/
def heardAt (lastSeen : Option ℤ) : StoreOp :=
  .upsertNode 1 { slot := none, lastSeen := lastSeen, lastBatteryMv := none,
                  lastRssi := some (-80), fwVersion := none }

/-- After a fix an entry with an older time takes the node's `last_seen` back; after a node has
got a row without a `last_seen`, a fix does not set it. -/
theorem liveness_goes_backwards :
    ¬ LivenessForward .empty [recentFix, heardAt (some 5000)] ∧
      ¬ LivenessForward .empty [heardAt none, recentFix] := by
  constructor
  · intro h
    obtain ⟨t, ht, hle⟩ := h.forward [recentFix] [heardAt (some 5000)] [] rfl 1 1700000000000
      (by decide +kernel)
    have hback : (Db.empty.run [recentFix, heardAt (some 5000)]).lastSeen 1 = some 5000 := by
      decide +kernel
    obtain rfl : t = 5000 := Option.some.inj (ht.symm.trans hback)
    exact absurd hle (by decide)
  · intro h
    have hreturns : ((Db.empty.run [heardAt none]).insertFix
        { fixOfNode 5 with gpsTime := 1700000000, tsMs := 1700000000000 }).1 = .ok true := by
      decide +kernel
    obtain ⟨⟨t, ht, -⟩, -⟩ := h.credited [heardAt none] _ [] rfl ⟨true, hreturns⟩
    have hnull : (Db.empty.run [heardAt none, recentFix]).lastSeen 1 = none := by decide +kernel
    exact Option.some_ne_none t (ht.symm.trans hnull)

/-- The theorem at a run in which the entry is not older. -/
theorem liveness_forward_heard_later :
    LivenessForward .empty [recentFix, heardAt (some 1700000060000)] ↔
      ∀ before op after, [recentFix, heardAt (some 1700000060000)] = before ++ op :: after →
        Harmless (Db.empty.run before) op :=
  liveness_forward_iff .empty uniqueSlots_empty _

end SrtGateway.Store
