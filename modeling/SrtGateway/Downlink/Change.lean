/-
Change detection against the six documented fields.

The documentation says that the base is programmed again only when `slot_count`, `toa_ms`,
`guard_ms`, `frame_epoch_ms`, `armed` or the slots change: that is the `Programming` of a
document.  The fingerprint is that of the whole canonical state, `race_id` and `state`
included, so it identifies the programming just where these two do not tell the documents
apart (`identifies_iff`).
-/
import SrtGateway.Downlink.Boot
import SrtGateway.Downlink.Registers

namespace SrtGateway.Downlink

open SrtGateway.Json SrtGateway.Protocol

/-! ### The documented fields -/

/-- What the documentation calls the applied state; the order of the slots does not matter. -/
structure Programming where
  slotCount : ℤ
  toaMs : ℤ
  guardMs : ℤ
  frameEpochMs : ℤ
  armed : Bool
  slots : Multiset (ℤ × ℤ)
deriving DecidableEq

def intOf : Value → Option ℤ
  | .int n => some n
  | _ => none

/-- An integer field. -/
def intField (fields : List (PyStr × Value)) (key : String) : Option ℤ :=
  (lookup fields key).bind intOf

/-- An object with an integer `node_id` and an integer `slot`. -/
def slotOf : Value → Option (ℤ × ℤ)
  | .obj fields => do
    let nodeId ← intField fields "node_id"
    let slot ← intField fields "slot"
    return (nodeId, slot)
  | _ => none

/-- A list of slots. -/
def slotsOf : Option Value → Option (List (ℤ × ℤ))
  | some (.arr items) => items.mapM slotOf
  | _ => none

/-- A missing or null `frame_epoch_ms` counts as 0. -/
def epochOf : Option Value → Option ℤ
  | none => some 0
  | some .null => some 0
  | some v => intOf v

/-- The programming of a race document; `none` where it is not well-formed. -/
def programmingOf : Value → Option Programming
  | .obj fields => do
    let slotCount ← intField fields "slot_count"
    let toaMs ← intField fields "toa_ms"
    let guardMs ← intField fields "guard_ms"
    let frameEpochMs ← epochOf (lookup fields "frame_epoch_ms")
    let slots ← slotsOf (lookup fields "slots")
    return { slotCount := slotCount, toaMs := toaMs, guardMs := guardMs,
             frameEpochMs := frameEpochMs,
             armed := ((lookup fields "armed").getD (.bool false)).truthy, slots := slots }
  | _ => none

/-- The JSON texts of the `race_id` and the `state` of a document; a missing one is null. -/
def otherTexts : Value → List Char × List Char
  | .obj fields =>
    (dumps ((lookup fields "race_id").getD .null), dumps ((lookup fields "state").getD .null))
  | _ => (dumps .null, dumps .null)

/-! ### The canonical state of a well-formed document -/

lemma intOf_eq_some {v : Value} {n : ℤ} : intOf v = some n ↔ v = .int n := by
  cases v <;> simp [intOf]

lemma intField_eq_some {fields : List (PyStr × Value)} {key : String} {n : ℤ} :
    intField fields key = some n ↔ lookup fields key = some (.int n) := by
  simp [intField, Option.bind_eq_some_iff, intOf_eq_some]

lemma slotEntry_of_slotOf {v : Value} {p : ℤ × ℤ} (h : slotOf v = some p) :
    slotEntry v = .ok p := by
  cases v with
  | obj fields =>
    simp only [slotOf, Option.bind_eq_bind, Option.bind_eq_some_iff, intField_eq_some,
      Option.pure_def, Option.some.injEq] at h
    obtain ⟨nodeId, hnode, slot, hslot, rfl⟩ := h
    simp [slotEntry, Value.getItem, hnode, hslot, Value.toInt, bind, Except.bind, pure, Except.pure]
  | _ => simp [slotOf] at h

lemma mapM_slotEntry {items : List Value} {slots : List (ℤ × ℤ)}
    (h : items.mapM slotOf = some slots) : items.mapM slotEntry = .ok slots := by
  induction items generalizing slots with
  | nil =>
    obtain rfl : [] = slots := by simpa using h
    rfl
  | cons item items ih =>
    simp only [List.mapM_cons, Option.bind_eq_bind, Option.bind_eq_some_iff, Option.pure_def,
      Option.some.injEq] at h
    obtain ⟨p, hp, rest, hrest, rfl⟩ := h
    rw [List.mapM_cons, slotEntry_of_slotOf hp, ih hrest]
    rfl

lemma slotsOf_eq_some {v : Option Value} {slots : List (ℤ × ℤ)} (h : slotsOf v = some slots) :
    ∃ items, v = some (.arr items) ∧ items.mapM slotEntry = .ok slots := by
  unfold slotsOf at h
  split at h
  · exact ⟨_, rfl, mapM_slotEntry h⟩
  · cases h

lemma epochOf_eq_some {v : Option Value} {n : ℤ} (h : epochOf v = some n) :
    (if (v.getD .null).truthy then v.getD .null else .int 0).toInt = .ok n := by
  cases v with
  | none =>
    obtain rfl := Option.some.inj h
    rfl
  | some v =>
    cases v with
    | null =>
      obtain rfl := Option.some.inj h
      rfl
    | int m =>
      obtain rfl := Option.some.inj h
      by_cases hm : m = 0
      · simp [hm, Value.truthy, Value.toInt]
      · simp [hm, Value.truthy, Value.toInt]
    | _ => simp [epochOf, intOf] at h

/-- **A well-formed document has a canonical state**: its programming, with the slots sorted,
and the two other fields. -/
lemma canonicalState_of_programming {race : Value} {p : Programming}
    (h : programmingOf race = some p) :
    ∃ s, canonicalState race = .ok s ∧
      p = { slotCount := s.slotCount, toaMs := s.toaMs, guardMs := s.guardMs,
            frameEpochMs := s.frameEpochMs, armed := s.armed, slots := s.slots } ∧
      s.slots.Pairwise (fun a b => toLex a ≤ toLex b) ∧
      otherTexts race = (dumps s.raceId, dumps s.state) := by
  cases race with
  | obj fields =>
    simp only [programmingOf, Option.bind_eq_bind, Option.bind_eq_some_iff, intField_eq_some,
      Option.pure_def, Option.some.injEq] at h
    obtain ⟨slotCount, hcount, toaMs, htoa, guardMs, hguard, epoch, hepoch, slots, hslots, rfl⟩ := h
    obtain ⟨items, hitems, hmap⟩ := slotsOf_eq_some hslots
    set s : State :=
      { raceId := (lookup fields "race_id").getD .null,
        state := (lookup fields "state").getD .null,
        armed := ((lookup fields "armed").getD (.bool false)).truthy,
        slotCount := slotCount, toaMs := toaMs, guardMs := guardMs, frameEpochMs := epoch,
        slots := sortSlots slots }
    have hs : canonicalState (.obj fields) = .ok s := by
      have hint : ∀ n, (Value.int n).toInt = .ok n := fun _ => rfl
      simp only [canonicalState, hcount, htoa, hguard, hitems, Option.getD_some, Value.iterate,
        hint, epochOf_eq_some hepoch]
      simp only [bind, Except.bind, pure, Except.pure, hmap, s]
    have hslots : (slots : Multiset (ℤ × ℤ)) = sortSlots slots :=
      Multiset.coe_eq_coe.mpr (List.perm_insertionSort _ slots).symm
    refine ⟨s, hs, by simp only [s, hslots], List.pairwise_insertionSort _ slots, rfl⟩
  | _ => simp [programmingOf] at h

/-! ### What the fingerprint identifies -/

/-- Sorted lists are equal if they have the same slots. -/
lemma eq_of_sorted {slots slots' : List (ℤ × ℤ)}
    (h : slots.Pairwise fun a b => toLex a ≤ toLex b)
    (h' : slots'.Pairwise fun a b => toLex a ≤ toLex b)
    (hperm : (slots : Multiset (ℤ × ℤ)) = slots') : slots = slots' := by
  refine List.Perm.eq_of_pairwise (fun a b _ _ hab hba => ?_) h h' (Multiset.coe_eq_coe.mp hperm)
  exact toLex.injective (le_antisymm hab hba)

variable {race race' : Value} {p p' : Programming}

/-- **The fingerprint identifies the programming and the two other texts.** -/
lemma fingerprint_eq_iff_programming (h : programmingOf race = some p)
    (h' : programmingOf race' = some p') {s s' : State} (hs : canonicalState race = .ok s)
    (hs' : canonicalState race' = .ok s') :
    fingerprint s = fingerprint s' ↔ p = p' ∧ otherTexts race = otherTexts race' := by
  obtain ⟨s₀, hs₀, rfl, hsorted, htexts⟩ := canonicalState_of_programming h
  obtain ⟨s₀', hs₀', rfl, hsorted', htexts'⟩ := canonicalState_of_programming h'
  obtain rfl := Except.ok.inj (hs.symm.trans hs₀)
  obtain rfl := Except.ok.inj (hs'.symm.trans hs₀')
  rw [fingerprint_eq_iff, htexts, htexts']
  simp only [Programming.mk.injEq, Prod.mk.injEq]
  constructor
  · rintro ⟨harmed, hcount, htoa, hguard, hepoch, hslots, hrace, hstate⟩
    exact ⟨⟨hcount, htoa, hguard, hepoch, harmed, by rw [hslots]⟩, hrace, hstate⟩
  · rintro ⟨⟨hcount, htoa, hguard, hepoch, harmed, hslots⟩, hrace, hstate⟩
    have hslots := eq_of_sorted hsorted hsorted' hslots
    exact ⟨harmed, hcount, htoa, hguard, hepoch, hslots, hrace, hstate⟩

/-- The fingerprint identifies exactly the programming of the two documents, and a poll that
finds the second one after the first has been applied sends nothing if that has not changed. -/
structure Identifies (race race' : Value) : Prop where
  fingerprint : ∀ s s', canonicalState race = .ok s → canonicalState race' = .ok s' →
    (fingerprint s = fingerprint s' ↔ programmingOf race = programmingOf race')
  poll : programmingOf race = programmingOf race' → ∀ (d : CloudDownlinker) (env : PollEnv) (s),
    canonicalState race = .ok s → d.cached = some (Downlink.fingerprint s) →
      (fetchRace env.get).1 = some race' → (d.pollOnce false env).sent = []

/-- A poll that fetches a document with the cached fingerprint sends nothing. -/
lemma pollOnce_sent_nil {d : CloudDownlinker} {env : PollEnv} {s : State}
    (hs : canonicalState race = .ok s) (hcached : d.cached = some (fingerprint s))
    (hfetch : (fetchRace env.get).1 = some race) : (d.pollOnce false env).sent = [] := by
  have hstate : ∀ state, env.fetched = some state → state = s := by
    intro state hfetched
    obtain ⟨race₀, err, hget, hcanonical, -⟩ := fetched_eq_some hfetched
    rw [hget] at hfetch
    obtain rfl := Option.some.inj hfetch
    exact Except.ok.inj (hcanonical.symm.trans hs)
  cases pollOnce_cases d false env with
  | nothing _ _ _ hsent => exact hsent
  | unchanged _ _ _ _ _ hsent => exact hsent
  | sending state _ hfetched _ hdiffers =>
    rw [hstate state hfetched] at hdiffers
    exact absurd hcached (hdiffers rfl)

/-- **Change detection is exact** for two well-formed documents just when documents with the
same programming have the same `race_id` and `state`. -/
theorem identifies_iff (race race' : Value) (h : (programmingOf race).isSome)
    (h' : (programmingOf race').isSome) :
    (∃ s, canonicalState race = .ok s) ∧ (∃ s, canonicalState race' = .ok s) ∧
      (Identifies race race' ↔
        (programmingOf race = programmingOf race' → otherTexts race = otherTexts race')) := by
  obtain ⟨p, hp⟩ := Option.isSome_iff_exists.mp h
  obtain ⟨p', hp'⟩ := Option.isSome_iff_exists.mp h'
  obtain ⟨s, hs, -⟩ := canonicalState_of_programming hp
  obtain ⟨s', hs', -⟩ := canonicalState_of_programming hp'
  have hiff := fingerprint_eq_iff_programming hp hp' hs hs'
  have hsame : programmingOf race = programmingOf race' ↔ p = p' := by
    rw [hp, hp', Option.some.injEq]
  refine ⟨⟨s, hs⟩, ⟨s', hs'⟩, fun hidentifies hprog => ?_, fun htexts => ⟨?_, ?_⟩⟩
  · exact (hiff.mp ((hidentifies.fingerprint s s' hs hs').mpr hprog)).2
  · intro s₀ s₀' hs₀ hs₀'
    obtain rfl := Except.ok.inj (hs.symm.trans hs₀)
    obtain rfl := Except.ok.inj (hs'.symm.trans hs₀')
    rw [hiff, hsame]
    exact and_iff_left_of_imp fun heq => htexts (hsame.mpr heq)
  · intro hprog d env s₀ hs₀ hcached hfetch
    obtain rfl := Except.ok.inj (hs.symm.trans hs₀)
    rw [hiff.mpr ⟨hsame.mp hprog, htexts hprog⟩] at hcached
    exact pollOnce_sent_nil hs' hcached hfetch

/-! ### Another race with the same programming -/

/-- A race with one slot. -/
def raceWithSlot (raceId : ℤ) : Value :=
  .obj [(pyStr "race_id", .int raceId), (pyStr "armed", .bool true),
    (pyStr "slot_count", .int 1), (pyStr "toa_ms", .int 200), (pyStr "guard_ms", .int 50),
    (pyStr "frame_epoch_ms", .null),
    (pyStr "slots", .arr [.obj [(pyStr "node_id", .int 1), (pyStr "slot", .int 0)]])]

/-- Its canonical state. -/
def stateWithSlot (raceId : ℤ) : State :=
  { raceId := .int raceId, state := .null, armed := true, slotCount := 1, toaMs := 200,
    guardMs := 50, frameEpochMs := 0, slots := [(1, 0)] }

/-- The document of the race 8 is served and everything works. -/
def servesRaceEight : PollEnv :=
  { serves 0 with get := .ok ⟨200, .ok (raceWithSlot 8)⟩ }

/-- When only the `race_id` changes, the fingerprint changes and the base is programmed again. -/
theorem reprograms_for_race_id :
    programmingOf (raceWithSlot 7) = programmingOf (raceWithSlot 8) ∧
      ¬ Identifies (raceWithSlot 7) (raceWithSlot 8) ∧
        ((CloudDownlinker.new (some (fingerprint (stateWithSlot 7)))).pollOnce false
          servesRaceEight).sent.length = 4 := by
  have hsame : programmingOf (raceWithSlot 7) = programmingOf (raceWithSlot 8) := by
    decide +kernel
  refine ⟨hsame, fun hidentifies => ?_, by decide +kernel⟩
  have heq : fingerprint (stateWithSlot 7) = fingerprint (stateWithSlot 8) :=
    (hidentifies.fingerprint _ _ rfl rfl).mpr hsame
  exact absurd heq (by decide +kernel)

/-- The theorem at two races with different ids. -/
theorem identifies_iff_two_races :
    (programmingOf (raceWithSlot 7)).isSome ∧ (programmingOf (raceWithSlot 8)).isSome ∧
      (Identifies (raceWithSlot 7) (raceWithSlot 8) ↔
        (programmingOf (raceWithSlot 7) = programmingOf (raceWithSlot 8) →
          otherTexts (raceWithSlot 7) = otherTexts (raceWithSlot 8))) :=
  ⟨by decide +kernel, by decide +kernel,
    (identifies_iff (raceWithSlot 7) (raceWithSlot 8) (by decide +kernel) (by decide +kernel)).2.2⟩

end SrtGateway.Downlink
