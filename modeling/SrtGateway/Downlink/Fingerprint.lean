/-
What a fingerprint determines.

Two states with the same fingerprint agree in every field that goes into a frame, so the
base is programmed with the same four frames for both (`buildFrames_eq_of_fingerprint`).
The other two fields, `race_id` and `state`, agree in their text.
-/
import SrtGateway.Downlink.Poll

namespace SrtGateway.Downlink

open SrtGateway.Json SrtGateway.Protocol

/-- The text of a slot list. -/
def slotTexts (slots : List (ℤ × ℤ)) : List (List Char) :=
  slots.map fun (nodeId, slot) => arrText [intText nodeId, intText slot]

/-- The members of a state's text, in the order of their keys. -/
def State.members (s : State) : List (PyStr × List Char) :=
  [(pyStr "armed", dumps (.bool s.armed)), (pyStr "frame_epoch_ms", intText s.frameEpochMs),
    (pyStr "guard_ms", intText s.guardMs), (pyStr "race_id", dumps s.raceId),
    (pyStr "slot_count", intText s.slotCount), (pyStr "slots", arrText (slotTexts s.slots)),
    (pyStr "state", dumps s.state), (pyStr "toa_ms", intText s.toaMs)]

/-- The keys of a state, sorted. -/
lemma sortKeys_state (a b c d e f g h : List Char) :
    sortKeys [(pyStr "race_id", a), (pyStr "state", b), (pyStr "armed", c),
        (pyStr "slot_count", d), (pyStr "toa_ms", e), (pyStr "guard_ms", f),
        (pyStr "frame_epoch_ms", g), (pyStr "slots", h)] =
      [(pyStr "armed", c), (pyStr "frame_epoch_ms", g), (pyStr "guard_ms", f),
        (pyStr "race_id", a), (pyStr "slot_count", d), (pyStr "slots", h), (pyStr "state", b),
        (pyStr "toa_ms", e)] := by
  rfl

lemma fingerprint_eq (s : State) : fingerprint s = objText s.members := by
  have hslots : (s.slots.map fun (nodeId, slot) => Value.arr [.int nodeId, .int slot]).map dumps =
      slotTexts s.slots := by
    simp [slotTexts, dumps_arr, dumps_int]
  rw [fingerprint, State.toJson, dumps_obj]
  simp only [List.map_cons, List.map_nil, dumps_int, dumps_arr, hslots, sortKeys_state,
    State.members]

lemma slotTexts_closed (slots : List (ℤ × ℤ)) : ∀ t ∈ slotTexts slots, Closed t := by
  intro t ht
  obtain ⟨p, _, rfl⟩ := List.mem_map.mp ht
  exact arrText_closed (by simp [intText_closed])

lemma members_closed (s : State) : ∀ m ∈ s.members, Closed m.2 := by
  simp [State.members, dumps_closed, intText_closed, arrText_closed (slotTexts_closed s.slots)]

lemma slotTexts_inj {slots slots' : List (ℤ × ℤ)} (h : slotTexts slots = slotTexts slots') :
    slots = slots' := by
  refine List.map_injective_iff.mpr ?_ h
  intro p q hpq
  have hpair := arrText_inj (by simp [intText_closed]) (by simp [intText_closed]) hpq
  simp only [List.cons.injEq, and_true] at hpair
  exact Prod.ext (intText_inj hpair.1) (intText_inj hpair.2)

lemma dumps_bool_inj {a b : Bool} (h : dumps (.bool a) = dumps (.bool b)) : a = b := by
  cases a <;> cases b <;> simp [dumps] at h ⊢

/-- Two states that put the same numbers into the frames, and whose other fields have the
same text. -/
structure SameProgram (s s' : State) : Prop where
  armed : s.armed = s'.armed
  slotCount : s.slotCount = s'.slotCount
  toaMs : s.toaMs = s'.toaMs
  guardMs : s.guardMs = s'.guardMs
  frameEpochMs : s.frameEpochMs = s'.frameEpochMs
  slots : s.slots = s'.slots
  raceId : dumps s.raceId = dumps s'.raceId
  state : dumps s.state = dumps s'.state

/-- **The fingerprint identifies the programming.** -/
theorem fingerprint_eq_iff {s s' : State} :
    fingerprint s = fingerprint s' ↔ SameProgram s s' := by
  rw [fingerprint_eq, fingerprint_eq]
  constructor
  · intro h
    have hkeys : s.members.map Prod.fst = s'.members.map Prod.fst := rfl
    have hm := objText_inj hkeys (members_closed s) (members_closed s') h
    simp only [State.members, List.cons.injEq, Prod.mk.injEq, true_and, and_true] at hm
    obtain ⟨harmed, hepoch, hguard, hrace, hcount, hslots, hstate, htoa⟩ := hm
    exact ⟨dumps_bool_inj harmed, intText_inj hcount, intText_inj htoa, intText_inj hguard,
      intText_inj hepoch,
      slotTexts_inj (arrText_inj (slotTexts_closed _) (slotTexts_closed _) hslots), hrace, hstate⟩
  · rintro ⟨harmed, hcount, htoa, hguard, hepoch, hslots, hrace, hstate⟩
    simp only [State.members, harmed, hcount, htoa, hguard, hepoch, hslots, hrace, hstate]

/-- States with the same fingerprint have the same frames. -/
lemma buildFrames_eq_of_fingerprint {s s' : State} (h : fingerprint s = fingerprint s') :
    buildFrames s = buildFrames s' := by
  obtain ⟨harmed, hcount, htoa, hguard, hepoch, hslots, -, -⟩ := fingerprint_eq_iff.mp h
  simp only [buildFrames, harmed, hcount, htoa, hguard, hepoch, hslots]

end SrtGateway.Downlink
