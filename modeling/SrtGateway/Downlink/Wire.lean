/-
What the radio reads from the four frames of a state.

The payloads are unpacked by the layouts that the encoders document.  The encoders mask their
fields, so the radio reads the values of the state exactly when they fit the fields
(`conveys_iff`), and nothing else keeps a poll from reporting that it has applied the
state.
-/
import SrtGateway.Downlink.Registers

namespace SrtGateway.Downlink

open SrtGateway.Json SrtGateway.Protocol SrtGateway.Bytes

/-! ### The payloads -/

/-- `u8 slot_count, u16 toa_ms, u16 guard_ms`. -/
def unpackTiming (payload : List UInt8) : Option (ℕ × ℕ × ℕ) :=
  if payload.length = 5 then
    some (unpackLE (slice payload 0 1), unpackLE (slice payload 1 3), unpackLE (slice payload 3 5))
  else none

/-- `u64` milliseconds. -/
def unpackEpoch (payload : List UInt8) : Option ℕ :=
  if payload.length = 8 then some (unpackLE payload) else none

/-- `count` times `(u16 node_id, u8 slot)`, which fill the bytes. -/
def unpackEntries : ℕ → List UInt8 → Option (List (ℕ × ℕ))
  | 0, [] => some []
  | count + 1, b0 :: b1 :: b2 :: rest =>
    (unpackEntries count rest).map fun entries => (unpackLE [b0, b1], b2.toNat) :: entries
  | _, _ => none

/-- `u8 count`, then the entries. -/
def unpackSlotmap : List UInt8 → Option (List (ℕ × ℕ))
  | [] => none
  | count :: rest => unpackEntries count.toNat rest

/-- One byte, 1 for armed and 0 for disarmed. -/
def unpackArmed : List UInt8 → Option Bool
  | [b] => if b = 1 then some true else if b = 0 then some false else none
  | _ => none

/-- The four frames, in their order, are all that a parser finds in the sent bytes, and their
payloads hold the values of the state. -/
def Conveys (sent : List (List UInt8)) (s : State) : Prop :=
  ∃ timing epoch slotmap armed,
    (FrameParser.new.push sent.flatten).1 =
      [(UInt8.ofNat T_SET_TIMING, timing), (UInt8.ofNat T_SET_EPOCH, epoch),
        (UInt8.ofNat T_SET_SLOTMAP, slotmap), (UInt8.ofNat T_SET_ARMED, armed)] ∧
    (unpackTiming timing).map (fun (n, toa, guard) => ((n : ℤ), (toa : ℤ), (guard : ℤ))) =
      some (s.slotCount, s.toaMs, s.guardMs) ∧
    (unpackEpoch epoch).map (fun n : ℕ => (n : ℤ)) = some s.frameEpochMs ∧
    (unpackSlotmap slotmap).map (List.map fun (node, slot) => ((node : ℤ), (slot : ℤ))) =
      some s.slots ∧
    unpackArmed armed = some s.armed

/-- The values fit the fields of the frames. -/
structure State.Fits (s : State) : Prop where
  slotCount : 0 ≤ s.slotCount ∧ s.slotCount < 2 ^ 8
  toaMs : 0 ≤ s.toaMs ∧ s.toaMs < 2 ^ 16
  guardMs : 0 ≤ s.guardMs ∧ s.guardMs < 2 ^ 16
  frameEpochMs : 0 ≤ s.frameEpochMs ∧ s.frameEpochMs < 2 ^ 64
  count : s.slots.length < 2 ^ 8
  slots : ∀ e ∈ s.slots, (0 ≤ e.1 ∧ e.1 < 2 ^ 16) ∧ 0 ≤ e.2 ∧ e.2 < 2 ^ 8

/-! ### Masked fields -/

/-- A mask keeps the values that fit, and only those. -/
lemma maskBits_eq_iff {bits : ℕ} {n : ℤ} : (maskBits bits n : ℤ) = n ↔ 0 ≤ n ∧ n < 2 ^ bits := by
  have hpos : (0 : ℤ) < 2 ^ bits := by positivity
  have hmod : (maskBits bits n : ℤ) = n % 2 ^ bits :=
    Int.toNat_of_nonneg (Int.emod_nonneg n hpos.ne')
  rw [hmod]
  constructor
  · intro h
    rw [← h]
    exact ⟨Int.emod_nonneg n hpos.ne', Int.emod_lt_of_pos n hpos⟩
  · rintro ⟨h0, hlt⟩
    exact Int.emod_eq_of_lt h0 hlt

lemma maskBits_lt (bits : ℕ) (n : ℤ) : maskBits bits n < 2 ^ bits := by
  have hpos : (0 : ℤ) < 2 ^ bits := by positivity
  have hlt := Int.emod_lt_of_pos n hpos
  rw [maskBits]
  zify
  rwa [Int.toNat_of_nonneg (Int.emod_nonneg n hpos.ne')]

/-- A packed field is read back. -/
lemma unpackLE_packLE_mask (w : ℕ) {bits : ℕ} (hbits : 2 ^ bits = 256 ^ w) (n : ℤ) :
    unpackLE (packLE w (maskBits bits n)) = maskBits bits n := by
  rw [unpackLE_packLE, Nat.mod_eq_of_lt (hbits ▸ maskBits_lt bits n)]

/-! ### What was packed -/

/-- The payloads that the encoders pack. -/
def timingPayload (s : State) : List UInt8 :=
  packLE 1 (maskBits 8 s.slotCount) ++ packLE 2 (maskBits 16 s.toaMs) ++
    packLE 2 (maskBits 16 s.guardMs)

def epochPayload (s : State) : List UInt8 := packLE 8 (maskBits 64 s.frameEpochMs)

def entriesPayload (entries : List (ℤ × ℤ)) : List UInt8 :=
  entries.flatMap fun (nodeId, slot) => packLE 2 (maskBits 16 nodeId) ++ packLE 1 (maskBits 8 slot)

def slotmapPayload (s : State) : List UInt8 :=
  packLE 1 (s.slots.length &&& 0xFF) ++ entriesPayload s.slots

def armedPayload (s : State) : List UInt8 := [if s.armed then 1 else 0]

lemma unpackTiming_pack (s : State) :
    unpackTiming (timingPayload s) =
      some (maskBits 8 s.slotCount, maskBits 16 s.toaMs, maskBits 16 s.guardMs) := by
  have hslot := unpackLE_packLE_mask 1 (show 2 ^ 8 = 256 ^ 1 by norm_num) s.slotCount
  have htoa := unpackLE_packLE_mask 2 (show 2 ^ 16 = 256 ^ 2 by norm_num) s.toaMs
  have hguard := unpackLE_packLE_mask 2 (show 2 ^ 16 = 256 ^ 2 by norm_num) s.guardMs
  show some (unpackLE (packLE 1 (maskBits 8 s.slotCount)),
    unpackLE (packLE 2 (maskBits 16 s.toaMs)), unpackLE (packLE 2 (maskBits 16 s.guardMs))) = _
  rw [hslot, htoa, hguard]

lemma unpackEpoch_pack (s : State) :
    unpackEpoch (epochPayload s) = some (maskBits 64 s.frameEpochMs) := by
  rw [unpackEpoch, epochPayload, if_pos (length_packLE 8 _), unpackLE_packLE_mask 8 (by norm_num)]

lemma unpackArmed_pack (s : State) : unpackArmed (armedPayload s) = some s.armed := by
  unfold armedPayload
  cases s.armed <;> rfl

lemma unpackEntries_pack (entries : List (ℤ × ℤ)) (count : ℕ) :
    unpackEntries count (entriesPayload entries) =
      if count = entries.length then
        some (entries.map fun (nodeId, slot) => (maskBits 16 nodeId, maskBits 8 slot))
      else none := by
  induction entries generalizing count with
  | nil => cases count <;> simp [unpackEntries, entriesPayload]
  | cons e entries ih =>
    obtain ⟨nodeId, slot⟩ := e
    cases count with
    | zero => simp [unpackEntries, entriesPayload, packLE]
    | succ count =>
      have hnode := unpackLE_packLE_mask 2 (show 2 ^ 16 = 256 ^ 2 by norm_num) nodeId
      have hslot : (UInt8.ofNat (maskBits 8 slot)).toNat = maskBits 8 slot := by
        rw [UInt8.toNat_ofNat']
        exact Nat.mod_eq_of_lt (maskBits_lt 8 slot)
      show (unpackEntries count (entriesPayload entries)).map (fun rest =>
        (unpackLE (packLE 2 (maskBits 16 nodeId)), (UInt8.ofNat (maskBits 8 slot)).toNat) ::
          rest) = _
      rw [ih, hnode, hslot]
      by_cases hcount : count = entries.length
      · simp [hcount]
      · simp [hcount]

/-- The count is a byte. -/
lemma unpackSlotmap_pack (s : State) :
    unpackSlotmap (slotmapPayload s) =
      if s.slots.length < 2 ^ 8 then
        some (s.slots.map fun (nodeId, slot) => (maskBits 16 nodeId, maskBits 8 slot))
      else none := by
  have hcount : (UInt8.ofNat (s.slots.length &&& 0xFF)).toNat = s.slots.length % 2 ^ 8 := by
    rw [UInt8.toNat_ofNat', Nat.and_two_pow_sub_one_eq_mod s.slots.length 8]
    exact Nat.mod_mod _ _
  show unpackEntries (UInt8.ofNat (s.slots.length &&& 0xFF)).toNat (entriesPayload s.slots) = _
  rw [unpackEntries_pack, hcount]
  by_cases hlt : s.slots.length < 2 ^ 8
  · rw [if_pos hlt, if_pos (Nat.mod_eq_of_lt hlt)]
  · have hne : s.slots.length % 2 ^ 8 ≠ s.slots.length := by omega
    rw [if_neg hlt, if_neg hne]

/-- Entries that are the same after masking fit. -/
lemma map_mask_eq_iff (entries : List (ℤ × ℤ)) :
    entries.map (fun (nodeId, slot) => ((maskBits 16 nodeId : ℤ), (maskBits 8 slot : ℤ))) =
        entries ↔
      ∀ e ∈ entries, (0 ≤ e.1 ∧ e.1 < 2 ^ 16) ∧ 0 ≤ e.2 ∧ e.2 < 2 ^ 8 := by
  induction entries with
  | nil => simp
  | cons e entries ih =>
    rw [List.map_cons, List.cons.injEq, List.forall_mem_cons, ih, Prod.ext_iff]
    exact and_congr_left' (and_congr maskBits_eq_iff maskBits_eq_iff)

/-! ### What a parser finds -/

lemma push_buildFrames {s : State} {sent : List (List UInt8)} (h : buildFrames s = .ok sent) :
    (FrameParser.new.push sent.flatten).1 =
      [(UInt8.ofNat T_SET_TIMING, timingPayload s), (UInt8.ofNat T_SET_EPOCH, epochPayload s),
        (UInt8.ofNat T_SET_SLOTMAP, slotmapPayload s),
        (UInt8.ofNat T_SET_ARMED, armedPayload s)] := by
  obtain ⟨timing, epoch, slotmap, armed, htiming, hepoch, hslotmap, harmed, rfl⟩ :=
    buildFrames_eq_ok.mp h
  have hall : List.Forall₂ (fun (t : ℕ × List UInt8) w => encodeFrame t.1 t.2 = .ok w)
      [(T_SET_TIMING, timingPayload s), (T_SET_EPOCH, epochPayload s),
        (T_SET_SLOTMAP, slotmapPayload s), (T_SET_ARMED, armedPayload s)]
      [timing, epoch, slotmap, armed] :=
    .cons htiming (.cons hepoch (.cons hslotmap (.cons harmed .nil)))
  -- the types survive the mask
  have htypes : ∀ t ∈ [T_SET_TIMING, T_SET_EPOCH, T_SET_SLOTMAP, T_SET_ARMED],
      UInt8.ofNat (t &&& 0xFF) = UInt8.ofNat t := by
    decide
  rw [push_encoded hall]
  refine List.map_congr_left (g := fun t : ℕ × List UInt8 => (UInt8.ofNat t.1, t.2)) fun t ht => ?_
  rw [htypes t.1 (List.mem_map_of_mem (f := Prod.fst) ht)]

lemma timing_read_iff (s : State) :
    (unpackTiming (timingPayload s)).map
          (fun (n, toa, guard) => ((n : ℤ), (toa : ℤ), (guard : ℤ))) =
        some (s.slotCount, s.toaMs, s.guardMs) ↔
      (0 ≤ s.slotCount ∧ s.slotCount < 2 ^ 8) ∧ (0 ≤ s.toaMs ∧ s.toaMs < 2 ^ 16) ∧
        0 ≤ s.guardMs ∧ s.guardMs < 2 ^ 16 := by
  rw [unpackTiming_pack, Option.map_some, Option.some_inj, Prod.ext_iff, Prod.ext_iff]
  exact and_congr maskBits_eq_iff (and_congr maskBits_eq_iff maskBits_eq_iff)

lemma epoch_read_iff (s : State) :
    (unpackEpoch (epochPayload s)).map (fun n : ℕ => (n : ℤ)) = some s.frameEpochMs ↔
      0 ≤ s.frameEpochMs ∧ s.frameEpochMs < 2 ^ 64 := by
  rw [unpackEpoch_pack, Option.map_some, Option.some_inj]
  exact maskBits_eq_iff

lemma slotmap_read_iff (s : State) :
    (unpackSlotmap (slotmapPayload s)).map
        (List.map fun (node, slot) => ((node : ℤ), (slot : ℤ))) = some s.slots ↔
      s.slots.length < 2 ^ 8 ∧ ∀ e ∈ s.slots, (0 ≤ e.1 ∧ e.1 < 2 ^ 16) ∧ 0 ≤ e.2 ∧ e.2 < 2 ^ 8 := by
  rw [unpackSlotmap_pack, ← map_mask_eq_iff]
  by_cases hlt : s.slots.length < 2 ^ 8
  · rw [if_pos hlt, Option.map_some, Option.some_inj, List.map_map, and_iff_right hlt]
    rfl
  · rw [if_neg hlt]
    exact ⟨nofun, fun h => absurd h.1 hlt⟩

/-- What the radio reads is the state exactly when its values fit. -/
lemma conveys_iff {s : State} {sent : List (List UInt8)} (h : buildFrames s = .ok sent) :
    Conveys sent s ↔ s.Fits := by
  have hfound := push_buildFrames h
  constructor
  · rintro ⟨timing, epoch, slotmap, armed, hparse, htiming, hepoch, hslotmap, -⟩
    obtain ⟨rfl, rfl, rfl, rfl⟩ : timingPayload s = timing ∧ epochPayload s = epoch ∧
        slotmapPayload s = slotmap ∧ armedPayload s = armed := by
      simpa [Prod.ext_iff] using hfound.symm.trans hparse
    obtain ⟨hcount, htoa, hguard⟩ := (timing_read_iff s).mp htiming
    obtain ⟨hlength, hslots⟩ := (slotmap_read_iff s).mp hslotmap
    exact ⟨hcount, htoa, hguard, (epoch_read_iff s).mp hepoch, hlength, hslots⟩
  · intro hfits
    exact ⟨_, _, _, _, hfound,
      (timing_read_iff s).mpr ⟨hfits.slotCount, hfits.toaMs, hfits.guardMs⟩,
      (epoch_read_iff s).mpr hfits.frameEpochMs,
      (slotmap_read_iff s).mpr ⟨hfits.count, hfits.slots⟩, unpackArmed_pack s⟩

/-- When a poll reports that it has applied a document, the radio reads its canonical state
from the frames that were sent exactly when the values fit the fields. -/
theorem applied_conveys_iff_fits (d : CloudDownlinker) (force : Bool) (env : PollEnv)
    (happlied : (d.pollOnce force env).status = some .applied) :
    ∃ state, env.fetched = some state ∧
      (Conveys (d.pollOnce force env).sent state ↔ state.Fits) := by
  obtain ⟨state, hstate, hframes, -⟩ := applied_sends happlied
  exact ⟨state, hstate, conveys_iff hframes⟩

/-! ### Configurations that do not fit -/

/-- A document with three entries in its slot map. -/
def threeSlotsDoc : Value :=
  .obj [(pyStr "race_id", .int 7), (pyStr "slot_count", .int 3), (pyStr "toa_ms", .int 200),
    (pyStr "slots", .arr ([(1, 0), (2, 1), (3, 2)].map fun (nodeId, slot) =>
      .obj [(pyStr "node_id", .int nodeId), (pyStr "slot", .int slot)]))]

def servesThreeSlots : PollEnv := { serves 0 with get := .ok ⟨200, .ok threeSlotsDoc⟩ }

/-- The theorem at this document, which fits. -/
theorem applied_conveys_three_slots :
    servesThreeSlots.fetched.map State.slots = some [(1, 0), (2, 1), (3, 2)] ∧
      ∃ state, servesThreeSlots.fetched = some state ∧
        (Conveys ((CloudDownlinker.new none).pollOnce false servesThreeSlots).sent state ↔
          state.Fits) :=
  ⟨by decide +kernel,
    applied_conveys_iff_fits (.new none) false servesThreeSlots (by decide +kernel)⟩

/-- A document with 256 entries in its slot map. -/
def crowdedDoc : Value :=
  .obj [(pyStr "race_id", .int 7), (pyStr "slots",
    .arr (List.replicate 256 (.obj [(pyStr "node_id", .int 1), (pyStr "slot", .int 0)])))]

def servesCrowded : PollEnv := { serves 0 with get := .ok ⟨200, .ok crowdedDoc⟩ }

/-- A race with 300 slots, and one with 256 entries in its slot map, are reported as applied,
and the radio reads something else. -/
theorem applied_without_conveying :
    (((CloudDownlinker.new none).pollOnce false (serves 300)).status = some .applied ∧
      ∀ state, (serves 300).fetched = some state →
        ¬ Conveys ((CloudDownlinker.new none).pollOnce false (serves 300)).sent state) ∧
    ((CloudDownlinker.new none).pollOnce false servesCrowded).status = some .applied ∧
      ∀ state, servesCrowded.fetched = some state →
        ¬ Conveys ((CloudDownlinker.new none).pollOnce false servesCrowded).sent state := by
  have happlied : ((CloudDownlinker.new none).pollOnce false (serves 300)).status =
      some .applied := by
    decide +kernel
  have hcrowded : ((CloudDownlinker.new none).pollOnce false servesCrowded).status =
      some .applied := by
    decide +kernel
  refine ⟨⟨happlied, fun state hstate hconveys => ?_⟩, hcrowded, fun state hstate hconveys => ?_⟩
  · obtain ⟨state', hstate', hframes, -⟩ := applied_sends happlied
    obtain rfl := Option.some.inj (hstate.symm.trans hstate')
    have hcount : (serves 300).fetched.map State.slotCount = some 300 := by decide +kernel
    rw [hstate, Option.map_some, Option.some_inj] at hcount
    exact absurd ((conveys_iff hframes).mp hconveys).slotCount (by rw [hcount]; decide)
  · obtain ⟨state', hstate', hframes, -⟩ := applied_sends hcrowded
    obtain rfl := Option.some.inj (hstate.symm.trans hstate')
    have hlength : servesCrowded.fetched.map (fun s => s.slots.length) = some 256 := by
      decide +kernel
    rw [hstate, Option.map_some, Option.some_inj] at hlength
    exact absurd ((conveys_iff hframes).mp hconveys).count (by rw [hlength]; decide)

end SrtGateway.Downlink
