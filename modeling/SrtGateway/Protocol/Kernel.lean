/-
What decoding keeps of a payload, and what it drops.

The decoders drop the high byte of the firmware version and the reserved byte of a HEALTH
payload, and what follows the whole entries of a NODE_STATS payload that its count announces.
They drop nothing else: two payloads decode to the same thing just when they agree in what is
kept (`decodePayload_eq_iff`).  The text of a LOG payload, in which undecodable bytes are
replaced, is not looked into.
-/
import SrtGateway.Protocol.NodeStats

namespace SrtGateway.Protocol

open SrtGateway.Bytes

/-! ### Names of types -/

lemma digitChar_inj : ∀ a < 16, ∀ b < 16, Nat.digitChar a = Nat.digitChar b → a = b := by decide

lemma hexByte_inj {a b : ℕ} (ha : a < 256) (hb : b < 256) (h : hexByte a = hexByte b) : a = b := by
  have hdigits := String.ofList_injective ((String.append_right_inj "0x").mp h)
  simp only [List.cons.injEq, and_true] at hdigits
  have hhigh := digitChar_inj _ (by omega) _ (by omega) hdigits.1
  have hlow := digitChar_inj _ (by omega) _ (by omega) hdigits.2
  omega

/-- The types in `TYPE_NAMES`. -/
def namedTypes : List ℕ :=
  [T_UPLINK, T_HEALTH, T_LOG, T_ACK, T_NODE_STATS, T_SET_ARMED, T_SET_EPOCH, T_SET_SLOTMAP,
    T_SET_TIMING, T_PING]

lemma typeName_of_not_named {t : ℕ} (h : t ∉ namedTypes) : typeName t = hexByte t := by
  simp only [namedTypes, List.mem_cons, List.not_mem_nil, not_or, or_false] at h
  simp only [typeName, h, if_false]

/-- **The names of the types are distinct.** -/
lemma typeName_inj {a b : ℕ} (ha : a < 256) (hb : b < 256) (h : typeName a = typeName b) :
    a = b := by
  -- a name of the table has no `x` for its second character
  have hnamed : ∀ t ∈ namedTypes, ∀ n, typeName t ≠ hexByte n := by
    intro t ht n heq
    have hsecond : ∀ t ∈ namedTypes, (typeName t).toList[1]? ≠ some 'x' := by decide
    refine hsecond t ht ?_
    rw [heq, hexByte, String.toList_append]
    rfl
  by_cases hta : a ∈ namedTypes <;> by_cases htb : b ∈ namedTypes
  · have hdistinct : ∀ a ∈ namedTypes, ∀ b ∈ namedTypes, typeName a = typeName b → a = b := by
      decide
    exact hdistinct a hta b htb h
  · exact absurd (h.trans (typeName_of_not_named htb)) (hnamed a hta b)
  · exact absurd (h.symm.trans (typeName_of_not_named hta)) (hnamed b htb a)
  · rw [typeName_of_not_named hta, typeName_of_not_named htb] at h
    exact hexByte_inj ha hb h

/-! ### Fields and bytes -/

section Fields

variable {p q : List UInt8}

/-- Slices agree just when their bytes do. -/
lemma slice_eq_iff {start stop : ℕ} :
    slice p start stop = slice q start stop ↔ ∀ i, start ≤ i → i < stop → p[i]? = q[i]? := by
  constructor
  · intro h i hstart hstop
    have hi := congrArg (·[i - start]?) h
    simpa [slice, List.getElem?_take, List.getElem?_drop, Nat.add_sub_cancel' hstart,
      show i - start < stop - start by omega] using hi
  · intro h
    refine List.ext_getElem? fun i => ?_
    rw [slice, slice, List.getElem?_take, List.getElem?_take, List.getElem?_drop,
      List.getElem?_drop]
    split
    · exact h (start + i) (by omega) (by omega)
    · rfl

/-- An unsigned field determines its bytes. -/
lemma unsignedAt_eq_iff (hlen : p.length = q.length) {offset width : ℕ} :
    unsignedAt p offset width = unsignedAt q offset width ↔
      ∀ i, offset ≤ i → i < offset + width → p[i]? = q[i]? := by
  rw [← slice_eq_iff, unsignedAt, unsignedAt, Nat.cast_inj]
  refine ⟨fun h => unpackLE_inj ?_ h, congrArg _⟩
  rw [slice, slice, List.length_take, List.length_take, List.length_drop, List.length_drop, hlen]

end Fields

/-! ### HEALTH -/

/-- A version number as `decode_health` writes it. -/
def fwText (a b c : ℕ) : String := toString a ++ "." ++ toString b ++ "." ++ toString c

lemma toString_inj {a b : ℕ} (h : (toString a).toList = (toString b).toList) : a = b := by
  have hdigits : Nat.toDigits 10 a = Nat.toDigits 10 b := by
    simpa only [Nat.toString_eq_repr, Nat.toList_repr] using h
  rw [← Nat.ofDigitChars_ten_toDigits (n := a), hdigits, Nat.ofDigitChars_ten_toDigits]

/-- A number and what follows the point after it. -/
lemma toString_point_inj {a b : ℕ} {s t : List Char}
    (h : (toString a).toList ++ '.' :: s = (toString b).toList ++ '.' :: t) : a = b ∧ s = t := by
  have hdigits : ∀ n : ℕ, ∀ c ∈ (toString n).toList, c ≠ '.' := by
    rintro n c hc rfl
    have hdigit : ('.' : Char).isDigit :=
      Nat.isDigit_of_mem_toDigits (b := 10) (n := n) (by decide) (by decide) (by simpa using hc)
    exact absurd hdigit (by decide)
  have htake : ∀ (n : ℕ) (r : List Char),
      ((toString n).toList ++ '.' :: r).takeWhile (· ≠ '.') = (toString n).toList := by
    intro n r
    rw [List.takeWhile_append_of_pos (by simpa using hdigits n)]
    simp
  have hheads := (htake a s).symm.trans ((congrArg _ h).trans (htake b t))
  refine ⟨toString_inj hheads, ?_⟩
  rw [hheads] at h
  simpa using h

lemma fwText_inj {a b c a' b' c' : ℕ} (h : fwText a b c = fwText a' b' c') :
    a = a' ∧ b = b' ∧ c = c' := by
  have hlist := congrArg String.toList h
  simp only [fwText, String.toList_append, List.append_assoc] at hlist
  obtain ⟨ha, hrest⟩ := toString_point_inj hlist
  obtain ⟨hb, hc⟩ := toString_point_inj hrest
  exact ⟨ha, hb, toString_inj hc⟩

/-- The bytes of a HEALTH payload, without those that `decode_health` drops. -/
def keptOfHealth (payload : List UInt8) : List UInt8 := (payload.set 3 0).set 23 0

lemma keptOfHealth_eq_iff {p q : List UInt8} (hp : p.length = 40) (hq : q.length = 40) :
    keptOfHealth p = keptOfHealth q ↔ ∀ i, i < 40 → i ≠ 3 → i ≠ 23 → p[i]? = q[i]? := by
  constructor
  · intro h i hi h3 h23
    have hget := congrArg (·[i]?) h
    simpa [keptOfHealth, List.getElem?_set, h3.symm, h23.symm] using hget
  · intro h
    refine List.ext_getElem? fun i => ?_
    rcases lt_or_ge i 40 with hi | hi
    · by_cases h3 : i = 3
      · subst h3
        simp [keptOfHealth, hp, hq]
      · by_cases h23 : i = 23
        · subst h23
          simp [keptOfHealth, hp, hq]
        · simpa [keptOfHealth, List.getElem?_set, Ne.symm h3, Ne.symm h23] using h i hi h3 h23
    · rw [List.getElem?_eq_none (by simpa [keptOfHealth, hp] using hi),
        List.getElem?_eq_none (by simpa [keptOfHealth, hq] using hi)]

/-- The version of a HEALTH payload, by its bytes. -/
lemma decodeHealth_eq {payload : List UInt8} (h : payload.length = 40) :
    decodeHealth payload = some
      { fwVersion :=
          fwText (byteAt payload 2).toNat (byteAt payload 1).toNat (byteAt payload 0).toNat,
        uptimeS := unsignedAt payload 4 4, packetsRxTotal := unsignedAt payload 8 4,
        crcErrorsTotal := unsignedAt payload 12 4, ppsHz := unsignedAt payload 16 2 / 100,
        gpsFix := unsignedAt payload 18 1, ppsLocked := unsignedAt payload 19 1,
        sats := unsignedAt payload 20 1, slotCount := unsignedAt payload 21 1,
        armed := unsignedAt payload 22 1, frameEpochMs := unsignedAt payload 24 8,
        lastBeaconMs := unsignedAt payload 32 8 } := by
  have hdigit : ∀ i < 4,
      unpackLE (slice payload 0 4) / 256 ^ i % 256 = (byteAt payload i).toNat := by
    intro i hi
    rw [unpackLE_digit, byteAt, slice, List.getD_eq_getElem?_getD, List.getD_eq_getElem?_getD]
    simp [hi]
  have h0 := hdigit 0 (by decide)
  have h1 := hdigit 1 (by decide)
  have h2 := hdigit 2 (by decide)
  norm_num at h0 h1 h2
  rw [decodeHealth, if_neg (not_not_intro h)]
  simp only [h0, h1, h2, fwText]

/-- **Two HEALTH payloads decode to the same thing** just when they agree off the two bytes. -/
lemma decodeHealth_eq_iff {p q : List UInt8} (hp : p.length = 40) (hq : q.length = 40) :
    decodeHealth p = decodeHealth q ↔ keptOfHealth p = keptOfHealth q := by
  have hlen : p.length = q.length := hp.trans hq.symm
  have hbyte : ∀ i < 40, byteAt p i = byteAt q i ↔ p[i]? = q[i]? := by
    intro i hi
    simp [byteAt, hp, hq, hi]
  rw [keptOfHealth_eq_iff hp hq, decodeHealth_eq hp, decodeHealth_eq hq, Option.some_inj,
    Health.mk.injEq, div_left_inj' (by norm_num), Int.cast_inj]
  simp only [unsignedAt_eq_iff hlen]
  constructor
  · rintro ⟨hfw, h4, h8, h12, h16, h18, h19, h20, h21, h22, h24, h32⟩ i hi hi3 hi23
    obtain ⟨hb2, hb1, hb0⟩ := fwText_inj hfw
    rw [UInt8.toNat_inj, hbyte _ (by decide)] at hb2 hb1 hb0
    have hrange : i = 0 ∨ i = 1 ∨ i = 2 ∨ (4 ≤ i ∧ i < 8) ∨ (8 ≤ i ∧ i < 12) ∨
        (12 ≤ i ∧ i < 16) ∨ (16 ≤ i ∧ i < 18) ∨ (18 ≤ i ∧ i < 19) ∨ (19 ≤ i ∧ i < 20) ∨
        (20 ≤ i ∧ i < 21) ∨ (21 ≤ i ∧ i < 22) ∨ (22 ≤ i ∧ i < 23) ∨ (24 ≤ i ∧ i < 32) ∨
        (32 ≤ i ∧ i < 40) := by omega
    rcases hrange with rfl | rfl | rfl | h | h | h | h | h | h | h | h | h | h | h
    · exact hb0
    · exact hb1
    · exact hb2
    · exact h4 i h.1 h.2
    · exact h8 i h.1 h.2
    · exact h12 i h.1 h.2
    · exact h16 i h.1 h.2
    · exact h18 i h.1 h.2
    · exact h19 i h.1 h.2
    · exact h20 i h.1 h.2
    · exact h21 i h.1 h.2
    · exact h22 i h.1 h.2
    · exact h24 i h.1 h.2
    · exact h32 i h.1 h.2
  · intro h
    have hb : ∀ i < 3, byteAt p i = byteAt q i :=
      fun i hi => (hbyte i (by omega)).mpr (h i (by omega) (by omega) (by omega))
    rw [hb 0 (by decide), hb 1 (by decide), hb 2 (by decide)]
    refine ⟨rfl, ?_, ?_, ?_, ?_, ?_, ?_, ?_, ?_, ?_, ?_, ?_⟩
    all_goals exact fun i _ _ => h i (by omega) (by omega) (by omega)

/-! ### The other decoders -/

lemma decodeAck_inj {p q : List UInt8} (hp : p.length = 2) (hq : q.length = 2)
    (h : decodeAck p = decodeAck q) : p = q := by
  rw [decodeAck, if_neg (not_not_intro hp), decodeAck, if_neg (not_not_intro hq)] at h
  simp only [Option.some_inj, Ack.mk.injEq, UInt8.toNat_inj] at h
  obtain ⟨a, b, rfl⟩ := List.length_eq_two.mp hp
  obtain ⟨a', b', rfl⟩ := List.length_eq_two.mp hq
  obtain ⟨ha, -, hb, -⟩ := h
  rw [show a = a' from ha, show b = b' from hb]

/-- The record of an UPLINK payload packs to the payload. -/
lemma decodeUplink_inj {p q : List UInt8} (hp : p.length = 38) (hq : q.length = 38)
    (h : decodeUplink p = decodeUplink q) : p = q := by
  have hpack : ∀ payload : List UInt8, payload.length = 38 →
      packUplink (wireOf payload).record = some payload := by
    intro payload hlen
    rw [packUplink_record, ← unpack_eq_values, pack_unpack (hlen.trans size_UPLINK_FORMAT.symm)]
  rw [decodeUplink_eq hp, decodeUplink_eq hq, Option.some_inj] at h
  exact Option.some.inj ((hpack p hp).symm.trans (h ▸ hpack q hq))

/-- The bytes of a NODE_STATS payload up to the last of its whole entries. -/
def keptOfNodeStats (payload : List UInt8) : List UInt8 :=
  payload.take (1 + 16 * min (byteAt payload 0).toNat ((payload.length - 1) / 16))

/-- **Two NODE_STATS payloads decode to the same thing** just when they agree in the count and
the whole entries. -/
lemma decodeNodeStats_eq_iff (b b' : UInt8) (table table' : List UInt8) :
    decodeNodeStats (b :: table) = decodeNodeStats (b' :: table') ↔
      keptOfNodeStats (b :: table) = keptOfNodeStats (b' :: table') := by
  have hsize : 0 < size NODE_STATS_FORMAT := by decide
  have hkept : ∀ (b : UInt8) (table : List UInt8), keptOfNodeStats (b :: table) =
      b :: table.take (16 * min b.toNat (table.length / 16)) := by
    intro b table
    rw [keptOfNodeStats, Nat.add_comm 1, List.take_succ_cons, List.length_cons,
      Nat.add_sub_cancel]
    rfl
  have hpack : ∀ (b : UInt8) (table : List UInt8), packTable NODE_STATS_FORMAT
      ((nodeStatsEntries (b :: table) b.toNat 1).map NodeStatsEntry.values) =
        some (table.take (16 * min b.toNat (table.length / 16))) := by
    intro b table
    rw [map_values_nodeStatsEntries, List.drop_one, List.tail_cons, packTable_unpackTable,
      unpackTable_eq hsize, List.length_map, List.length_range, size_NODE_STATS_FORMAT]
  rw [decodeNodeStats_cons, decodeNodeStats_cons, hkept, hkept, Option.some_inj,
    NodeStats.mk.injEq, UInt8.toNat_inj, List.cons.injEq]
  refine and_congr_right fun _ => ⟨fun h => ?_, fun h => ?_⟩
  · exact Option.some.inj ((hpack b table).symm.trans (h ▸ hpack b' table'))
  · exact NodeStatsEntry.values_injective.list_map
      (packTable_inj hsize (hpack b table) (h ▸ hpack b' table'))

/-! ### All payloads -/

/-- What decoding keeps of a payload. -/
def kept (frameType : ℕ) (payload : List UInt8) : List UInt8 :=
  if frameType = T_HEALTH ∧ payload.length = 40 then keptOfHealth payload
  else if frameType = T_NODE_STATS then keptOfNodeStats payload
  else payload

section Decoders

variable {α : Type}

lemma orRaw_eq_iff {wrap : α → Decoded} (hwrap : Function.Injective wrap)
    (hraw : ∀ a bs, wrap a ≠ .raw bs) {x y : Option α} {p q : List UInt8} :
    (x.map wrap).getD (.raw p) = (y.map wrap).getD (.raw q) ↔
      (x.isSome ∧ x = y) ∨ (x = none ∧ y = none ∧ p = q) := by
  rcases x with _ | a <;> rcases y with _ | b
  · simp
  · simpa using (hraw b p).symm
  · simpa using hraw a q
  · simpa using hwrap.eq_iff

/-- A decoder of payloads of one length, which keeps what `keep` keeps. -/
lemma fixed_eq_iff (decode : List UInt8 → Option α) (wrap : α → Decoded)
    (keep : List UInt8 → List UInt8) (n : ℕ) (hwrap : Function.Injective wrap)
    (hraw : ∀ a bs, wrap a ≠ .raw bs) (hdecode : ∀ p, (decode p).isSome ↔ p.length = n)
    (hlen : ∀ p, (keep p).length = p.length)
    (hkeep : ∀ p q, p.length = n → q.length = n → (decode p = decode q ↔ keep p = keep q))
    (p q : List UInt8) :
    ((decode p).map wrap).getD (.raw p) = ((decode q).map wrap).getD (.raw q) ↔
      (if p.length = n then keep p else p) = if q.length = n then keep q else q := by
  have hnone : ∀ p, decode p = none ↔ p.length ≠ n := by
    intro p
    rw [ne_eq, ← hdecode, Option.not_isSome_iff_eq_none]
  rw [orRaw_eq_iff hwrap hraw, hdecode, hnone, hnone]
  by_cases hp : p.length = n <;> by_cases hq : q.length = n
  · simp [hp, hq, hkeep p q hp hq]
  · have hne : decode p ≠ decode q := fun h => hq ((hdecode q).mp (h ▸ (hdecode p).mpr hp))
    have hlengths : keep p ≠ q := fun h => hq (h ▸ (hlen p).trans hp)
    simp [hp, hq, hne, hlengths]
  · have hlengths : p ≠ keep q := fun h => hp (h ▸ (hlen q).trans hq)
    simp [hp, hq, hlengths]
  · simp [hp, hq]

end Decoders

/-- **What decoding keeps.**  Two payloads of a type other than LOG decode to the same thing
just when they agree in what is kept. -/
theorem decodePayload_eq_iff {frameType : ℕ} (ht : frameType ≠ T_LOG) (p q : List UInt8) :
    decodePayload frameType p = decodePayload frameType q ↔
      kept frameType p = kept frameType q := by
  by_cases hack : frameType = T_ACK
  · subst hack
    have hiff := fixed_eq_iff decodeAck Decoded.ack id 2
      (fun _ _ h => Decoded.ack.inj h) (fun _ _ h => by cases h) (fun p => by simp [decodeAck])
      (fun _ => rfl) (fun p q hp hq => ⟨decodeAck_inj hp hq, congrArg _⟩) p q
    simpa [decodePayload, kept, T_ACK, T_HEALTH, T_NODE_STATS] using hiff
  by_cases hhealth : frameType = T_HEALTH
  · subst hhealth
    have hiff := fixed_eq_iff decodeHealth Decoded.health keptOfHealth 40
      (fun _ _ h => Decoded.health.inj h) (fun _ _ h => by cases h)
      (fun p => by simp [decodeHealth])
      (fun p => by simp [keptOfHealth]) (fun p q hp hq => decodeHealth_eq_iff hp hq) p q
    simpa [decodePayload, kept, T_ACK, T_HEALTH, T_NODE_STATS] using hiff
  by_cases huplink : frameType = T_UPLINK
  · subst huplink
    have hiff := fixed_eq_iff decodeUplink Decoded.uplink id 38
      (fun _ _ h => Decoded.uplink.inj h) (fun _ _ h => by cases h)
      (fun p => by simp [decodeUplink]) (fun _ => rfl)
      (fun p q hp hq => ⟨decodeUplink_inj hp hq, congrArg _⟩) p q
    simpa [decodePayload, kept, T_ACK, T_HEALTH, T_NODE_STATS, T_UPLINK] using hiff
  by_cases hstats : frameType = T_NODE_STATS
  · subst hstats
    have hnil : ∀ b table, keptOfNodeStats (b :: table) ≠ keptOfNodeStats [] := by
      intro b table
      simp [keptOfNodeStats]
    have hiff : decodePayload T_NODE_STATS p = decodePayload T_NODE_STATS q ↔
        keptOfNodeStats p = keptOfNodeStats q := by
      simp only [decodePayload, T_ACK, T_HEALTH, T_UPLINK, T_NODE_STATS]
      norm_num
      rw [orRaw_eq_iff (fun _ _ h => Decoded.nodeStats.inj h) (fun _ _ h => by cases h)]
      rcases p with _ | ⟨b, table⟩ <;> rcases q with _ | ⟨b', table'⟩
      · simp [decodeNodeStats]
      · simpa [decodeNodeStats] using (hnil b' table').symm
      · simpa [decodeNodeStats] using hnil b table
      · rw [← decodeNodeStats_eq_iff]
        simp [decodeNodeStats_cons]
    simpa [kept, T_HEALTH, T_NODE_STATS] using hiff
  · simp [decodePayload, kept, hack, hhealth, huplink, hstats, ht]

/-- The reserved byte does not matter, and the one before it does. -/
theorem decodePayload_reserved :
    (decodePayload T_HEALTH (List.replicate 40 0) =
        decodePayload T_HEALTH ((List.replicate 40 0).set 23 7)) ∧
      decodePayload T_HEALTH (List.replicate 40 0) ≠
        decodePayload T_HEALTH ((List.replicate 40 0).set 22 7) :=
  ⟨(decodePayload_eq_iff (by decide) _ _).mpr (by decide),
    fun h => absurd ((decodePayload_eq_iff (by decide) _ _).mp h) (by decide)⟩

end SrtGateway.Protocol
