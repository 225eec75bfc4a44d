/-
NODE_STATS payloads as tables.

After its count byte a NODE_STATS payload is a table of records of 16 bytes.  The loop of
`decode_node_stats` reads this table (`map_values_nodeStatsEntries`): it returns the whole
records that are there, up to the count, and a packed list of entries decodes to the list
(`nodeStats_exact`).
-/
import SrtGateway.Protocol.Payload
import SrtGateway.Protocol.UplinkRecord

namespace SrtGateway.Protocol

open SrtGateway.Bytes

def NODE_STATS_FORMAT : List Field := formatOf "HhIQ"

lemma size_NODE_STATS_FORMAT : size NODE_STATS_FORMAT = 16 := by decide

namespace NodeStatsEntry

/-- The values that `struct.unpack` gives for an entry. -/
def values (e : NodeStatsEntry) : List ℤ := [e.nodeId, e.lastRssiDbm, e.packets, e.lastHeardMs]

/-- Every value fits its field. -/
def InRange (e : NodeStatsEntry) : Prop := List.Forall₂ Field.InRange NODE_STATS_FORMAT e.values

lemma values_injective : Function.Injective values := by
  intro e e' h
  cases e
  cases e'
  simpa [values] using h

end NodeStatsEntry

/-- The packed form of some entries: the count byte, then the entries. -/
def packNodeStats (entries : List NodeStatsEntry) : Option (List UInt8) := do
  let table ← packTable NODE_STATS_FORMAT (entries.map NodeStatsEntry.values)
  return UInt8.ofNat entries.length :: table

/-! ### The loop -/

/-- The format reads an entry where `decode_node_stats` does. -/
lemma values_nodeStatsEntryAt (payload : List UInt8) (off : ℕ) :
    (nodeStatsEntryAt payload off).values = unpack NODE_STATS_FORMAT (payload.drop off) := by
  have hformat : NODE_STATS_FORMAT = [⟨false, 2⟩, ⟨true, 2⟩, ⟨false, 4⟩, ⟨false, 8⟩] := by decide
  have hsigned := fun offset => decode_signed payload offset (show 0 < 2 by decide)
  simp only [hformat, unpack, List.drop_drop, Nat.reduceAdd, decode_unsigned, hsigned,
    NodeStatsEntry.values, nodeStatsEntryAt, Nat.add_assoc]

/-- **The loop reads a table.** -/
lemma map_values_nodeStatsEntries (payload : List UInt8) (n off : ℕ) :
    (nodeStatsEntries payload n off).map NodeStatsEntry.values =
      unpackTable NODE_STATS_FORMAT n (payload.drop off) := by
  induction n generalizing off with
  | zero => rfl
  | succ n ih =>
    rw [nodeStatsEntries, unpackTable, size_NODE_STATS_FORMAT, List.length_drop]
    by_cases hstop : off + 16 > payload.length
    · rw [if_pos hstop, if_neg (by omega), List.map_nil]
    · rw [if_neg hstop, if_pos (by omega), List.map_cons, ih, values_nodeStatsEntryAt,
        List.drop_drop]

lemma decodeNodeStats_cons (b : UInt8) (table : List UInt8) :
    decodeNodeStats (b :: table) =
      some { count := b.toNat, entries := nodeStatsEntries (b :: table) b.toNat 1 } := rfl

section Entries

variable (b : UInt8) (table : List UInt8)

/-- The entries of a payload, by its table. -/
lemma map_values_entries :
    (nodeStatsEntries (b :: table) b.toNat 1).map NodeStatsEntry.values =
      (List.range (min b.toNat (table.length / 16))).map fun i =>
        unpack NODE_STATS_FORMAT (table.drop (16 * i)) := by
  have hsize : 0 < size NODE_STATS_FORMAT := by decide
  rw [map_values_nodeStatsEntries, List.drop_one, List.tail_cons, unpackTable_eq hsize,
    size_NODE_STATS_FORMAT]

lemma length_entries :
    (nodeStatsEntries (b :: table) b.toNat 1).length = min b.toNat (table.length / 16) := by
  have hlen := congrArg List.length (map_values_entries b table)
  rwa [List.length_map, List.length_map, List.length_range] at hlen

lemma values_getElem_entries {i : ℕ}
    (hi : i < (nodeStatsEntries (b :: table) b.toNat 1).length) :
    (nodeStatsEntries (b :: table) b.toNat 1)[i].values =
      unpack NODE_STATS_FORMAT (slice (b :: table) (1 + 16 * i) (17 + 16 * i)) := by
  have hentry := List.getElem_of_eq (map_values_entries b table) (by rwa [List.length_map])
  rw [List.getElem_map, List.getElem_map, List.getElem_range] at hentry
  have hwidth : 17 + 16 * i - (16 * i + 1) = size NODE_STATS_FORMAT := by
    rw [size_NODE_STATS_FORMAT]
    omega
  rw [hentry, slice, Nat.add_comm 1, List.drop_succ_cons, hwidth, unpack_take]

end Entries

/-! ### Packed entries -/

/-- Entries that fit the record can be packed. -/
lemma exists_packNodeStats {entries : List NodeStatsEntry} (h : ∀ e ∈ entries, e.InRange) :
    ∃ payload, packNodeStats entries = some payload := by
  have hsome : (packTable NODE_STATS_FORMAT (entries.map NodeStatsEntry.values)).isSome :=
    packTable_isSome_iff.mpr (List.forall_mem_map.mpr h)
  obtain ⟨table, htable⟩ := Option.isSome_iff_exists.mp hsome
  exact ⟨UInt8.ofNat entries.length :: table, by rw [packNodeStats, htable]; rfl⟩

/-- A packed list of entries decodes to the list, whatever follows it. -/
lemma decodeNodeStats_pack {entries : List NodeStatsEntry} {payload : List UInt8}
    (hcount : entries.length < 256) (h : packNodeStats entries = some payload)
    (rest : List UInt8) :
    decodeNodeStats (payload ++ rest) = some { count := entries.length, entries := entries } ∧
      payload.length = 1 + 16 * entries.length := by
  obtain ⟨table, htable, h⟩ := Option.bind_eq_some_iff.mp h
  obtain rfl := Option.some.inj h
  obtain ⟨hrows, hlen⟩ := unpackTable_packTable htable rest
  rw [List.length_map] at hrows hlen
  have hbyte : (UInt8.ofNat entries.length).toNat = entries.length := by
    rw [UInt8.toNat_ofNat', Nat.mod_eq_of_lt hcount]
  have hentries : nodeStatsEntries (UInt8.ofNat entries.length :: (table ++ rest))
      entries.length 1 = entries := by
    refine List.map_injective_iff.mpr NodeStatsEntry.values_injective ?_
    rw [map_values_nodeStatsEntries, List.drop_one, List.tail_cons, hrows]
  rw [List.cons_append, decodeNodeStats_cons, hbyte, hentries, List.length_cons, hlen,
    size_NODE_STATS_FORMAT]
  exact ⟨rfl, Nat.add_comm _ _⟩

/-- **NODE_STATS decoding returns just the whole entries that are there.**  A payload that is
not empty gives as many entries as its count byte says and its length allows, entry `i` from
its bytes `1 + 16 * i` to `16 + 16 * i`; and entries that fit the record decode from their
packed form, whatever follows it, up to the greatest count of one byte. -/
theorem nodeStats_exact :
    (∀ payload : List UInt8, payload ≠ [] → ∃ s, decodeNodeStats payload = some s ∧
      s.count = (byteAt payload 0).toNat ∧
      s.entries.length = min (byteAt payload 0).toNat ((payload.length - 1) / 16) ∧
      ∀ i (hi : i < s.entries.length),
        s.entries[i].values =
          unpack NODE_STATS_FORMAT (slice payload (1 + 16 * i) (17 + 16 * i))) ∧
    ∀ entries : List NodeStatsEntry, entries.length < 256 → (∀ e ∈ entries, e.InRange) →
      ∃ payload, packNodeStats entries = some payload ∧
        payload.length = 1 + 16 * entries.length ∧
        ∀ rest, decodeNodeStats (payload ++ rest) =
          some { count := entries.length, entries := entries } := by
  constructor
  · intro payload hpayload
    obtain ⟨b, table, rfl⟩ := List.exists_cons_of_ne_nil hpayload
    exact ⟨_, decodeNodeStats_cons b table, rfl, length_entries b table,
      fun i hi => values_getElem_entries b table hi⟩
  · intro entries hcount hrange
    obtain ⟨payload, hpack⟩ := exists_packNodeStats hrange
    exact ⟨payload, hpack, (decodeNodeStats_pack hcount hpack []).2,
      fun rest => (decodeNodeStats_pack hcount hpack rest).1⟩

/-- Two entries are announced, and the second is cut off after its node id. -/
example : decodeNodeStats [2, 7, 0, 0xB0, 0xFF, 0xD2, 0x04, 0, 0, 0, 0xA6, 0xBB, 0xAF, 0x97,
    0x01, 0, 0, 12, 0] = some { count := 2, entries := [⟨7, -80, 1234, 1751000000000⟩] } := by
  decide +kernel

end SrtGateway.Protocol
