/-
Packed records of integers, little-endian and unaligned.

A format is a list of fields, each unsigned or in two's complement and some bytes wide.
`pack` fails for a value out of a field's range and for a wrong number of values; on what it
accepts, `pack` and `unpack` are inverse to each other.

A table is a sequence of records of one format.  Reading at most `n` records gives the whole
ones that are there (`unpackTable_eq`); a packed table reads back (`unpackTable_packTable`), and
a table that was read packs to the bytes it was read from (`packTable_unpackTable`).
-/
import SrtGateway.Bytes.LittleEndian

namespace SrtGateway.Bytes

/-! ### Fields -/

/-- A field of a record, `width` bytes wide. -/
structure Field where
  signed : Bool
  width : ℕ
deriving DecidableEq

namespace Field

/-- How many values a field has. -/
def card (f : Field) : ℕ := 256 ^ f.width

/-- The least value. -/
def low (f : Field) : ℤ := if f.signed then -(f.card / 2 : ℕ) else 0

/-- The value fits the field. -/
def InRange (f : Field) (v : ℤ) : Prop := f.low ≤ v ∧ v < f.low + f.card

instance (f : Field) (v : ℤ) : Decidable (f.InRange v) := inferInstanceAs (Decidable (_ ∧ _))

def encode (f : Field) (v : ℤ) : List UInt8 := packLE f.width (v % f.card).toNat

def decode (f : Field) (bs : List UInt8) : ℤ :=
  let n : ℤ := unpackLE bs
  if n < f.low + f.card then n else n - f.card

variable {f : Field} {v : ℤ} {bs : List UInt8}

lemma card_pos (f : Field) : 0 < f.card := Nat.pow_pos (by decide)

@[simp] lemma length_encode (f : Field) (v : ℤ) : (f.encode v).length = f.width :=
  length_packLE _ _

lemma unpackLE_lt_card (h : bs.length = f.width) : (unpackLE bs : ℤ) < f.card := by
  rw [card, ← h]
  exact_mod_cast unpackLE_lt bs

/-- Zero is a value of every field. -/
lemma low_bounds (f : Field) : f.low ≤ 0 ∧ 0 < f.low + f.card := by
  have hpos := f.card_pos
  unfold low
  split_ifs
  · omega
  · omega

lemma decode_inRange (h : bs.length = f.width) : f.InRange (f.decode bs) := by
  have hlt := unpackLE_lt_card h
  have hnonneg : (0 : ℤ) ≤ unpackLE bs := Int.natCast_nonneg _
  obtain ⟨hlow, hhigh⟩ := f.low_bounds
  unfold InRange decode
  dsimp only
  split_ifs
  · omega
  · omega

/-- Decoding keeps the number up to multiples of the number of values. -/
lemma decode_emod (f : Field) (h : bs.length = f.width) : f.decode bs % f.card = unpackLE bs := by
  have hlt := unpackLE_lt_card h
  have hnonneg : (0 : ℤ) ≤ unpackLE bs := Int.natCast_nonneg _
  unfold decode
  dsimp only
  split_ifs
  · exact Int.emod_eq_of_lt hnonneg hlt
  · rw [Int.sub_emod_right, Int.emod_eq_of_lt hnonneg hlt]

lemma encode_decode (h : bs.length = f.width) : f.encode (f.decode bs) = bs := by
  rw [encode, decode_emod f h, Int.toNat_natCast, ← h]
  exact packLE_unpackLE bs

/-- Two values of a field that differ by a multiple of the number of values are equal. -/
lemma InRange.eq_of_emod {v' : ℤ} (h : f.InRange v) (h' : f.InRange v')
    (heq : v % f.card = v' % f.card) : v = v' := by
  have hdvd : (f.card : ℤ) ∣ v - v' :=
    Int.dvd_of_emod_eq_zero (Int.emod_eq_emod_iff_emod_sub_eq_zero.mp heq)
  have habs : |v - v'| < f.card := by
    obtain ⟨hlow, hhigh⟩ := h
    obtain ⟨hlow', hhigh'⟩ := h'
    rw [abs_lt]
    constructor <;> omega
  have hzero := Int.eq_zero_of_abs_lt_dvd hdvd habs
  omega

lemma decode_encode (h : f.InRange v) : f.decode (f.encode v) = v := by
  refine (decode_inRange (length_encode f v)).eq_of_emod h ?_
  have hnonneg : 0 ≤ v % (f.card : ℤ) := Int.emod_nonneg _ (by exact_mod_cast f.card_pos.ne')
  have hlt : v % (f.card : ℤ) < f.card := Int.emod_lt_of_pos _ (by exact_mod_cast f.card_pos)
  rw [decode_emod f (length_encode f v), encode, unpackLE_packLE, ← card,
    Nat.mod_eq_of_lt (by omega)]
  omega

end Field

/-! ### Records -/

/-- The number of bytes of a record. -/
def size (fmt : List Field) : ℕ := (fmt.map Field.width).sum

/-- `struct.pack`; `none` stands for its error. -/
def pack : List Field → List ℤ → Option (List UInt8)
  | [], [] => some []
  | f :: fmt, v :: vs => if f.InRange v then (f.encode v ++ ·) <$> pack fmt vs else none
  | _, _ => none

/-- `struct.unpack`, of as many bytes as the format asks for. -/
def unpack : List Field → List UInt8 → List ℤ
  | [], _ => []
  | f :: fmt, bs => f.decode (bs.take f.width) :: unpack fmt (bs.drop f.width)

@[simp] lemma size_cons (f : Field) (fmt : List Field) : size (f :: fmt) = f.width + size fmt := by
  simp [size]

/-- `pack` succeeds just on the values that fit. -/
lemma pack_isSome_iff {fmt : List Field} {vs : List ℤ} :
    (pack fmt vs).isSome ↔ List.Forall₂ Field.InRange fmt vs := by
  induction fmt generalizing vs with
  | nil => cases vs <;> simp [pack]
  | cons f fmt ih =>
    cases vs with
    | nil => simp [pack]
    | cons v vs =>
      rw [pack, List.forall₂_cons, ← ih]
      split_ifs with hv
      · simp [hv]
      · simp [hv]

/-- **What was packed unpacks to the same values.** -/
lemma unpack_pack {fmt : List Field} {vs : List ℤ} {bs : List UInt8} (h : pack fmt vs = some bs) :
    unpack fmt bs = vs ∧ bs.length = size fmt := by
  induction fmt generalizing vs bs with
  | nil =>
    cases vs with
    | nil =>
      obtain rfl := Option.some.inj h
      exact ⟨rfl, rfl⟩
    | cons v vs => cases h
  | cons f fmt ih =>
    cases vs with
    | nil => cases h
    | cons v vs =>
      rw [pack] at h
      split_ifs at h with hv
      obtain ⟨tail, htail, rfl⟩ := Option.map_eq_some_iff.mp h
      obtain ⟨hvs, hlen⟩ := ih htail
      have htake : (f.encode v ++ tail).take f.width = f.encode v := by
        rw [← f.length_encode v, List.take_left]
      have hdrop : (f.encode v ++ tail).drop f.width = tail := by
        rw [← f.length_encode v, List.drop_left]
      rw [unpack, htake, hdrop, hvs, Field.decode_encode hv]
      exact ⟨rfl, by rw [List.length_append, f.length_encode, hlen, size_cons]⟩

/-- **What was unpacked packs to the same bytes.** -/
lemma pack_unpack {fmt : List Field} {bs : List UInt8} (h : bs.length = size fmt) :
    pack fmt (unpack fmt bs) = some bs := by
  induction fmt generalizing bs with
  | nil => rw [List.length_eq_zero_iff.mp h, unpack, pack]
  | cons f fmt ih =>
    rw [size_cons] at h
    have htake : (bs.take f.width).length = f.width := by
      rw [List.length_take, h]
      omega
    have hdrop : (bs.drop f.width).length = size fmt := by
      rw [List.length_drop, h]
      omega
    rw [unpack, pack, if_pos (Field.decode_inRange htake), ih hdrop, Field.encode_decode htake]
    exact congrArg some (List.take_append_drop _ _)

/-- Unpacking reads only as many bytes as the format asks for. -/
lemma unpack_take (fmt : List Field) (bs : List UInt8) :
    unpack fmt (bs.take (size fmt)) = unpack fmt bs := by
  induction fmt generalizing bs with
  | nil => rfl
  | cons f fmt ih =>
    have hfirst : (bs.take (f.width + size fmt)).take f.width = bs.take f.width := by
      rw [List.take_take, min_eq_left (Nat.le_add_right _ _)]
    have hrest : (bs.take (f.width + size fmt)).drop f.width =
        (bs.drop f.width).take (size fmt) := by
      rw [List.drop_take, Nat.add_sub_cancel_left]
    rw [size_cons, unpack, hfirst, hrest, ih, unpack]

/-! ### Tables -/

/-- The records one after another. -/
def packTable (fmt : List Field) : List (List ℤ) → Option (List UInt8)
  | [] => some []
  | vs :: rows => do
    let record ← pack fmt vs
    let records ← packTable fmt rows
    return record ++ records

/-- The records at the start of some bytes, at most `n` of them and only whole ones. -/
def unpackTable (fmt : List Field) : ℕ → List UInt8 → List (List ℤ)
  | 0, _ => []
  | n + 1, bs =>
    if size fmt ≤ bs.length then unpack fmt bs :: unpackTable fmt n (bs.drop (size fmt)) else []

/-- **Reading a table** gives as many records as fit, each from its own bytes. -/
lemma unpackTable_eq {fmt : List Field} (h : 0 < size fmt) (n : ℕ) (bs : List UInt8) :
    unpackTable fmt n bs = (List.range (min n (bs.length / size fmt))).map fun i =>
      unpack fmt (bs.drop (size fmt * i)) := by
  induction n generalizing bs with
  | zero => simp [unpackTable]
  | succ n ih =>
    rw [unpackTable]
    split_ifs with hfits
    · have hcount : min (n + 1) (bs.length / size fmt) =
          min n ((bs.drop (size fmt)).length / size fmt) + 1 := by
        rw [List.length_drop, Nat.div_eq_sub_div h hfits, Nat.succ_min_succ]
      rw [ih, hcount, List.range_succ_eq_map, List.map_cons, List.map_map, Nat.mul_zero,
        List.drop_zero]
      refine congrArg _ (List.map_congr_left fun i _ => ?_)
      rw [List.drop_drop, Function.comp_apply, Nat.succ_eq_add_one, Nat.mul_add_one, Nat.add_comm]
    · rw [Nat.div_eq_of_lt (not_le.mp hfits), Nat.min_zero, List.range_zero, List.map_nil]

/-- A table can be packed just when each of its records can. -/
lemma packTable_isSome_iff {fmt : List Field} {rows : List (List ℤ)} :
    (packTable fmt rows).isSome ↔ ∀ vs ∈ rows, List.Forall₂ Field.InRange fmt vs := by
  induction rows with
  | nil => simp [packTable]
  | cons vs rows ih =>
    rw [List.forall_mem_cons, ← ih, ← pack_isSome_iff, packTable]
    cases pack fmt vs <;> cases packTable fmt rows <;> simp

/-- **What was packed as a table reads back**, whatever follows it. -/
lemma unpackTable_packTable {fmt : List Field} {rows : List (List ℤ)} {bs : List UInt8}
    (h : packTable fmt rows = some bs) (rest : List UInt8) :
    unpackTable fmt rows.length (bs ++ rest) = rows ∧ bs.length = size fmt * rows.length := by
  induction rows generalizing bs with
  | nil =>
    obtain rfl := Option.some.inj h
    exact ⟨rfl, rfl⟩
  | cons vs rows ih =>
    obtain ⟨record, hrecord, h⟩ := Option.bind_eq_some_iff.mp h
    obtain ⟨records, hrecords, h⟩ := Option.bind_eq_some_iff.mp h
    obtain rfl := Option.some.inj h
    obtain ⟨hvs, hlen⟩ := unpack_pack hrecord
    obtain ⟨hrows, hlens⟩ := ih hrecords
    have hfirst : unpack fmt (record ++ (records ++ rest)) = vs := by
      rw [← unpack_take, ← hlen, List.take_left, hvs]
    have hdrop : (record ++ (records ++ rest)).drop (size fmt) = records ++ rest := by
      rw [← hlen, List.drop_left]
    have hfits : size fmt ≤ (record ++ (records ++ rest)).length := by
      rw [List.length_append, hlen]
      omega
    rw [List.append_assoc, List.length_cons, unpackTable, if_pos hfits, hfirst, hdrop, hrows]
    exact ⟨rfl, by rw [List.length_append, hlen, hlens, Nat.mul_add_one, Nat.add_comm]⟩

/-- **What was unpacked as a table packs to the bytes of its records.** -/
lemma packTable_unpackTable (fmt : List Field) (n : ℕ) (bs : List UInt8) :
    packTable fmt (unpackTable fmt n bs) =
      some (bs.take (size fmt * (unpackTable fmt n bs).length)) := by
  induction n generalizing bs with
  | zero => rfl
  | succ n ih =>
    rw [unpackTable]
    split
    · rename_i hfits
      have hrecord : pack fmt (unpack fmt bs) = some (bs.take (size fmt)) := by
        rw [← unpack_take, pack_unpack (List.length_take_of_le hfits)]
      rw [packTable, hrecord, ih, List.length_cons, Nat.mul_add_one, Nat.add_comm, List.take_add]
      rfl
    · rfl

/-- The packed form determines the table. -/
lemma packTable_inj {fmt : List Field} (h : 0 < size fmt) {rows rows' : List (List ℤ)}
    {bs : List UInt8} (hrows : packTable fmt rows = some bs)
    (hrows' : packTable fmt rows' = some bs) : rows = rows' := by
  obtain ⟨hread, hlen⟩ := unpackTable_packTable hrows []
  obtain ⟨hread', hlen'⟩ := unpackTable_packTable hrows' []
  rw [← hread, ← hread', Nat.eq_of_mul_eq_mul_left h (hlen.symm.trans hlen')]

end SrtGateway.Bytes
