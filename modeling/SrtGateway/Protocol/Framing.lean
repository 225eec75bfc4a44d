/-
The serial wire codec of the gateway: framing only (`protocol.py`).

    [MAGIC 0xA5][TYPE u8][LEN u16 LE][PAYLOAD][CRC16 LE]

The CRC is CRC-16/CCITT-FALSE over TYPE | LEN | PAYLOAD.  This file holds the encoder, the
incremental de-framer as the program runs it, and the facts about the CRC and the byte
accesses that the later files use.
-/
import SrtGateway.Bytes.LittleEndian
import SrtGateway.Errors

namespace SrtGateway.Protocol

open SrtGateway.Bytes

def MAGIC : UInt8 := 0xA5
def SERIAL_OVERHEAD : ℕ := 6
def SERIAL_MAX_PAYLOAD : ℕ := 2048

/-- A frame as the de-framer returns it: its type and its payload. -/
abbrev Frame : Type := UInt8 × List UInt8

/-- `data[i]`. -/
def byteAt (data : List UInt8) (i : ℕ) : UInt8 := data.getD i 0

/-- `data[start:stop]`. -/
def slice (data : List UInt8) (start stop : ℕ) : List UInt8 :=
  (data.drop start).take (stop - start)

/-! ### CRC-16/CCITT-FALSE -/

/-- One of the eight shifts made for a byte. -/
def crcShift (crc : ℕ) : ℕ :=
  if crc &&& 0x8000 ≠ 0 then ((crc <<< 1) ^^^ 0x1021) &&& 0xFFFF else (crc <<< 1) &&& 0xFFFF

/-- The body of the loop over the bytes. -/
def crcByte (crc : ℕ) (b : UInt8) : ℕ := crcShift^[8] (crc ^^^ (b.toNat <<< 8))

/-- `crc16_ccitt_false(data, start, end)`. -/
def crc16CcittFalse (data : List UInt8) (start stop : ℕ) : ℕ :=
  (List.range' start (stop - start)).foldl (fun crc i => crcByte crc (byteAt data i)) 0xFFFF
    &&& 0xFFFF

example : crc16CcittFalse [0x31, 0x32, 0x33, 0x34, 0x35, 0x36, 0x37, 0x38, 0x39] 0 9 = 0x29B1 := by
  decide +kernel

/-! ### Generic framing -/

/-- The bytes up to the CRC, as `encode_frame` collects them in `out`. -/
def frameHead (frameType : ℕ) (payload : List UInt8) : List UInt8 :=
  MAGIC :: UInt8.ofNat (frameType &&& 0xFF) :: (packLE 2 payload.length ++ payload)

/-- `encode_frame`: MAGIC, TYPE, LEN, PAYLOAD, CRC. -/
def encodeFrame (frameType : ℕ) (payload : List UInt8) : Except PyErr (List UInt8) :=
  if payload.length > SERIAL_MAX_PAYLOAD then
    .error (.valueError "serial payload too large")
  else
    let out := frameHead frameType payload
    let crc := crc16CcittFalse out 1 out.length
    .ok (out ++ packLE 2 crc)

/-! ### The incremental de-framer -/

/-- The state of a `FrameParser`: the bytes not yet consumed and the error count. -/
structure FrameParser where
  buf : List UInt8
  crcErrors : ℕ
deriving DecidableEq, Repr

/-- `FrameParser()`. -/
def FrameParser.new : FrameParser := ⟨[], 0⟩

/-- Where the inner `while` stops: at the next MAGIC byte, or at the end. -/
def resync (buf : List UInt8) (cursor : ℕ) : ℕ :=
  cursor + ((buf.drop cursor).takeWhile (· ≠ MAGIC)).length

/-- The value of the LEN field of a frame whose MAGIC byte stands at `cursor`. -/
def lenField (buf : List UInt8) (cursor : ℕ) : ℕ :=
  le16 (byteAt buf (cursor + 2)) (byteAt buf (cursor + 3))

/-- The outer `while` of `push`, with the cursor, `crc_errors` and the frames found so far.
Each round that does not leave the loop moves the cursor on, so a fuel above the number of
unread bytes is never used up (`pushLoop_scans`). -/
def pushLoop (buf : List UInt8) : ℕ → ℕ → ℕ → List Frame → ℕ × ℕ × List Frame
  | 0, cursor, crcErrors, frames => (cursor, crcErrors, frames)
  | fuel + 1, cursor₀, crcErrors, frames =>
    let n := buf.length
    let cursor := resync buf cursor₀
    if n - cursor < 4 then (cursor, crcErrors, frames)
    else
      let length := lenField buf cursor
      if length > SERIAL_MAX_PAYLOAD then
        -- impossible length: a false MAGIC
        pushLoop buf fuel (cursor + 1) (crcErrors + 1) frames
      else
        let total := length + SERIAL_OVERHEAD
        if n - cursor < total then (cursor, crcErrors, frames)
        else
          let crcCalc := crc16CcittFalse buf (cursor + 1) (cursor + 4 + length)
          let crcRx := le16 (byteAt buf (cursor + 4 + length)) (byteAt buf (cursor + 5 + length))
          if crcCalc = crcRx then
            let ftype := byteAt buf (cursor + 1)
            let payload := slice buf (cursor + 4) (cursor + 4 + length)
            pushLoop buf fuel (cursor + total) crcErrors (frames ++ [(ftype, payload)])
          else
            -- bad CRC: drop the leading MAGIC and resynchronise
            pushLoop buf fuel (cursor + 1) (crcErrors + 1) frames

/-- `FrameParser.push`: append a chunk, return the frames it completes. -/
def FrameParser.push (p : FrameParser) (chunk : List UInt8) : List Frame × FrameParser :=
  let buf := p.buf ++ chunk
  let (cursor, crcErrors, frames) := pushLoop buf (buf.length + 1) 0 p.crcErrors []
  (frames, ⟨if cursor < buf.length then buf.drop cursor else [], crcErrors⟩)

/-- Push chunks one after the other; the frames are returned in one list. -/
def FrameParser.pushAll (p : FrameParser) : List (List UInt8) → List Frame × FrameParser
  | [] => ([], p)
  | chunk :: chunks =>
    let (frames, p') := p.push chunk
    let (frames', p'') := p'.pushAll chunks
    (frames ++ frames', p'')

/-! ### Byte accesses -/

lemma byteAt_drop (data : List UInt8) (c i : ℕ) : byteAt (data.drop c) i = byteAt data (c + i) := by
  simp [byteAt, List.getD_eq_getElem?_getD]

lemma byteAt_append_left {l : List UInt8} (m : List UInt8) {i : ℕ} (h : i < l.length) :
    byteAt (l ++ m) i = byteAt l i := by
  simp [byteAt, List.getD_eq_getElem?_getD, List.getElem?_append_left h]

lemma byteAt_append_right (l m : List UInt8) (i : ℕ) :
    byteAt (l ++ m) (l.length + i) = byteAt m i := by
  simp [byteAt, List.getD_eq_getElem?_getD, List.getElem?_append_right]

lemma slice_add (data : List UInt8) (s n : ℕ) : slice data s (s + n) = (data.drop s).take n := by
  rw [slice, Nat.add_sub_cancel_left]

lemma slice_whole (data : List UInt8) : slice data 0 data.length = data := by simp [slice]

lemma slice_drop (data : List UInt8) (c s e : ℕ) :
    slice (data.drop c) s e = slice data (c + s) (c + e) := by
  simp only [slice, List.drop_drop]
  congr 1
  omega

lemma slice_append_left {l : List UInt8} (m : List UInt8) {s e : ℕ} (h : e ≤ l.length) :
    slice (l ++ m) s e = slice l s e := by
  by_cases hse : s ≤ e
  · rw [slice, slice, List.drop_append_of_le_length (by omega),
      List.take_append_of_le_length (by rw [List.length_drop]; omega)]
  · simp [slice, Nat.sub_eq_zero_of_le (by omega : e ≤ s)]

/-! ### The CRC of a slice -/

/-- The CRC reads nothing but the slice it is asked for. -/
lemma crc16_congr {d d' : List UInt8} {s s' n : ℕ}
    (h : ∀ i < n, byteAt d (s + i) = byteAt d' (s' + i)) :
    crc16CcittFalse d s (s + n) = crc16CcittFalse d' s' (s' + n) := by
  have key : ∀ k init, (∀ i < k, byteAt d (s + i) = byteAt d' (s' + i)) →
      (List.range' s k).foldl (fun crc i => crcByte crc (byteAt d i)) init =
        (List.range' s' k).foldl (fun crc i => crcByte crc (byteAt d' i)) init := by
    intro k
    induction k with
    | zero => intro init _; rfl
    | succ k ih =>
      intro init hk
      rw [List.range'_1_concat, List.range'_1_concat, List.foldl_append, List.foldl_append,
        ih init (fun i hi => hk i (by omega))]
      simp only [List.foldl_cons, List.foldl_nil]
      rw [hk k (by omega)]
  simp only [crc16CcittFalse, Nat.add_sub_cancel_left]
  rw [key n _ h]

lemma crc16_drop (data : List UInt8) (c s n : ℕ) :
    crc16CcittFalse (data.drop c) s (s + n) = crc16CcittFalse data (c + s) (c + s + n) :=
  crc16_congr fun i _ => by rw [byteAt_drop, Nat.add_assoc]

lemma crc16_append_left {l : List UInt8} (m : List UInt8) {s n : ℕ} (h : s + n ≤ l.length) :
    crc16CcittFalse (l ++ m) s (s + n) = crc16CcittFalse l s (s + n) :=
  crc16_congr fun i hi => byteAt_append_left m (by omega)

/-- The CRC fits its two bytes. -/
lemma crc16_lt (data : List UInt8) (s e : ℕ) : crc16CcittFalse data s e < 256 ^ 2 :=
  lt_of_le_of_lt Nat.and_le_right (by decide)

end SrtGateway.Protocol
