/-
JSON values as a Python program holds them, and the conversions `int()` and `bool()`.

A string is a sequence of code points, surrogates included.  An object is its list of items,
in order.
-/
import Mathlib.Data.Rat.Defs
import SrtGateway.Errors

namespace SrtGateway.Json

/-! ### Values -/

abbrev CodePoint : Type := Fin 0x110000

/-- A Python string. -/
abbrev PyStr : Type := List CodePoint

/-- The Python string with the characters of `s`. -/
def pyStr (s : String) : PyStr := s.toList.map fun c => Fin.ofNat 0x110000 c.toNat

/-- The value of a float; zero has two forms, which no operation here tells apart. -/
inductive FloatValue where
  | nan
  | inf (neg : Bool)
  | finite (x : ℚ)

/-- The characters that separate and enclose values in a JSON text. -/
def structural (c : Char) : Bool := c ∈ ['"', ',', '[', ']', '{', '}']

/-- A float: its value and what `json.dumps` writes for it. -/
structure PyFloat where
  value : FloatValue
  text : List Char
  text_ne : text ≠ []
  text_plain : ∀ c ∈ text, structural c = false

inductive Value where
  | null
  | bool (b : Bool)
  | int (n : ℤ)
  | float (x : PyFloat)
  | str (s : PyStr)
  | arr (items : List Value)
  | obj (fields : List (PyStr × Value))

/-- `d.get(key)` on the items of a dict. -/
def lookup (fields : List (PyStr × Value)) (key : String) : Option Value :=
  (fields.find? fun field => field.1 == pyStr key).map Prod.snd

/-! ### `int(s)` for a string -/

/-- The decimal zeros of Unicode; the other digits of a script follow its zero. -/
def decimalZeros : List ℕ :=
  [0x30, 0x660, 0x6f0, 0x7c0, 0x966, 0x9e6, 0xa66, 0xae6, 0xb66, 0xbe6, 0xc66, 0xce6, 0xd66,
    0xde6, 0xe50, 0xed0, 0xf20, 0x1040, 0x1090, 0x17e0, 0x1810, 0x1946, 0x19d0, 0x1a80, 0x1a90,
    0x1b50, 0x1bb0, 0x1c40, 0x1c50, 0xa620, 0xa8d0, 0xa900, 0xa9d0, 0xa9f0, 0xaa50, 0xabf0,
    0xff10, 0x104a0, 0x10d30, 0x11066, 0x110f0, 0x11136, 0x111d0, 0x112f0, 0x11450, 0x114d0,
    0x11650, 0x116c0, 0x11730, 0x118e0, 0x11950, 0x11c50, 0x11d50, 0x11da0, 0x16a60, 0x16ac0,
    0x16b50, 0x1d7ce, 0x1d7d8, 0x1d7e2, 0x1d7ec, 0x1d7f6, 0x1e140, 0x1e2f0, 0x1e950, 0x1fbf0]

def digitValue (c : CodePoint) : Option ℕ :=
  (decimalZeros.find? fun z => z ≤ c.val && c.val < z + 10).map (c.val - ·)

/-- The code points that `int` skips around a number. -/
def isIntSpace (c : CodePoint) : Bool :=
  (9 ≤ c.val && c.val ≤ 13) || (0x2000 ≤ c.val && c.val ≤ 0x200a) ||
    c.val ∈ [0x20, 0x85, 0xa0, 0x1680, 0x2028, 0x2029, 0x202f, 0x205f, 0x3000]

/-- The digits of a number in which single underscores may stand between digits. -/
def digitRun : Bool → PyStr → Option (List ℕ)
  | afterDigit, [] => if afterDigit then some [] else none
  | afterDigit, c :: cs =>
    match digitValue c with
    | some d => (digitRun true cs).map (d :: ·)
    | none => if c.val = 0x5f ∧ afterDigit then digitRun false cs else none

/-- The most digits that `int` accepts in a string. -/
def INT_MAX_STR_DIGITS : ℕ := 4300

/-- `int(s)` for a string. -/
def intOfStr (s : PyStr) : Except PyErr ℤ :=
  let s := (s.dropWhile isIntSpace).reverse.dropWhile isIntSpace |>.reverse
  let (sign, s) : ℤ × PyStr := match s with
    | [] => (1, [])
    | c :: cs => if c.val = 0x2d then (-1, cs) else if c.val = 0x2b then (1, cs) else (1, c :: cs)
  match digitRun false s with
  | none => .error (.valueError "invalid literal for int() with base 10")
  | some ds =>
    if INT_MAX_STR_DIGITS < ds.length then
      .error (.valueError "Exceeds the limit for integer string conversion")
    else .ok (sign * (ds.foldl (fun n d => 10 * n + d) 0 : ℕ))

/-! ### `int` and `bool` -/

/-- `int(x)` for a float: truncation. -/
def FloatValue.toInt : FloatValue → Except PyErr ℤ
  | .nan => .error (.valueError "cannot convert float NaN to integer")
  | .inf _ => .error .overflowError
  | .finite x => .ok (x.num.tdiv x.den)

/-- `int(v)`. -/
def Value.toInt : Value → Except PyErr ℤ
  | .null => .error .typeError
  | .bool b => .ok b.toInt
  | .int n => .ok n
  | .float x => x.value.toInt
  | .str s => intOfStr s
  | .arr _ => .error .typeError
  | .obj _ => .error .typeError

/-- `bool(v)`. -/
def Value.truthy : Value → Bool
  | .null => false
  | .bool b => b
  | .int n => n ≠ 0
  | .float x => match x.value with
    | .finite q => q ≠ 0
    | _ => true
  | .str s => s ≠ []
  | .arr items => !items.isEmpty
  | .obj fields => !fields.isEmpty

/-- `v[key]`. -/
def Value.getItem (v : Value) (key : String) : Except PyErr Value :=
  match v with
  | .obj fields => match lookup fields key with
    | some x => .ok x
    | none => .error .keyError
  | _ => .error .typeError

/-- The items that `for x in v` goes through; iterating a string or a dict gives strings. -/
def Value.iterate : Value → Except PyErr (List Value)
  | .arr items => .ok items
  | .str s => .ok (s.map fun c => .str [c])
  | .obj fields => .ok (fields.map fun field => .str field.1)
  | _ => .error .typeError

example : intOfStr (pyStr " -1_024\n") = .ok (-1024) := by decide
example : intOfStr (pyStr "1__0") =
    .error (.valueError "invalid literal for int() with base 10") := by decide

end SrtGateway.Json
