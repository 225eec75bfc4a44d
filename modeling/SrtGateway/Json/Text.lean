/-
The text that `json.dumps(v, sort_keys=True, separators=(",", ":"))` gives.

A scanner that knows only quotes, escapes and nesting finds where the value at the start of
a text ends.  Every value's text passes it unchanged (`dumps_closed`), so a text in which
values are separated by commas can be cut in one way only: arrays with the same text have
items with the same texts (`arrText_inj`), and objects with the same keys and the same text
have members with the same texts (`objText_inj`).
-/
import Mathlib.Data.List.Lex
import Mathlib.Data.List.Sort
import SrtGateway.Json.Value

namespace SrtGateway.Json

/-! ### Writing -/

/-- The decimal text of an integer. -/
def intText (n : ℤ) : List Char :=
  (if n < 0 then ['-'] else []) ++ Nat.toDigits 10 n.natAbs

def hexDigit (n : ℕ) : Char := Nat.digitChar (n % 16)

/-- The escape of one UTF-16 code unit. -/
def unitEscape (u : ℕ) : List Char :=
  ['\\', 'u', hexDigit (u / 4096), hexDigit (u / 256), hexDigit (u / 16), hexDigit u]

/-- What a code point becomes inside quotes, with `ensure_ascii`. -/
def escape (c : CodePoint) : List Char :=
  if c.val = 0x22 then ['\\', '"']
  else if c.val = 0x5c then ['\\', '\\']
  else if c.val = 0x0a then ['\\', 'n']
  else if c.val = 0x0d then ['\\', 'r']
  else if c.val = 0x09 then ['\\', 't']
  else if c.val = 0x0c then ['\\', 'f']
  else if c.val = 0x08 then ['\\', 'b']
  else if 0x20 ≤ c.val ∧ c.val < 0x7f then [Char.ofNat c.val]
  else if c.val < 0x10000 then unitEscape c.val
  else unitEscape (0xd800 + (c.val - 0x10000) / 1024) ++
    unitEscape (0xdc00 + (c.val - 0x10000) % 1024)

def quote (s : PyStr) : List Char := '"' :: s.flatMap escape ++ ['"']

/-- `",".join(ts)`. -/
def joinComma : List (List Char) → List Char
  | [] => []
  | [t] => t
  | t :: ts => t ++ ',' :: joinComma ts

def arrText (items : List (List Char)) : List Char := '[' :: joinComma items ++ [']']

def memberText (member : PyStr × List Char) : List Char := quote member.1 ++ ':' :: member.2

def objText (members : List (PyStr × List Char)) : List Char :=
  '{' :: joinComma (members.map memberText) ++ ['}']

/-- `sort_keys`. -/
def sortKeys (members : List (PyStr × List Char)) : List (PyStr × List Char) :=
  members.insertionSort fun a b => a.1 ≤ b.1

mutual

/-- `json.dumps`. -/
def dumps : Value → List Char
  | .null => ['n', 'u', 'l', 'l']
  | .bool true => ['t', 'r', 'u', 'e']
  | .bool false => ['f', 'a', 'l', 's', 'e']
  | .int n => intText n
  | .float x => x.text
  | .str s => quote s
  | .arr items => arrText (dumpsItems items)
  | .obj fields => objText (sortKeys (dumpsFields fields))

def dumpsItems : List Value → List (List Char)
  | [] => []
  | v :: vs => dumps v :: dumpsItems vs

def dumpsFields : List (PyStr × Value) → List (PyStr × List Char)
  | [] => []
  | (k, v) :: fields => (k, dumps v) :: dumpsFields fields

end

example : dumps (.obj [(pyStr "b", .int (-3)), (pyStr "a", .arr [.null, .str (pyStr "x\"")])]) =
    "\x7b\"a\":[null,\"x\\\"\"],\"b\":-3\x7d".toList := by decide

lemma dumpsItems_eq_map (items : List Value) : dumpsItems items = items.map dumps := by
  induction items with
  | nil => rfl
  | cons v vs ih => rw [dumpsItems, ih, List.map_cons]

lemma dumpsFields_eq_map (fields : List (PyStr × Value)) :
    dumpsFields fields = fields.map fun field => (field.1, dumps field.2) := by
  induction fields with
  | nil => rfl
  | cons field fields ih => rw [dumpsFields, ih, List.map_cons]

lemma dumps_int (n : ℤ) : dumps (.int n) = intText n := by
  rw [dumps]

lemma dumps_arr (items : List Value) : dumps (.arr items) = arrText (items.map dumps) := by
  rw [dumps, dumpsItems_eq_map]

lemma dumps_obj (fields : List (PyStr × Value)) :
    dumps (.obj fields) =
      objText (sortKeys (fields.map fun field => (field.1, dumps field.2))) := by
  rw [dumps, dumpsFields_eq_map]

/-! ### The scanner -/

/-- Where in a token the scanner is. -/
inductive Mode where
  | plain
  | quoted
  | escaped
deriving DecidableEq

/-- The scanner has passed a character at nesting depth `depth`; `none` at the character that
ends the value. -/
def scanStep : ℕ × Mode → Char → Option (ℕ × Mode)
  | (depth, .quoted), c =>
    some (depth, if c = '"' then .plain else if c = '\\' then .escaped else .quoted)
  | (depth, .escaped), _ => some (depth, .quoted)
  | (depth, .plain), c =>
    if c = '"' then some (depth, .quoted)
    else if c = '[' ∨ c = '{' then some (depth + 1, .plain)
    else if c = ']' ∨ c = '}' then if depth = 0 then none else some (depth - 1, .plain)
    else if c = ',' ∧ depth = 0 then none
    else some (depth, .plain)

def scan : ℕ × Mode → List Char → Option (ℕ × Mode) := List.foldlM scanStep

lemma scan_append {s s' : ℕ × Mode} {t u : List Char} (h : scan s t = some s') :
    scan s (t ++ u) = scan s' u := by
  rw [scan, List.foldlM_append, ← scan, h]
  rfl

lemma scan_cons {s p : ℕ × Mode} {c : Char} {t : List Char} (h : scanStep s c = some p) :
    scan s (c :: t) = scan p t := by
  rw [scan, List.foldlM_cons, h]
  rfl

/-- Two texts that the scanner passes, each ended by a character at which it stops, are equal
when they begin the same text. -/
lemma scan_unique {s p p' : ℕ × Mode} {t t' x x' : List Char} {c c' : Char}
    (ht : scan s t = some p) (hc : scanStep p c = none)
    (ht' : scan s t' = some p') (hc' : scanStep p' c' = none)
    (heq : t ++ c :: x = t' ++ c' :: x') : t = t' ∧ c = c' ∧ x = x' := by
  induction t generalizing s t' with
  | nil =>
    cases t' with
    | nil => simpa using heq
    | cons b t' =>
      -- the second text goes on where the scanner stops
      obtain ⟨rfl, -⟩ := List.cons.inj heq
      obtain rfl : s = p := by simpa [scan] using ht
      simp [scan, List.foldlM_cons, hc] at ht'
  | cons a t ih =>
    cases t' with
    | nil =>
      obtain ⟨rfl, -⟩ := List.cons.inj heq
      obtain rfl : s = p' := by simpa [scan] using ht'
      simp [scan, List.foldlM_cons, hc'] at ht
    | cons b t' =>
      obtain ⟨rfl, htail⟩ := List.cons.inj heq
      cases hstep : scanStep s a with
      | none => simp [scan, List.foldlM_cons, hstep] at ht
      | some s' =>
        rw [scan_cons hstep] at ht ht'
        obtain ⟨rfl, hrest⟩ := ih ht ht' htail
        exact ⟨rfl, hrest⟩

/-! ### Closed texts -/

/-- The text of a whole value: the scanner passes it at any depth, and is back where it
was. -/
structure Closed (t : List Char) : Prop where
  ne : t ≠ []
  scan_eq : ∀ depth, scan (depth, .plain) t = some (depth, .plain)

lemma scanStep_plain {c : Char} (h : structural c = false) (depth : ℕ) :
    scanStep (depth, .plain) c = some (depth, .plain) := by
  simp only [structural, List.mem_cons, List.not_mem_nil, or_false, not_or,
    decide_eq_false_iff_not] at h
  simp [scanStep, h]

lemma scan_plain {t : List Char} (h : ∀ c ∈ t, structural c = false) (depth : ℕ) :
    scan (depth, .plain) t = some (depth, .plain) := by
  induction t with
  | nil => rfl
  | cons c t ih =>
    rw [scan_cons (scanStep_plain (h c List.mem_cons_self) depth)]
    exact ih fun c' hc' => h c' (List.mem_cons_of_mem _ hc')

lemma structural_digit {c : Char} (h : c.isDigit = true) : structural c = false := by
  simp only [structural, List.mem_cons, List.not_mem_nil, or_false, decide_eq_false_iff_not]
  rintro (rfl | rfl | rfl | rfl | rfl | rfl) <;> simp at h

lemma intText_plain (n : ℤ) : ∀ c ∈ intText n, structural c = false := by
  intro c hc
  rw [intText, List.mem_append] at hc
  rcases hc with hc | hc
  · split at hc
    · obtain rfl := List.mem_singleton.mp hc
      decide
    · simp at hc
  · exact structural_digit (Nat.isDigit_of_mem_toDigits (by decide) (by decide) hc)

lemma intText_ne (n : ℤ) : intText n ≠ [] := by
  simp [intText, Nat.toDigits_ne_nil]

lemma intText_closed (n : ℤ) : Closed (intText n) := ⟨intText_ne n, scan_plain (intText_plain n)⟩

/-- Inside quotes the scanner passes a character that is neither a quote nor a backslash. -/
lemma scanStep_quoted {c : Char} (h1 : c ≠ '"') (h2 : c ≠ '\\') (depth : ℕ) :
    scanStep (depth, .quoted) c = some (depth, .quoted) := by
  simp [scanStep, h1, h2]

lemma hexDigit_ne (n : ℕ) : hexDigit n ≠ '"' ∧ hexDigit n ≠ '\\' := by
  have h : ∀ m < 16, Nat.digitChar m ≠ '"' ∧ Nat.digitChar m ≠ '\\' := by decide
  exact h _ (Nat.mod_lt _ (by decide))

lemma scan_unitEscape (u depth : ℕ) :
    scan (depth, .quoted) (unitEscape u) = some (depth, .quoted) := by
  have hd := fun m => scanStep_quoted (hexDigit_ne m).1 (hexDigit_ne m).2 depth
  rw [unitEscape, scan_cons (p := (depth, .escaped)) rfl, scan_cons (p := (depth, .quoted)) rfl,
    scan_cons (hd _), scan_cons (hd _), scan_cons (hd _), scan_cons (hd _)]
  rfl

lemma printable_ne : ∀ n < 0x7f, n ≠ 0x22 → n ≠ 0x5c →
    Char.ofNat n ≠ '"' ∧ Char.ofNat n ≠ '\\' := by
  decide

lemma scan_escape (c : CodePoint) (depth : ℕ) :
    scan (depth, .quoted) (escape c) = some (depth, .quoted) := by
  unfold escape
  split_ifs with h1 h2 _ _ _ _ _ h8
  · rfl
  · rfl
  · rfl
  · rfl
  · rfl
  · rfl
  · rfl
  · -- a printable character stands for itself
    obtain ⟨hq, hb⟩ := printable_ne c.val h8.2 h1 h2
    exact (scan_cons (scanStep_quoted hq hb depth)).trans rfl
  · exact scan_unitEscape _ depth
  · rw [scan_append (scan_unitEscape _ depth)]
    exact scan_unitEscape _ depth

lemma quote_closed (s : PyStr) : Closed (quote s) := by
  refine ⟨by simp [quote], fun depth => ?_⟩
  have hbody : scan (depth, .quoted) (s.flatMap escape) = some (depth, .quoted) := by
    induction s with
    | nil => rfl
    | cons c s ih => rw [List.flatMap_cons, scan_append (scan_escape c depth), ih]
  rw [quote, List.cons_append, scan_cons (p := (depth, .quoted)) rfl, scan_append hbody]
  rfl

lemma scan_joinComma {ts : List (List Char)} (h : ∀ t ∈ ts, Closed t) (depth : ℕ) :
    scan (depth + 1, .plain) (joinComma ts) = some (depth + 1, .plain) := by
  fun_induction joinComma ts with
  | case1 => rfl
  | case2 t => exact (h t (by simp)).scan_eq _
  | case3 t ts _ ih =>
    rw [scan_append ((h t (by simp)).scan_eq _), scan_cons (p := (depth + 1, .plain)) rfl]
    exact ih fun t' ht' => h t' (List.mem_cons_of_mem _ ht')

lemma arrText_closed {items : List (List Char)} (h : ∀ t ∈ items, Closed t) :
    Closed (arrText items) := by
  refine ⟨by simp [arrText], fun depth => ?_⟩
  rw [arrText, List.cons_append, scan_cons (p := (depth + 1, .plain)) rfl,
    scan_append (scan_joinComma h depth)]
  rfl

lemma memberText_closed {member : PyStr × List Char} (h : Closed member.2) :
    Closed (memberText member) := by
  refine ⟨by simp [memberText, quote], fun depth => ?_⟩
  rw [memberText, scan_append ((quote_closed _).scan_eq depth),
    scan_cons (p := (depth, .plain)) rfl, h.scan_eq]

lemma objText_closed {members : List (PyStr × List Char)} (h : ∀ m ∈ members, Closed m.2) :
    Closed (objText members) := by
  refine ⟨by simp [objText], fun depth => ?_⟩
  have hmem : ∀ t ∈ members.map memberText, Closed t := by
    intro t ht
    obtain ⟨m, hm, rfl⟩ := List.mem_map.mp ht
    exact memberText_closed (h m hm)
  rw [objText, List.cons_append, scan_cons (p := (depth + 1, .plain)) rfl,
    scan_append (scan_joinComma hmem depth)]
  rfl

lemma mem_sortKeys {members : List (PyStr × List Char)} {m : PyStr × List Char} :
    m ∈ sortKeys members ↔ m ∈ members :=
  (List.perm_insertionSort _ members).mem_iff

mutual

/-- **Every value's text is closed.** -/
lemma dumps_closed : ∀ v : Value, Closed (dumps v)
  | .null => ⟨by simp [dumps], scan_plain (by simp [dumps, structural])⟩
  | .bool true => ⟨by simp [dumps], scan_plain (by simp [dumps, structural])⟩
  | .bool false => ⟨by simp [dumps], scan_plain (by simp [dumps, structural])⟩
  | .int n => intText_closed n
  | .float x => ⟨x.text_ne, scan_plain x.text_plain⟩
  | .str s => quote_closed s
  | .arr items => arrText_closed (dumpsItems_closed items)
  | .obj fields => objText_closed fun m hm => dumpsFields_closed fields m (mem_sortKeys.mp hm)

lemma dumpsItems_closed : ∀ (items : List Value), ∀ t ∈ dumpsItems items, Closed t
  | [], _, ht => by simp [dumpsItems] at ht
  | v :: vs, t, ht => by
    rw [dumpsItems, List.mem_cons] at ht
    rcases ht with rfl | ht
    · exact dumps_closed v
    · exact dumpsItems_closed vs t ht

lemma dumpsFields_closed : ∀ (fields : List (PyStr × Value)), ∀ m ∈ dumpsFields fields, Closed m.2
  | [], _, hm => by simp [dumpsFields] at hm
  | (k, v) :: fields, m, hm => by
    rw [dumpsFields, List.mem_cons] at hm
    rcases hm with rfl | hm
    · exact dumps_closed v
    · exact dumpsFields_closed fields m hm

end

/-! ### Texts determine their parts -/

/-- What follows the first of several joined texts, up to the closing character. -/
lemma joinComma_cons (close : Char) (t : List Char) (ts : List (List Char)) :
    joinComma (t :: ts) ++ [close] =
      t ++ if ts = [] then [close] else ',' :: (joinComma ts ++ [close]) := by
  cases ts <;> simp [joinComma]

/-- A list of closed texts can be read back from what `joinComma` makes of it. -/
lemma joinComma_inj {close : Char} (hclose : scanStep (0, .plain) close = none)
    (hne : close ≠ ',') {ts us : List (List Char)} (hts : ∀ t ∈ ts, Closed t)
    (hus : ∀ u ∈ us, Closed u) (h : joinComma ts ++ [close] = joinComma us ++ [close]) :
    ts = us := by
  -- a character at which the scanner stops follows each text
  have hstop : ∀ vs : List (List Char), ∃ c x, scanStep (0, .plain) c = none ∧
      (if vs = [] then [close] else ',' :: (joinComma vs ++ [close])) = c :: x := by
    intro vs
    split
    · exact ⟨close, [], hclose, rfl⟩
    · exact ⟨',', _, rfl, rfl⟩
  induction ts generalizing us with
  | nil =>
    cases us with
    | nil => rfl
    | cons u us =>
      obtain ⟨c, x, hc, hx⟩ := hstop us
      rw [joinComma_cons, hx] at h
      have hu := hus u List.mem_cons_self
      have hnil := scan_unique (t := []) rfl hclose (hu.scan_eq 0) hc h
      exact absurd hnil.1.symm hu.ne
  | cons t ts ih =>
    have ht := hts t List.mem_cons_self
    obtain ⟨c, x, hc, hx⟩ := hstop ts
    cases us with
    | nil =>
      rw [joinComma_cons, hx] at h
      have hnil := scan_unique (ht.scan_eq 0) hc rfl hclose (h.trans (List.nil_append _).symm)
      exact absurd hnil.1 ht.ne
    | cons u us =>
      have hu := hus u List.mem_cons_self
      obtain ⟨c', x', hc', hx'⟩ := hstop us
      rw [joinComma_cons, joinComma_cons, hx, hx'] at h
      obtain ⟨rfl, rfl, rfl⟩ := scan_unique (ht.scan_eq 0) hc (hu.scan_eq 0) hc' h
      have hrest := hx.trans hx'.symm
      have htail : joinComma ts ++ [close] = joinComma us ++ [close] ∧ (ts = [] ↔ us = []) := by
        split_ifs at hrest with h1 h2 h2
        · exact ⟨by rw [h1, h2], by simp [h1, h2]⟩
        · exact absurd (List.cons.inj hrest).1 hne
        · exact absurd (List.cons.inj hrest).1.symm hne
        · exact ⟨(List.cons.inj hrest).2, by simp [h1, h2]⟩
      rw [ih (fun v hv => hts v (List.mem_cons_of_mem _ hv))
        (fun v hv => hus v (List.mem_cons_of_mem _ hv)) htail.1]

lemma arrText_inj {ts us : List (List Char)} (hts : ∀ t ∈ ts, Closed t)
    (hus : ∀ u ∈ us, Closed u) (h : arrText ts = arrText us) : ts = us :=
  joinComma_inj rfl (by decide) hts hus (List.cons.inj h).2

/-- Objects with the same keys, in the same order, and the same text have members with the
same texts. -/
lemma objText_inj {ms ns : List (PyStr × List Char)} (hkeys : ms.map Prod.fst = ns.map Prod.fst)
    (hms : ∀ m ∈ ms, Closed m.2) (hns : ∀ n ∈ ns, Closed n.2) (h : objText ms = objText ns) :
    ms = ns := by
  have hmem : ∀ (ls : List (PyStr × List Char)), (∀ m ∈ ls, Closed m.2) →
      ∀ t ∈ ls.map memberText, Closed t := by
    intro ls hls t ht
    obtain ⟨m, hm, rfl⟩ := List.mem_map.mp ht
    exact memberText_closed (hls m hm)
  have htexts : ms.map memberText = ns.map memberText :=
    joinComma_inj rfl (by decide) (hmem ms hms) (hmem ns hns) (List.cons.inj h).2
  clear hmem hms hns h
  induction ms generalizing ns with
  | nil => exact (List.map_eq_nil_iff.mp hkeys.symm).symm
  | cons m ms ih =>
    cases ns with
    | nil => simp at hkeys
    | cons n ns =>
      simp only [List.map_cons, List.cons.injEq] at hkeys htexts
      obtain ⟨hkey, hkeys⟩ := hkeys
      obtain ⟨htext, htexts⟩ := htexts
      have hval : m.2 = n.2 := by
        rw [memberText, memberText, hkey] at htext
        exact (List.cons.inj (List.append_cancel_left htext)).2
      rw [ih hkeys htexts, Prod.ext hkey hval]

lemma toDigits_inj {m n : ℕ} (h : Nat.toDigits 10 m = Nat.toDigits 10 n) : m = n := by
  rw [← Nat.ofDigitChars_ten_toDigits (n := m), h, Nat.ofDigitChars_ten_toDigits]

/-- The first character of a natural number's text is no sign. -/
lemma minus_cons_ne_toDigits (t : List Char) (n : ℕ) : '-' :: t ≠ Nat.toDigits 10 n := by
  intro h
  have hdigit : '-'.isDigit = true :=
    Nat.isDigit_of_mem_toDigits (b := 10) (n := n) (by decide) (by decide)
      (h ▸ List.mem_cons_self)
  exact absurd hdigit (by decide)

lemma intText_inj {m n : ℤ} (h : intText m = intText n) : m = n := by
  unfold intText at h
  split_ifs at h with hm hn hn
  · have := toDigits_inj (List.append_cancel_left h)
    omega
  · exact absurd h (minus_cons_ne_toDigits _ _)
  · exact absurd h.symm (minus_cons_ne_toDigits _ _)
  · have := toDigits_inj (List.append_cancel_left h)
    omega

end SrtGateway.Json
