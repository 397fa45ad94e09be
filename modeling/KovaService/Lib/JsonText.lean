import Mathlib.Data.String.Basic

/-!
String literals of JSON, as Go's `encoding/json` writes and reads them.

A text that is valid UTF-8 is the list of its characters.  The writer escapes control characters,
quotes, backslashes, the three characters that matter to HTML and the two line separators of
JavaScript; the reader accepts every escape of the grammar and replaces half a surrogate pair by
U+FFFD.
-/

namespace KovaService.Lib.Json

variable (c : Char)

def hexDigit (n : Nat) : Char :=
  if n < 10 then Char.ofNat (48 + n) else Char.ofNat (87 + n)

def hexValue : Option Nat :=
  if '0' ≤ c ∧ c ≤ '9' then some (c.toNat - 48)
  else if 'a' ≤ c ∧ c ≤ 'f' then some (c.toNat - 87)
  else if 'A' ≤ c ∧ c ≤ 'F' then some (c.toNat - 55)
  else none

def hex4 (a b c d : Char) : Option Nat := do
  let w ← hexValue a
  let x ← hexValue b
  let y ← hexValue c
  let z ← hexValue d
  pure (((w * 16 + x) * 16 + y) * 16 + z)

def unicodeEscape (n : Nat) : List Char :=
  ['\\', 'u', hexDigit (n / 4096 % 16), hexDigit (n / 256 % 16), hexDigit (n / 16 % 16),
    hexDigit (n % 16)]

def shortEscape : Option Char :=
  if c = '"' ∨ c = '\\' then some c
  else if c = '\x08' then some 'b'
  else if c = '\x0c' then some 'f'
  else if c = '\n' then some 'n'
  else if c = '\r' then some 'r'
  else if c = '\t' then some 't'
  else none

def longEscaped : Bool :=
  c.toNat < 0x20 || c == '<' || c == '>' || c == '&' || c.toNat == 0x2028 || c.toNat == 0x2029

def escapeChar : List Char :=
  match shortEscape c with
  | some e => ['\\', e]
  | none => if longEscaped c then unicodeEscape c.toNat else [c]

def escape (s : List Char) : List Char := s.flatMap escapeChar

def quote (s : String) : List Char := '"' :: escape s.toList ++ ['"']

def simpleEscape (e : Char) : Option Char :=
  if e = '"' ∨ e = '\\' ∨ e = '/' then some e
  else if e = 'b' then some '\x08'
  else if e = 'f' then some '\x0c'
  else if e = 'n' then some '\n'
  else if e = 'r' then some '\r'
  else if e = 't' then some '\t'
  else none

def isHigh (n : Nat) : Bool := 0xD800 ≤ n && n ≤ 0xDBFF

def isLow (n : Nat) : Bool := 0xDC00 ≤ n && n ≤ 0xDFFF

def replacementChar : Char := '�'

def pairValue (high low : Nat) : Nat := 0x10000 + (high - 0xD800) * 1024 + (low - 0xDC00)

def consText (r : List Char × List Char) : List Char × List Char := (c :: r.1, r.2)

def lowAhead : List Char → Option Nat
  | '\\' :: 'u' :: a :: b :: c :: d :: _ => (hex4 a b c d).filter isLow
  | _ => none

/-- The character a `\uXXXX` escape of value `v` stands for, and the characters it takes after its
backslash; half a pair is replaced. -/
def decodeUnit (v : Nat) (rest : List Char) : Char × Nat :=
  if isHigh v then
    match lowAhead rest with
    | some low => (Char.ofNat (pairValue v low), 11)
    | none => (replacementChar, 5)
  else if isLow v then (replacementChar, 5)
  else (Char.ofNat v, 5)

def readEscape : List Char → Option (Char × Nat)
  | 'u' :: a :: b :: c :: d :: rest => (hex4 a b c d).map fun v => decodeUnit v rest
  | e :: _ => (simpleEscape e).map fun c => (c, 1)
  | [] => none

/-- Read a string literal after its opening quote: its value and what follows the closing quote.
The first `skip` characters belong to an escape that has been read. -/
def scanFrom : (skip : Nat) → List Char → Option (List Char × List Char)
  | _, [] => none
  | skip + 1, _ :: cs => scanFrom skip cs
  | 0, c :: cs =>
    if c = '"' then some ([], cs)
    else if c = '\\' then
      match readEscape cs with
      | none => none
      | some (d, used) => (scanFrom used cs).map (consText d)
    else if c.toNat < 0x20 then none
    else (scanFrom 0 cs).map (consText c)

def scanString (cs : List Char) : Option (List Char × List Char) := scanFrom 0 cs

theorem scanString_escaped {s rest : List Char} {d : Char}
    (h : readEscape (s ++ rest) = some (d, s.length)) :
    scanString ('\\' :: (s ++ rest)) = (scanString rest).map (consText d) := by
  have hskip : ∀ cs : List Char, scanFrom cs.length (cs ++ rest) = scanFrom 0 rest := by
    intro cs
    induction cs with
    | nil => rfl
    | cons c cs ih => exact ih
  rw [scanString, scanFrom, if_neg (by decide), if_pos rfl, h]
  exact congrArg (Option.map (consText d)) (hskip s)

theorem scanString_plain {c : Char} {cs : List Char} (hq : c ≠ '"') (hb : c ≠ '\\')
    (hc : ¬ c.toNat < 0x20) : scanString (c :: cs) = (scanString cs).map (consText c) := by
  rw [scanString, scanFrom, if_neg hq, if_neg hb, if_neg hc]
  rfl

theorem hexValue_hexDigit : ∀ n < 16, hexValue (hexDigit n) = some n := by decide

theorem hex4_unicodeEscape {n : Nat} (hn : n < 65536) :
    hex4 (hexDigit (n / 4096 % 16)) (hexDigit (n / 256 % 16)) (hexDigit (n / 16 % 16))
      (hexDigit (n % 16)) = some n := by
  have hv : ∀ m, hexValue (hexDigit (m % 16)) = some (m % 16) := fun m =>
    hexValue_hexDigit _ (Nat.mod_lt m (by decide))
  simp only [hex4, hv, Option.bind_eq_bind, Option.bind_some, Option.pure_def, Option.some.injEq]
  omega

theorem scanString_unicodeEscape {c : Char} (hn : c.toNat < 0xD800) (rest : List Char) :
    scanString (unicodeEscape c.toNat ++ rest) = (scanString rest).map (consText c) := by
  have hhex := hex4_unicodeEscape (n := c.toNat) (by omega)
  have hhigh : isHigh c.toNat = false := by simp [isHigh]; omega
  have hlow : isLow c.toNat = false := by simp [isLow]; omega
  refine scanString_escaped (s := (unicodeEscape c.toNat).tail) ?_
  simp [unicodeEscape, readEscape, hhex, decodeUnit, hhigh, hlow]

theorem shortEscape_simple {c e : Char} (h : shortEscape c = some e) :
    e ≠ 'u' ∧ simpleEscape e = some c := by
  unfold shortEscape at h
  split_ifs at h with h1 h2 h3 h4 h5 h6
  all_goals cases h
  · rcases h1 with rfl | rfl <;> decide
  all_goals subst_vars; decide

theorem longEscaped_lt {c : Char} (h : longEscaped c) : c.toNat < 0xD800 := by
  simp only [longEscaped, Bool.or_eq_true, decide_eq_true_eq, beq_iff_eq] at h
  rcases h with ((((h | rfl) | rfl) | rfl) | h) | h
  · omega
  · decide
  · decide
  · decide
  · omega
  · omega

theorem scanString_escapeChar (rest : List Char) :
    scanString (escapeChar c ++ rest) = (scanString rest).map (consText c) := by
  unfold escapeChar
  cases hs : shortEscape c with
  | some e =>
    obtain ⟨hu, he⟩ := shortEscape_simple hs
    have hread : readEscape (e :: rest) = some (c, 1) := by
      unfold readEscape
      split
      · next heq =>
        cases heq
        exact absurd rfl hu
      · next heq =>
        cases heq
        rw [he]
        rfl
      · next heq => cases heq
    exact scanString_escaped (s := [e]) hread
  | none =>
    cases hl : longEscaped c with
    | true => exact scanString_unicodeEscape (longEscaped_lt hl) rest
    | false =>
      have hq : c ≠ '"' := by
        rintro rfl
        exact absurd hs (by decide)
      have hb : c ≠ '\\' := by
        rintro rfl
        exact absurd hs (by decide)
      have hc : ¬ c.toNat < 0x20 := by
        intro h
        simp [longEscaped, h] at hl
      exact scanString_plain hq hb hc

theorem scanString_escape (s rest : List Char) :
    scanString (escape s ++ '"' :: rest) = some (s, rest) := by
  induction s with
  | nil => rfl
  | cons c s ih =>
    have hsplit : escape (c :: s) ++ '"' :: rest = escapeChar c ++ (escape s ++ '"' :: rest) := by
      simp [escape]
    rw [hsplit, scanString_escapeChar, ih]
    rfl

theorem utf8Size_hexDigit {n : Nat} (hn : n < 16) : (hexDigit n).utf8Size = 1 := by
  revert n
  decide

theorem escapeChar_size : String.utf8Len (escapeChar c) ≤ 6 := by
  unfold escapeChar
  cases hs : shortEscape c with
  | some e =>
    have he : e.utf8Size ≤ 4 := Char.utf8Size_le_four e
    have hb : ('\\' : Char).utf8Size = 1 := by decide
    simp only [String.utf8Len, hb]
    omega
  | none =>
    cases hl : longEscaped c with
    | true =>
      have hd : ∀ m, (hexDigit (m % 16)).utf8Size = 1 := fun m =>
        utf8Size_hexDigit (Nat.mod_lt m (by decide))
      have hb : ('\\' : Char).utf8Size = 1 := by decide
      have hu : ('u' : Char).utf8Size = 1 := by decide
      simp [unicodeEscape, String.utf8Len, hd, hb, hu]
    | false =>
      have hc : c.utf8Size ≤ 4 := Char.utf8Size_le_four c
      simp only [Bool.false_eq_true, if_false, String.utf8Len]
      omega

end KovaService.Lib.Json
