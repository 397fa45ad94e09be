import Mathlib.Data.List.TakeWhile
import Mathlib.Data.Nat.Digits.Lemmas
import KovaService.Lib.JsonText

/-!
JSON values, their compact text, and a reader for the whole grammar.

A number is kept as its text, which carries the proof that it is one.  The reader takes fuel; the
length of the text is always enough for a text that was written from a value.
-/

namespace KovaService.Lib.Json

variable (cs : List Char) (n : Nat)

def isDigit (c : Char) : Bool := '0' ≤ c && c ≤ '9'

def numberChar (c : Char) : Bool :=
  isDigit c || c == '-' || c == '+' || c == '.' || c == 'e' || c == 'E'

def exponentText : List Char → Bool
  | [] => true
  | e :: cs =>
    (e == 'e' || e == 'E') &&
      match cs with
      | '+' :: d :: ds => (d :: ds).all isDigit
      | '-' :: d :: ds => (d :: ds).all isDigit
      | ds => ds != [] && ds.all isDigit

def fractionText : List Char → Bool
  | '.' :: d :: cs => isDigit d && exponentText (cs.dropWhile isDigit)
  | cs => exponentText cs

def unsignedText : List Char → Bool
  | [] => false
  | c :: cs => if c = '0' then fractionText cs else isDigit c && fractionText (cs.dropWhile isDigit)

def numberText : Bool :=
  cs.all numberChar &&
    match cs with
    | '-' :: cs => unsignedText cs
    | cs => unsignedText cs

structure Number where
  text : List Char
  valid : numberText text
  deriving DecidableEq

def scanNumber : Option (Number × List Char) :=
  if h : numberText (cs.takeWhile numberChar) = true then
    some (⟨cs.takeWhile numberChar, h⟩, cs.dropWhile numberChar)
  else none

/-- The text ends here or goes on with a character no number contains. -/
def Delimited (rest : List Char) : Prop := ∀ c ∈ rest.head?, numberChar c = false

theorem delimited_nil : Delimited [] := by simp [Delimited]

variable {c : Char}

theorem delimited_cons (rest : List Char) (h : numberChar c = false) : Delimited (c :: rest) := by
  simpa [Delimited] using h

theorem takeWhile_delimited {text rest : List Char} (ht : text.all numberChar)
    (hr : Delimited rest) : (text ++ rest).takeWhile numberChar = text ∧
      (text ++ rest).dropWhile numberChar = rest := by
  have hall : ∀ c ∈ text, numberChar c := by simpa using ht
  rw [List.takeWhile_append_of_pos hall, List.dropWhile_append_of_pos hall]
  cases rest with
  | nil => simp
  | cons c rest =>
    have hc : numberChar c = false := hr c rfl
    simp [hc]

theorem scanNumber_text (n : Number) {rest : List Char} (hr : Delimited rest) :
    scanNumber (n.text ++ rest) = some (n, rest) := by
  have hall : n.text.all numberChar := by
    have := n.valid
    simp only [numberText, Bool.and_eq_true] at this
    exact this.1
  obtain ⟨htake, hdrop⟩ := takeWhile_delimited hall hr
  unfold scanNumber
  rw [dif_pos (by rw [htake]; exact n.valid)]
  simp only [hdrop, htake]

theorem number_head (n : Number) : ∃ c cs, n.text = c :: cs ∧ numberChar c := by
  obtain ⟨text, hv⟩ := n
  cases text with
  | nil => simp [numberText, unsignedText] at hv
  | cons c cs =>
    simp only [numberText, List.all_cons, Bool.and_eq_true] at hv
    exact ⟨c, cs, rfl, hv.1.1⟩

def digitChar (d : Nat) : Char := Char.ofNat (48 + d)

def decimal : List Char :=
  if n = 0 then ['0'] else (Nat.digits 10 n).reverse.map digitChar

def integer : Int → List Char
  | .ofNat n => decimal n
  | .negSucc n => '-' :: decimal (n + 1)

def decimalValue : Nat :=
  Nat.ofDigits 10 (cs.reverse.map fun c => c.toNat - 48)

def Number.toInt? (n : Number) : Option Int :=
  match n.text with
  | '-' :: cs => if cs.all isDigit then some (-(decimalValue cs : Int)) else none
  | cs => if cs.all isDigit then some (decimalValue cs : Int) else none

theorem digitChar_spec : ∀ d < 10, isDigit (digitChar d) ∧ (digitChar d).toNat - 48 = d ∧
    (digitChar d = '0' → d = 0) := by
  decide

theorem isDigit_numberChar (h : isDigit c) : numberChar c := by
  simp [numberChar, h]

theorem decimal_digits : (decimal n).all isDigit := by
  unfold decimal
  split
  · decide
  · simp only [List.all_map, List.all_reverse, List.all_eq_true]
    intro d hd
    exact (digitChar_spec d (Nat.digits_lt_base (by decide) hd)).1

theorem decimal_ne_nil : decimal n ≠ [] := by
  unfold decimal
  split
  · simp
  · next h => simpa [Nat.digits_eq_nil_iff_eq_zero] using h

theorem decimalValue_decimal : decimalValue (decimal n) = n := by
  unfold decimal decimalValue
  split
  · next h => simp [h]
  · have hmap : ((Nat.digits 10 n).map digitChar).map (fun c => c.toNat - 48) =
        Nat.digits 10 n := by
      rw [List.map_map]
      refine (List.map_congr_left fun d hd => ?_).trans (List.map_id _)
      exact (digitChar_spec d (Nat.digits_lt_base (by decide) hd)).2.1
    simp only [List.map_reverse, List.reverse_reverse]
    rw [hmap, Nat.ofDigits_digits]

theorem decimal_head {n : Nat} (hn : n ≠ 0) {cs : List Char} (h : decimal n = c :: cs) :
    c ≠ '0' := by
  rintro rfl
  have hdig : Nat.digits 10 n ≠ [] := mt Nat.digits_eq_nil_iff_eq_zero.mp hn
  have hhead : (decimal n).head? = some (digitChar ((Nat.digits 10 n).getLast hdig)) := by
    rw [decimal, if_neg hn, List.head?_map, List.head?_reverse, List.getLast?_eq_getLast_of_ne_nil hdig]
    rfl
  rw [h, List.head?_cons, Option.some.injEq] at hhead
  have hlt := Nat.digits_lt_base (b := 10) (by decide) (List.getLast_mem hdig)
  exact Nat.getLast_digit_ne_zero 10 hn ((digitChar_spec _ hlt).2.2 hhead.symm)

theorem unsignedText_decimal : unsignedText (decimal n) := by
  by_cases hn : n = 0
  · subst hn
    decide
  · cases hd : decimal n with
    | nil => exact absurd hd (decimal_ne_nil n)
    | cons c cs =>
      have hall := decimal_digits n
      rw [hd, List.all_cons, Bool.and_eq_true] at hall
      have hdrop : cs.dropWhile isDigit = [] :=
        List.dropWhile_eq_nil_iff.2 (by simpa using hall.2)
      simp [unsignedText, decimal_head hn hd, hall.1, hdrop, fractionText, exponentText]

theorem decimal_ne_minus {cs : List Char} : decimal n ≠ '-' :: cs := by
  intro h
  have := decimal_digits n
  rw [h] at this
  simp [isDigit] at this

theorem numberText_decimal : numberText (decimal n) := by
  have hall : (decimal n).all numberChar := by
    have := decimal_digits n
    simp only [List.all_eq_true] at this ⊢
    exact fun c hc => isDigit_numberChar (this c hc)
  unfold numberText
  rw [hall, Bool.true_and]
  split
  · next h => exact absurd h (decimal_ne_minus n)
  · exact unsignedText_decimal n

theorem numberText_integer (n : Int) : numberText (integer n) := by
  cases n with
  | ofNat n => exact numberText_decimal n
  | negSucc n =>
    have h := numberText_decimal (n + 1)
    simp only [numberText, Bool.and_eq_true] at h
    simp only [integer, numberText, List.all_cons, Bool.and_eq_true]
    exact ⟨⟨by decide, h.1⟩, unsignedText_decimal (n + 1)⟩

def Number.ofInt (n : Int) : Number := ⟨integer n, numberText_integer n⟩

@[simp] theorem Number.toInt?_ofInt (n : Int) : (Number.ofInt n).toInt? = some n := by
  cases n with
  | ofNat n =>
    simp only [Number.toInt?, Number.ofInt, integer]
    split
    · next h => exact absurd h (decimal_ne_minus n)
    · simp [decimal_digits, decimalValue_decimal]
  | negSucc n =>
    simp [Number.toInt?, Number.ofInt, integer, decimal_digits, decimalValue_decimal,
      Int.negSucc_eq]

inductive Value where
  | null
  | bool (b : Bool)
  | num (n : Number)
  | str (s : String)
  | arr (elements : List Value)
  | obj (members : List (String × Value))

def Value.int (n : Int) : Value := .num (.ofInt n)

mutual

def print : Value → List Char
  | .null => ['n', 'u', 'l', 'l']
  | .bool true => ['t', 'r', 'u', 'e']
  | .bool false => ['f', 'a', 'l', 's', 'e']
  | .num n => n.text
  | .str s => quote s
  | .arr [] => ['[', ']']
  | .arr (v :: vs) => '[' :: print v ++ printElements vs
  | .obj [] => ['{', '}']
  | .obj ((k, v) :: ms) => '{' :: quote k ++ ':' :: print v ++ printMembers ms

def printElements : List Value → List Char
  | [] => [']']
  | v :: vs => ',' :: print v ++ printElements vs

def printMembers : List (String × Value) → List Char
  | [] => ['}']
  | (k, v) :: ms => ',' :: quote k ++ ':' :: print v ++ printMembers ms

end

def isSpace (c : Char) : Bool := c == ' ' || c == '\t' || c == '\n' || c == '\r'

def skipSpace : List Char := cs.dropWhile isSpace

mutual

def parseValue : Nat → List Char → Option (Value × List Char)
  | 0, _ => none
  | fuel + 1, cs =>
    match skipSpace cs with
    | [] => none
    | c :: cs =>
      if c = '"' then (scanString cs).map fun (s, rest) => (.str (String.ofList s), rest)
      else if c = '[' then
        match skipSpace cs with
        | ']' :: rest => some (.arr [], rest)
        | cs => (parseElements fuel cs).map fun (vs, rest) => (.arr vs, rest)
      else if c = '{' then
        match skipSpace cs with
        | '}' :: rest => some (.obj [], rest)
        | cs => (parseMembers fuel cs).map fun (ms, rest) => (.obj ms, rest)
      else if c = 'n' then
        match cs with
        | 'u' :: 'l' :: 'l' :: rest => some (.null, rest)
        | _ => none
      else if c = 't' then
        match cs with
        | 'r' :: 'u' :: 'e' :: rest => some (.bool true, rest)
        | _ => none
      else if c = 'f' then
        match cs with
        | 'a' :: 'l' :: 's' :: 'e' :: rest => some (.bool false, rest)
        | _ => none
      else (scanNumber (c :: cs)).map fun (n, rest) => (.num n, rest)

def parseElements : Nat → List Char → Option (List Value × List Char)
  | 0, _ => none
  | fuel + 1, cs =>
    match parseValue fuel cs with
    | none => none
    | some (v, cs) =>
      match skipSpace cs with
      | ',' :: cs => (parseElements fuel cs).map fun (vs, rest) => (v :: vs, rest)
      | ']' :: rest => some ([v], rest)
      | _ => none

def parseMembers : Nat → List Char → Option (List (String × Value) × List Char)
  | 0, _ => none
  | fuel + 1, cs =>
    match skipSpace cs with
    | '"' :: cs =>
      match scanString cs with
      | none => none
      | some (k, cs) =>
        match skipSpace cs with
        | ':' :: cs =>
          match parseValue fuel cs with
          | none => none
          | some (v, cs) =>
            match skipSpace cs with
            | ',' :: cs =>
              (parseMembers fuel cs).map fun (ms, rest) => ((String.ofList k, v) :: ms, rest)
            | '}' :: rest => some ([(String.ofList k, v)], rest)
            | _ => none
        | _ => none
    | _ => none

end

theorem numberChar_ne (h : numberChar c) :
    c ≠ '"' ∧ c ≠ '[' ∧ c ≠ '{' ∧ c ≠ 'n' ∧ c ≠ 't' ∧ c ≠ 'f' ∧ c ≠ ']' ∧ isSpace c = false := by
  refine ⟨?_, ?_, ?_, ?_, ?_, ?_, ?_, ?_⟩
  case refine_8 =>
    by_contra hs
    simp only [Bool.not_eq_false, isSpace, Bool.or_eq_true, beq_iff_eq] at hs
    rcases hs with ((rfl | rfl) | rfl) | rfl <;> exact absurd h (by decide)
  all_goals
    rintro rfl
    exact absurd h (by decide)

theorem skipSpace_cons {cs : List Char} (h : isSpace c = false) :
    skipSpace (c :: cs) = c :: cs := by
  simp [skipSpace, h]

theorem print_head (v : Value) : ∃ c cs, print v = c :: cs ∧ isSpace c = false ∧ c ≠ ']' := by
  cases v with
  | null => exact ⟨_, _, rfl, by decide, by decide⟩
  | bool b => cases b <;> exact ⟨_, _, rfl, by decide, by decide⟩
  | num n =>
    obtain ⟨c, cs, hn, hc⟩ := number_head n
    have hne := numberChar_ne hc
    exact ⟨c, cs, by rw [print, hn], hne.2.2.2.2.2.2.2, hne.2.2.2.2.2.2.1⟩
  | str s => exact ⟨_, _, rfl, by decide, by decide⟩
  | arr vs =>
    match vs with
    | [] => exact ⟨_, _, by rw [print], by decide, by decide⟩
    | v :: vs => exact ⟨_, _, by rw [print]; rfl, by decide, by decide⟩
  | obj ms =>
    match ms with
    | [] => exact ⟨_, _, by rw [print], by decide, by decide⟩
    | (k, v) :: ms => exact ⟨_, _, by rw [print]; rfl, by decide, by decide⟩

theorem delimited_elements (vs : List Value) (rest : List Char) :
    Delimited (printElements vs ++ rest) := by
  cases vs with
  | nil => exact delimited_cons _ (by decide)
  | cons v vs =>
    rw [printElements]
    exact delimited_cons _ (by decide)

theorem delimited_members (ms : List (String × Value)) (rest : List Char) :
    Delimited (printMembers ms ++ rest) := by
  match ms with
  | [] => exact delimited_cons _ (by decide)
  | (k, v) :: ms =>
    rw [printMembers]
    exact delimited_cons _ (by decide)

mutual

theorem parseValue_print : ∀ (v : Value) (fuel : Nat) (rest : List Char),
    (print v).length ≤ fuel → Delimited rest → parseValue fuel (print v ++ rest) = some (v, rest)
  | v, 0, rest, hf, _ => by
    obtain ⟨c, cs, hv, -⟩ := print_head v
    simp [hv] at hf
  | .null, fuel + 1, rest, _, _ => rfl
  | .bool true, fuel + 1, rest, _, _ => rfl
  | .bool false, fuel + 1, rest, _, _ => rfl
  | .num n, fuel + 1, rest, _, hr => by
    obtain ⟨c, cs, hn, hc⟩ := number_head n
    obtain ⟨h1, h2, h3, h4, h5, h6, -, h8⟩ := numberChar_ne hc
    have hscan := scanNumber_text n hr
    rw [hn, List.cons_append] at hscan
    rw [print, hn, List.cons_append, parseValue, skipSpace_cons h8]
    simp only [if_neg h1, if_neg h2, if_neg h3, if_neg h4, if_neg h5, if_neg h6, hscan,
      Option.map_some]
  | .str s, fuel + 1, rest, _, _ => by
    have hq : print (.str s) ++ rest = '"' :: (escape s.toList ++ '"' :: rest) := by
      simp [print, quote]
    rw [hq, parseValue, skipSpace_cons (by decide)]
    simp [scanString_escape]
  | .arr [], fuel + 1, rest, _, _ => rfl
  | .arr (v :: vs), fuel + 1, rest, hf, _ => by
    obtain ⟨c, cs, hv, hsp, hb⟩ := print_head v
    have htext : print (.arr (v :: vs)) ++ rest = '[' :: (print v ++ (printElements vs ++ rest)) := by
      simp [print]
    have helem := parseElements_print v vs fuel rest (by
      simp only [print, List.length_append, List.length_cons] at hf
      omega)
    rw [htext, parseValue, skipSpace_cons (by decide)]
    rw [hv, List.cons_append] at helem ⊢
    simp only [if_neg (show '[' ≠ '"' by decide), if_true, skipSpace_cons hsp]
    split
    · next heq =>
      cases heq
      exact absurd rfl hb
    · simp [helem]
  | .obj [], fuel + 1, rest, _, _ => rfl
  | .obj ((k, v) :: ms), fuel + 1, rest, hf, _ => by
    have htext : print (.obj ((k, v) :: ms)) ++ rest =
        '{' :: '"' :: (escape k.toList ++ '"' :: ':' :: (print v ++ (printMembers ms ++ rest))) := by
      simp [print, quote]
    have hmem := parseMembers_print k v ms fuel rest (by
      simp only [print, List.length_append, List.length_cons] at hf
      omega)
    rw [htext, parseValue, skipSpace_cons (by decide)]
    simp [skipSpace_cons (show isSpace '"' = false by decide), hmem]

theorem parseElements_print : ∀ (v : Value) (vs : List Value) (fuel : Nat) (rest : List Char),
    (print v).length + (printElements vs).length ≤ fuel →
    parseElements fuel (print v ++ (printElements vs ++ rest)) = some (v :: vs, rest)
  | v, vs, 0, rest, hf => by
    obtain ⟨c, cs, hv, -⟩ := print_head v
    simp [hv] at hf
  | v, [], fuel + 1, rest, hf => by
    have hv := parseValue_print v fuel (printElements [] ++ rest)
      (by simp only [printElements, List.length_cons, List.length_nil] at hf; omega)
      (delimited_elements [] rest)
    rw [parseElements, hv]
    rfl
  | v, v' :: vs, fuel + 1, rest, hf => by
    simp only [printElements, List.length_append, List.length_cons] at hf
    have hv := parseValue_print v fuel (printElements (v' :: vs) ++ rest) (by omega)
      (delimited_elements _ rest)
    have hvs := parseElements_print v' vs fuel rest (by omega)
    rw [parseElements, hv]
    simp only [printElements, List.cons_append, List.append_assoc,
      skipSpace_cons (show isSpace ',' = false by decide), hvs, Option.map_some]

theorem parseMembers_print : ∀ (k : String) (v : Value) (ms : List (String × Value)) (fuel : Nat)
    (rest : List Char), (quote k).length + (print v).length + (printMembers ms).length ≤ fuel →
    parseMembers fuel ('"' :: (escape k.toList ++ '"' :: ':' :: (print v ++ (printMembers ms ++ rest))))
      = some ((k, v) :: ms, rest)
  | k, v, ms, 0, rest, hf => by simp [quote] at hf
  | k, v, [], fuel + 1, rest, hf => by
    have hv := parseValue_print v fuel (printMembers [] ++ rest)
      (by simp only [printMembers, List.length_cons, List.length_nil] at hf; omega)
      (delimited_members [] rest)
    rw [parseMembers, skipSpace_cons (by decide)]
    simp only [scanString_escape, skipSpace_cons (show isSpace ':' = false by decide), hv]
    simp [printMembers, skipSpace_cons (show isSpace '}' = false by decide)]
  | k, v, (k', v') :: ms, fuel + 1, rest, hf => by
    have hq : (quote k).length = (escape k.toList).length + 2 := by simp [quote]
    simp only [printMembers, List.length_append, List.length_cons] at hf
    have hv := parseValue_print v fuel (printMembers ((k', v') :: ms) ++ rest) (by omega)
      (delimited_members _ rest)
    have hms := parseMembers_print k' v' ms fuel rest (by omega)
    have htext : printMembers ((k', v') :: ms) ++ rest =
        ',' :: '"' :: (escape k'.toList ++ '"' :: ':' :: (print v' ++ (printMembers ms ++ rest))) := by
      simp [printMembers, quote]
    rw [parseMembers, skipSpace_cons (by decide)]
    simp only [scanString_escape, skipSpace_cons (show isSpace ':' = false by decide), hv]
    rw [htext, skipSpace_cons (by decide)]
    simp [hms]

end

def parse : Option (Value × List Char) :=
  (parseValue cs.length cs).map fun (v, rest) => (v, skipSpace rest)

theorem parse_print (v : Value) : parse (print v) = some (v, []) := by
  have h := parseValue_print v (print v).length [] le_rfl delimited_nil
  rw [List.append_nil] at h
  simp [parse, h, skipSpace]

theorem print_injective {v v' : Value} (h : print v = print v') : v = v' := by
  have hv := parse_print v
  rw [h, parse_print v'] at hv
  cases hv
  rfl

instance : DecidableEq Value := fun v v' =>
  decidable_of_iff (print v = print v') ⟨print_injective, congrArg print⟩

end KovaService.Lib.Json
