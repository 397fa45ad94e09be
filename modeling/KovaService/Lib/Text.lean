import KovaService.Lib.JsonValue

/-!
The functions of Go's `strings` and `strconv` that parsers of options use: trimming of white space,
`Cut`, `Itoa` and `Atoi`.  A text is a sequence of code points.
-/

namespace KovaService.Lib.Text

variable {l : List Char}

def isSpace (c : Char) : Bool :=
  let n := c.toNat
  (9 ≤ n && n ≤ 13) || n == 0x20 || n == 0x85 || n == 0xA0 || n == 0x1680 ||
    (0x2000 ≤ n && n ≤ 0x200A) || n == 0x2028 || n == 0x2029 || n == 0x202F || n == 0x205F ||
    n == 0x3000

def trim (l : List Char) : List Char :=
  ((l.dropWhile isSpace).reverse.dropWhile isSpace).reverse

def trimSpace (s : String) : String := String.ofList (trim s.toList)

def Trimmed (l : List Char) : Prop :=
  (∀ c ∈ l.head?, isSpace c = false) ∧ ∀ c ∈ l.getLast?, isSpace c = false

theorem dropWhile_of_head {p : Char → Bool} (h : ∀ c ∈ l.head?, p c = false) :
    l.dropWhile p = l := by
  cases l with
  | nil => rfl
  | cons c l => rw [List.dropWhile_cons, h c (by simp), if_neg Bool.false_ne_true]

theorem head_dropWhile (p : Char → Bool) (l : List Char) :
    ∀ c ∈ (l.dropWhile p).head?, p c = false := by
  induction l with
  | nil => simp
  | cons a l ih =>
    rw [List.dropWhile_cons]
    split
    · exact ih
    · next ha => simpa using ha

theorem trim_of_trimmed (h : Trimmed l) : trim l = l := by
  unfold trim
  rw [dropWhile_of_head h.1, dropWhile_of_head (by simpa using h.2), List.reverse_reverse]

theorem head_of_suffix {m : List Char} (h : m <:+ l.reverse) :
    ∀ c ∈ m.reverse.head?, c ∈ l.head? := by
  intro c hc
  obtain ⟨t, ht⟩ := h
  have hl : l = m.reverse ++ t.reverse := by
    rw [← List.reverse_append, ht, List.reverse_reverse]
  rw [hl, List.head?_append, Option.mem_def.mp hc]
  rfl

theorem trimmed_trim (l : List Char) : Trimmed (trim l) := by
  constructor
  · intro c hc
    exact head_dropWhile isSpace l c (head_of_suffix (List.dropWhile_suffix isSpace) c hc)
  · intro c hc
    rw [trim, List.getLast?_reverse] at hc
    exact head_dropWhile isSpace _ c hc

theorem trim_eq_self : trim l = l ↔ Trimmed l :=
  ⟨fun h => h ▸ trimmed_trim l, trim_of_trimmed⟩

theorem trimmed_append {m : List Char} (hl : Trimmed l) (hm : Trimmed m) (hne : l ≠ [])
    (hne' : m ≠ []) : Trimmed (l ++ m) := by
  constructor
  · intro c hc
    rw [List.head?_append_of_ne_nil _ hne] at hc
    exact hl.1 c hc
  · intro c hc
    rw [List.getLast?_append_of_ne_nil _ hne'] at hc
    exact hm.2 c hc

theorem trimmed_map {f : Char → Char} (hf : ∀ c, isSpace (f c) = isSpace c) (h : Trimmed l) :
    Trimmed (l.map f) := by
  constructor
  · intro c hc
    rw [List.head?_map] at hc
    obtain ⟨d, hd, rfl⟩ := Option.map_eq_some_iff.mp hc
    rw [hf, h.1 d hd]
  · intro c hc
    rw [List.getLast?_map] at hc
    obtain ⟨d, hd, rfl⟩ := Option.map_eq_some_iff.mp hc
    rw [hf, h.2 d hd]

theorem trimSpace_eq_self {s : String} : trimSpace s = s ↔ Trimmed s.toList := by
  rw [← trim_eq_self, trimSpace, ← String.toList_inj, String.toList_ofList]

theorem trimSpace_trimSpace (s : String) : trimSpace (trimSpace s) = trimSpace s := by
  rw [trimSpace_eq_self, trimSpace, String.toList_ofList]
  exact trimmed_trim s.toList

theorem trimSpace_append {s t : String} (hs : trimSpace s = s) (ht : trimSpace t = t) (hne : s ≠ "")
    (hne' : t ≠ "") : trimSpace (s ++ t) = s ++ t := by
  rw [trimSpace_eq_self] at hs ht ⊢
  rw [String.toList_append]
  exact trimmed_append hs ht (by simpa using hne) (by simpa using hne')

def cut (sep : Char) (l : List Char) : Option (List Char × List Char) :=
  match l.dropWhile (· != sep) with
  | [] => none
  | _ :: rest => some (l.takeWhile (· != sep), rest)

theorem cut_append {sep : Char} (h : sep ∉ l) (m : List Char) :
    cut sep (l ++ sep :: m) = some (l, m) := by
  have hall : ∀ c ∈ l, (c != sep) := fun c hc => by
    simpa using fun heq : c = sep => h (heq ▸ hc)
  have hdrop : (l ++ sep :: m).dropWhile (· != sep) = sep :: m := by
    rw [List.dropWhile_append_of_pos hall]
    simp
  have htake : (l ++ sep :: m).takeWhile (· != sep) = l := by
    rw [List.takeWhile_append_of_pos hall]
    simp
  rw [cut, hdrop, htake]

def itoa (n : Int) : String := String.ofList (Json.integer n)

def signed : List Char → Bool × List Char
  | '-' :: ds => (true, ds)
  | '+' :: ds => (false, ds)
  | ds => (false, ds)

def atoi (s : String) : Option Int :=
  let (negative, digits) := signed s.toList
  if digits.isEmpty || !digits.all Json.isDigit then none
  else
    let n : Int := Json.decimalValue digits
    let n := if negative then -n else n
    if -2 ^ 63 ≤ n ∧ n < 2 ^ 63 then some n else none

theorem signed_decimal (n : Nat) : signed (Json.decimal n) = (false, Json.decimal n) := by
  unfold signed
  split
  · next h => exact absurd h (Json.decimal_ne_minus n)
  · next h =>
    have hall := Json.decimal_digits n
    rw [h] at hall
    simp [Json.isDigit] at hall
  · rfl

theorem atoi_itoa {n : Int} (hl : -2 ^ 63 ≤ n) (hu : n < 2 ^ 63) : atoi (itoa n) = some n := by
  unfold atoi itoa
  rw [String.toList_ofList]
  cases n with
  | ofNat n =>
    simp only [Json.integer, signed_decimal, Json.decimal_digits, Json.decimalValue_decimal]
    rw [if_neg (by simpa using Json.decimal_ne_nil n)]
    exact if_pos ⟨hl, hu⟩
  | negSucc n =>
    simp only [Json.integer, signed, Json.decimal_digits, Json.decimalValue_decimal]
    rw [if_neg (by simpa using Json.decimal_ne_nil (n + 1))]
    exact if_pos ⟨hl, hu⟩

theorem isDigit_not_space {c : Char} (h : Json.isDigit c) : isSpace c = false := by
  have hc : 48 ≤ c.toNat ∧ c.toNat ≤ 57 := by
    simp only [Json.isDigit, Bool.and_eq_true, decide_eq_true_eq] at h
    exact h
  simp only [isSpace, Bool.or_eq_false_iff, Bool.and_eq_false_iff, decide_eq_false_iff_not,
    beq_eq_false_iff_ne]
  omega

theorem trimSpace_ne_empty {s : String} {c : Char} (hs : s.toList = c :: l)
    (hc : isSpace c = false) : trimSpace s ≠ "" := by
  have hmem : c ∈ trim s.toList := by
    rw [trim, hs, List.dropWhile_cons, hc, if_neg Bool.false_ne_true, List.reverse_cons]
    rw [List.dropWhile_append]
    split
    · simp [hc]
    · simp
  intro h
  rw [trimSpace, ← String.toList_inj, String.toList_ofList] at h
  rw [h] at hmem
  simp at hmem

theorem itoa_not_blank (n : Int) : trimSpace (itoa n) ≠ "" := by
  cases n with
  | ofNat n =>
    cases hd : Json.decimal n with
    | nil => exact absurd hd (Json.decimal_ne_nil n)
    | cons c l =>
      have hall := Json.decimal_digits n
      rw [hd, List.all_cons, Bool.and_eq_true] at hall
      exact trimSpace_ne_empty (by rw [itoa, String.toList_ofList]; exact hd)
        (isDigit_not_space hall.1)
  | negSucc n => exact trimSpace_ne_empty (String.toList_ofList) (by decide)

end KovaService.Lib.Text
