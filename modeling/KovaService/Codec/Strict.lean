import KovaService.Api.Config
import KovaService.Lib.JsonValue

/-!
`admissionjson`: the checks a persisted ledger passes before it is decoded.

The text of a ledger is a list of characters, which is what `utf8.Valid` asks of it.  `Token` walks a
text that is JSON in the order of its tree, so `checkValue` is written over the tree; a text that is
not JSON fails in `Token` or in `Unmarshal`, whichever meets it first, and here in the reader.
-/

namespace KovaService.Codec

open Lib Lib.Json Api

/-- What the scan skips after a backslash; `none` is an escape that `encoding/json` would replace. -/
def escapeWidth : List Char → Option Nat
  | [] => none
  | 'u' :: cs =>
    match cs with
    | a :: b :: c :: d :: rest =>
      match hex4 a b c d with
      | none => none
      | some v =>
        if isLow v then none
        else if isHigh v then (lowAhead rest).map fun _ => 11
        else some 5
    | _ => none
  | _ :: _ => some 1

/-- The loops of `validSurrogates`, outside and inside of a string literal. -/
def surrogatesFrom : (inside : Bool) → (skip : Nat) → List Char → Bool
  | inside, _, [] => !inside
  | inside, skip + 1, _ :: cs => surrogatesFrom inside skip cs
  | false, 0, c :: cs => surrogatesFrom (c == '"') 0 cs
  | true, 0, c :: cs =>
    if c = '"' then surrogatesFrom false 0 cs
    else if c = '\\' then
      match escapeWidth cs with
      | none => false
      | some used => surrogatesFrom true used cs
    else surrogatesFrom true 0 cs

def validSurrogates (raw : List Char) : Bool := surrogatesFrom false 0 raw

abbrev Allowed := List String → String → Bool

def nestingLimit : Err := .text "admission JSON exceeds nesting limit"

mutual

def checkValue (allowed : Allowed) (path : List String) (depth : Nat) : Value → Except Err Unit
  | .null =>
    if depth > 5 then .error nestingLimit else .error (.text "admission JSON has null field")
  | .bool _ => if depth > 5 then .error nestingLimit else .ok ()
  | .num _ => if depth > 5 then .error nestingLimit else .ok ()
  | .str _ => if depth > 5 then .error nestingLimit else .ok ()
  | .arr vs => if depth > 5 then .error nestingLimit else checkElements allowed path depth vs
  | .obj ms => if depth > 5 then .error nestingLimit else checkMembers allowed path depth [] ms

def checkElements (allowed : Allowed) (path : List String) (depth : Nat) :
    List Value → Except Err Unit
  | [] => .ok ()
  | v :: vs =>
    match checkValue allowed path (depth + 1) v with
    | .error e => .error e
    | .ok () => checkElements allowed path depth vs

def checkMembers (allowed : Allowed) (path : List String) (depth : Nat) (seen : List String) :
    List (String × Value) → Except Err Unit
  | [] => .ok ()
  | (k, v) :: ms =>
    if !allowed path k then .error (.text "admission JSON has unknown field")
    else if k ∈ seen then .error (.text "admission JSON has duplicate field")
    else
      match checkValue allowed (path ++ [k]) (depth + 1) v with
      | .error e => .error e
      | .ok () => checkMembers allowed path depth (k :: seen) ms

end

/-- `Decode`, up to the typed decoding of the value. -/
def decode (raw : List Char) (allowed : Allowed) : Except Err Value :=
  if !validSurrogates raw then .error (.text "admission JSON has invalid Unicode")
  else
    match parse raw with
    | none => .error (.text "invalid JSON")
    | some (v, rest) =>
      match checkValue allowed [] 0 v with
      | .error e => .error e
      | .ok () => if rest != [] then .error (.text "admission JSON has trailing data") else .ok v

theorem surrogates_skip (inside : Bool) (cs rest : List Char) :
    surrogatesFrom inside cs.length (cs ++ rest) = surrogatesFrom inside 0 rest := by
  induction cs with
  | nil => rfl
  | cons c cs ih =>
    rw [List.cons_append, List.length_cons, surrogatesFrom]
    exact ih

theorem surrogates_escaped {s rest : List Char} (h : escapeWidth (s ++ rest) = some s.length) :
    surrogatesFrom true 0 ('\\' :: (s ++ rest)) = surrogatesFrom true 0 rest := by
  rw [surrogatesFrom, if_neg (by decide), if_pos rfl, h]
  exact surrogates_skip true s rest

theorem surrogates_escapeChar (c : Char) (rest : List Char) :
    surrogatesFrom true 0 (escapeChar c ++ rest) = surrogatesFrom true 0 rest := by
  unfold escapeChar
  cases hs : shortEscape c with
  | some e =>
    refine surrogates_escaped (s := [e]) ?_
    have hu := (shortEscape_simple hs).1
    rw [List.cons_append, List.nil_append]
    unfold escapeWidth
    split
    · next heq => cases heq
    · next heq =>
      cases heq
      exact absurd rfl hu
    · rfl
  | none =>
    cases hl : longEscaped c with
    | true =>
      have hn := longEscaped_lt hl
      have hhex := hex4_unicodeEscape (n := c.toNat) (by omega)
      have hhigh : isHigh c.toNat = false := by simp [isHigh]; omega
      have hlow : isLow c.toNat = false := by simp [isLow]; omega
      refine surrogates_escaped (s := (unicodeEscape c.toNat).tail) ?_
      simp [unicodeEscape, escapeWidth, hhex, hhigh, hlow]
    | false =>
      have hq : c ≠ '"' := by
        rintro rfl
        exact absurd hs (by decide)
      have hb : c ≠ '\\' := by
        rintro rfl
        exact absurd hs (by decide)
      simp only [Bool.false_eq_true, if_false, List.cons_append, List.nil_append]
      rw [surrogatesFrom, if_neg hq, if_neg hb]

theorem surrogates_quote (s : String) (rest : List Char) :
    surrogatesFrom false 0 (quote s ++ rest) = surrogatesFrom false 0 rest := by
  have hescape : ∀ cs : List Char,
      surrogatesFrom true 0 (escape cs ++ '"' :: rest) = surrogatesFrom false 0 rest := by
    intro cs
    induction cs with
    | nil => rfl
    | cons c cs ih =>
      have hsplit : escape (c :: cs) ++ '"' :: rest = escapeChar c ++ (escape cs ++ '"' :: rest) := by
        simp [escape]
      rw [hsplit, surrogates_escapeChar, ih]
  have hq : quote s ++ rest = '"' :: (escape s.toList ++ '"' :: rest) := by simp [quote]
  rw [hq, surrogatesFrom]
  exact hescape s.toList

theorem surrogates_plain {s : List Char} (h : ∀ c ∈ s, c ≠ '"') (rest : List Char) :
    surrogatesFrom false 0 (s ++ rest) = surrogatesFrom false 0 rest := by
  induction s with
  | nil => rfl
  | cons c cs ih =>
    have hc : (c == '"') = false := by simpa using h c (by simp)
    rw [List.cons_append, surrogatesFrom, hc]
    exact ih fun d hd => h d (List.mem_cons_of_mem c hd)

theorem surrogates_cons {c : Char} (h : c ≠ '"') (rest : List Char) :
    surrogatesFrom false 0 (c :: rest) = surrogatesFrom false 0 rest :=
  surrogates_plain (s := [c]) (by simpa using h) rest

mutual

theorem surrogates_print : ∀ (v : Value) (rest : List Char),
    surrogatesFrom false 0 (print v ++ rest) = surrogatesFrom false 0 rest
  | .null, rest => rfl
  | .bool true, rest => rfl
  | .bool false, rest => rfl
  | .num n, rest => by
    refine surrogates_plain (fun c hc => ?_) rest
    have hall := n.valid
    simp only [numberText, Bool.and_eq_true, List.all_eq_true] at hall
    exact (numberChar_ne (hall.1 c hc)).1
  | .str s, rest => surrogates_quote s rest
  | .arr [], rest => rfl
  | .arr (v :: vs), rest => by
    rw [print, List.append_assoc, List.cons_append, surrogates_cons (by decide),
      surrogates_print v, surrogates_elements vs]
  | .obj [], rest => rfl
  | .obj ((k, v) :: ms), rest => by
    have htext : print (.obj ((k, v) :: ms)) ++ rest =
        '{' :: (quote k ++ ':' :: (print v ++ (printMembers ms ++ rest))) := by
      simp [print]
    rw [htext, surrogates_cons (by decide), surrogates_quote, surrogates_cons (by decide),
      surrogates_print v, surrogates_members ms]

theorem surrogates_elements : ∀ (vs : List Value) (rest : List Char),
    surrogatesFrom false 0 (printElements vs ++ rest) = surrogatesFrom false 0 rest
  | [], rest => rfl
  | v :: vs, rest => by
    rw [printElements, List.append_assoc, List.cons_append, surrogates_cons (by decide),
      surrogates_print v, surrogates_elements vs]

theorem surrogates_members : ∀ (ms : List (String × Value)) (rest : List Char),
    surrogatesFrom false 0 (printMembers ms ++ rest) = surrogatesFrom false 0 rest
  | [], rest => rfl
  | (k, v) :: ms, rest => by
    have htext : printMembers ((k, v) :: ms) ++ rest =
        ',' :: (quote k ++ ':' :: (print v ++ (printMembers ms ++ rest))) := by
      simp [printMembers]
    rw [htext, surrogates_cons (by decide), surrogates_quote, surrogates_cons (by decide),
      surrogates_print v, surrogates_members ms]

end

theorem validSurrogates_print (v : Value) : validSurrogates (print v) := by
  have h := surrogates_print v []
  rw [List.append_nil] at h
  rw [validSurrogates, h]
  rfl

theorem decode_print {v : Value} {allowed : Allowed} (h : checkValue allowed [] 0 v = .ok ()) :
    decode (print v) allowed = .ok v := by
  simp [decode, validSurrogates_print, parse_print, h]

theorem checkMembers_ok {allowed : Allowed} {path : List String} {depth : Nat}
    {ms : List (String × Value)} {seen : List String}
    (hkeys : ∀ k ∈ ms.map Prod.fst, allowed path k ∧ k ∉ seen)
    (hnodup : (ms.map Prod.fst).Nodup)
    (hvalues : ∀ k v, (k, v) ∈ ms → checkValue allowed (path ++ [k]) (depth + 1) v = .ok ()) :
    checkMembers allowed path depth seen ms = .ok () := by
  induction ms generalizing seen with
  | nil => rfl
  | cons m ms ih =>
    obtain ⟨k, v⟩ := m
    obtain ⟨hk, hseen⟩ := hkeys k (by simp)
    rw [List.map_cons, List.nodup_cons] at hnodup
    rw [checkMembers, hk, if_neg (by simp), if_neg hseen, hvalues k v (by simp)]
    refine ih (fun k' hk' => ⟨(hkeys k' (by simp [List.mem_map.mp hk'])).1, ?_⟩) hnodup.2
      fun k' v' h' => hvalues k' v' (List.mem_cons_of_mem _ h')
    rw [List.mem_cons, not_or]
    refine ⟨?_, (hkeys k' (List.mem_cons_of_mem _ hk')).2⟩
    rintro rfl
    exact hnodup.1 hk'

end KovaService.Codec
