import KovaService.Lib.Text

/-!
Query strings, in the way Go's `net/url` writes and reads them.

The values of a query are kept as the list of all its pairs in the order they were added, which has
the information of the map from keys to lists: a key without values is not in it.  What is read back
must be UTF-8; Go keeps other bytes.
-/

namespace KovaService.Lib.Url

open Json (hexValue)

def unreserved (b : UInt8) : Bool :=
  (48 ≤ b && b ≤ 57) || (65 ≤ b && b ≤ 90) || (97 ≤ b && b ≤ 122) ||
    b == 45 || b == 46 || b == 95 || b == 126

def upperHex (n : Nat) : Char := Char.ofNat (if n < 10 then 48 + n else 55 + n)

def escapeByte (b : UInt8) : List Char :=
  if unreserved b then [Char.ofNat b.toNat]
  else if b == 32 then ['+']
  else ['%', upperHex (b.toNat / 16), upperHex (b.toNat % 16)]

def queryEscape (s : String) : List Char :=
  (s.toList.flatMap String.utf8EncodeChar).flatMap escapeByte

def unescapeBytes : List Char → Option (List UInt8)
  | [] => some []
  | c :: rest =>
    if c = '%' then
      match rest with
      | a :: b :: rest =>
        match hexValue a, hexValue b with
        | some a, some b => (unescapeBytes rest).map (UInt8.ofNat (16 * a + b) :: ·)
        | _, _ => none
      | _ => none
    else if c = '+' then (unescapeBytes rest).map (32 :: ·)
    else (unescapeBytes rest).map (String.utf8EncodeChar c ++ ·)

def queryUnescape (cs : List Char) : Option String := do
  let bytes ← unescapeBytes cs
  let text ← bytes.toByteArray.utf8Decode?
  pure (String.ofList text.toList)

theorem hexValue_upperHex : ∀ n < 16, hexValue (upperHex n) = some n := by decide

theorem unreserved_char : ∀ n < 256, unreserved (UInt8.ofNat n) →
    Char.ofNat n ≠ '%' ∧ Char.ofNat n ≠ '+' ∧ Char.ofNat n ≠ '&' ∧ Char.ofNat n ≠ '=' ∧
      Char.ofNat n ≠ ';' ∧ String.utf8EncodeChar (Char.ofNat n) = [UInt8.ofNat n] := by
  decide +kernel

theorem upperHex_char : ∀ n < 16, upperHex n ≠ '&' ∧ upperHex n ≠ '=' ∧ upperHex n ≠ ';' := by
  decide

theorem unescapeBytes_escapeByte (b : UInt8) (rest : List Char) :
    unescapeBytes (escapeByte b ++ rest) = (unescapeBytes rest).map (b :: ·) := by
  have hb := b.toNat_lt
  unfold escapeByte
  split
  · next hu =>
    obtain ⟨hpercent, hplus, -, -, -, hbytes⟩ :=
      unreserved_char b.toNat hb (by rwa [UInt8.ofNat_toNat])
    rw [List.singleton_append, unescapeBytes.eq_def]
    simp only [if_neg hpercent, if_neg hplus, hbytes, UInt8.ofNat_toNat, List.singleton_append]
  · split
    · next h =>
      rw [beq_iff_eq] at h
      rw [List.singleton_append, unescapeBytes.eq_def, h]
      simp only [show ¬ '+' = '%' by decide, if_false, if_true]
    · have hvalue : UInt8.ofNat (16 * (b.toNat / 16) + b.toNat % 16) = b := by
        rw [Nat.div_add_mod, UInt8.ofNat_toNat]
      simp only [List.cons_append, List.nil_append]
      rw [unescapeBytes.eq_def]
      simp only [if_true, hexValue_upperHex (b.toNat / 16) (by omega),
        hexValue_upperHex (b.toNat % 16) (by omega), hvalue]

theorem unescapeBytes_escape (bs : List UInt8) :
    unescapeBytes (bs.flatMap escapeByte) = some bs := by
  induction bs with
  | nil => rfl
  | cons b bs ih => rw [List.flatMap_cons, unescapeBytes_escapeByte, ih, Option.map_some]

theorem queryUnescape_queryEscape (s : String) : queryUnescape (queryEscape s) = some s := by
  have hdecode : (s.toList.flatMap String.utf8EncodeChar).toByteArray.utf8Decode? =
      some s.toList.toArray := List.utf8Decode?_utf8Encode
  simp [queryUnescape, queryEscape, unescapeBytes_escape, hdecode]

theorem queryEscape_plain {s : String} {c : Char} (h : c ∈ queryEscape s) :
    c ≠ '&' ∧ c ≠ '=' ∧ c ≠ ';' := by
  obtain ⟨b, -, hc⟩ := List.mem_flatMap.mp h
  have hb := b.toNat_lt
  unfold escapeByte at hc
  split at hc
  · next hu =>
    obtain ⟨-, -, hamp, heq, hsemi, -⟩ := unreserved_char b.toNat hb (by rwa [UInt8.ofNat_toNat])
    rw [List.mem_singleton] at hc
    subst hc
    exact ⟨hamp, heq, hsemi⟩
  · split at hc
    · rw [List.mem_singleton] at hc
      subst hc
      decide
    · simp only [List.mem_cons, List.not_mem_nil, or_false] at hc
      rcases hc with rfl | rfl | rfl
      · decide
      · exact upperHex_char _ (by omega)
      · exact upperHex_char _ (by omega)

abbrev Values := List (String × String)

namespace Values

variable (v : Values) (key : String)

def get : List String :=
  (v.filter fun p => p.1 == key).map Prod.snd

def add (value : String) : Values := v ++ [(key, value)]

def set (value : String) : Values :=
  (v.filter fun p => p.1 != key) ++ [(key, value)]

def keys : List String := (v.map Prod.fst).dedup

@[simp] theorem get_nil : get [] key = [] := rfl

theorem get_add (value k : String) :
    (v.add key value).get k = if k = key then v.get k ++ [value] else v.get k := by
  unfold get add
  rw [List.filter_append, List.map_append]
  by_cases h : k = key
  · simp [h]
  · simp [h, Ne.symm h]

theorem get_set (value k : String) :
    (v.set key value).get k = if k = key then [value] else v.get k := by
  unfold get set
  rw [List.filter_append, List.map_append, List.filter_filter]
  by_cases h : k = key
  · subst h
    simp
  · have hfilter : (v.filter fun p => p.1 == k && p.1 != key) = v.filter fun p => p.1 == k := by
      refine List.filter_congr fun p _ => ?_
      by_cases hp : p.1 = k
      · simp [hp, h]
      · simp [hp]
    simp [hfilter, h, Ne.symm h]

theorem get_addAll (values : List String) (v : Values) (k : String) :
    (values.foldl (fun v value => v.add key value) v).get k =
      if k = key then v.get k ++ values else v.get k := by
  induction values generalizing v with
  | nil => simp
  | cons value values ih =>
    rw [List.foldl_cons, ih, get_add]
    split <;> simp

theorem mem_keys {v : Values} {key : String} : key ∈ v.keys ↔ v.get key ≠ [] := by
  unfold keys get
  rw [List.mem_dedup, Ne, List.map_eq_nil_iff, List.filter_eq_nil_iff]
  simp only [List.mem_map, beq_iff_eq, not_forall, not_not]
  constructor
  · rintro ⟨p, hp, heq⟩
    exact ⟨p, hp, heq⟩
  · rintro ⟨p, hp, heq⟩
    exact ⟨p, hp, heq⟩

def piece (p : String × String) : List Char := queryEscape p.1 ++ '=' :: queryEscape p.2

def ordered : Values :=
  (v.keys.mergeSort (· ≤ ·)).flatMap fun key => (v.get key).map fun value => (key, value)

def encode : List Char := ['&'].intercalate (v.ordered.map piece)

def readPiece (cs : List Char) : Option (String × String) :=
  if ';' ∈ cs || cs.isEmpty then none
  else
    let (key, value) := (Text.cut '=' cs).getD (cs, [])
    match queryUnescape key, queryUnescape value with
    | some key, some value => some (key, value)
    | _, _ => none

def parseQuery (cs : List Char) : Values := (cs.splitOn '&').filterMap readPiece

theorem readPiece_piece (p : String × String) : readPiece (piece p) = some p := by
  have hkey : '=' ∉ queryEscape p.1 := fun h => (queryEscape_plain h).2.1 rfl
  have hsemi : ';' ∉ piece p := by
    intro h
    rcases List.mem_append.mp h with h | h
    · exact (queryEscape_plain h).2.2 rfl
    · rcases List.mem_cons.mp h with h | h
      · exact absurd h (by decide)
      · exact (queryEscape_plain h).2.2 rfl
  have hne : (piece p).isEmpty = false := by simp [piece]
  unfold readPiece
  rw [if_neg (by simp [hsemi, hne]), piece, Text.cut_append hkey]
  simp [queryUnescape_queryEscape]

theorem parseQuery_encode : parseQuery v.encode = v.ordered := by
  have hread : ∀ w : Values, (w.map piece).filterMap readPiece = w := by
    intro w
    rw [List.filterMap_map]
    exact (List.filterMap_congr fun p _ => readPiece_piece p).trans List.filterMap_some
  unfold parseQuery encode
  cases hw : v.ordered with
  | nil => rfl
  | cons p w =>
    rw [← hw]
    have hplain : ∀ l ∈ v.ordered.map piece, '&' ∉ l := by
      intro l hl hmem
      obtain ⟨q, -, rfl⟩ := List.mem_map.mp hl
      rcases List.mem_append.mp hmem with h | h
      · exact (queryEscape_plain h).1 rfl
      · rcases List.mem_cons.mp h with h | h
        · exact absurd h (by decide)
        · exact (queryEscape_plain h).1 rfl
    rw [List.splitOn_intercalate '&' hplain (by simp [hw]), hread]

theorem get_flatMap (f : String → List String) {ks : List String} (hn : ks.Nodup) (key : String) :
    get (ks.flatMap fun k => (f k).map fun value => (k, value)) key =
      if key ∈ ks then f key else [] := by
  induction ks with
  | nil => rfl
  | cons k ks ih =>
    rw [List.nodup_cons] at hn
    have hblock : get ((f k).map fun value => (k, value)) key = if key = k then f k else [] := by
      unfold get
      by_cases h : key = k
      · simp [h, List.filter_map, Function.comp_def]
      · simp [h, List.filter_map, Function.comp_def, Ne.symm h]
    have happend : get ((k :: ks).flatMap fun k => (f k).map fun value => (k, value)) key =
        get ((f k).map fun value => (k, value)) key ++
          get (ks.flatMap fun k => (f k).map fun value => (k, value)) key := by
      rw [List.flatMap_cons, get, List.filter_append, List.map_append]
      rfl
    rw [happend, hblock, ih hn.2]
    by_cases h : key = k
    · subst h
      simp [hn.1]
    · simp [h]

theorem get_parseQuery_encode : (parseQuery v.encode).get key = v.get key := by
  have hn : (v.keys.mergeSort (· ≤ ·)).Nodup :=
    (List.mergeSort_perm _ _).nodup_iff.mpr (List.nodup_dedup _)
  rw [parseQuery_encode, ordered, get_flatMap v.get hn]
  by_cases h : key ∈ v.keys
  · rw [if_pos (by simpa using h)]
  · rw [if_neg (by simpa using h), not_not.mp (mt mem_keys.mpr h)]

end Values

end KovaService.Lib.Url
