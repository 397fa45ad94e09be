import Mathlib.Data.Finmap
import KovaService.Lib.JsonValue
import KovaService.Lib.Search

/-!
Records and maps as JSON objects, in the way Go's `encoding/json` writes and reads them.

A record is a table of its fields; a field with `omitempty` has no value when it is zero, and a field
that is absent is read as zero.  A map is written in the order of its keys.  Reading returns `none`
when a value has the wrong type.
-/

namespace KovaService.Lib.Json

abbrev Fields := List (String × Option Value)

def present (t : Fields) : List (String × Value) :=
  t.filterMap fun (k, v) => v.map fun v => (k, v)

def Value.record (t : Fields) : Value := .obj (present t)

theorem keys_present (t : Fields) : ((present t).map Prod.fst).Sublist (t.map Prod.fst) := by
  induction t with
  | nil => exact List.Sublist.slnil
  | cons f t ih =>
    obtain ⟨k, v⟩ := f
    cases v with
    | none => exact ih.cons k
    | some v => exact ih.cons_cons k

variable {k : String} {t : Fields} {v : Value}

theorem mem_present (h : (k, v) ∈ present t) : (k, some v) ∈ t := by
  obtain ⟨⟨k', v'⟩, hmem, heq⟩ := List.mem_filterMap.mp h
  cases v' with
  | none => cases heq
  | some v' =>
    cases heq
    exact hmem

theorem lookup_none_of_notMem {α : Type} {l : List (String × α)} (h : k ∉ l.map Prod.fst) :
    l.lookup k = none := by
  induction l with
  | nil => rfl
  | cons p l ih =>
    obtain ⟨k', a⟩ := p
    rw [List.map_cons, List.mem_cons, not_or] at h
    have hne : (k == k') = false := by simpa using h.1
    rw [List.lookup_cons, hne]
    exact ih h.2

theorem lookup_present (hn : (t.map Prod.fst).Nodup) (k : String) :
    (present t).lookup k = (t.lookup k).join := by
  induction t with
  | nil => rfl
  | cons f t ih =>
    obtain ⟨k', v⟩ := f
    rw [List.map_cons, List.nodup_cons] at hn
    by_cases hk : k = k'
    · subst hk
      have hrest : (present t).lookup k = none :=
        lookup_none_of_notMem fun h => hn.1 ((keys_present t).subset h)
      cases v with
      | none => simpa [present, List.lookup_cons] using hrest
      | some v => simp [present]
    · have hne : (k == k') = false := by simpa using hk
      have htail := ih hn.2
      cases v with
      | none => simpa [present, List.lookup_cons, hne] using htail
      | some v => simpa [present, List.lookup_cons, hne] using htail

def nonEmpty (s : String) : Option Value := if s = "" then none else some (.str s)

def nonZero (n : Nat) : Option Value := if n = 0 then none else some (.int n)

def nonFalse (b : Bool) : Option Value := if b then some (.bool true) else none

def nonNil (l : List String) : Option Value := if l = [] then none else some (.arr (l.map .str))

def readString : Option Value → Option String
  | none => some ""
  | some (.str s) => some s
  | some _ => none

def readBool : Option Value → Option Bool
  | none => some false
  | some (.bool b) => some b
  | some _ => none

def readInt : Option Value → Option Int
  | none => some 0
  | some (.num n) => n.toInt?.filter fun v => -2 ^ 63 ≤ v && v < 2 ^ 63
  | some _ => none

def readUInt64 : Option Value → Option UInt64
  | none => some 0
  | some (.num n) =>
    match n.text with
    | '-' :: _ => none
    | _ => (n.toInt?.filter fun v => v < 2 ^ 64).map fun v => UInt64.ofNat v.toNat
  | some _ => none

def readStrings : Option Value → Option (List String)
  | none => some []
  | some (.arr vs) => vs.mapM fun
    | .str s => some s
    | _ => none
  | some _ => none

theorem read_bind {α β : Type} {x : Option α} {f : α → Option β} {a : α} {b : Option β}
    (hx : x = some a) (hf : f a = b) : (x >>= f) = b := by
  rw [hx]
  exact hf

@[simp] theorem readString_str (s : String) : readString (some (.str s)) = some s := rfl

@[simp] theorem readString_nonEmpty (s : String) : readString (nonEmpty s) = some s := by
  unfold nonEmpty
  split
  · next h => rw [h]; rfl
  · rfl

@[simp] theorem readBool_nonFalse (b : Bool) : readBool (nonFalse b) = some b := by
  cases b <;> rfl

theorem readInt_int {n : Int} (hl : -2 ^ 63 ≤ n) (hu : n < 2 ^ 63) :
    readInt (some (.int n)) = some n := by
  have hrange : (decide (-2 ^ 63 ≤ n) && decide (n < 2 ^ 63)) := by simp only [hl, hu]; rfl
  simp only [readInt, Value.int, Number.toInt?_ofInt, Option.filter_some, hrange, if_true]

theorem readUInt64_int (n : UInt64) : readUInt64 (some (.int n.toNat)) = some n := by
  have hlt : (n.toNat : Int) < 2 ^ 64 := by exact_mod_cast n.toNat_lt
  simp only [readUInt64, Value.int]
  split
  · next h => exact absurd h (decimal_ne_minus _)
  · rw [Number.toInt?_ofInt, Option.filter_some, if_pos (by simpa using hlt)]
    simp

@[simp] theorem readUInt64_nonZero (n : UInt64) : readUInt64 (nonZero n.toNat) = some n := by
  unfold nonZero
  split
  · next h =>
    have : n = 0 := by
      apply UInt64.toNat_inj.mp
      simpa using h
    rw [this]
    rfl
  · exact readUInt64_int n

@[simp] theorem readStrings_nonNil (l : List String) : readStrings (nonNil l) = some l := by
  have hmap : ∀ l : List String, (l.map Value.str).mapM (fun
      | .str s => some s
      | _ => none) = some l := by
    intro l
    induction l with
    | nil => rfl
    | cons s l ih => simp [ih]
  unfold nonNil
  split
  · next h => rw [h]; rfl
  · exact hmap l

section Maps

variable {α : Type}

def mapMembers (f : α → Value) (m : Finmap fun _ : String => α) : List (String × Value) :=
  (sortedNames m.keys).filterMap fun k => (m.lookup k).map fun a => (k, f a)

def readMembers (g : Value → Option α) :
    List (String × Value) → (Finmap fun _ : String => α) → Option (Finmap fun _ : String => α)
  | [], m => some m
  | (k, v) :: ms, m =>
    match g v with
    | none => none
    | some a => readMembers g ms (m.insert k a)

def readMap (g : Value → Option α) : Option Value → Option (Finmap fun _ : String => α)
  | some (.obj ms) => readMembers g ms ∅
  | _ => none

theorem keys_mapMembers (f : α → Value) (m : Finmap fun _ : String => α) :
    (mapMembers f m).map Prod.fst = m.keys.sort (· ≤ ·) := by
  have hall : ∀ l : List String, (∀ k ∈ l, k ∈ m.keys) →
      (l.filterMap fun k => (m.lookup k).map fun a => (k, f a)).map Prod.fst = l := by
    intro l hl
    induction l with
    | nil => rfl
    | cons k l ih =>
      obtain ⟨a, ha⟩ := Option.isSome_iff_exists.mp
        (Finmap.lookup_isSome.mpr (Finmap.mem_keys.mp (hl k (by simp))))
      simp [ha, ih fun k' hk' => hl k' (List.mem_cons_of_mem k hk')]
  exact hall _ fun k hk => by simpa using hk

theorem nodup_mapMembers (f : α → Value) (m : Finmap fun _ : String => α) :
    ((mapMembers f m).map Prod.fst).Nodup := by
  rw [keys_mapMembers]
  exact Finset.sort_nodup _ _

variable {f : α → Value} {m : Finmap fun _ : String => α}

theorem mem_mapMembers (h : (k, v) ∈ mapMembers f m) : ∃ a, m.lookup k = some a ∧ v = f a := by
  obtain ⟨k', -, heq⟩ := List.mem_filterMap.mp h
  obtain ⟨a, ha, heq⟩ := Option.map_eq_some_iff.mp heq
  cases heq
  exact ⟨a, ha, rfl⟩

variable {g : Value → Option α}

theorem readMembers_lookup {l : List String}
    (hl : ∀ k ∈ l, ∀ a, m.lookup k = some a → g (f a) = some a)
    (acc : Finmap fun _ : String => α) :
    ∃ m', readMembers g (l.filterMap fun k => (m.lookup k).map fun a => (k, f a)) acc = some m' ∧
      ∀ k, m'.lookup k = if k ∈ l ∧ (m.lookup k).isSome then m.lookup k else acc.lookup k := by
  induction l generalizing acc with
  | nil => exact ⟨acc, rfl, by simp⟩
  | cons k l ih =>
    have htail : ∀ k' ∈ l, ∀ a, m.lookup k' = some a → g (f a) = some a :=
      fun k' hk' => hl k' (List.mem_cons_of_mem k hk')
    cases ha : m.lookup k with
    | none =>
      obtain ⟨m', hm', hlook⟩ := ih htail acc
      refine ⟨m', by simpa [ha] using hm', fun k' => ?_⟩
      rw [hlook]
      by_cases hk : k' = k
      · subst hk
        simp [ha]
      · simp [hk]
    | some a =>
      obtain ⟨m', hm', hlook⟩ := ih htail (acc.insert k a)
      refine ⟨m', by simpa [ha, readMembers, hl k (by simp) a ha] using hm', fun k' => ?_⟩
      rw [hlook]
      by_cases hk : k' = k
      · subst hk
        simp [ha]
      · simp [hk, Finmap.lookup_insert_of_ne]

theorem readMap_mapMembers (m : Finmap fun _ : String => α)
    (h : ∀ k a, m.lookup k = some a → g (f a) = some a) :
    readMap g (some (.obj (mapMembers f m))) = some m := by
  obtain ⟨m', hm', hlook⟩ := readMembers_lookup (l := m.keys.sort (· ≤ ·))
    (fun k _ a ha => h k a ha) ∅
  have heq : m' = m := by
    refine Finmap.ext_lookup fun k => ?_
    rw [hlook]
    by_cases hk : k ∈ m
    · simp [Finmap.mem_keys, hk, Finmap.lookup_isSome]
    · have hnone := Finmap.lookup_eq_none.mpr hk
      simp [hnone]
  exact heq ▸ hm'

end Maps

end KovaService.Lib.Json
