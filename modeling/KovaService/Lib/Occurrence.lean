import Mathlib.Data.List.Infix

/-!
Occurrences of a word in a text, over an arbitrary alphabet.

A text that grows at its end gains an occurrence of a word either inside the new part or across the
boundary, and one that crosses the boundary lies in a window a letter shorter than the word on each
side.
-/

namespace KovaService.Lib.Occurrence

variable {α : Type}

def lastOf (n : Nat) (text : List α) : List α := text.drop (text.length - n)

theorem lastOf_suffix (n : Nat) (text : List α) : lastOf n text <:+ text := List.drop_suffix ..

theorem length_lastOf (n : Nat) (text : List α) : (lastOf n text).length = min n text.length := by
  rw [lastOf, List.length_drop]
  omega

variable {n : Nat}

theorem suffix_lastOf {l text : List α} (h : l <:+ text) (hn : l.length ≤ n) :
    l <:+ lastOf n text := by
  obtain ⟨a, rfl⟩ := h
  rw [lastOf, List.length_append, List.drop_append_of_le_length (by omega)]
  exact List.suffix_append ..

theorem lastOf_lastOf {m : Nat} (h : m ≤ n) (text : List α) :
    lastOf m (lastOf n text) = lastOf m text := by
  rw [lastOf, length_lastOf, lastOf, lastOf, List.drop_drop]
  congr 1
  omega

theorem lastOf_append (s t : List α) (h : t.length ≤ n) :
    lastOf n (s ++ t) = lastOf (n - t.length) s ++ t := by
  have hle : (s ++ t).length - n ≤ s.length := by
    rw [List.length_append]
    omega
  rw [lastOf, List.drop_append_of_le_length hle, lastOf, List.length_append]
  congr 2
  omega

theorem lastOf_append_long (s t : List α) (h : n ≤ t.length) : lastOf n (s ++ t) = lastOf n t := by
  rw [lastOf, lastOf, List.length_append, List.drop_append]
  rw [List.drop_eq_nil_of_le (by omega), List.nil_append]
  congr 1
  omega

theorem lastOf_append_lastOf (n : Nat) (s t : List α) :
    lastOf n (lastOf n s ++ t) = lastOf n (s ++ t) := by
  rcases Nat.le_total t.length n with h | h
  · rw [lastOf_append _ _ h, lastOf_append _ _ h, lastOf_lastOf (Nat.sub_le ..)]
  · rw [lastOf_append_long _ _ h, lastOf_append_long _ _ h]

theorem map_lastOf {β : Type} (f : α → β) (n : Nat) (text : List α) :
    (lastOf n text).map f = lastOf n (text.map f) := by
  rw [lastOf, lastOf, List.map_drop, List.length_map]

theorem infix_append_iff {word : List α} (hword : word ≠ []) (s t : List α) :
    word <:+: s ++ t ↔ word <:+: s ∨ word <:+: t ∨
      word <:+: lastOf (word.length - 1) s ++ t.take (word.length - 1) := by
  constructor
  · rintro ⟨a, b, hab⟩
    rw [List.append_assoc] at hab
    rcases List.append_eq_append_iff.mp hab with ⟨u, rfl, hu⟩ | ⟨u, rfl, rfl⟩
    · -- the occurrence begins in `s`; it either ends there or goes on into `t`
      rcases List.append_eq_append_iff.mp hu with ⟨v, rfl, rfl⟩ | ⟨v, rfl, rfl⟩
      · exact .inl ⟨a, v, by simp⟩
      · rcases u with _ | ⟨d, u⟩
        · exact .inr (.inl ⟨[], b, by simp⟩)
        rcases v with _ | ⟨c, v⟩
        · exact .inl ⟨a, [], by simp⟩
        refine .inr (.inr ?_)
        obtain ⟨x, hx⟩ : d :: u <:+ lastOf ((d :: u ++ c :: v).length - 1) (a ++ d :: u) :=
          suffix_lastOf (List.suffix_append ..) (by simp)
        obtain ⟨y, hy⟩ : c :: v <+: (c :: v ++ b).take ((d :: u ++ c :: v).length - 1) :=
          List.prefix_take_iff.mpr ⟨List.prefix_append .., by simp⟩
        exact ⟨x, y, by rw [← hx, ← hy]; simp⟩
    · exact .inr (.inl ⟨u, b, by simp⟩)
  · rintro (h | h | h)
    · exact h.trans (List.prefix_append ..).isInfix
    · exact h.trans (List.suffix_append ..).isInfix
    · refine h.trans ?_
      obtain ⟨x, hx⟩ := lastOf_suffix (word.length - 1) s
      refine ⟨x, t.drop (word.length - 1), ?_⟩
      rw [← List.append_assoc, hx, List.append_assoc, List.take_append_drop]

end KovaService.Lib.Occurrence
