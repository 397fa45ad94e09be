import Mathlib.Data.Finset.Sort
import Mathlib.Data.List.Rotate
import Mathlib.Data.String.Basic

/-!
`sort.Search`, and sweeps over a sorted list that remember only the last element they came to.

The sweep continues behind its cursor and wraps around.  What makes this sound is one fact: from the
cursor left behind by `n` elements of a rotation of the list, the search finds the place where the
rotation goes on.
-/

namespace KovaService.Lib

abbrev sortedNames (names : Finset String) : List String := names.sort (· ≤ ·)

def searchFrom (f : Nat → Bool) (i j : Nat) : Nat :=
  if i < j then
    let h := (i + j) / 2
    if !f h then searchFrom f (h + 1) j else searchFrom f i h
  else i
termination_by j - i
decreasing_by all_goals omega

def search (n : Nat) (f : Nat → Bool) : Nat := searchFrom f 0 n

variable {f : Nat → Bool}

theorem searchFrom_eq {i j k : Nat} (hik : i ≤ k) (hkj : k ≤ j) (below : ∀ m < k, f m = false)
    (above : ∀ m, k ≤ m → m < j → f m) :
    searchFrom f i j = k := by
  induction i, j using searchFrom.induct (f := f) with
  | case1 i j hij h hf ih =>
    rw [searchFrom, if_pos hij]
    change (if (!f h) = true then searchFrom f (h + 1) j else searchFrom f i h) = k
    rw [if_pos hf]
    simp only [Bool.not_eq_eq_eq_not, Bool.not_true] at hf
    refine ih ?_ hkj above
    -- `h` lies below the boundary, for the predicate fails there
    by_contra hlt
    have hk : f h := above h (by omega) (by omega)
    rw [hf] at hk
    cases hk
  | case2 i j hij h hf ih =>
    rw [searchFrom, if_pos hij]
    change (if (!f h) = true then searchFrom f (h + 1) j else searchFrom f i h) = k
    rw [if_neg hf]
    simp only [Bool.not_eq_eq_eq_not, Bool.not_true, Bool.not_eq_false] at hf
    have hkh : k ≤ h := by
      by_contra hlt
      rw [below h (by omega)] at hf
      cases hf
    refine ih hik hkh ?_
    intro m hkm hmh
    exact above m hkm (by omega)
  | case3 i j hij =>
    rw [searchFrom, if_neg hij]
    omega

theorem search_eq {n k : Nat} (hk : k ≤ n) (below : ∀ m < k, f m = false)
    (above : ∀ m, k ≤ m → m < n → f m) : search n f = k :=
  searchFrom_eq (Nat.zero_le k) hk below above

section Sweep

variable {α : Type} [LinearOrder α]

/-- Where a sweep with this cursor goes on: behind the cursor, or at the front. -/
def resume (l : List α) (cursor : α) : Nat :=
  let start := search l.length fun i => (l[i]?).any fun a => cursor < a
  if start == l.length then 0 else start

/-- In a sorted list, the sweep goes on right behind a cursor that is in it. -/
theorem resume_getElem {l : List α} (hl : l.Pairwise (· < ·)) {i : Nat} (hi : i < l.length) :
    resume l l[i] = (i + 1) % l.length := by
  have hs : search l.length (fun m => (l[m]?).any fun a => l[i] < a) = i + 1 := by
    refine search_eq hi ?_ ?_
    · intro m hm
      have hml : m < l.length := by omega
      rw [List.getElem?_eq_getElem hml]
      simp only [Option.any_some, decide_eq_false_iff_not, not_lt]
      rcases Nat.lt_succ_iff_lt_or_eq.mp hm with hlt | rfl
      · exact (List.pairwise_iff_getElem.mp hl m i hml hi hlt).le
      · exact le_refl _
    · intro m hm hml
      rw [List.getElem?_eq_getElem hml]
      simp only [Option.any_some, decide_eq_true_eq]
      exact List.pairwise_iff_getElem.mp hl i m hi hml hm
  unfold resume
  rw [hs]
  by_cases he : i + 1 = l.length
  · simp [he]
  · have hlt : i + 1 < l.length := by omega
    simp [he, Nat.mod_eq_of_lt hlt]

/-- From the last of `n + 1` elements of a rotation, the rotation goes on. -/
theorem rotate_resume {l : List α} (hl : l.Pairwise (· < ·)) {start n : Nat}
    (hn : n < (l.rotate start).length) :
    l.rotate (resume l (l.rotate start)[n]) = (l.rotate start).rotate (n + 1) := by
  have hlen : 0 < l.length := by
    rw [List.length_rotate] at hn
    omega
  rw [List.getElem_rotate, resume_getElem hl (Nat.mod_lt _ hlen), List.rotate_rotate]
  rw [List.rotate_mod, ← List.rotate_mod l (start + (n + 1))]
  rw [← List.rotate_mod l ((n + start) % l.length + 1)]
  congr 1
  rw [Nat.add_mod, Nat.mod_mod, ← Nat.add_mod]
  congr 1
  omega

end Sweep

end KovaService.Lib
