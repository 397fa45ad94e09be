import Mathlib.Logic.Relation
import KovaService.Lib.Path

/-!
A tree of directories, files and symbolic links, and how a path is resolved in it.

A resolution stands at a place and has elements left to look at.  A link is followed where it is met,
so its elements come before those that were left.  `Within` is a condition on one link alone: from
the directory it stands in, its parent steps and its names lead to a path with the same first
element.  If it holds of every link, then a resolution that starts in a top-level directory can
leave it only for the root, and comes back with its next element.
-/

namespace KovaService.Lib.FileTree

open Lib.Path

inductive Node where
  | dir
  | file
  | link (target : List Char)
  deriving DecidableEq

abbrev Tree : Type := List Element → Option Node

def empty : Tree := fun p => if p = [] then some .dir else none

/-- Where a resolution stands: at a path below the root, or beyond the root. -/
inductive Place where
  | inside (p : List Element)
  | outside
  deriving DecidableEq

abbrev Resolving : Type := Place × List Element

inductive Step (tree : Tree) : Resolving → Resolving → Prop
  | up (p : List Element) (s : Element) (rest : List Element) :
      Step tree (.inside (p ++ [s]), dotdot :: rest) (.inside p, rest)
  | leave (rest : List Element) : Step tree (.inside [], dotdot :: rest) (.outside, rest)
  | enter {p : List Element} {s : Element} {rest : List Element} (hs : s ≠ dotdot)
      (h : tree (p ++ [s]) = some .dir) :
      Step tree (.inside p, s :: rest) (.inside (p ++ [s]), rest)
  | follow {p : List Element} {s : Element} {rest : List Element} {target : List Char}
      (hs : s ≠ dotdot) (h : tree (p ++ [s]) = some (.link target)) :
      Step tree (.inside p, s :: rest) (.inside p, elements target ++ rest)
  /-- The last element may be a file, or a link that is not followed. -/
  | arrive {p : List Element} {s : Element} {n : Node} (hs : s ≠ dotdot)
      (h : tree (p ++ [s]) = some n) : Step tree (.inside p, [s]) (.inside (p ++ [s]), [])

abbrev Reach (tree : Tree) : Resolving → Resolving → Prop := Relation.ReflTransGen (Step tree)

variable {rest : List Element} {p : List Element} {tree : Tree}

theorem reach_literal {path : List Element} (names : ∀ s ∈ path, Name s)
    (h : ∀ p t, p <+: path → tree p ≠ some (.link t)) {d : List Element}
    (hp : p ++ rest = path) (hr : Reach tree (.inside p, rest) (.inside d, [])) : d = path := by
  -- what is done and what is left make up the path all along
  have keep : ∀ {x y : Resolving}, (∃ p, x.1 = .inside p ∧ p ++ x.2 = path) → Step tree x y →
      ∃ p, y.1 = .inside p ∧ p ++ y.2 = path := by
    rintro x y ⟨p, hx, hp⟩ step
    have noParent : ∀ {q rest}, q ++ dotdot :: rest ≠ path := by
      rintro q rest rfl
      exact (names dotdot (List.mem_append_right _ List.mem_cons_self)).ne_dotdot rfl
    cases step with
    | up p' s rest =>
      injection hx with hx
      exact absurd (hx ▸ hp) noParent
    | leave rest =>
      injection hx with hx
      exact absurd (hx ▸ hp) noParent
    | @enter p' s rest hs hd =>
      injection hx with hx
      exact ⟨p' ++ [s], rfl, by rw [← hp, ← hx]; simp⟩
    | @follow p' s rest target hs hl =>
      injection hx with hx
      subst hx
      exact absurd hl (h (p' ++ [s]) target ⟨rest, by rw [← hp]; simp⟩)
    | @arrive p' s n hs hn =>
      injection hx with hx
      exact ⟨p' ++ [s], rfl, by rw [← hp, ← hx]; simp⟩
  have all : ∀ {y : Resolving}, Reach tree (.inside p, rest) y →
      ∃ p, y.1 = .inside p ∧ p ++ y.2 = path := by
    intro y hy
    induction hy with
    | refl => exact ⟨p, rfl, hp⟩
    | tail _ step ih => exact keep ih step
  obtain ⟨q, hq, hpath⟩ := all hr
  injection hq with hq
  subst hq
  rwa [List.append_nil] at hpath

theorem reach_dirs (hn : ∀ s ∈ rest, s ≠ dotdot)
    (h : ∀ r, r <+: rest → r ≠ [] → tree (p ++ r) = some .dir) :
    Reach tree (.inside p, rest) (.inside (p ++ rest), []) := by
  induction rest generalizing p with
  | nil => rw [List.append_nil]
  | cons s rest ih =>
    have first : Step tree (.inside p, s :: rest) (.inside (p ++ [s]), rest) :=
      .enter (hn s List.mem_cons_self) (h [s] ⟨rest, rfl⟩ (by simp))
    have tail : Reach tree (.inside (p ++ [s]), rest) (.inside ((p ++ [s]) ++ rest), []) := by
      refine ih (fun t ht => hn t (List.mem_cons_of_mem s ht)) fun r hr _ => ?_
      rw [List.append_assoc]
      exact h (s :: r) (List.prefix_cons_inj s |>.mpr hr) (by simp)
    rw [List.append_assoc] at tail
    exact .head first tail

/-- Seen from where the link stands, its target has the first element of the link's own path. -/
def Within (link : List Element) (target : List Char) : Prop :=
  ∃ d s k names, link = d ++ [s] ∧ elements target = List.replicate k dotdot ++ names ∧
    (∀ n ∈ names, Name n) ∧ k ≤ d.length ∧
    (d.take (d.length - k) ++ names).head? = link.head?

/-- The resolution will come back to the top-level directory, or is in it. -/
def Bound (top : Element) (x : Resolving) : Prop :=
  ∃ p k names, x.1 = .inside p ∧ x.2 = List.replicate k dotdot ++ names ∧
    (∀ n ∈ names, Name n) ∧ k ≤ p.length ∧ (p.take (p.length - k) ++ names).head? = some top ∧
    (p = [] ∨ p.head? = some top)

variable {names : List Element}

theorem replicate_head {k : Nat} (hn : ∀ n ∈ names, Name n)
    (h : dotdot :: rest = List.replicate k dotdot ++ names) :
    ∃ j, k = j + 1 ∧ rest = List.replicate j dotdot ++ names := by
  cases k with
  | zero =>
    rw [List.replicate_zero, List.nil_append] at h
    exact absurd rfl (hn dotdot (h ▸ List.mem_cons_self)).ne_dotdot
  | succ j =>
    rw [List.replicate_succ, List.cons_append] at h
    injection h with _ h
    exact ⟨j, rfl, h⟩

variable {s : Element}

theorem replicate_name {k : Nat} (hs : s ≠ dotdot)
    (h : s :: rest = List.replicate k dotdot ++ names) : k = 0 ∧ names = s :: rest := by
  cases k with
  | zero => exact ⟨rfl, by simpa using h.symm⟩
  | succ j =>
    rw [List.replicate_succ, List.cons_append] at h
    injection h with h _
    exact absurd h hs

variable {top : Element}

theorem head_concat (h : (p ++ s :: rest).head? = some top) : (p ++ [s]).head? = some top := by
  cases p with
  | nil => exact h
  | cons a p => exact h

theorem bound_name (hs : s ≠ dotdot) (h : Bound top (.inside p, s :: rest)) :
    (∀ n ∈ s :: rest, Name n) ∧ (p ++ [s]).head? = some top ∧
      (p = [] ∨ p.head? = some top) := by
  obtain ⟨q, k, names, hq, hrest, hn, -, hhead, hp⟩ := h
  injection hq with hq
  subst hq
  obtain ⟨rfl, rfl⟩ := replicate_name hs hrest
  rw [Nat.sub_zero, List.take_length] at hhead
  exact ⟨hn, head_concat hhead, hp⟩

theorem bound_arrived (hs : s ≠ dotdot) (h : Bound top (.inside p, s :: rest)) :
    Bound top (.inside (p ++ [s]), rest) := by
  obtain ⟨hn, hhead, -⟩ := bound_name hs h
  refine ⟨p ++ [s], 0, rest, rfl, rfl, fun n hm => hn n (List.mem_cons_of_mem s hm),
    Nat.zero_le _, ?_, .inr hhead⟩
  rw [Nat.sub_zero, List.take_length]
  obtain ⟨a, l, hl⟩ := List.exists_cons_of_ne_nil (show p ++ [s] ≠ [] by simp)
  rw [hl] at hhead ⊢
  exact hhead

theorem step_bound (links : ∀ p t, tree p = some (.link t) → Within p t) {x y : Resolving}
    (h : Bound top x) (step : Step tree x y) : Bound top y := by
  cases step with
  | up p s rest =>
    obtain ⟨q, k, names, hq, hrest, hn, hk, hhead, hp⟩ := h
    injection hq with hq
    subst hq
    obtain ⟨j, rfl, rfl⟩ := replicate_head hn hrest
    rw [List.length_append, List.length_singleton, Nat.add_sub_add_right,
      List.take_append_of_le_length (Nat.sub_le _ _)] at hhead
    have hj : j ≤ p.length := by simpa using hk
    refine ⟨p, j, names, rfl, rfl, hn, hj, hhead, ?_⟩
    cases p with
    | nil => exact .inl rfl
    | cons a p => exact .inr (hp.resolve_left (by simp))
  | leave rest =>
    obtain ⟨q, k, names, hq, hrest, hn, hk, -⟩ := h
    injection hq with hq
    subst hq
    obtain ⟨j, rfl, -⟩ := replicate_head hn hrest
    simp at hk
  | enter hs hd => exact bound_arrived hs h
  | @follow p s rest target hs hl =>
    obtain ⟨hn, hhead, hp⟩ := bound_name hs h
    obtain ⟨d, s', k, names, hlink, htarget, hnames, hk, hfirst⟩ := links _ _ hl
    obtain ⟨rfl, rfl⟩ : p = d ∧ s = s' := by simpa using hlink
    refine ⟨p, k, names ++ rest, rfl, by rw [htarget]; simp, fun n hm => ?_, hk, ?_, hp⟩
    · rcases List.mem_append.mp hm with hm | hm
      · exact hnames n hm
      · exact hn n (List.mem_cons_of_mem s hm)
    · rw [hhead] at hfirst
      rw [← List.append_assoc, List.head?_append, hfirst]
      rfl
  | arrive hs hn => exact bound_arrived hs h

theorem reach_bound (links : ∀ p t, tree p = some (.link t) → Within p t) (hn : ∀ n ∈ names, Name n)
    {y : Resolving}
    (h : Reach tree (.inside [top], names) y) : Bound top y := by
  induction h with
  | refl => exact ⟨[top], 0, names, rfl, rfl, hn, Nat.zero_le _, rfl, .inr rfl⟩
  | tail _ step ih => exact step_bound links ih step

end KovaService.Lib.FileTree
