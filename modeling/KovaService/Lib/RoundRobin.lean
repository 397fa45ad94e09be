import Mathlib.Data.List.Sort
import Mathlib.Data.List.DropRight
import Mathlib.Data.Multiset.Bind

/-!
Serving several lanes in turn.

A list of items is split into lanes by a key, every lane is sorted, and `rounds` takes one item of
every lane per round.  `Precedes` is the order of a list read as a relation; the lemmas say how it
passes from the lanes to the list of rounds.  Where the lanes stand on a ring and the turn goes to the
nearest one behind the last, `gap` measures how far a turn still is.
-/

namespace KovaService.Lib

variable {α β : Type}

def Precedes (l : List α) (a b : α) : Prop := [a, b].Sublist l

namespace Precedes

variable {l l' : List α} {a b : α}

theorem mono (h : Precedes l a b) (hl : l.Sublist l') : Precedes l' a b :=
  List.Sublist.trans h hl

theorem left_mem (h : Precedes l a b) : a ∈ l :=
  h.subset (by simp)

theorem right_mem (h : Precedes l a b) : b ∈ l :=
  h.subset (by simp)

theorem of_pairwise {R : α → α → Prop} (h : Precedes l a b) (hl : l.Pairwise R) : R a b :=
  List.pairwise_iff_forall_sublist.mp hl h

theorem append (ha : a ∈ l) (hb : b ∈ l') : Precedes (l ++ l') a b :=
  (List.singleton_sublist.mpr ha).append (List.singleton_sublist.mpr hb)

theorem total (ha : a ∈ l) (hb : b ∈ l) (hne : a ≠ b) : Precedes l a b ∨ Precedes l b a := by
  induction l with
  | nil => cases ha
  | cons c l ih =>
    by_cases hac : a = c
    · have hb : b ∈ l := (List.mem_cons.mp hb).resolve_left fun h => hne (hac.trans h.symm)
      exact .inl (hac ▸ (List.singleton_sublist.mpr hb).cons_cons a)
    have ha : a ∈ l := (List.mem_cons.mp ha).resolve_left hac
    by_cases hbc : b = c
    · exact .inr (hbc ▸ (List.singleton_sublist.mpr ha).cons_cons b)
    · have hb : b ∈ l := (List.mem_cons.mp hb).resolve_left hbc
      exact (ih ha hb).imp (·.cons c) (·.cons c)

end Precedes

theorem lanes_perm [DecidableEq β] (key : α → β) (keys : List β) (l : List α) (hk : keys.Nodup)
    (hl : ∀ a ∈ l, key a ∈ keys) : (keys.flatMap fun k => l.filter fun a => key a == k).Perm l := by
  induction keys generalizing l with
  | nil =>
    have : l = [] := List.eq_nil_iff_forall_not_mem.mpr fun a ha => by cases hl a ha
    simp [this]
  | cons k keys ih =>
    obtain ⟨hk', hks⟩ := List.nodup_cons.mp hk
    -- The other lanes are the lanes of what is left without this one.
    have hrest : (keys.flatMap fun j => l.filter fun a => key a == j) =
        keys.flatMap fun j => (l.filter fun a => !(key a == k)).filter fun a => key a == j := by
      refine List.flatMap_congr fun j hj => ?_
      rw [List.filter_filter]
      refine List.filter_congr fun a _ => ?_
      by_cases ha : key a = j
      · have : key a ≠ k := fun h => hk' (h ▸ ha ▸ hj)
        simp [ha, ha ▸ this]
      · simp [ha]
    have hleft := ih (l.filter fun a => !(key a == k)) hks fun a ha => by
      obtain ⟨ha, hne⟩ := List.mem_filter.mp ha
      have hmem := List.mem_cons.mp (hl a ha)
      exact hmem.resolve_left (by simpa using hne)
    rw [List.flatMap_cons, hrest]
    exact (hleft.append_left _).trans (List.filter_append_perm _ l)

def rounds (lane : β → List α) (order : List β) (n : Nat) : List α :=
  (List.range n).flatMap fun k => order.filterMap fun q => (lane q)[k]?

section Rounds

variable {lane : β → List α} {order : List β} {n : Nat}

theorem filterMap_get_range (l : List α) (h : l.length ≤ n) :
    ((List.range n).filterMap fun k => l[k]?) = l := by
  induction n generalizing l with
  | zero =>
    have : l = [] := List.eq_nil_of_length_eq_zero (by omega)
    simp [this]
  | succ n ih =>
    cases l with
    | nil => simp
    | cons a l =>
      rw [List.range_succ_eq_map, List.filterMap_cons_some (b := a) (by simp), List.filterMap_map]
      refine congrArg _ ((List.filterMap_congr fun k _ => ?_).trans (ih l (by simpa using h)))
      simp

theorem rounds_perm (h : ∀ q ∈ order, (lane q).length ≤ n) :
    (rounds lane order n).Perm (order.flatMap lane) := by
  have hswap : (rounds lane order n).Perm
      (order.flatMap fun q => (List.range n).filterMap fun k => (lane q)[k]?) := by
    apply Multiset.coe_eq_coe.mp
    simp only [rounds, List.filterMap_eq_flatMap_toList, ← Multiset.coe_bind]
    exact Multiset.bind_bind _ _
  refine hswap.trans (List.Perm.of_eq (List.flatMap_congr fun q hq => ?_))
  exact filterMap_get_range _ (h q hq)

theorem precedes_same_round {p q : β} {a b : α} {k : Nat} (h : Precedes order p q) (hk : k < n)
    (ha : (lane p)[k]? = some a) (hb : (lane q)[k]? = some b) :
    Precedes (rounds lane order n) a b := by
  have hround : Precedes (order.filterMap fun q => (lane q)[k]?) a b := by
    have := h.filterMap fun q => (lane q)[k]?
    simpa [Precedes, ha, hb] using this
  refine hround.mono ?_
  unfold rounds
  have hone : [k].Sublist (List.range n) := List.singleton_sublist.mpr (List.mem_range.mpr hk)
  simpa using hone.flatMap fun k => order.filterMap fun q => (lane q)[k]?

theorem precedes_later_round {p q : β} {a b : α} {j k : Nat} (hp : p ∈ order) (hq : q ∈ order)
    (hjk : j < k) (hk : k < n) (ha : (lane p)[j]? = some a) (hb : (lane q)[k]? = some b) :
    Precedes (rounds lane order n) a b := by
  have hrange : Precedes (List.range n) j k := by
    refine (Precedes.total (List.mem_range.mpr (hjk.trans hk)) (List.mem_range.mpr hk)
      hjk.ne).resolve_right fun h => ?_
    exact absurd (h.of_pairwise List.pairwise_lt_range) (by omega)
  have hsub := List.Sublist.flatMap hrange fun k => order.filterMap fun q => (lane q)[k]?
  refine Precedes.mono ?_ hsub
  rw [List.flatMap_cons, List.flatMap_singleton]
  exact .append (List.mem_filterMap.mpr ⟨p, hp, ha⟩) (List.mem_filterMap.mpr ⟨q, hq, hb⟩)

theorem filter_round [DecidableEq β] {key : α → β} (hn : order.Nodup)
    (hkey : ∀ p ∈ order, ∀ a ∈ lane p, key a = p) {q : β} (hq : q ∈ order) (k : Nat) :
    (order.filterMap fun p => (lane p)[k]?).filter (fun a => key a == q) =
      ((lane q)[k]?).toList := by
  rw [List.filter_filterMap]
  have hone : ∀ p ∈ order, (Option.filter (fun a => key a == q) (lane p)[k]?) =
      if p = q then (lane q)[k]? else none := by
    intro p hp
    cases ha : (lane p)[k]? with
    | none =>
      by_cases h : p = q
      · subst h
        simp [ha]
      · simp [h]
    | some a =>
      have := hkey p hp a (List.mem_of_getElem? ha)
      by_cases h : p = q
      · subst h
        simp [Option.filter, this, ha]
      · simp [Option.filter, this, h]
  rw [List.filterMap_congr hone]
  clear hone hkey
  induction order with
  | nil => cases hq
  | cons p order ih =>
    obtain ⟨hp, hn⟩ := List.nodup_cons.mp hn
    by_cases h : p = q
    · subst h
      have hrest : order.filterMap (fun p' => if p' = p then (lane p)[k]? else none) = [] :=
        List.filterMap_eq_nil_iff.mpr fun p' hp' => if_neg (by rintro rfl; exact hp hp')
      cases hv : (lane p)[k]? <;> simp_all
    · simpa [h] using ih hn ((List.mem_cons.mp hq).resolve_left (Ne.symm h))

theorem filter_rounds [DecidableEq β] {key : α → β} (hn : order.Nodup)
    (hkey : ∀ p ∈ order, ∀ a ∈ lane p, key a = p) {q : β} (hq : q ∈ order)
    (hlen : (lane q).length ≤ n) : (rounds lane order n).filter (fun a => key a == q) = lane q := by
  rw [rounds, List.filter_flatMap]
  calc (List.range n).flatMap (fun k => (order.filterMap fun p => (lane p)[k]?).filter _)
      = (List.range n).flatMap fun k => ((lane q)[k]?).toList :=
        List.flatMap_congr fun k _ => filter_round hn hkey hq k
    _ = lane q := by
        rw [← List.filterMap_eq_flatMap_toList]
        exact filterMap_get_range _ hlen

end Rounds

/-- Every list splits at a member into what is outside and inside the block around it. -/
theorem split_block (same : α → Bool) (l r : List α) :
    ∃ pre inner outer post, l = pre ++ inner ∧ r = outer ++ post ∧
      (l.reverse.takeWhile same).length = inner.length ∧ (r.takeWhile same).length = outer.length ∧
      (∀ a ∈ inner, same a) ∧ (∀ a ∈ outer, same a) ∧
      (∀ a ∈ pre.getLast?, same a = false) ∧ ∀ a ∈ post.head?, same a = false := by
  refine ⟨l.rdropWhile same, l.rtakeWhile same, r.takeWhile same, r.dropWhile same,
    List.rdropWhile_append_rtakeWhile.symm, (List.takeWhile_append_dropWhile).symm, ?_, rfl,
    fun a ha => List.mem_rtakeWhile_imp ha, fun a ha => List.mem_takeWhile_imp ha, ?_, ?_⟩
  · simp [List.rtakeWhile]
  · intro a ha
    by_contra hs
    have hne : l.rdropWhile same ≠ [] := fun h => by simp [h] at ha
    have hlast := List.rdropWhile_last_not same l hne
    rw [Option.mem_def, List.getLast?_eq_getLast_of_ne_nil hne] at ha
    cases ha
    simp_all
  · intro a ha
    by_contra hs
    have hne : r.dropWhile same ≠ [] := fun h => by simp [h] at ha
    have hhead := List.head_dropWhile_not same hne
    rw [Option.mem_def, List.head?_eq_some_head hne] at ha
    cases ha
    simp_all

/-- The slices that move the members behind `c` in its block to the front of the block. -/
theorem slices_of_block (c : α) (pre inner outer post : List α) :
    let l := pre ++ inner ++ c :: (outer ++ post)
    let i := (pre ++ inner).length
    l.take (i - inner.length) ++ (l.take (i + 1 + outer.length)).drop (i + 1) ++
        (l.take (i + 1)).drop (i - inner.length) ++ l.drop (i + 1 + outer.length) =
      pre ++ (outer ++ inner ++ [c]) ++ post := by
  intro l i
  have hi : i + 1 = (pre ++ inner ++ [c]).length := by simp [i, Nat.add_assoc]
  have hstart : i - inner.length = pre.length := by simp [i]
  have hstop : i + 1 + outer.length = (pre ++ inner ++ [c] ++ outer).length := by
    rw [hi, ← List.length_append]
  have hl : l = pre ++ inner ++ [c] ++ outer ++ post := by simp [l]
  have hl' : l = pre ++ (inner ++ c :: (outer ++ post)) := by simp [l]
  have hl'' : l = pre ++ inner ++ [c] ++ (outer ++ post) := by simp [l]
  have hfirst : l.take pre.length = pre := by rw [hl', List.take_left]
  have hupto : l.take (pre ++ inner ++ [c]).length = pre ++ (inner ++ [c]) := by
    rw [hl'', List.take_left, List.append_assoc]
  have hall : l.take (pre ++ inner ++ [c] ++ outer).length = pre ++ inner ++ [c] ++ outer := by
    rw [hl, List.take_left]
  have hrest : l.drop (pre ++ inner ++ [c] ++ outer).length = post := by rw [hl, List.drop_left]
  rw [hstop, hi, hstart, hfirst, hupto, hall, hrest, List.drop_left, List.drop_left]
  simp

section Ring

variable [DecidableEq α]

def gap (ring : List α) (a b : α) : Nat :=
  if ring.idxOf a ≤ ring.idxOf b then ring.idxOf b - ring.idxOf a
  else ring.idxOf b + ring.length - ring.idxOf a

variable {ring l r : List α} {a b c g q : α}

theorem idxOf_lt_of_precedes (hn : ring.Nodup) (h : Precedes ring a b) :
    ring.idxOf a < ring.idxOf b := by
  induction ring with
  | nil => cases h
  | cons d ring ih =>
    obtain ⟨hd, hn⟩ := List.nodup_cons.mp hn
    rcases List.sublist_cons_iff.mp h with h' | ⟨t, ht, hs⟩
    · have ha : d ≠ a := fun e => hd (e ▸ Precedes.left_mem h')
      have hb : d ≠ b := fun e => hd (e ▸ Precedes.right_mem h')
      rw [List.idxOf_cons_ne _ ha, List.idxOf_cons_ne _ hb]
      exact Nat.succ_lt_succ (ih hn h')
    · cases ht
      have hb : a ≠ b := fun e => hd (e ▸ List.singleton_sublist.mp hs)
      rw [List.idxOf_cons_self, List.idxOf_cons_ne _ hb]
      exact Nat.succ_pos _

theorem eq_of_idxOf_eq (ha : a ∈ ring) (h : ring.idxOf a = ring.idxOf b) : a = b :=
  (List.idxOf_inj ha).mp h

theorem gap_self : gap ring a a = 0 := by
  simp [gap]

theorem gap_pos (ha : a ∈ ring) (hne : a ≠ b) : 0 < gap ring a b := by
  have ha' := List.idxOf_lt_length_iff.mpr ha
  have hidx : ring.idxOf a ≠ ring.idxOf b := fun h => hne (eq_of_idxOf_eq ha h)
  unfold gap
  split <;> omega

theorem eq_of_gap_eq (ha : a ∈ ring) (hb : b ∈ ring) (hc : c ∈ ring)
    (h : gap ring a b = gap ring a c) : b = c := by
  have hb' := List.idxOf_lt_length_iff.mpr hb
  have hc' := List.idxOf_lt_length_iff.mpr hc
  have ha' := List.idxOf_lt_length_iff.mpr ha
  apply eq_of_idxOf_eq hb
  unfold gap at h
  split at h <;> split at h <;> omega

/-- Going on from `c`, no further than `q`, adds up. -/
theorem gap_trans (ha : a ∈ ring) (hc : c ∈ ring) (hg : g ∈ ring) (hq : q ∈ ring)
    (hcq : gap ring a c < gap ring a q) (hle : gap ring c g ≤ gap ring c q) :
    gap ring a g = gap ring a c + gap ring c g ∧ gap ring a g ≤ gap ring a q := by
  have ha' := List.idxOf_lt_length_iff.mpr ha
  have hc' := List.idxOf_lt_length_iff.mpr hc
  have hg' := List.idxOf_lt_length_iff.mpr hg
  have hq' := List.idxOf_lt_length_iff.mpr hq
  unfold gap at *
  split_ifs at * <;> omega

/-- The one served after `c` is the nearest behind `c`. -/
theorem gap_next_le (hn : ring.Nodup) (hsub : (l ++ c :: r).Sublist ring)
    (hg : (r ++ l ++ [c]).head? = some g) (hq : q ∈ l ++ c :: r) (hne : q ≠ c) :
    gap ring c g ≤ gap ring c q ∧ g ≠ c := by
  have hlt : (l ++ c :: r).Pairwise fun a b => ring.idxOf a < ring.idxOf b :=
    List.pairwise_iff_forall_sublist.mpr fun h => idxOf_lt_of_precedes hn (List.Sublist.trans h hsub)
  obtain ⟨hl, hcr, hlcr⟩ := List.pairwise_append.mp hlt
  obtain ⟨hr, hrr⟩ := List.pairwise_cons.mp hcr
  have hmem : ∀ a ∈ l ++ c :: r, ring.idxOf a < ring.length := fun a ha =>
    List.idxOf_lt_length_iff.mpr (hsub.subset ha)
  have hq' := hmem q hq
  have hcases : q ∈ l ∨ q ∈ r := by
    rcases List.mem_append.mp hq with h | h
    · exact .inl h
    · exact .inr ((List.mem_cons.mp h).resolve_left hne)
  cases r with
  | cons g' r =>
    obtain rfl : g' = g := by simpa using hg
    have hcg := hr g' List.mem_cons_self
    have hg' := hmem g' (by simp)
    refine ⟨?_, fun h => by simp [h] at hcg⟩
    rcases hcases with h | h
    · have := hlcr q h c List.mem_cons_self
      unfold gap
      split_ifs <;> omega
    · have hgq : ring.idxOf g' ≤ ring.idxOf q := by
        rcases List.mem_cons.mp h with rfl | h
        · exact le_rfl
        · exact ((List.pairwise_cons.mp hrr).1 q h).le
      unfold gap
      split_ifs <;> omega
  | nil =>
    have h := hcases.resolve_right (by simp)
    cases l with
    | nil => cases h
    | cons g' l =>
      obtain rfl : g' = g := by simpa using hg
      have hgc := hlcr g' List.mem_cons_self c List.mem_cons_self
      have hqc := hlcr q h c List.mem_cons_self
      have hgq : ring.idxOf g' ≤ ring.idxOf q := by
        rcases List.mem_cons.mp h with rfl | h
        · exact le_rfl
        · exact ((List.pairwise_cons.mp hl).1 q h).le
      refine ⟨?_, fun h => by simp [h] at hgc⟩
      unfold gap
      split_ifs <;> omega

end Ring

end KovaService.Lib
