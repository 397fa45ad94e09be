import Mathlib.Data.String.Basic
import KovaService.Lib.RoundRobin
import KovaService.Controller.Admission

/-!
The order `fairQueue` puts the queued builds in.

Builds are compared by `age` and requesters by `rank`, two linear orders, so that sorting a list has
one result whatever the algorithm and the order the map of groups is walked in: `Produces` leaves
both open and `fairQueue` is its only outcome.
-/

namespace KovaService.Fairness

open Lib Api Ledger Controller

variable {x : Ext} {builds builds' out : List KovaBuild} {active : String → Nat} {last : String}

variable {q : String} {p : String} {b : KovaBuild}

def age (b : KovaBuild) : Time ×ₗ String := toLex (b.creationTimestamp, b.name)

variable {a : KovaBuild}

theorem buildLess_iff : buildLess a b ↔ age a < age b := by
  unfold buildLess age
  rw [Prod.Lex.toLex_lt_toLex]
  by_cases h : a.creationTimestamp = b.creationTimestamp
  · simp [h]
  · simp [h]

theorem buildLess_eq_false : buildLess b a = false ↔ age a ≤ age b := by
  rw [← not_lt, ← buildLess_iff, Bool.not_eq_true]

def groupLess (groups : String → List KovaBuild) (active : String → Nat) (left right : String) :
    Bool :=
  if active left != active right then active left < active right
  else
    match (groups left).head?, (groups right).head? with
    | some l, some r => if buildLess l r then true else if buildLess r l then false else left < right
    | _, _ => left < right

def rank (groups : String → List KovaBuild) (active : String → Nat) (q : String) :
    Nat ×ₗ WithBot (Time ×ₗ String) ×ₗ String :=
  toLex (active q, toLex ((groups q).head?.elim ⊥ fun b => (age b : WithBot _), q))

theorem rank_injective (groups : String → List KovaBuild) (active : String → Nat) :
    Function.Injective (rank groups active) := by
  intro p q h
  have := congrArg (fun r => (ofLex (ofLex r).2).2) h
  exact this

variable {groups : String → List KovaBuild}

theorem active_le_of_rank (h : rank groups active p ≤ rank groups active q) : active p ≤ active q :=
  Prod.Lex.monotone_fst _ _ h

theorem groupLess_iff (hp : groups p ≠ []) (hq : groups q ≠ []) :
    groupLess groups active p q ↔ rank groups active p < rank groups active q := by
  obtain ⟨l, ls, hl⟩ := List.exists_cons_of_ne_nil hp
  obtain ⟨r, rs, hr⟩ := List.exists_cons_of_ne_nil hq
  unfold groupLess rank
  rw [Prod.Lex.toLex_lt_toLex, Prod.Lex.toLex_lt_toLex]
  by_cases ha : active p = active q
  · rcases lt_trichotomy (age l) (age r) with h | h | h
    · simp [ha, hl, hr, buildLess_iff.mpr h, h]
    · simp [ha, hl, hr, buildLess_eq_false.mpr h.le, buildLess_eq_false.mpr h.ge, h]
    · simp [ha, hl, hr, buildLess_eq_false.mpr h.le, buildLess_iff.mpr h, h.not_gt, h.ne']
  · simp [ha]

theorem groupLess_eq_false (hp : groups p ≠ []) (hq : groups q ≠ []) :
    groupLess groups active q p = false ↔ rank groups active p ≤ rank groups active q := by
  rw [← not_lt, ← groupLess_iff hq hp, Bool.not_eq_true]

/-- What `sort.Slice` promises of the slice it leaves. -/
def SliceSorted {α : Type} (less : α → α → Bool) (before after : List α) : Prop :=
  after.Perm before ∧ after.Pairwise fun a b => less b a = false

theorem requesterGroup_sorted (builds : List KovaBuild) (q : String) :
    SliceSorted buildLess (builds.filter fun b => b.requesterKey == q) (requesterGroup builds q) := by
  have htotal : Std.Total fun a b : KovaBuild => buildLess b a = false :=
    ⟨fun a b => by simpa only [buildLess_eq_false] using le_total (age a) (age b)⟩
  have htrans : IsTrans KovaBuild fun a b => buildLess b a = false :=
    ⟨fun a b c => by simpa only [buildLess_eq_false] using le_trans (a := age a)⟩
  exact ⟨List.perm_insertionSort _ _, List.pairwise_insertionSort _ _⟩

theorem mem_requesterGroup : b ∈ requesterGroup builds q ↔ b ∈ builds ∧ b.requesterKey = q := by
  rw [(requesterGroup_sorted builds q).1.mem_iff, List.mem_filter, beq_iff_eq]

theorem requesterGroup_ne_nil (h : q ∈ builds.map KovaBuild.requesterKey) :
    requesterGroup builds q ≠ [] := by
  obtain ⟨b, hb, rfl⟩ := List.mem_map.mp h
  exact List.ne_nil_of_mem (mem_requesterGroup.mpr ⟨hb, rfl⟩)

theorem sortedRequesters_perm (builds : List KovaBuild) (active : String → Nat) :
    (sortedRequesters builds active).Perm (builds.map KovaBuild.requesterKey).dedup :=
  List.perm_insertionSort _ _

theorem mem_sortedRequesters :
    q ∈ sortedRequesters builds active ↔ q ∈ builds.map KovaBuild.requesterKey := by
  rw [(sortedRequesters_perm builds active).mem_iff, List.mem_dedup]

theorem sortedRequesters_rank (builds : List KovaBuild) (active : String → Nat) :
    (sortedRequesters builds active).Pairwise fun p q =>
      rank (requesterGroup builds) active p ≤ rank (requesterGroup builds) active q := by
  -- The comparison is only an order on requesters with a build, so sort by rank instead.
  have hcongr := List.map_insertionSort (r := fun a b => requesterLess builds active b a = false)
    (s := fun p q => rank (requesterGroup builds) active p ≤ rank (requesterGroup builds) active q)
    id (builds.map KovaBuild.requesterKey).dedup fun p hp q hq =>
      groupLess_eq_false (requesterGroup_ne_nil (List.mem_dedup.mp hp))
        (requesterGroup_ne_nil (List.mem_dedup.mp hq))
  have htotal : Std.Total fun p q =>
      rank (requesterGroup builds) active p ≤ rank (requesterGroup builds) active q :=
    ⟨fun p q => le_total _ _⟩
  have htrans : IsTrans String fun p q =>
      rank (requesterGroup builds) active p ≤ rank (requesterGroup builds) active q :=
    ⟨fun p q r => le_trans⟩
  rw [List.map_id, List.map_id] at hcongr
  rw [sortedRequesters, hcongr]
  exact List.pairwise_insertionSort _ _

theorem sortedRequesters_sorted (builds : List KovaBuild) (active : String → Nat) :
    SliceSorted (groupLess (requesterGroup builds) active)
      (builds.map KovaBuild.requesterKey).dedup (sortedRequesters builds active) := by
  refine ⟨sortedRequesters_perm builds active, ?_⟩
  refine (sortedRequesters_rank builds active).imp_of_mem fun hp hq => (groupLess_eq_false ?_ ?_).mpr
  · exact requesterGroup_ne_nil (mem_sortedRequesters.mp hp)
  · exact requesterGroup_ne_nil (mem_sortedRequesters.mp hq)

theorem sortedRequesters_nodup (builds : List KovaBuild) (active : String → Nat) :
    (sortedRequesters builds active).Nodup :=
  (sortedRequesters_perm builds active).nodup_iff.mpr (List.nodup_dedup _)

variable {requesters : List String}

theorem rotateAfter_absent (h : ∀ q ∈ requesters, x.hashRequester q ≠ last) :
    rotateAfter x active last requesters = requesters := by
  have hnone : requesters.findIdx? (fun q => x.hashRequester q == last) = none :=
    List.findIdx?_eq_none_iff.mpr fun q hq => by simpa using h q hq
  simp [rotateAfter, hnone]

variable {l : List String} {c : String}

theorem rotateAfter_present (active : String → Nat) (r : List String)
    (hc : x.hashRequester c = last) (hl : ∀ q ∈ l, x.hashRequester q ≠ last) :
    ∃ pre inner outer post, l = pre ++ inner ∧ r = outer ++ post ∧
      (∀ q ∈ inner ++ outer, active q = active c) ∧
      (∀ q ∈ pre.getLast?, active q ≠ active c) ∧ (∀ q ∈ post.head?, active q ≠ active c) ∧
      rotateAfter x active last (l ++ c :: r) = pre ++ (outer ++ inner ++ [c]) ++ post := by
  obtain ⟨pre, inner, outer, post, rfl, rfl, hin, hout, hinner, houter, hpre, hpost⟩ :=
    split_block (fun q => active q == active c) l r
  refine ⟨pre, inner, outer, post, rfl, rfl, fun q hq => ?_, fun q hq => by simpa using hpre q hq,
    fun q hq => by simpa using hpost q hq, ?_⟩
  · rcases List.mem_append.mp hq with hq | hq
    · simpa using hinner q hq
    · simpa using houter q hq
  have hidx : (pre ++ inner ++ c :: (outer ++ post)).findIdx? (fun q => x.hashRequester q == last) =
      some (pre ++ inner).length := by
    have hnone : (pre ++ inner).findIdx? (fun q => x.hashRequester q == last) = none :=
      List.findIdx?_eq_none_iff.mpr fun q hq => by simpa using hl q hq
    rw [List.findIdx?_append, hnone, List.findIdx?_cons]
    simp [hc]
  have hget : (pre ++ inner ++ c :: (outer ++ post))[(pre ++ inner).length]? = some c := by simp
  unfold rotateAfter
  rw [hidx]
  simp only [hget]
  have htake : (pre ++ inner ++ c :: (outer ++ post)).take (pre ++ inner).length = pre ++ inner :=
    List.take_left
  have hdrop : (pre ++ inner ++ c :: (outer ++ post)).drop ((pre ++ inner).length + 1) =
      outer ++ post := by
    rw [← List.drop_drop, List.drop_left]
    rfl
  rw [htake, hdrop, hin, hout]
  exact slices_of_block c pre inner outer post

/-- Where the cursor stands in the sorted list, and the list after the rotation: only the tier of
the cursor changes, and there the cursor moves to the end. -/
structure Rotated (active : String → Nat) (c : String) (sorted order : List String) : Prop where
  perm : order.Perm sorted
  tiers : order.map active = sorted.map active
  other : ∀ t, t ≠ active c →
    (order.filter fun q => active q == t) = sorted.filter fun q => active q == t
  tier : ∃ l r, (sorted.filter fun q => active q == active c) = l ++ c :: r ∧
    (order.filter fun q => active q == active c) = r ++ l ++ [c]

theorem filter_tier_eq_nil {t : Nat} (h : ∀ q ∈ l, active q ≠ t) :
    (l.filter fun q => active q == t) = [] :=
  List.filter_eq_nil_iff.mpr fun q hq => by simpa using h q hq

theorem filter_tier_eq_self {t : Nat} (h : ∀ q ∈ l, active q = t) :
    (l.filter fun q => active q == t) = l :=
  List.filter_eq_self.mpr fun q hq => by simpa using h q hq

theorem rotateAfter_rotated {r : List String}
    (hs : (l ++ c :: r).Pairwise fun p q => active p ≤ active q) (hc : x.hashRequester c = last)
    (hl : ∀ q ∈ l, x.hashRequester q ≠ last) :
    Rotated active c (l ++ c :: r) (rotateAfter x active last (l ++ c :: r)) := by
  obtain ⟨pre, inner, outer, post, rfl, rfl, hsame, hpre, hpost, heq⟩ :=
    rotateAfter_present active r hc hl
  obtain ⟨hleft, hright, hcross⟩ := List.pairwise_append.mp hs
  obtain ⟨hpp, -, hpi⟩ := List.pairwise_append.mp hleft
  obtain ⟨hcr, hor⟩ := List.pairwise_cons.mp hright
  -- Sorted by grants, nothing outside the block has the grants of the cursor.
  have hbelow : ∀ q ∈ pre, active q ≠ active c := by
    intro q hq h
    have hne := List.ne_nil_of_mem hq
    have hzc := hpre (pre.getLast hne) (by simp [List.getLast?_eq_getLast_of_ne_nil hne])
    have hzle := hcross _ (List.mem_append_left _ (List.getLast_mem hne)) c (by simp)
    have hqz := hpp.rel_getLast_of_rel_getLast_getLast hq le_rfl
    omega
  have habove : ∀ q ∈ post, active q ≠ active c := by
    intro q hq h
    have hne := List.ne_nil_of_mem hq
    have hzc := hpost (post.head hne) (by simp [List.head?_eq_some_head hne])
    have hcz := hcr (post.head hne) (by simp)
    have hzq := (List.pairwise_append.mp hor).2.1.rel_head_of_rel_head_head hq le_rfl
    omega
  have hinner : ∀ q ∈ inner, active q = active c := fun q hq => hsame q (by simp [hq])
  have houter : ∀ q ∈ outer, active q = active c := fun q hq => hsame q (by simp [hq])
  rw [heq]
  constructor
  case perm =>
    refine List.perm_iff_count.mpr fun a => ?_
    simp only [List.count_append, List.count_cons, List.count_nil]
    omega
  case tiers =>
    have hin : inner.map active = List.replicate inner.length (active c) :=
      List.eq_replicate_iff.mpr ⟨by simp, by simpa using hinner⟩
    have hout : outer.map active = List.replicate outer.length (active c) :=
      List.eq_replicate_iff.mpr ⟨by simp, by simpa using houter⟩
    have hswap : outer.map active ++ (inner.map active ++ [active c]) =
        inner.map active ++ (active c :: outer.map active) := by
      rw [hin, hout, ← List.replicate_succ', ← List.replicate_succ,
        List.replicate_append_replicate, List.replicate_append_replicate]
      congr 1
      omega
    simpa using congrArg (fun m => pre.map active ++ (m ++ post.map active)) hswap
  case other =>
    intro t ht
    have hci : (inner.filter fun q => active q == t) = [] :=
      filter_tier_eq_nil fun q hq => (hinner q hq).trans_ne ht.symm
    have hco : (outer.filter fun q => active q == t) = [] :=
      filter_tier_eq_nil fun q hq => (houter q hq).trans_ne ht.symm
    simp [List.filter_append, hci, hco, ht.symm]
  case tier =>
    refine ⟨inner, outer, ?_, ?_⟩ <;>
      simp [List.filter_append, filter_tier_eq_nil hbelow,
        filter_tier_eq_nil habove, filter_tier_eq_self hinner, filter_tier_eq_self houter]

/-- The order the requesters are served in, one round after the other. -/
def servingOrder (x : Ext) (builds : List KovaBuild) (active : String → Nat) (last : String) :
    List String :=
  rotateAfter x active last (sortedRequesters builds active)

/-- No two queued requesters share a hash. -/
def CollisionFree (x : Ext) (builds : List KovaBuild) : Prop :=
  ∀ p ∈ builds.map KovaBuild.requesterKey, ∀ q ∈ builds.map KovaBuild.requesterKey,
    x.hashRequester p = x.hashRequester q → p = q

theorem sortedRequesters_active (builds : List KovaBuild) (active : String → Nat) :
    (sortedRequesters builds active).Pairwise fun p q => active p ≤ active q :=
  (sortedRequesters_rank builds active).imp active_le_of_rank

theorem servingOrder_cases (x : Ext) (builds : List KovaBuild) (active : String → Nat)
    (last : String) :
    (∀ q ∈ builds.map KovaBuild.requesterKey, x.hashRequester q ≠ last) ∧
        servingOrder x builds active last = sortedRequesters builds active ∨
      ∃ c ∈ builds.map KovaBuild.requesterKey, x.hashRequester c = last ∧
        Rotated active c (sortedRequesters builds active) (servingOrder x builds active last) := by
  cases hfind : (sortedRequesters builds active).find? fun q => x.hashRequester q == last with
  | none =>
    have hnone : ∀ q ∈ sortedRequesters builds active, x.hashRequester q ≠ last := by
      simpa using List.find?_eq_none.mp hfind
    exact .inl ⟨fun q hq => hnone q (mem_sortedRequesters.mpr hq), rotateAfter_absent hnone⟩
  | some c =>
    obtain ⟨hc, l, r, heq, hl⟩ := List.find?_eq_some_iff_append.mp hfind
    have hmem : c ∈ sortedRequesters builds active := by simp [heq]
    refine .inr ⟨c, mem_sortedRequesters.mp hmem, by simpa using hc, ?_⟩
    have hs := sortedRequesters_active builds active
    unfold servingOrder
    rw [heq] at hs ⊢
    exact rotateAfter_rotated hs (by simpa using hc) (by simpa using hl)

theorem servingOrder_rotated (hx : CollisionFree x builds) (active : String → Nat)
    (hmem : c ∈ builds.map KovaBuild.requesterKey) (hc : x.hashRequester c = last) :
    Rotated active c (sortedRequesters builds active) (servingOrder x builds active last) := by
  rcases servingOrder_cases x builds active last with ⟨hnone, -⟩ | ⟨c', hmem', hc', h⟩
  · exact absurd hc (hnone c hmem)
  · exact hx c' hmem' c hmem (hc'.trans hc.symm) ▸ h

theorem servingOrder_perm :
    (servingOrder x builds active last).Perm (sortedRequesters builds active) := by
  rcases servingOrder_cases x builds active last with ⟨-, h⟩ | ⟨c, -, -, h⟩
  · rw [h]
  · exact h.perm

theorem servingOrder_active :
    (servingOrder x builds active last).Pairwise fun p q => active p ≤ active q := by
  have hmap : (servingOrder x builds active last).map active =
      (sortedRequesters builds active).map active := by
    rcases servingOrder_cases x builds active last with ⟨-, h⟩ | ⟨c, -, -, h⟩
    · rw [h]
    · exact h.tiers
  have hsorted := (List.pairwise_map (R := (· ≤ ·))).mpr (sortedRequesters_active builds active)
  exact List.pairwise_map.mp (hmap ▸ hsorted)

theorem mem_servingOrder :
    q ∈ servingOrder x builds active last ↔ q ∈ builds.map KovaBuild.requesterKey := by
  rw [servingOrder_perm.mem_iff, mem_sortedRequesters]

/-- What a run of `fairQueue` may return: every group and the requesters are left in some order that
`sort.Slice` may leave them in, whichever order the map was walked in before. -/
def Produces (x : Ext) (builds : List KovaBuild) (active : String → Nat) (last : String)
    (out : List KovaBuild) : Prop :=
  ∃ groups requesters,
    (∀ q, SliceSorted buildLess (builds.filter fun b => b.requesterKey == q) (groups q)) ∧
    SliceSorted (groupLess groups active) (builds.map KovaBuild.requesterKey).dedup requesters ∧
    out = rounds groups (rotateAfter x active last requesters) builds.length

theorem fairQueue_eq_rounds (x : Ext) (builds : List KovaBuild) (active : String → Nat)
    (last : String) : fairQueue x builds active last =
      rounds (requesterGroup builds) (servingOrder x builds active last) builds.length :=
  rfl

theorem fairQueue_produced (x : Ext) (builds : List KovaBuild) (active : String → Nat)
    (last : String) : Produces x builds active last (fairQueue x builds active last) :=
  ⟨requesterGroup builds, sortedRequesters builds active, requesterGroup_sorted builds,
    sortedRequesters_sorted builds active, fairQueue_eq_rounds x builds active last⟩

theorem eq_of_age_eq (hn : (builds.map KovaBuild.name).Nodup) (ha : a ∈ builds) (hb : b ∈ builds)
    (h : age a = age b) : a = b := by
  have hname : a.name = b.name := congrArg (fun r => (ofLex r).2) h
  exact List.inj_on_of_nodup_map hn ha hb hname

theorem sorted_group_unique (hn : (builds.map KovaBuild.name).Nodup) (hp : builds'.Perm builds)
    {group : List KovaBuild}
    (h : SliceSorted buildLess (builds'.filter fun b => b.requesterKey == q) group) :
    group = requesterGroup builds q := by
  have hg := requesterGroup_sorted builds q
  have hperm := h.1.trans (hp.filter _)
  have hmem : ∀ b ∈ group, b ∈ builds := fun b hb => (List.mem_filter.mp (hperm.mem_iff.mp hb)).1
  refine (hperm.trans hg.1.symm).eq_of_pairwise (fun a b ha hb hab hba => ?_) h.2 hg.2
  exact eq_of_age_eq hn (hmem a ha) (mem_requesterGroup.mp hb).1
    (le_antisymm (buildLess_eq_false.mp hab) (buildLess_eq_false.mp hba))

theorem sorted_requesters_unique (hp : builds'.Perm builds)
    (h : SliceSorted (groupLess (requesterGroup builds) active)
      (builds'.map KovaBuild.requesterKey).dedup requesters) :
    requesters = sortedRequesters builds active := by
  have hs := sortedRequesters_sorted builds active
  have hperm := h.1.trans (hp.map KovaBuild.requesterKey).dedup
  have hne : ∀ q ∈ requesters, requesterGroup builds q ≠ [] := fun q hq =>
    requesterGroup_ne_nil (List.mem_dedup.mp (hperm.mem_iff.mp hq))
  have hperm := hperm.trans hs.1.symm
  refine hperm.eq_of_pairwise (fun p q hp hq hpq hqp => ?_) h.2 hs.2
  have hq := hne q (hperm.mem_iff.mpr hq)
  exact rank_injective (requesterGroup builds) active
    (le_antisymm ((groupLess_eq_false (hne p hp) hq).mp hpq)
      ((groupLess_eq_false hq (hne p hp)).mp hqp))

/-- Neither the order of the list nor the map, nor the sorting algorithm, shows in the result. -/
theorem produces_unique (hn : (builds.map KovaBuild.name).Nodup) (hp : builds'.Perm builds)
    (h : Produces x builds' active last out) : out = fairQueue x builds active last := by
  obtain ⟨groups, requesters, hgroups, hreq, rfl⟩ := h
  have hg : groups = requesterGroup builds :=
    funext fun q => sorted_group_unique hn hp (hgroups q)
  subst hg
  rw [sorted_requesters_unique hp hreq, fairQueue_eq_rounds, hp.length_eq]
  rfl

def Nth (out : List KovaBuild) (q : String) (k : Nat) (b : KovaBuild) : Prop :=
  (out.filter fun b => b.requesterKey == q)[k]? = some b

structure FairOrder (x : Ext) (builds : List KovaBuild) (active : String → Nat) (last : String)
    (out : List KovaBuild) : Prop where
  perm : out.Perm builds
  nodup : out.Nodup
  creation : ∀ q, (out.filter fun b => b.requesterKey == q).Pairwise fun a b => buildLess a b
  /-- No build of a later round stands before one of an earlier round. -/
  turns : ∀ p q j k a b, j < k → Nth out p j a → Nth out q k b → Precedes out a b
  served : ∀ p q k a b, active p < active q → Nth out p k a → Nth out q k b → Precedes out a b
  /-- Where no cursor is among the equally served, the older head comes first. -/
  aged : ∀ p q k a b, active p = active q → requesterLess builds active p q →
    (∀ c ∈ builds.map KovaBuild.requesterKey, x.hashRequester c = last → active c ≠ active p) →
    Nth out p k a → Nth out q k b → Precedes out a b
  /-- The tier of the cursor, sorted by its heads, continues behind the cursor. -/
  cursor : ∀ c ∈ builds.map KovaBuild.requesterKey, x.hashRequester c = last →
    ∃ l r, (sortedRequesters builds active).filter (fun q => active q == active c) = l ++ c :: r ∧
      (l ++ c :: r).Pairwise (fun p q => requesterLess builds active p q) ∧
      ∀ p q k a b, Precedes (r ++ l ++ [c]) p q → Nth out p k a → Nth out q k b → Precedes out a b

theorem requesterGroup_length (builds : List KovaBuild) (q : String) :
    (requesterGroup builds q).length ≤ builds.length := by
  rw [(requesterGroup_sorted builds q).1.length_eq]
  exact List.length_filter_le _ _

theorem servingOrder_nodup : (servingOrder x builds active last).Nodup :=
  servingOrder_perm.nodup_iff.mpr (sortedRequesters_nodup builds active)

theorem fairQueue_perm : (fairQueue x builds active last).Perm builds := by
  rw [fairQueue_eq_rounds]
  refine (rounds_perm fun q _ => requesterGroup_length builds q).trans ?_
  refine (List.Perm.flatMap_left _ fun q _ => (requesterGroup_sorted builds q).1).trans ?_
  exact lanes_perm KovaBuild.requesterKey _ builds servingOrder_nodup fun b hb =>
    mem_servingOrder.mpr (List.mem_map_of_mem hb)

theorem fairQueue_filter (q : String) :
    ((fairQueue x builds active last).filter fun b => b.requesterKey == q) =
      requesterGroup builds q := by
  by_cases hq : q ∈ builds.map KovaBuild.requesterKey
  · exact filter_rounds servingOrder_nodup (fun p _ a ha => (mem_requesterGroup.mp ha).2)
      (mem_servingOrder.mpr hq) (requesterGroup_length builds q)
  · have hnone : ∀ b ∈ builds, b.requesterKey ≠ q := fun b hb h =>
      hq (h ▸ List.mem_map_of_mem hb)
    have hgroup : requesterGroup builds q = [] :=
      List.eq_nil_iff_forall_not_mem.mpr fun b hb =>
        hnone b (mem_requesterGroup.mp hb).1 (mem_requesterGroup.mp hb).2
    rw [hgroup, List.filter_eq_nil_iff]
    intro b hb
    simpa using hnone b (fairQueue_perm.mem_iff.mp hb)

variable {k : Nat}

theorem nth_iff :
    Nth (fairQueue x builds active last) q k b ↔ (requesterGroup builds q)[k]? = some b := by
  rw [Nth, fairQueue_filter]

theorem requesterGroup_get (h : (requesterGroup builds q)[k]? = some b) :
    q ∈ builds.map KovaBuild.requesterKey ∧ k < builds.length := by
  obtain ⟨hb, rfl⟩ := mem_requesterGroup.mp (List.mem_of_getElem? h)
  have hk : k < (requesterGroup builds b.requesterKey).length := (List.getElem?_eq_some_iff.mp h).1
  exact ⟨List.mem_map_of_mem hb, hk.trans_le (requesterGroup_length builds _)⟩

theorem fairQueue_round (h : Precedes (servingOrder x builds active last) p q)
    (ha : Nth (fairQueue x builds active last) p k a)
    (hb : Nth (fairQueue x builds active last) q k b) :
    Precedes (fairQueue x builds active last) a b := by
  rw [nth_iff] at ha hb
  exact precedes_same_round h (requesterGroup_get ha).2 ha hb

theorem nth_mem (h : Nth (fairQueue x builds active last) q k b) :
    q ∈ servingOrder x builds active last :=
  mem_servingOrder.mpr (requesterGroup_get (nth_iff.mp h)).1

theorem precedes_sorted (hp : p ∈ sortedRequesters builds active)
    (hq : q ∈ sortedRequesters builds active) (h : requesterLess builds active p q) :
    Precedes (sortedRequesters builds active) p q := by
  have hlt : rank (requesterGroup builds) active p < rank (requesterGroup builds) active q :=
    (groupLess_iff (requesterGroup_ne_nil (mem_sortedRequesters.mp hp))
      (requesterGroup_ne_nil (mem_sortedRequesters.mp hq))).mp h
  refine (Precedes.total hp hq fun he => ?_).resolve_right fun hqp => ?_
  · exact absurd (congrArg (rank (requesterGroup builds) active) he) hlt.ne
  · exact absurd (hqp.of_pairwise (sortedRequesters_rank builds active)) hlt.not_ge

theorem sortedRequesters_less (builds : List KovaBuild) (active : String → Nat) :
    (sortedRequesters builds active).Pairwise fun p q => requesterLess builds active p q := by
  have hrank := sortedRequesters_rank builds active
  have hboth := hrank.and (sortedRequesters_nodup builds active)
  refine hboth.imp_of_mem fun hp hq h => ?_
  refine (groupLess_iff (requesterGroup_ne_nil (mem_sortedRequesters.mp hp))
    (requesterGroup_ne_nil (mem_sortedRequesters.mp hq))).mpr (lt_of_le_of_ne h.1 fun he => ?_)
  exact h.2 (rank_injective _ _ he)

theorem servingOrder_aged (hp : p ∈ servingOrder x builds active last)
    (hq : q ∈ servingOrder x builds active last) (he : active p = active q)
    (hless : requesterLess builds active p q)
    (hc : ∀ c ∈ builds.map KovaBuild.requesterKey, x.hashRequester c = last →
      active c ≠ active p) : Precedes (servingOrder x builds active last) p q := by
  have hsorted := precedes_sorted (mem_sortedRequesters.mpr (mem_servingOrder.mp hp))
    (mem_sortedRequesters.mpr (mem_servingOrder.mp hq)) hless
  rcases servingOrder_cases x builds active last with ⟨-, h⟩ | ⟨c, hmem, hlast, h⟩
  · rwa [h]
  · have htier := List.Sublist.filter (fun r => active r == active p) hsorted
    rw [← h.other _ (hc c hmem hlast).symm] at htier
    have hpair : [p, q].filter (fun r => active r == active p) = [p, q] := by simp [he]
    rw [hpair] at htier
    exact Precedes.mono htier List.filter_sublist

theorem fairQueue_fairOrder (hn : (builds.map KovaBuild.name).Nodup) (hx : CollisionFree x builds) :
    FairOrder x builds active last (fairQueue x builds active last) := by
  have hperm : (fairQueue x builds active last).Perm builds := fairQueue_perm
  constructor
  case perm => exact hperm
  case nodup => exact hperm.nodup_iff.mpr hn.of_map
  case creation =>
    intro q
    rw [fairQueue_filter]
    have hsorted := (requesterGroup_sorted builds q).2
    have hnodup : (requesterGroup builds q).Nodup :=
      (requesterGroup_sorted builds q).1.nodup_iff.mpr (hn.of_map.filter _)
    refine (hsorted.and hnodup).imp_of_mem fun ha hb h => buildLess_iff.mpr ?_
    refine lt_of_le_of_ne (buildLess_eq_false.mp h.1) fun he => h.2 ?_
    exact eq_of_age_eq hn (mem_requesterGroup.mp ha).1 (mem_requesterGroup.mp hb).1 he
  case turns =>
    intro p q j k a b hjk ha hb
    have hp := nth_mem ha
    have hq := nth_mem hb
    rw [nth_iff] at ha hb
    exact precedes_later_round hp hq hjk (requesterGroup_get hb).2 ha hb
  case served =>
    intro p q k a b h ha hb
    refine fairQueue_round ?_ ha hb
    refine (Precedes.total (nth_mem ha) (nth_mem hb) fun he => ?_).resolve_right fun hqp => ?_
    · exact absurd (congrArg active he) h.ne
    · exact absurd (hqp.of_pairwise servingOrder_active) h.not_ge
  case aged =>
    intro p q k a b he hless hc ha hb
    exact fairQueue_round (servingOrder_aged (nth_mem ha) (nth_mem hb) he hless hc) ha hb
  case cursor =>
    intro c hmem hc
    obtain ⟨l, r, hsorted, horder⟩ := (servingOrder_rotated hx active hmem hc).tier
    refine ⟨l, r, hsorted, ?_, fun p q k a b hpq ha hb => ?_⟩
    · exact hsorted ▸ (sortedRequesters_less builds active).filter _
    · rw [← horder] at hpq
      exact fairQueue_round (hpq.mono List.filter_sublist) ha hb

theorem fair_queue_order (x : Ext) (builds : List KovaBuild) (active : String → Nat) (last : String)
    (hn : (builds.map KovaBuild.name).Nodup) (hx : CollisionFree x builds) :
    FairOrder x builds active last (fairQueue x builds active last) ∧
      Produces x builds active last (fairQueue x builds active last) ∧
      ∀ builds' out, builds'.Perm builds → Produces x builds' active last out →
        out = fairQueue x builds active last :=
  ⟨fairQueue_fairOrder hn hx, fairQueue_produced x builds active last,
    fun _ _ hp h => produces_unique hn hp h⟩

def plainExt : Ext where
  sha256Hex := id
  specDigest _ := ""
  dataDigest _ := ""
  dataBytes _ := 0
  payloadBytes _ := 0
  podTemplateDigest _ := ""
  reservationBytes _ := 0
  queueBytes _ := 0
  library := plainLibrary
  runnerManifestDigest := .ok
  durationString _ := ""
  timeString _ := ""

def queuedBuild (requester name : String) (created : Time) : KovaBuild where
  name := name
  uid := name
  creationTimestamp := created
  spec :=
    { requester := { username := requester, uid := requester }, targets := [],
      source := { uri := "", digest := "" }, build := {} }

theorem fair_queue_order_after_ann :
    (fairQueue plainExt [queuedBuild "bob" "b" 2, queuedBuild "ann" "a" 1, queuedBuild "ann" "c" 3]
        (fun _ => 0) "ann").map KovaBuild.name = ["b", "a", "c"] ∧
      FairOrder plainExt [queuedBuild "bob" "b" 2, queuedBuild "ann" "a" 1, queuedBuild "ann" "c" 3]
        (fun _ => 0) "ann" (fairQueue plainExt
          [queuedBuild "bob" "b" 2, queuedBuild "ann" "a" 1, queuedBuild "ann" "c" 3]
          (fun _ => 0) "ann") :=
  ⟨by decide +kernel,
    (fair_queue_order plainExt _ _ _ (by decide) (by unfold CollisionFree; decide)).1⟩

end KovaService.Fairness
