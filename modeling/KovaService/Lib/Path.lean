import Mathlib.Data.List.Induction

/-!
Slash-separated paths as Go's `path` package treats them, on sequences of characters.

`clean` works on the elements between the slashes with a stack.  What the lemmas say: a cleaned
relative path is a number of `..` followed by names, cleaning a part of a path first changes
nothing, and `dir` takes the last name away.
-/

namespace KovaService.Lib.Path

variable {p : List Char}

abbrev Element := List Char

def dot : Element := ['.']

def dotdot : Element := ['.', '.']

/-- An element that names an entry of a directory. -/
structure Name (s : Element) : Prop where
  ne_nil : s ≠ []
  ne_dot : s ≠ dot
  ne_dotdot : s ≠ dotdot
  noSlash : '/' ∉ s

def join (l : List Element) : List Char := ['/'].intercalate l

/-- One element of `path.Clean`; the stack holds what is kept so far, the last element first. -/
def push (rooted : Bool) (out : List Element) (s : Element) : List Element :=
  if s = [] ∨ s = dot then out
  else if s = dotdot then
    match out with
    | [] => if rooted then [] else [dotdot]
    | top :: rest => if top = dotdot then dotdot :: top :: rest else rest
  else s :: out

def normalize (rooted : Bool) (l : List Element) : List Element := (l.foldl (push rooted) []).reverse

def clean (p : List Char) : List Char :=
  let rooted := p.head? == some '/'
  let l := normalize rooted (p.splitOn '/')
  if rooted then '/' :: join l else if l = [] then dot else join l

def dir (p : List Char) : List Char := clean ((p.splitOn '/').dropLast.flatMap (· ++ ['/']))

def joinClean (a b : List Char) : List Char := clean (a ++ '/' :: b)

def elements (p : List Char) : List Element :=
  (p.splitOn '/').filter fun s => s ≠ [] ∧ s ≠ dot

variable {s : Element}

theorem slash_notMem_of_splitOn (h : s ∈ p.splitOn '/') : '/' ∉ s := by
  induction p generalizing s with
  | nil =>
    rw [List.splitOn_nil, List.mem_singleton] at h
    subst h
    exact List.not_mem_nil
  | cons c p ih =>
    rw [List.splitOn_cons_eq_if_modifyHead] at h
    split at h
    · rcases List.mem_cons.mp h with rfl | h
      · exact List.not_mem_nil
      · exact ih h
    next hc =>
    cases hp : p.splitOn '/' with
    | nil => exact absurd hp (List.splitOn_ne_nil _ _)
    | cons a l =>
      rw [hp] at h ih
      rcases List.mem_cons.mp h with rfl | h
      · simp only [List.mem_cons, not_or]
        exact ⟨fun heq => hc (beq_iff_eq.mpr heq.symm), ih List.mem_cons_self⟩
      · exact ih (List.mem_cons_of_mem a h)

variable {l : List Element}

theorem splitOn_join (h : ∀ s ∈ l, '/' ∉ s) (hne : l ≠ []) : (join l).splitOn '/' = l :=
  List.splitOn_intercalate '/' h hne

theorem splitOn_join_names (h : ∀ s ∈ l, Name s) (hne : l ≠ []) : (join l).splitOn '/' = l :=
  splitOn_join (fun s hs => (h s hs).noSlash) hne

theorem join_ne_nil (h : ∀ s ∈ l, Name s) (hne : l ≠ []) : join l ≠ [] := by
  intro hj
  have hs := splitOn_join_names h hne
  rw [hj, List.splitOn_nil] at hs
  exact (h [] (hs ▸ List.mem_singleton_self _)).ne_nil rfl

theorem join_cons_cons (s t : Element) (l : List Element) :
    join (s :: t :: l) = s ++ '/' :: join (t :: l) := by
  simp [join, List.intercalate]

theorem mem_join {c : Char} (hc : c ≠ '/') : c ∈ join l ↔ ∃ s ∈ l, c ∈ s := by
  induction l with
  | nil => simp [join]
  | cons s l ih =>
    cases l with
    | nil => simp [join]
    | cons t l =>
      rw [join_cons_cons, List.mem_append, List.mem_cons, ih]
      simp [hc]

theorem mem_of_mem_splitOn {c : Char} (hc : c ∈ s) (hs : s ∈ p.splitOn '/') : c ∈ p := by
  have hp : join (p.splitOn '/') = p := List.intercalate_splitOn '/'
  have hne : c ≠ '/' := fun heq => slash_notMem_of_splitOn hs (heq ▸ hc)
  rw [← hp]
  exact (mem_join hne).mpr ⟨s, hs, hc⟩

variable {rooted : Bool} {out : List Element} {s : Element}

theorem push_skip (h : s = [] ∨ s = dot) : push rooted out s = out := by
  unfold push
  rw [if_pos h]

theorem push_name (h : Name s) : push rooted out s = s :: out := by
  unfold push
  rw [if_neg (by simp [h.ne_nil, h.ne_dot]), if_neg h.ne_dotdot]

theorem push_dotdot_nil : push false [] dotdot = [dotdot] := by decide

theorem push_dotdot_dotdot : push false (dotdot :: out) dotdot = dotdot :: dotdot :: out := by
  simp [push, dotdot, dot]

theorem push_dotdot_name (h : Name s) : push rooted (s :: out) dotdot = out := by
  unfold push
  rw [if_neg (by decide), if_pos rfl]
  exact if_neg h.ne_dotdot

inductive Stack : List Element → Prop
  | parents (k : Nat) : Stack (List.replicate k dotdot)
  | name {s : Element} {out : List Element} (hs : Name s) (h : Stack out) : Stack (s :: out)

theorem Stack.push (h : Stack out) (hs : '/' ∉ s) : Stack (push false out s) := by
  by_cases hskip : s = [] ∨ s = dot
  · rwa [push_skip hskip]
  · rw [not_or] at hskip
    by_cases hdd : s = dotdot
    · subst hdd
      cases h with
      | parents k =>
        cases k with
        | zero => exact Stack.parents 1
        | succ k =>
          rw [List.replicate_succ, push_dotdot_dotdot]
          exact Stack.parents (k + 2)
      | name hn h => rwa [push_dotdot_name hn]
    · have hn : Name s := ⟨hskip.1, hskip.2, hdd, hs⟩
      rw [push_name hn]
      exact .name hn h

theorem stack_foldl (h : Stack out) (hl : ∀ s ∈ l, '/' ∉ s) :
    Stack (l.foldl (Path.push false) out) := by
  induction l generalizing out with
  | nil => exact h
  | cons s l ih =>
    exact ih (h.push (hl s List.mem_cons_self)) fun t ht => hl t (List.mem_cons_of_mem s ht)

theorem Stack.reverse (h : Stack out) :
    ∃ k names, out.reverse = List.replicate k dotdot ++ names ∧ ∀ s ∈ names, Name s := by
  induction h with
  | parents k => exact ⟨k, [], by simp, by simp⟩
  | @name s out hs h ih =>
    obtain ⟨k, names, heq, hn⟩ := ih
    refine ⟨k, names ++ [s], by simp [heq], fun t ht => ?_⟩
    rcases List.mem_append.mp ht with ht | ht
    · exact hn t ht
    · exact List.mem_singleton.mp ht ▸ hs

variable {t : Element}

theorem mem_push (h : t ∈ push rooted out s) : t ∈ out ∨ t = s := by
  by_cases hskip : s = [] ∨ s = dot
  · rw [push_skip hskip] at h
    exact .inl h
  · unfold push at h
    rw [if_neg hskip] at h
    by_cases hdd : s = dotdot
    · rw [if_pos hdd] at h
      cases out with
      | nil =>
        dsimp only at h
        split_ifs at h
        · cases h
        · exact .inr (List.mem_singleton.mp h ▸ hdd.symm)
      | cons top rest =>
        dsimp only at h
        split_ifs at h
        · rcases List.mem_cons.mp h with h | h
          · exact .inr (h.trans hdd.symm)
          · exact .inl h
        · exact .inl (List.mem_cons_of_mem top h)
    · rw [if_neg hdd] at h
      rcases List.mem_cons.mp h with h | h
      · exact .inr h
      · exact .inl h

theorem mem_foldl_push (h : t ∈ l.foldl (push rooted) out) : t ∈ out ∨ t ∈ l := by
  induction l generalizing out with
  | nil => exact .inl h
  | cons s l ih =>
    rcases ih h with h | h
    · rcases mem_push h with h | h
      · exact .inl h
      · exact .inr (h ▸ List.mem_cons_self)
    · exact .inr (List.mem_cons_of_mem s h)

theorem mem_normalize (h : t ∈ normalize rooted l) : t ∈ l := by
  rw [normalize, List.mem_reverse] at h
  exact (mem_foldl_push h).resolve_left List.not_mem_nil

theorem normalize_spec (hl : ∀ s ∈ l, '/' ∉ s) :
    ∃ k names, normalize false l = List.replicate k dotdot ++ names ∧ ∀ s ∈ names, Name s :=
  (stack_foldl (Stack.parents 0) hl).reverse

variable {names : List Element}

theorem foldl_push_names (h : ∀ s ∈ names, Name s) (out : List Element) :
    names.foldl (push rooted) out = names.reverse ++ out := by
  induction names generalizing out with
  | nil => rfl
  | cons s names ih =>
    rw [List.foldl_cons, push_name (h s List.mem_cons_self),
      ih fun t ht => h t (List.mem_cons_of_mem s ht)]
    simp

theorem normalize_names (h : ∀ s ∈ names, Name s) : normalize rooted names = names := by
  rw [normalize, foldl_push_names h]
  simp

/-- Cleaning a part of a path first changes nothing. -/
theorem foldl_push_normalize (hl : ∀ s ∈ l, '/' ∉ s) (out : List Element) :
    l.foldl (push false) out = (normalize false l).foldl (push false) out := by
  induction l using List.reverseRecOn with
  | nil => rfl
  | append_singleton l s ih =>
    have hl' : ∀ t ∈ l, '/' ∉ t := fun t ht => hl t (List.mem_append_left _ ht)
    have hs : '/' ∉ s := hl s (List.mem_append_right _ (List.mem_singleton_self s))
    have ih := ih hl'
    unfold normalize at ih ⊢
    rw [List.foldl_append, List.foldl_append, List.foldl_cons, List.foldl_cons, List.foldl_nil,
      List.foldl_nil, ih]
    have stack := stack_foldl (Stack.parents 0) hl'
    rw [List.replicate_zero] at stack
    generalize l.foldl (push false) [] = st at stack
    by_cases hskip : s = [] ∨ s = dot
    · rw [push_skip hskip, push_skip hskip]
    · rw [not_or] at hskip
      by_cases hdd : s = dotdot
      · subst hdd
        cases stack with
        | parents k =>
          cases k with
          | zero => rfl
          | succ k =>
            rw [List.replicate_succ, push_dotdot_dotdot]
            simp only [List.reverse_cons, List.foldl_append, List.foldl_cons, List.foldl_nil]
        | @name t st ht stack =>
          -- the parent step takes back the name below it, in both orders
          rw [push_dotdot_name ht, List.reverse_cons, List.foldl_append, List.foldl_cons,
            List.foldl_nil, push_name ht, push_dotdot_name ht]
      · have hn : Name s := ⟨hskip.1, hskip.2, hdd, hs⟩
        rw [push_name hn, push_name hn, List.reverse_cons, List.foldl_append, List.foldl_cons,
          List.foldl_nil, push_name hn]

theorem normalize_normalize (hl : ∀ s ∈ l, '/' ∉ s) :
    normalize false (normalize false l) = normalize false l := by
  rw [normalize, ← foldl_push_normalize hl]
  rfl

theorem foldl_push_parents (h : ∀ s ∈ names, Name s) {k : Nat} (hk : k ≤ names.length) :
    (List.replicate k dotdot).foldl (push false) names.reverse =
      (names.take (names.length - k)).reverse := by
  induction k generalizing names with
  | zero => simp
  | succ k ih =>
    cases names using List.reverseRecOn with
    | nil => simp at hk
    | append_singleton names s =>
      have hs : Name s := h s (List.mem_append_right _ (List.mem_singleton_self s))
      have hlen : k ≤ names.length := by simpa using hk
      rw [List.replicate_succ, List.foldl_cons, List.reverse_append, List.reverse_singleton,
        List.singleton_append, push_dotdot_name hs,
        ih (fun t ht => h t (List.mem_append_left _ ht)) hlen]
      congr 1
      rw [List.length_append, List.length_singleton, Nat.add_sub_add_right,
        List.take_append_of_le_length (Nat.sub_le _ _)]

theorem foldl_push_replicate (j k : Nat) :
    (List.replicate k dotdot).foldl (push false) (List.replicate j dotdot) =
      List.replicate (k + j) dotdot := by
  induction k generalizing j with
  | zero => simp
  | succ k ih =>
    have step : push false (List.replicate j dotdot) dotdot = List.replicate (j + 1) dotdot := by
      cases j with
      | zero => exact push_dotdot_nil
      | succ j => exact push_dotdot_dotdot
    rw [List.replicate_succ, List.foldl_cons, step, ih]
    congr 1
    omega

/-- A relative target seen from a directory: the parent steps take names away as long as there are
any, and stay in front where there are none. -/
theorem normalize_append (h : ∀ s ∈ names, Name s) (hl : ∀ s ∈ l, '/' ∉ s) {k : Nat}
    {rest : List Element}
    (hrest : ∀ s ∈ rest, Name s) (heq : normalize false l = List.replicate k dotdot ++ rest) :
    normalize false (names ++ l) =
      List.replicate (k - names.length) dotdot ++ names.take (names.length - k) ++ rest := by
  have hstack : (names ++ l).foldl (push false) [] =
      rest.reverse ++ (List.replicate k dotdot).foldl (push false) names.reverse := by
    rw [List.foldl_append, foldl_push_names h, List.append_nil, foldl_push_normalize hl, heq,
      List.foldl_append, foldl_push_names hrest]
  rw [normalize, hstack, List.reverse_append, List.reverse_reverse]
  congr 1
  rcases Nat.le_total k names.length with hk | hk
  · rw [foldl_push_parents h hk, List.reverse_reverse, Nat.sub_eq_zero_of_le hk]
    rfl
  · have split : List.replicate k dotdot =
        List.replicate names.length dotdot ++ List.replicate (k - names.length) dotdot := by
      rw [List.replicate_append_replicate]
      congr 1
      omega
    rw [split, List.foldl_append, foldl_push_parents h (Nat.le_refl _), Nat.sub_self,
      Nat.sub_eq_zero_of_le hk, List.take_zero, List.reverse_nil]
    have := foldl_push_replicate 0 (k - names.length)
    rw [List.replicate_zero, Nat.add_zero] at this
    rw [this, List.reverse_replicate, List.append_nil]

theorem head_join (h : ∀ s ∈ l, s ≠ [] ∧ '/' ∉ s) : (join l).head? ≠ some '/' := by
  cases l with
  | nil => simp [join]
  | cons s l =>
    obtain ⟨hne, hs⟩ := h s List.mem_cons_self
    cases s with
    | nil => exact absurd rfl hne
    | cons c s =>
      have hc : c ≠ '/' := fun hc => hs (hc ▸ List.mem_cons_self)
      cases l with
      | nil => simpa [join, List.intercalate] using hc
      | cons t l => simpa [join, List.intercalate] using hc

theorem head_join_names (h : ∀ s ∈ l, Name s) : (join l).head? ≠ some '/' :=
  head_join fun s hs => ⟨(h s hs).ne_nil, (h s hs).noSlash⟩

theorem clean_relative (h : p.head? ≠ some '/') :
    clean p = if normalize false (p.splitOn '/') = [] then dot
      else join (normalize false (p.splitOn '/')) := by
  have hr : (p.head? == some '/') = false := by simpa using h
  unfold clean
  simp only [hr, Bool.false_eq_true, if_false]

theorem clean_join (h : ∀ s ∈ l, Name s) (hne : l ≠ []) : clean (join l) = join l := by
  rw [clean_relative (head_join_names h), splitOn_join_names h hne, normalize_names h, if_neg hne]

theorem splitOn_dirs (h : ∀ s ∈ l, '/' ∉ s) : (l.flatMap (· ++ ['/'])).splitOn '/' = l ++ [[]] := by
  induction l with
  | nil => exact List.splitOn_nil '/'
  | cons s l ih =>
    rw [List.flatMap_cons, List.append_assoc, List.singleton_append, List.splitOn_append_cons_self,
      ih fun t ht => h t (List.mem_cons_of_mem s ht),
      List.splitOn_eq_singleton (h s List.mem_cons_self)]
    rfl

theorem dir_join (h : ∀ t ∈ l ++ [s], Name t) :
    dir (join (l ++ [s])) = if l = [] then dot else join l := by
  have hl : ∀ t ∈ l, Name t := fun t ht => h t (List.mem_append_left _ ht)
  have hhead : (l.flatMap (· ++ ['/'])).head? ≠ some '/' := by
    cases l with
    | nil => simp
    | cons t l =>
      have ht := hl t List.mem_cons_self
      cases t with
      | nil => exact absurd rfl ht.ne_nil
      | cons c t =>
        have hc : c ≠ '/' := fun hc => ht.noSlash (hc ▸ List.mem_cons_self)
        simpa using hc
  have hnorm : normalize false (l ++ [[]]) = l := by
    rw [normalize, List.foldl_append, foldl_push_names hl, List.append_nil, List.foldl_cons,
      List.foldl_nil, push_skip (.inl rfl), List.reverse_reverse]
  rw [dir, splitOn_join_names h (by simp), List.dropLast_concat, clean_relative hhead,
    splitOn_dirs fun t ht => (hl t ht).noSlash, hnorm]

theorem elements_join (h : ∀ s ∈ l, Name s) (hne : l ≠ []) : elements (join l) = l := by
  rw [elements, splitOn_join_names h hne, List.filter_eq_self]
  intro s hs
  simpa using ⟨(h s hs).ne_nil, (h s hs).ne_dot⟩

theorem elements_dot : elements dot = [] := by decide

theorem normalize_elements (hs : s ∈ normalize false (p.splitOn '/')) : s = dotdot ∨ Name s := by
  obtain ⟨k, names, heq, hn⟩ := normalize_spec fun s => slash_notMem_of_splitOn (p := p)
  rw [heq] at hs
  rcases List.mem_append.mp hs with hs | hs
  · exact .inl (List.eq_of_mem_replicate hs)
  · exact .inr (hn s hs)

theorem elements_clean (h : p.head? ≠ some '/') :
    elements (clean p) = normalize false (p.splitOn '/') := by
  rw [clean_relative h]
  split
  · next hnil => rw [hnil, elements_dot]
  next hne =>
  have noSlash : ∀ s ∈ normalize false (p.splitOn '/'), '/' ∉ s :=
    fun s hs => slash_notMem_of_splitOn (mem_normalize hs)
  rw [elements, splitOn_join noSlash hne, List.filter_eq_self]
  intro s hs
  rcases normalize_elements hs with rfl | hs
  · decide
  · simpa using ⟨hs.ne_nil, hs.ne_dot⟩

theorem head_clean (h : p.head? ≠ some '/') : (clean p).head? ≠ some '/' := by
  rw [clean_relative h]
  split
  · decide
  next hne =>
  have mem : ∀ s ∈ normalize false (p.splitOn '/'), s ≠ [] ∧ '/' ∉ s := by
    intro s hs
    rcases normalize_elements hs with rfl | hs
    · decide
    · exact ⟨hs.ne_nil, hs.noSlash⟩
  exact head_join mem

theorem clean_clean (h : p.head? ≠ some '/') : clean (clean p) = clean p := by
  rw [clean_relative (head_clean h), clean_relative h]
  by_cases hnil : normalize false (p.splitOn '/') = []
  · rw [if_pos hnil]
    rfl
  · have noSlash : ∀ s ∈ normalize false (p.splitOn '/'), '/' ∉ s :=
      fun s hs => slash_notMem_of_splitOn (mem_normalize hs)
    rw [if_neg hnil, splitOn_join noSlash hnil, normalize_normalize fun s => slash_notMem_of_splitOn,
      if_neg hnil]

end KovaService.Lib.Path
