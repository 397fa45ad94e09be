import KovaService.Archive.Transfer

/-!
The limits of an archive, and `checkArchiveHeaders`.

An accepted header list has valid paths, keeps the limits of the required files, and puts no member
below a symlink, and no operation on a size wraps around.
-/

namespace KovaService.Archive

open Lib Lib.Path Exec

structure ArchiveBudget where
  compressedBytes : Nat
  expandedBytes : Nat
  entries : Nat
  deriving DecidableEq

def defaultArchiveBudget : ArchiveBudget := ⟨512 * 2 ^ 20, 2 * 2 ^ 30, 100000⟩

def maxDockerfileBytes : Nat := 2 ^ 20

def maxArchiveMetadataBytes : Nat := 2 ^ 20

def maxArchiveSymlinkTargetBytes : Nat := 4 * 2 ^ 10

def dockerfileName : Element := ['D', 'o', 'c', 'k', 'e', 'r', 'f', 'i', 'l', 'e']

def metadataName : Element := ['m', 'e', 't', 'a', 'd', 'a', 't', 'a', '.', 'j', 's', 'o', 'n']

/-- The limit of a required file of an image directory, by the parts of its path. -/
def requiredLimit : List Element → Option (Nat × Err)
  | [_, s] =>
    if s = dockerfileName then some (maxDockerfileBytes, .dockerfileTooLarge)
    else if s = metadataName then some (maxArchiveMetadataBytes, .metadataTooLarge)
    else none
  | _ => none

theorem requiredLimit_dockerfile (top : Element) :
    requiredLimit [top, dockerfileName] = some (maxDockerfileBytes, .dockerfileTooLarge) := rfl

theorem requiredLimit_metadata (top : Element) :
    requiredLimit [top, metadataName] = some (maxArchiveMetadataBytes, .metadataTooLarge) := rfl

def requiredBuildFileLimit (cleaned : List Char) : Option (Nat × Err) :=
  requiredLimit (cleaned.splitOn '/')

variable {m : Member} {cleaned : List Char}

theorem requiredBuildFileLimit_eq (h : validateBuildArchivePath m.name = .ok cleaned) :
    requiredBuildFileLimit cleaned = requiredLimit m.path := by
  rw [cleaned_eq h, requiredBuildFileLimit]
  by_cases hp : m.path = []
  · rw [hp]
    rfl
  · rw [splitOn_join_names (path_names m) hp]

structure Headers where
  expanded : Nat
  cleanedPaths : List (List Char)
  symlinks : List (List Char)

def exceeds (limit : Option (Nat × Err)) (size : Nat) : Bool :=
  match limit with
  | some (n, _) => n < size
  | none => false

def tooLarge (limit : Option (Nat × Err)) : Err :=
  match limit with
  | some (_, e) => e
  | none => .text ""

def checkHeader (budget : ArchiveBudget) (s : Headers) (file : Member) : Work Headers := do
  let room ← sub64 budget.expandedBytes s.expanded
  failIf (room < file.uncompressedSize64) .expandedTooLarge
  let cleaned ← ofExcept (validateBuildArchivePath file.name)
  let limit := requiredBuildFileLimit cleaned
  failIf (limit.isSome && !file.isRegular) (invalidBuildArchive
    (.text ("source archive member " ++ quoted file.name ++ " must be a regular file")))
  failIf (exceeds limit file.uncompressedSize64) (memberError file.name (tooLarge limit))
  let expanded ← add64 s.expanded file.uncompressedSize64
  pure
    { expanded := expanded
      cleanedPaths := s.cleanedPaths ++ [cleaned]
      symlinks := if file.isSymlink then s.symlinks ++ [cleaned] else s.symlinks }

/-- The loop `for parent := path.Dir(cleaned); parent != "."; parent = path.Dir(parent)`; a path of
`n` elements has less than `n` parents. -/
def parentsFrom : Nat → List Char → List (List Char)
  | 0, _ => []
  | n + 1, p => if dir p = dot then [] else dir p :: parentsFrom n (dir p)

def parents (cleaned : List Char) : List (List Char) :=
  parentsFrom (cleaned.splitOn '/').length cleaned

def symlinkParents (symlinks : List (List Char)) : List (Member × List Char) → Except Err Unit
  | [] => .ok ()
  | (file, cleaned) :: rest =>
    match (parents cleaned).find? symlinks.contains with
    | some parent =>
      .error (invalidBuildArchive (.text ("source archive member " ++ quoted file.name ++
        " has symlink parent " ++ quoted parent)))
    | none => symlinkParents symlinks rest

def checkArchiveHeaders (files : List Member) (budget : ArchiveBudget) : Work Unit := do
  failIf (budget.entries < files.length) .tooManyEntries
  let s ← files.foldlM (checkHeader budget) ⟨0, [], []⟩
  ofExcept (symlinkParents s.symlinks (files.zip s.cleanedPaths))

def Below (p q : List Element) : Prop := p <+: q ∧ p ≠ q

theorem below_length {p q : List Element} (h : Below p q) : p.length < q.length := by
  obtain ⟨⟨rest, rfl⟩, hne⟩ := h
  cases rest with
  | nil => exact absurd (List.append_nil p).symm hne
  | cons s rest => simp

structure Headed (files : List Member) : Prop where
  valid : ∀ m ∈ files, ∃ cleaned, validateBuildArchivePath m.name = .ok cleaned
  limits : ∀ m ∈ files, ∀ n e, requiredLimit m.path = some (n, e) →
    m.isRegular ∧ m.uncompressedSize64 ≤ n
  parents : ∀ m ∈ files, m.isSymlink → m.path ≠ [] → ∀ m' ∈ files, ¬ Below m.path m'.path

theorem join_ne_dot {l : List Element} (h : ∀ s ∈ l, Name s) : join l ≠ dot := by
  intro hj
  cases l with
  | nil => exact absurd hj (by decide)
  | cons s l =>
    have hs := splitOn_join_names h (List.cons_ne_nil s l)
    rw [hj, show dot.splitOn '/' = [dot] by decide] at hs
    injection hs with hs _
    exact (h s List.mem_cons_self).ne_dot hs.symm

theorem mem_parentsFrom {n : Nat} {p q : List Element} (hp : ∀ s ∈ p, Name s) (hn : p.length ≤ n)
    (hq : q ≠ []) (below : Below q p) : join q ∈ parentsFrom n (join p) := by
  induction n generalizing p with
  | zero =>
    obtain rfl : p = [] := List.length_eq_zero_iff.mp (Nat.le_zero.mp hn)
    exact absurd (List.prefix_nil.mp below.1) hq
  | succ n ih =>
    cases p using List.reverseRecOn with
    | nil => exact absurd (List.prefix_nil.mp below.1) hq
    | append_singleton p s =>
      have hp' : ∀ t ∈ p, Name t := fun t ht => hp t (List.mem_append_left _ ht)
      have hqp : q <+: p := by
        rcases List.prefix_concat_iff.mp below.1 with heq | h
        · exact absurd heq below.2
        · exact h
      have hne : p ≠ [] := by
        rintro rfl
        exact hq (List.prefix_nil.mp hqp)
      have hdir : dir (join (p ++ [s])) = join p := by rw [dir_join hp, if_neg hne]
      rw [parentsFrom, hdir, if_neg (join_ne_dot hp')]
      by_cases heq : q = p
      · exact heq ▸ List.mem_cons_self
      · refine List.mem_cons_of_mem _ (ih hp' ?_ ⟨hqp, heq⟩)
        simpa using hn

theorem symlinkParents_ok {symlinks : List (List Char)} {l : List (Member × List Char)}
    (h : symlinkParents symlinks l = .ok ()) :
    ∀ x ∈ l, ∀ parent ∈ parents x.2, parent ∉ symlinks := by
  induction l with
  | nil => simp
  | cons x l ih =>
    obtain ⟨file, cleaned⟩ := x
    unfold symlinkParents at h
    split at h
    · cases h
    · next hnone =>
      intro y hy
      rcases List.mem_cons.mp hy with rfl | hy
      · intro parent hparent hmem
        exact List.find?_eq_none.mp hnone parent hparent (List.contains_iff_mem.mpr hmem)
      · exact ih h y hy

structure Seen (front : List Member) (s : Headers) : Prop where
  valid : ∀ m ∈ front, ∃ cleaned, validateBuildArchivePath m.name = .ok cleaned
  limits : ∀ m ∈ front, ∀ n e, requiredLimit m.path = some (n, e) →
    m.isRegular ∧ m.uncompressedSize64 ≤ n
  cleaned : s.cleanedPaths = front.map fun m => join m.path
  symlinks : ∀ m ∈ front, m.isSymlink → join m.path ∈ s.symlinks

variable {s : Headers} {front : List Member}

theorem Seen.snoc {expanded : Nat} (h : Seen front s)
    (hc : validateBuildArchivePath m.name = .ok cleaned)
    (hreg : ((requiredBuildFileLimit cleaned).isSome && !m.isRegular) = false)
    (hsize : exceeds (requiredBuildFileLimit cleaned) m.uncompressedSize64 = false) :
    Seen (front ++ [m]) ⟨expanded, s.cleanedPaths ++ [cleaned],
      if m.isSymlink then s.symlinks ++ [cleaned] else s.symlinks⟩ := by
  rw [requiredBuildFileLimit_eq hc] at hreg hsize
  have hjoin := cleaned_eq hc
  have split : ∀ {P : Member → Prop}, (∀ x ∈ front, P x) → P m → ∀ x ∈ front ++ [m], P x := by
    intro P hfront hm x hx
    rcases List.mem_append.mp hx with hx | hx
    · exact hfront x hx
    · exact List.mem_singleton.mp hx ▸ hm
  refine ⟨split h.valid ⟨cleaned, hc⟩, split h.limits fun n e hl => ?_, ?_, split ?_ ?_⟩
  · rw [hl] at hreg hsize
    exact ⟨by simpa using hreg, by simpa [exceeds] using hsize⟩
  · rw [List.map_append, ← h.cleaned, hjoin]
    rfl
  · intro x hx hlink
    dsimp only
    split
    · exact List.mem_append_left _ (h.symlinks x hx hlink)
    · exact h.symlinks x hx hlink
  · intro hlink
    dsimp only
    rw [if_pos hlink, hjoin]
    exact List.mem_append_right _ (List.mem_singleton_self _)

variable {budget : ArchiveBudget} {b : Nat} {zip : ArchiveFile} {h : History}

theorem checkHeader_meets (hb : budget.expandedBytes ≤ 2 ^ 62) (hs : Seen front s)
    (hle : s.expanded ≤ budget.expandedBytes) :
    Meets b zip (checkHeader budget s m) h fun s' h' => Seen (front ++ [m]) s' ∧
      s'.expanded ≤ budget.expandedBytes ∧ transferred h' = transferred h := by
  refine meets_sub64 hle (by omega) fun h₁ t₁ => ?_
  refine meets_failIf fun hroom => ?_
  have hroom : m.uncompressedSize64 ≤ budget.expandedBytes - s.expanded := by
    simpa using hroom
  refine meets_ofExcept fun cleaned hc => ?_
  refine meets_failIf fun hreg => ?_
  refine meets_failIf fun hsize => ?_
  refine meets_add64 (by omega) fun h₂ t₂ => ?_
  exact meets_pure ⟨hs.snoc hc hreg hsize, by dsimp only; omega, t₂.trans t₁⟩

theorem headed_of_seen {files : List Member} (hs : Seen files s)
    (h : symlinkParents s.symlinks (files.zip s.cleanedPaths) = .ok ()) : Headed files := by
  refine ⟨hs.valid, hs.limits, fun m hm hlink hne m' hm' below => ?_⟩
  have hzip : (m', join m'.path) ∈ files.zip s.cleanedPaths := by
    rw [hs.cleaned, ← List.map_prod_left_eq_zip, List.mem_map]
    exact ⟨m', hm', rfl⟩
  have hlen : (join m'.path).splitOn '/' = m'.path := by
    refine splitOn_join_names (path_names m') fun hnil => ?_
    have := below.1
    rw [hnil] at this
    exact hne (List.prefix_nil.mp this)
  have hpar : join m.path ∈ parents (join m'.path) := by
    rw [parents, hlen]
    exact mem_parentsFrom (path_names m') (Nat.le_refl _) hne below
  exact symlinkParents_ok h _ hzip _ hpar (hs.symlinks m hm hlink)

theorem checkArchiveHeaders_meets (hb : budget.expandedBytes ≤ 2 ^ 62) (files : List Member) :
    Meets b zip (checkArchiveHeaders files budget) h fun _ h' =>
      Headed files ∧ transferred h' = transferred h := by
  refine meets_failIf fun _ => ?_
  refine meets_bind (meets_foldlM (fun front s h' => Seen front s ∧
    s.expanded ≤ budget.expandedBytes ∧ transferred h' = transferred h) ?_
    ⟨⟨by simp, by simp, rfl, by simp⟩, Nat.zero_le _, rfl⟩) fun s h' hs => ?_
  · intro front m rest _ s h₁ ⟨hs, hle, ht⟩
    exact (checkHeader_meets hb hs hle).mono fun _ _ _ hm => ⟨hm.1, hm.2.1, hm.2.2.trans ht⟩
  · cases hp : symlinkParents s.symlinks (files.zip s.cleanedPaths) with
    | error e => exact trivial
    | ok _ => exact meets_pure ⟨headed_of_seen hs.1 hp, hs.2.2⟩

end KovaService.Archive
