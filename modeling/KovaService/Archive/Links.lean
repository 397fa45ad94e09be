import KovaService.Lib.FileTree
import KovaService.Archive.Structure

/-!
Where the symlinks of an extracted archive lead.

Each link is checked alone and by its text.  That this is enough for chains of links comes from two
facts: no member has a symlink above it, so a link is made at the very path it was checked for; and a
cleaned target has its parent steps in front, so a resolution never steps up after it has entered a
name.
-/

namespace KovaService.Archive

open Lib Lib.Path Lib.FileTree Exec

variable {tree : Tree}

theorem backslash_notMem_unslash (p : List Char) : '\\' ∉ unslash p := by
  intro h
  obtain ⟨c, -, hc⟩ := List.mem_map.mp h
  by_cases heq : c = '\\'
  · rw [if_pos heq] at hc
    exact absurd hc (by decide)
  · rw [if_neg heq] at hc
    exact heq hc

theorem unslash_eq {p : List Char} (h : '\\' ∉ p) : unslash p = p := by
  have same : unslash p = p.map id := by
    refine List.map_congr_left fun c hc => if_neg ?_
    rintro rfl
    exact h hc
  rw [same, List.map_id]

theorem path_noBackslash (m : Member) : ∀ s ∈ m.path, '\\' ∉ s := by
  unfold Member.path
  split
  · next cleaned h =>
    unfold validateBuildArchivePath at h
    dsimp only at h
    have free := backslash_notMem_unslash (Text.trim m.name)
    generalize unslash (Text.trim m.name) = normalized at h free
    split_ifs at h with h₁ h₂ h₃ h₄
    · injection h with h
      rw [← h, elements_nil]
      simp
    · injection h with h
      rw [← h, elements_nil]
      simp
    · injection h with h
      intro s hs hc
      rw [← h, elements_clean h₂] at hs
      exact free (mem_of_mem_splitOn hc (mem_normalize hs))
  · simp

theorem resolved_head {l : List Element} (hl : ∀ s ∈ l, '/' ∉ s) {root : Element} (hroot : Name root)
    (h : (if l = [] then dot else join l) = root ∨
      (root ++ ['/']).isPrefixOf (if l = [] then dot else join l)) :
    l.head? = some root := by
  by_cases hnil : l = []
  · rw [if_pos hnil] at h
    rcases h with h | h
    · exact absurd h.symm hroot.ne_dot
    · obtain ⟨rest, hrest⟩ := List.isPrefixOf_iff_prefix.mp h
      have hlen := congrArg List.length hrest
      have := List.length_pos_iff.mpr hroot.ne_nil
      simp only [List.length_append, dot, List.length_cons, List.length_nil] at hlen
      omega
  · rw [if_neg hnil] at h
    have hsplit := splitOn_join hl hnil
    have hsingle : root.splitOn '/' = [root] := List.splitOn_eq_singleton hroot.noSlash
    rcases h with h | h
    · rw [h, hsingle] at hsplit
      rw [← hsplit]
      rfl
    · obtain ⟨rest, hrest⟩ := List.isPrefixOf_iff_prefix.mp h
      rw [← hrest, List.append_assoc, List.singleton_append, List.splitOn_append_cons_self,
        hsingle] at hsplit
      rw [← hsplit]
      rfl

theorem joinClean_dir {d : List Element} {s : Element} (hd : ∀ t ∈ d ++ [s], Name t)
    (target : List Char) :
    clean (joinClean (dir (join (d ++ [s]))) target) =
      if normalize false (d ++ target.splitOn '/') = [] then dot
      else join (normalize false (d ++ target.splitOn '/')) := by
  have hd' : ∀ t ∈ d, Name t := fun t ht => hd t (List.mem_append_left _ ht)
  rw [dir_join hd, joinClean]
  by_cases hnil : d = []
  · have hhead : (dot ++ '/' :: target).head? ≠ some '/' := by simp [dot]
    have hsplit : (dot ++ '/' :: target).splitOn '/' = dot :: target.splitOn '/' := by
      rw [List.splitOn_append_cons_self]
      rfl
    have hskip : normalize false (dot :: target.splitOn '/') =
        normalize false (target.splitOn '/') := by
      rw [Path.normalize, List.foldl_cons, push_skip (.inr rfl)]
      rfl
    rw [if_pos hnil, clean_clean hhead, clean_relative hhead, hsplit, hskip, hnil, List.nil_append]
  · have hsplit : (join d ++ '/' :: target).splitOn '/' = d ++ target.splitOn '/' := by
      rw [List.splitOn_append_cons_self, splitOn_join_names hd' hnil]
    have hhead : (join d ++ '/' :: target).head? ≠ some '/' := by
      rw [List.head?_append_of_ne_nil _ (join_ne_nil hd' hnil)]
      exact head_join_names hd'
    rw [if_neg hnil, clean_clean hhead, clean_relative hhead, hsplit]

/-- A link that passes the check stays within its top-level directory. -/
theorem resolveArchiveSymlinkTarget_within {p : List Element} (hp : ∀ s ∈ p, Name s) (hne : p ≠ [])
    (free : ∀ s ∈ p, '\\' ∉ s) {target safe : List Char}
    (h : resolveArchiveSymlinkTarget (join p) target = .ok safe) : Within p safe := by
  have hname : clean (unslash (join p)) = join p := by
    rw [unslash_eq, clean_join hp hne]
    intro hc
    obtain ⟨s, hs, hc⟩ := (mem_join (by decide)).mp hc
    exact free s hs hc
  unfold resolveArchiveSymlinkTarget at h
  dsimp only at h
  rw [hname, splitOn_join_names hp hne] at h
  generalize unslash (Text.trim target) = normalized at h
  split_ifs at h with h₁ h₂ h₃
  injection h with h
  subst h
  have hslash := fun s => slash_notMem_of_splitOn (p := normalized) (s := s)
  obtain ⟨k, names, heq, hn⟩ := normalize_spec hslash
  obtain ⟨d, s, rfl⟩ : ∃ d s, p = d ++ [s] := by
    refine ⟨p.dropLast, p.getLast hne, (List.dropLast_append_getLast hne).symm⟩
  have hd : ∀ t ∈ d, Name t := fun t ht => hp t (List.mem_append_left _ ht)
  have hall : ∀ t ∈ d ++ normalized.splitOn '/', '/' ∉ t := by
    intro t ht
    rcases List.mem_append.mp ht with ht | ht
    · exact (hd t ht).noSlash
    · exact hslash t ht
  obtain ⟨root, tail, hroot⟩ := List.exists_cons_of_ne_nil hne
  have hrootName : Name root := hp root (hroot ▸ List.mem_cons_self)
  have hhead : (normalize false (d ++ normalized.splitOn '/')).head? = some root := by
    refine resolved_head (fun t ht => hall t (mem_normalize ht)) hrootName ?_
    rw [joinClean_dir hp, hroot, List.headD_cons, not_and_or, not_not, not_not] at h₃
    exact h₃
  rw [normalize_append hd hslash hn heq] at hhead
  have hk : k ≤ d.length := by
    by_contra hlt
    obtain ⟨j, hj⟩ : ∃ j, k - d.length = j + 1 := ⟨k - d.length - 1, by omega⟩
    rw [hj, List.replicate_succ, List.cons_append, List.cons_append, List.head?_cons] at hhead
    injection hhead with hhead
    exact hrootName.ne_dotdot hhead.symm
  rw [Nat.sub_eq_zero_of_le hk, List.replicate_zero, List.nil_append] at hhead
  exact ⟨d, s, k, names, rfl, (elements_clean h₂).trans heq, hn, hk, by rw [hhead, hroot]; rfl⟩

/-- The entry that a path names: its last element in the directory that the rest is resolved to. -/
def Located (tree : Tree) (path : List Char) (q : List Element) : Prop :=
  ∃ p s d, elements path = p ++ [s] ∧ Reach tree (.inside [], p) (.inside d, []) ∧ q = d ++ [s]

def Request.onTree : Request → Bool
  | .mkdirAll _ | .remove _ | .symlink _ _ | .openFile _ => true
  | _ => false

def failedOnTree : Event Request Answer → Bool
  | ⟨.mkdirAll _, (some _ : Option Err)⟩ | ⟨.remove _, (some _ : Option Err)⟩
  | ⟨.symlink _ _, (some _ : Option Err)⟩ | ⟨.openFile _, (some _ : Option Err)⟩ => true
  | _ => false

/-- A file system that resolves links, as `os.Root` does, and may fail at any time.  A failure makes
no link. -/
inductive Does (tree : Tree) : Event Request Answer → Tree → Prop
  | mkdirAll {path : List Char} {tree' : Tree}
      (h : ∀ q, tree' q = tree q ∨ tree q = none ∧ tree' q = some .dir) :
      Does tree ⟨.mkdirAll path, (none : Option Err)⟩ tree'
  | remove {path : List Char} {q : List Element} (h : Located tree path q) :
      Does tree ⟨.remove path, (none : Option Err)⟩ (Function.update tree q none)
  | symlink {target path : List Char} {q : List Element} (h : Located tree path q)
      (free : tree q = none) :
      Does tree ⟨.symlink target path, (none : Option Err)⟩
        (Function.update tree q (some (.link target)))
  | openFile {path : List Char} {q : List Element} (h : tree q = none ∨ tree q = some .file) :
      Does tree ⟨.openFile path, (none : Option Err)⟩ (Function.update tree q (some .file))
  | failed {e : Event Request Answer} {tree' : Tree} (he : failedOnTree e = true)
      (h : ∀ q t, tree' q = some (.link t) → tree q = some (.link t)) : Does tree e tree'
  | other {e : Event Request Answer} (he : e.1.onTree = false) : Does tree e tree

inductive Evolves : Tree → History → Tree → Prop
  | nil (tree : Tree) : Evolves tree [] tree
  | cons {tree tree₁ tree₂ : Tree} {e : Event Request Answer} {tr : History}
      (h : Does tree e tree₁) (rest : Evolves tree₁ tr tree₂) : Evolves tree (e :: tr) tree₂

/-- Every link stands at the path of a symlink member and has passed the check for it. -/
def Linked (files : List Member) (tree : Tree) : Prop :=
  ∀ q t, tree q = some (.link t) →
    (∃ m ∈ files, m.isSymlink ∧ m.path = q ∧ m.path ≠ []) ∧ Within q t

def Placed (files : List Member) : Request → Prop
  | .symlink target path => ∃ m ∈ files, m.isSymlink = true ∧ m.path ≠ [] ∧ path = join m.path ∧
      Within m.path target
  | _ => True

variable {m : Member} {files : List Member}

/-- No part of the way to a member is a link. -/
theorem located_member (headed : Headed files) (linked : Linked files tree) (hm : m ∈ files)
    (hne : m.path ≠ [])
    {q : List Element} (h : Located tree (join m.path) q) : q = m.path := by
  obtain ⟨p, s, d, hp, reach, rfl⟩ := h
  rw [elements_join (path_names m) hne] at hp
  have hpn : ∀ t ∈ p, Name t := fun t ht => path_names m t (hp ▸ List.mem_append_left _ ht)
  have noLink : ∀ r t, r <+: p → tree r ≠ some (.link t) := by
    intro r t hr hl
    obtain ⟨⟨m', hm', hlink, rfl, hne'⟩, -⟩ := linked r t hl
    refine headed.parents m' hm' hlink hne' m hm ⟨?_, fun heq => ?_⟩
    · exact hp ▸ hr.trans (List.prefix_append p [s])
    · have hlen := hr.length_le
      rw [heq, hp] at hlen
      simp at hlen
  rw [reach_literal hpn noLink rfl reach, hp]

variable {e : Event Request Answer} {tree' : Tree}

theorem does_linked (headed : Headed files) (linked : Linked files tree) (placed : Placed files e.1)
    (h : Does tree e tree') : Linked files tree' := by
  have noNew : (∀ q t, tree' q = some (.link t) → tree q = some (.link t)) → Linked files tree' :=
    fun hnew q t hq => linked q t (hnew q t hq)
  cases h with
  | mkdirAll h =>
    refine noNew fun q t hq => ?_
    rcases h q with heq | ⟨-, hdir⟩
    · exact heq ▸ hq
    · rw [hdir] at hq
      cases hq
  | @remove path q h =>
    refine noNew fun r t hr => ?_
    by_cases heq : r = q
    · rw [heq, Function.update_self] at hr
      cases hr
    · rwa [Function.update_of_ne heq] at hr
  | @symlink target path q h free =>
    obtain ⟨m, hm, hlink, hne, rfl, hwithin⟩ := placed
    obtain rfl := located_member headed linked hm hne h
    intro r t hr
    by_cases heq : r = m.path
    · rw [heq, Function.update_self] at hr
      injection hr with hr
      injection hr with hr
      subst hr heq
      exact ⟨⟨m, hm, hlink, rfl, hne⟩, hwithin⟩
    · rw [Function.update_of_ne heq] at hr
      exact linked r t hr
  | @openFile path q h =>
    refine noNew fun r t hr => ?_
    by_cases heq : r = q
    · rw [heq, Function.update_self] at hr
      cases hr
    · rwa [Function.update_of_ne heq] at hr
  | failed _ h => exact noNew h
  | other _ => exact linked

variable {tr : History}

theorem evolves_linked (headed : Headed files) (h : Evolves tree tr tree')
    (linked : Linked files tree)
    (placed : ∀ e ∈ tr, Placed files e.1) : Linked files tree' := by
  induction h with
  | nil tree => exact linked
  | cons h _ ih =>
    exact ih (does_linked headed linked (placed _ List.mem_cons_self) h)
      fun e he => placed e (List.mem_cons_of_mem _ he)

theorem placed_of_careful {zip : ArchiveFile} {b : Nat} {front : History} {q : Request}
    (hopened : zip.opened = .ok files) (h : Careful b zip front q) : Placed files q := by
  cases q with
  | symlink target path =>
    obtain ⟨-, files', m, text, hfiles, hm, hlink, hpath, hc, hsafe⟩ := h
    cases hopened.symm.trans hfiles
    have hjoin := cleaned_eq hc
    have hne : m.path ≠ [] := fun hp => hpath (by rw [hjoin, hp]; rfl)
    exact ⟨m, hm, hlink, hne, hjoin, resolveArchiveSymlinkTarget_within (path_names m) hne
      (path_noBackslash m) (hjoin ▸ hsafe)⟩
  | _ => exact trivial

theorem extractZip_facts {zip : ArchiveFile} (hopened : zip.opened = .ok files)
    (returned : Returns (extractZip zip) tr (.ok ())) :
    Headed files ∧ ∀ e ∈ tr, Placed files e.1 := by
  have meets : Meets defaultArchiveBudget.expandedBytes zip _ [] _ :=
    extractZipWithBudget_meets (by decide)
  refine ⟨?_, fun e he => ?_⟩
  · obtain ⟨_, _, hfiles, headed, -⟩ := returned.post meets
    cases hopened.symm.trans hfiles
    exact headed
  · obtain ⟨front, careful⟩ := meets.issued returned.plays he
    exact placed_of_careful hopened careful

/-- The resolution is in the directory, or in the root and about to enter the directory. -/
def Contained (top : Element) : Resolving → Prop
  | (.inside p, rest) => p.head? = some top ∨ p = [] ∧ rest.head? = some top
  | (.outside, _) => False

theorem contained_of_bound {top : Element} {x : Resolving} (h : Bound top x) : Contained top x := by
  obtain ⟨p, k, names, hp, hrest, -, hk, hhead, htop⟩ := h
  obtain ⟨place, rest⟩ := x
  dsimp only at hp hrest
  subst hp hrest
  rcases htop with rfl | htop
  · right
    obtain rfl : k = 0 := Nat.le_zero.mp hk
    simpa using hhead
  · exact .inl htop

/-- A file system that does what it is asked, on a tree without links on the way. -/
def applyOnTree (tree : Tree) : Event Request Answer → Tree
  | ⟨.mkdirAll path, (none : Option Err)⟩ => fun q =>
    if tree q = none ∧ q.isPrefixOf (elements path) then some .dir else tree q
  | ⟨.symlink target path, (none : Option Err)⟩ =>
    Function.update tree (elements path) (some (.link target))
  | ⟨.openFile path, (none : Option Err)⟩ => Function.update tree (elements path) (some .file)
  | _ => tree

def freeEntry (tree : Tree) (p : List Element) : Bool :=
  p ≠ [] ∧ tree p = none ∧ p.dropLast.all (· ≠ dotdot) ∧
    p.dropLast.inits.all fun r => r = [] ∨ tree r = some .dir

def fitsTree (tree : Tree) : Event Request Answer → Bool
  | ⟨.symlink _ path, (none : Option Err)⟩ => freeEntry tree (elements path)
  | ⟨.openFile path, (none : Option Err)⟩ =>
    tree (elements path) = none ∨ tree (elements path) = some .file
  | ⟨.remove _, (none : Option Err)⟩ => false
  | _ => true

def evolve : Tree → History → Tree
  | tree, [] => tree
  | tree, e :: tr => evolve (applyOnTree tree e) tr

def fits : Tree → History → Bool
  | _, [] => true
  | tree, e :: tr => fitsTree tree e && fits (applyOnTree tree e) tr

theorem located_freeEntry {path : List Char} (h : freeEntry tree (elements path)) :
    Located tree path (elements path) := by
  simp only [freeEntry, Bool.decide_and, Bool.and_eq_true, decide_eq_true_eq, List.all_eq_true,
    List.mem_inits] at h
  obtain ⟨hne, -, hdots, hdirs⟩ := h
  have hlast := List.dropLast_append_getLast hne
  refine ⟨_, _, _, hlast.symm, ?_, hlast.symm⟩
  have := reach_dirs (p := []) hdots fun r hr hr' => by
    simpa [hr'] using hdirs r hr
  simpa using this

theorem does_applyOnTree (h : fitsTree tree e) : Does tree e (applyOnTree tree e) := by
  obtain ⟨q, r⟩ := e
  cases q with
  | mkdirAll path =>
    cases r with
    | none =>
      refine .mkdirAll fun q => ?_
      unfold applyOnTree
      dsimp only
      split_ifs with hq
      · exact .inr ⟨hq.1, rfl⟩
      · exact .inl rfl
    | some e => exact .failed rfl fun _ _ => id
  | remove path =>
    cases r with
    | none => cases h
    | some e => exact .failed rfl fun _ _ => id
  | symlink target path =>
    cases r with
    | none =>
      refine .symlink (located_freeEntry h) ?_
      have h : freeEntry tree (elements path) := h
      simp only [freeEntry, Bool.decide_and, Bool.and_eq_true, decide_eq_true_eq] at h
      exact h.2.1
    | some e => exact .failed rfl fun _ _ => id
  | openFile path =>
    cases r with
    | none => exact .openFile (by simpa [fitsTree] using h)
    | some e => exact .failed rfl fun _ _ => id
  | _ => exact .other rfl

theorem evolves_evolve (h : fits tree tr) : Evolves tree tr (evolve tree tr) := by
  induction tr generalizing tree with
  | nil => exact .nil tree
  | cons e tr ih =>
    rw [fits, Bool.and_eq_true] at h
    exact .cons (does_applyOnTree h.1) (ih h.2)

def linkRun (zip : ArchiveFile) (target : List Char) : History :=
  (((extractZip zip).run.run ()).play (answers target) []).1

/-- A link `i/l` to `../i/f`. -/
def climbing : ArchiveFile :=
  ⟨headersOnly 2, .ok [⟨['i', '/', 'f'], .regular, 0⟩, ⟨['i', '/', 'l'], .symlink, 6⟩]⟩

abbrev climbingRun : History := linkRun climbing ['.', '.', '/', 'i', '/', 'f']

theorem climbing_extracted : Returns (extractZip climbing) climbingRun (.ok ()) ∧
    Evolves empty climbingRun (evolve empty climbingRun) :=
  ⟨returns_play _ (by decide +kernel), evolves_evolve (by decide +kernel)⟩

/-- The link leads to the root of the tree, with the directory it came from as the next element. -/
theorem climbing_reach :
    Reach (evolve empty climbingRun) (.inside [['i']], [['l']]) (.inside [], [['i'], ['f']]) := by
  have link : evolve empty climbingRun ([['i']] ++ [['l']]) =
      some (.link ['.', '.', '/', 'i', '/', 'f']) := by
    decide +kernel
  have first : Step (evolve empty climbingRun) (.inside [['i']], [['l']])
      (.inside [['i']], [dotdot, ['i'], ['f']]) := .follow (by decide) link
  exact .tail (.single first) (.up [] ['i'] [['i'], ['f']])

/-- A link `i/d/l` to `..`, and a file in another directory. -/
def parentLink : ArchiveFile :=
  ⟨headersOnly 2,
    .ok [⟨['j', '/', 'f'], .regular, 0⟩, ⟨['i', '/', 'd', '/', 'l'], .symlink, 2⟩]⟩

abbrev parentRun : History := linkRun parentLink dotdot

theorem parentRun_extracted : Returns (extractZip parentLink) parentRun (.ok ()) ∧
    Evolves empty parentRun (evolve empty parentRun) :=
  ⟨returns_play _ (by decide +kernel), evolves_evolve (by decide +kernel)⟩

/-- The path `i/d/l/../j/f` ends in `j`. -/
theorem parentRun_reach : Reach (evolve empty parentRun)
    (.inside [['i']], [['d'], ['l'], dotdot, ['j'], ['f']]) (.inside [['j'], ['f']], []) := by
  have link : evolve empty parentRun ([['i'], ['d']] ++ [['l']]) = some (.link dotdot) := by
    decide +kernel
  have enter : Step (evolve empty parentRun) (.inside [['i']], [['d'], ['l'], dotdot, ['j'], ['f']])
      (.inside [['i'], ['d']], [['l'], dotdot, ['j'], ['f']]) :=
    .enter (p := [['i']]) (by decide) (by decide +kernel)
  have follow : Step (evolve empty parentRun)
      (.inside [['i'], ['d']], [['l'], dotdot, ['j'], ['f']])
      (.inside [['i'], ['d']], [dotdot, dotdot, ['j'], ['f']]) := .follow (by decide) link
  have other : Step (evolve empty parentRun) (.inside [], [['j'], ['f']])
      (.inside [['j']], [['f']]) := .enter (p := []) (by decide) (by decide +kernel)
  have arrive : Step (evolve empty parentRun) (.inside [['j']], [['f']])
      (.inside [['j'], ['f']], []) :=
    .arrive (p := [['j']]) (n := .file) (by decide) (by decide +kernel)
  exact .head enter <| .head follow <| .head (.up [['i']] ['d'] _) <| .head (.up [] ['i'] _) <|
    .head other <| .single arrive

end KovaService.Archive
