import KovaService.Archive.Budget

/-!
What `ValidateBuildArchive` says about a list of members when it returns.

The top-level loop records for every first element of a path whether a file stands there and which
second elements occur.  A second element counts as a child also when it occurs only in the middle of
a path, and no check looks at regular files that have members below them.
-/

namespace KovaService.Archive

open Lib Lib.Path Exec

variable {files : List Member} {α : Type}

def topNames (files : List Member) : List Element := (files.filterMap (·.path.head?)).dedup

structure WellFormed (files : List Member) (n : Nat) : Prop where
  located : ∀ m ∈ files, m.path ≠ []
  directories : ∀ m ∈ files, ∀ top, m.path = [top] → m.isDir
  count : (topNames files).length = n
  dockerfile : ∀ top ∈ topNames files, ∃ m ∈ files, m.path = [top, dockerfileName] ∧
    m.isRegular ∧ m.uncompressedSize64 ≤ maxDockerfileBytes
  metadata : ∀ top ∈ topNames files, ∃ m ∈ files, m.path = [top, metadataName] ∧
    m.isRegular ∧ m.uncompressedSize64 ≤ maxArchiveMetadataBytes
  fileParents : ∀ m ∈ files, m.isDir = false → ∀ m' ∈ files, ¬ Below m.path m'.path
  distinct : (files.map Member.path).Nodup

/-- No member has an empty path, and none lies below a file of an image directory or below the path
of a required file. -/
structure Unnested (files : List Member) : Prop where
  named : ∀ m ∈ files, m.path ≠ []
  leaf : ∀ m ∈ files, m.isDir = false → m.isSymlink = false → 2 ≤ m.path.length →
    ∀ m' ∈ files, ¬ Below m.path m'.path
  required : ∀ m ∈ files, ∀ top,
    ¬ Below [top, dockerfileName] m.path ∧ ¬ Below [top, metadataName] m.path

section Tops

variable {tops : List BuildArchiveTopLevel} {top t : Element}
  {f : BuildArchiveTopLevel → BuildArchiveTopLevel}

def entryOf (tops : List BuildArchiveTopLevel) (t : Element) : BuildArchiveTopLevel :=
  (tops.find? (·.name = t)).getD ⟨t, [], false⟩

theorem entryOf_updateTop (hf : ∀ e, (f e).name = e.name) :
    entryOf (updateTop top f tops) t = if t = top then f (entryOf tops top) else entryOf tops t := by
  induction tops with
  | nil =>
    by_cases h : top = t
    · simp [updateTop, entryOf, hf, h]
    · simp [updateTop, entryOf, hf, h, Ne.symm h]
  | cons e tops ih =>
    unfold updateTop
    by_cases he : e.name = top
    · by_cases h : top = t
      · simp [entryOf, hf, he, h]
      · simp [entryOf, hf, he, h, Ne.symm h]
    · rw [if_neg he]
      by_cases h : e.name = t
      · have ht : t ≠ top := fun ht => he (h.trans ht)
        simp [entryOf, h, ht]
      · simp only [entryOf] at ih ⊢
        simp only [List.find?_cons, h, he, decide_false]
        exact ih

theorem mem_names_updateTop (hf : ∀ e, (f e).name = e.name) :
    t ∈ (updateTop top f tops).map (·.name) ↔ t = top ∨ t ∈ tops.map (·.name) := by
  induction tops with
  | nil => simp [updateTop, hf]
  | cons e tops ih =>
    unfold updateTop
    by_cases he : e.name = top
    · rw [if_pos he]
      simp [hf, he]
    · rw [if_neg he, List.map_cons, List.mem_cons, ih, List.map_cons, List.mem_cons]
      tauto

theorem nodup_names_updateTop (hf : ∀ e, (f e).name = e.name) (h : (tops.map (·.name)).Nodup) :
    ((updateTop top f tops).map (·.name)).Nodup := by
  induction tops with
  | nil => simp [updateTop]
  | cons e tops ih =>
    unfold updateTop
    rw [List.map_cons, List.nodup_cons] at h
    by_cases he : e.name = top
    · rw [if_pos he, List.map_cons, hf, List.nodup_cons]
      exact h
    · rw [if_neg he, List.map_cons, List.nodup_cons, mem_names_updateTop hf]
      exact ⟨not_or.mpr ⟨he, h.1⟩, ih h.2⟩

theorem entryOf_mem (h : (tops.map (·.name)).Nodup) {e : BuildArchiveTopLevel} (he : e ∈ tops) :
    entryOf tops e.name = e := by
  induction tops with
  | nil => cases he
  | cons x tops ih =>
    rw [List.map_cons, List.nodup_cons] at h
    rcases List.mem_cons.mp he with rfl | he
    · simp [entryOf]
    · have hne : x.name ≠ e.name := fun heq => h.1 (heq ▸ List.mem_map_of_mem he)
      have := ih h.2 he
      simpa [entryOf, hne] using this

end Tops

structure Tallied (front : List Member) (s : SeenMembers) : Prop where
  seen : ∀ m ∈ front, m.path ≠ [] → join m.path ∈ s.seenPaths
  distinct : ((front.map Member.path).filter (· ≠ [])).Nodup
  nodup : (s.topLevels.map (·.name)).Nodup
  names : ∀ t, t ∈ s.topLevels.map (·.name) ↔ ∃ m ∈ front, m.path.head? = some t
  rootFile : ∀ t, (entryOf s.topLevels t).rootFile ↔
    ∃ m ∈ front, m.path = [t] ∧ m.isDir = false
  children : ∀ t c, c ∈ (entryOf s.topLevels t).children ↔
    ∃ m ∈ front, ∃ rest, m.path = t :: c :: rest

theorem exists_mem_concat {l : List α} {a : α} {P : α → Prop} :
    (∃ x ∈ l ++ [a], P x) ↔ (∃ x ∈ l, P x) ∨ P a := by
  simp [or_and_right, exists_or]

variable {m : Member} {front : List Member} {top : Element} {rest : List Element}

/-- A member changes the entry of its top-level name: it is a root file there, or a child. -/
theorem noteMember_cons (tops : List BuildArchiveTopLevel) (hp : m.path = top :: rest) :
    ∃ f, noteMember m tops m.path = updateTop top f tops ∧
      (∀ e, (f e).name = e.name) ∧
      (∀ e, (f e).rootFile ↔ e.rootFile ∨ m.path = [top] ∧ m.isDir = false) ∧
      ∀ e c, c ∈ (f e).children ↔ c ∈ e.children ∨ ∃ rest, m.path = top :: c :: rest := by
  rw [hp]
  cases rest with
  | nil => exact ⟨_, rfl, fun _ => rfl, by simp, by simp⟩
  | cons child rest =>
    exact ⟨_, rfl, fun _ => rfl, by simp, by simp [or_comm, eq_comm]⟩

theorem Tallied.note {s : SeenMembers} (h : Tallied front s) (hnew : join m.path ∉ s.seenPaths)
    (hne : m.path ≠ []) :
    Tallied (front ++ [m]) ⟨s.seenPaths ++ [join m.path], noteMember m s.topLevels m.path⟩ := by
  have seen : ∀ x ∈ front ++ [m], x.path ≠ [] → join x.path ∈ s.seenPaths ++ [join m.path] := by
    intro x hx hx'
    rcases List.mem_append.mp hx with hx | hx
    · exact List.mem_append_left _ (h.seen x hx hx')
    · rw [List.mem_singleton.mp hx]
      exact List.mem_append_right _ (List.mem_singleton_self _)
  have distinct : (((front ++ [m]).map Member.path).filter (· ≠ [])).Nodup := by
    rw [List.map_append, List.filter_append, List.map_singleton,
      List.filter_cons_of_pos (by simpa using hne), List.filter_nil, List.nodup_append]
    refine ⟨h.distinct, List.nodup_singleton _, fun p hp q hq heq => ?_⟩
    rw [List.mem_singleton] at hq
    obtain ⟨hp, hpne⟩ := List.mem_filter.mp hp
    obtain ⟨x, hx, rfl⟩ := List.mem_map.mp hp
    refine hnew ?_
    rw [← hq, ← heq]
    exact h.seen x hx (by simpa using hpne)
  obtain ⟨top, rest, hp⟩ := List.exists_cons_of_ne_nil hne
  obtain ⟨f, hnote, hf, hroot, hchild⟩ := noteMember_cons s.topLevels hp
  rw [hnote]
  refine ⟨seen, distinct, nodup_names_updateTop hf h.nodup, fun t => ?_, fun t => ?_, fun t c => ?_⟩
  · rw [mem_names_updateTop hf, h.names, exists_mem_concat, hp]
    simp only [List.head?_cons, Option.some.injEq]
    exact or_comm.trans (or_congr_right eq_comm)
  · rw [entryOf_updateTop hf, exists_mem_concat, ← h.rootFile]
    by_cases ht : t = top
    · rw [if_pos ht, ht, hroot]
    · simp [ht, hp, Ne.symm ht]
  · rw [entryOf_updateTop hf, exists_mem_concat, ← h.children]
    by_cases ht : t = top
    · rw [if_pos ht, ht, hchild]
    · simp [ht, hp, Ne.symm ht]

theorem addMember_tallied {s s' : SeenMembers} (h : Tallied front s) (hs : addMember s m = .ok s') :
    Tallied (front ++ [m]) s' := by
  unfold addMember at hs
  split at hs
  · cases hs
  next cleaned hc =>
  have hjoin := cleaned_eq hc
  split_ifs at hs with hnil hseen
  · injection hs with hs
    subst hs
    have hp : m.path = [] := by
      rw [path_eq hc, hnil]
      exact elements_nil
    refine ⟨fun x hx hne => ?_, ?_, h.nodup, fun t => ?_, fun t => ?_, fun t c => ?_⟩
    · rcases List.mem_append.mp hx with hx | hx
      · exact h.seen x hx hne
      · exact absurd (List.mem_singleton.mp hx ▸ hp) hne
    · rw [List.map_append, List.filter_append, List.map_singleton, hp]
      simpa using h.distinct
    · rw [exists_mem_concat, hp, h.names]
      simp
    · rw [exists_mem_concat, hp, h.rootFile]
      simp
    · rw [exists_mem_concat, hp, h.children]
      simp
  · injection hs with hs
    subst hs
    have hne : m.path ≠ [] := fun hp => hnil (by rw [hjoin, hp]; rfl)
    rw [hjoin, splitOn_join_names (path_names m) hne]
    exact h.note (hjoin ▸ hseen) hne

variable {n : Nat}

theorem countTopLevels_ok {tops : List BuildArchiveTopLevel} (h : countTopLevels tops = .ok n) :
    tops.length = n ∧ ∀ e ∈ tops, e.rootFile = false ∧ dockerfileName ∈ e.children ∧
      metadataName ∈ e.children := by
  unfold countTopLevels at h
  dsimp only at h
  have perm := List.perm_insertionSort (fun a b : BuildArchiveTopLevel => ¬ b.name < a.name) tops
  generalize tops.insertionSort (fun a b => ¬ b.name < a.name) = sorted at h perm
  split_ifs at h with h₁ h₂ h₃ h₄
  injection h with h
  rw [not_not, List.map_eq_nil_iff, List.filter_eq_nil_iff] at h₂ h₃
  have root : ∀ e ∈ sorted, e.rootFile = false := fun e he => by simpa using h₂ e he
  have hdirs : sorted.filter (!·.rootFile) = sorted := by
    rw [List.filter_eq_self]
    exact fun e he => by simp [root e he]
  rw [hdirs] at h h₃
  have complete : ∀ e ∈ sorted, (e.hasDockerfile && e.hasMetadata) :=
    fun e he => by simpa using h₃ e he
  have hall : sorted.filter (fun e => e.hasDockerfile && e.hasMetadata) = sorted :=
    List.filter_eq_self.mpr complete
  rw [hall] at h
  refine ⟨perm.length_eq ▸ h, fun e he => ?_⟩
  have he := perm.mem_iff.mpr he
  have hc := complete e he
  rw [Bool.and_eq_true] at hc
  exact ⟨root e he, by simpa [BuildArchiveTopLevel.hasDockerfile] using hc.1,
    by simpa [BuildArchiveTopLevel.hasMetadata] using hc.2⟩

structure Counted (files : List Member) (n : Nat) : Prop where
  distinct : ((files.map Member.path).filter (· ≠ [])).Nodup
  count : (topNames files).length = n
  directories : ∀ m ∈ files, ∀ top, m.path = [top] → m.isDir
  required : ∀ top ∈ topNames files,
    (∃ m ∈ files, ∃ rest, m.path = top :: dockerfileName :: rest) ∧
      ∃ m ∈ files, ∃ rest, m.path = top :: metadataName :: rest

theorem countImages_counted (h : countImages files = .ok n) : Counted files n := by
  unfold countImages at h
  split at h
  · cases h
  next s hs =>
  have start : Tallied [] ⟨[], []⟩ :=
    ⟨by simp, by simp, by simp, by simp, by simp [entryOf], by simp [entryOf]⟩
  have tally : Tallied files s :=
    foldlM_invariant Tallied (fun front m s s' hi hm => addMember_tallied hi hm) start hs
  obtain ⟨hlen, hall⟩ := countTopLevels_ok h
  have hmem : ∀ t, t ∈ topNames files ↔ t ∈ s.topLevels.map (·.name) := by
    intro t
    rw [topNames, List.mem_dedup, List.mem_filterMap, tally.names]
  have entry : ∀ t ∈ topNames files, entryOf s.topLevels t ∈ s.topLevels := by
    intro t ht
    obtain ⟨e, he, rfl⟩ := List.mem_map.mp ((hmem t).mp ht)
    rwa [entryOf_mem tally.nodup he]
  refine ⟨tally.distinct, ?_, fun m hm top hp => ?_, fun top htop => ?_⟩
  · have perm : List.Perm (topNames files) (s.topLevels.map (·.name)) :=
      (List.perm_ext_iff_of_nodup (List.nodup_dedup _) tally.nodup).mpr hmem
    rw [perm.length_eq, List.length_map, hlen]
  · by_contra hdir
    have htop : top ∈ topNames files :=
      (hmem top).mpr ((tally.names top).mpr ⟨m, hm, by rw [hp]; rfl⟩)
    have hroot := (hall _ (entry top htop)).1
    rw [(tally.rootFile top).mpr ⟨m, hm, hp, by simpa using hdir⟩] at hroot
    cases hroot
  · have he := (hall _ (entry top htop)).2
    exact ⟨(tally.children top _).mp he.1, (tally.children top _).mp he.2⟩

theorem validateBuildArchive_facts {zip : ArchiveFile} {tr : History}
    (hopened : zip.opened = .ok files) (h : Returns (validateBuildArchive zip) tr (.ok n)) :
    Headed files ∧ Counted files n := by
  have meets : Meets defaultArchiveBudget.expandedBytes zip (validateBuildArchive zip) []
      fun n _ => Headed files ∧ Counted files n := by
    refine runs_attempt (validateBuildArchiveWithBudget_meets (by decide)) fun r h' u' hr => ?_
    cases r with
    | error e => exact trivial
    | ok k =>
      obtain ⟨_, _, hfiles, headed, hk, -⟩ := hr
      cases hopened.symm.trans hfiles
      exact meets_pure ⟨headed, countImages_counted hk⟩
  exact h.post meets

theorem isDir_of_isRegular (h : m.isRegular) : m.isDir = false := by
  simp only [Member.isRegular, Bool.and_eq_true, beq_iff_eq, bne_iff_ne] at h
  simp [Member.isDir, h.1, h.2]

theorem mem_topNames (hm : m ∈ files) (hp : m.path = top :: rest) : top ∈ topNames files := by
  rw [topNames, List.mem_dedup, List.mem_filterMap]
  exact ⟨m, hm, by rw [hp]; rfl⟩

/-- A required child that is not the parent of another member is a regular file within its limit. -/
theorem required_regular (headed : Headed files) {name : Element} {limit : Nat} {e : Err}
    (hlimit : requiredLimit [top, name] = some (limit, e))
    (hleaf : ∀ m ∈ files, ¬ Below [top, name] m.path)
    (h : ∃ m ∈ files, ∃ rest, m.path = top :: name :: rest) :
    ∃ m ∈ files, m.path = [top, name] ∧ m.isRegular ∧ m.uncompressedSize64 ≤ limit := by
  obtain ⟨m, hm, rest, hp⟩ := h
  have hrest : m.path = [top, name] := by
    cases rest with
    | nil => exact hp
    | cons s rest =>
      exact absurd ⟨⟨s :: rest, by rw [hp]; rfl⟩, by simp [hp]⟩ (hleaf m hm)
  exact ⟨m, hm, hrest, headed.limits m hm limit e (hrest ▸ hlimit)⟩

theorem wellFormed_of_unnested (headed : Headed files) (counted : Counted files n)
    (h : Unnested files) : WellFormed files n where
  located := h.named
  directories := counted.directories
  count := counted.count
  dockerfile top htop := required_regular headed (requiredLimit_dockerfile top)
    (fun m hm => (h.required m hm top).1) (counted.required top htop).1
  metadata top htop := required_regular headed (requiredLimit_metadata top)
    (fun m hm => (h.required m hm top).2) (counted.required top htop).2
  fileParents m hm hdir m' hm' := by
    by_cases hlink : m.isSymlink = true
    · exact headed.parents m hm hlink (h.named m hm) m' hm'
    · by_cases hlen : 2 ≤ m.path.length
      · exact h.leaf m hm hdir (by simpa using hlink) hlen m' hm'
      · -- a file at the top level is refused
        have hone : m.path.length = 1 := by
          have := List.length_pos_iff.mpr (h.named m hm)
          omega
        obtain ⟨top, htop⟩ := List.length_eq_one_iff.mp hone
        rw [counted.directories m hm top htop] at hdir
        cases hdir
  distinct := by
    have hall : (files.map Member.path).filter (· ≠ []) = files.map Member.path := by
      rw [List.filter_eq_self]
      intro p hp
      obtain ⟨m, hm, rfl⟩ := List.mem_map.mp hp
      simpa using h.named m hm
    exact hall ▸ counted.distinct

theorem unnested_of_wellFormed (h : WellFormed files n) : Unnested files where
  named := h.located
  leaf m hm hdir _ _ := h.fileParents m hm hdir
  required m hm top := by
    have top_mem : ∀ name, Below [top, name] m.path → top ∈ topNames files := by
      rintro name ⟨⟨rest, hrest⟩, -⟩
      exact mem_topNames hm hrest.symm
    constructor
    · intro below
      obtain ⟨m', hm', hp, hreg, -⟩ := h.dockerfile top (top_mem _ below)
      exact h.fileParents m' hm' (isDir_of_isRegular hreg) m hm (hp ▸ below)
    · intro below
      obtain ⟨m', hm', hp, hreg, -⟩ := h.metadata top (top_mem _ below)
      exact h.fileParents m' hm' (isDir_of_isRegular hreg) m hm (hp ▸ below)

/-- A validated archive has the structure that validation stands for exactly when no member has an
empty path or lies below a file. -/
theorem validated_wellFormed_iff (zip : ArchiveFile) (files : List Member) (tr : History) (n : Nat)
    (opened : zip.opened = .ok files) (returned : Returns (validateBuildArchive zip) tr (.ok n)) :
    WellFormed files n ↔ Unnested files := by
  obtain ⟨headed, counted⟩ := validateBuildArchive_facts opened returned
  exact ⟨unnested_of_wellFormed, wellFormed_of_unnested headed counted⟩

def answers (link : List Char) (_ : History) : (q : Request) → Answer q
  | .arith _ => ()
  | .copy _ _ => ⟨0, 0, none, Nat.zero_le _, Nat.le_refl _, fun _ => rfl⟩
  | .readAll _ limit =>
    if h : textSize link ≤ limit.toNat then ⟨link, none, h⟩ else ⟨[], none, Nat.zero_le _⟩
  | .remove _ => some (.outside true "no such file or directory")
  | .openMember _ | .closeMember _ | .stage | .mkdirAll _ | .symlink _ _ | .openFile _
  | .closeFile | .rename => none

theorem returns_play {p : Work α} {r : Except Err α} (link : List Char)
    (h : ((p.run.run ()).play (answers link) []).2 = (r, ())) :
    Returns p ((p.run.run ()).play (answers link) []).1 r := by
  obtain ⟨tr, htr, hend⟩ := Prog.ends_play (answers link) (p.run.run ()) []
  rw [h] at hend
  rw [List.nil_append] at htr
  rw [htr]
  exact hend

def fileWithChild : List Member :=
  [⟨['i', '/'] ++ dockerfileName, .regular, 0⟩, ⟨['i', '/'] ++ metadataName, .regular, 0⟩,
    ⟨['i', '/', 'a'], .regular, 0⟩, ⟨['i', '/', 'a', '/', 'b'], .regular, 0⟩]

theorem fileWithChild_validated :
    (∃ tr, Returns (validateBuildArchive ⟨headersOnly 4, .ok fileWithChild⟩) tr (.ok 1)) ∧
      ¬ WellFormed fileWithChild 1 := by
  refine ⟨⟨_, returns_play [] (by decide +kernel)⟩, fun h => ?_⟩
  refine h.fileParents ⟨['i', '/', 'a'], .regular, 0⟩ (by decide +kernel) (by decide +kernel)
    ⟨['i', '/', 'a', '/', 'b'], .regular, 0⟩ (by decide +kernel) ?_
  unfold Below
  decide +kernel

theorem oneImage_unnested : Unnested oneImage := by
  have flat : ∀ m ∈ oneImage, m.path.length = 2 := by decide +kernel
  refine ⟨fun m hm hp => ?_, fun m hm _ _ _ m' hm' below => ?_, fun m hm top => ⟨?_, ?_⟩⟩
  · have := flat m hm
    rw [hp] at this
    cases this
  · have := below_length below
    rw [flat m hm, flat m' hm'] at this
    omega
  · intro below
    have := below_length below
    rw [flat m hm] at this
    simp at this
  · intro below
    have := below_length below
    rw [flat m hm] at this
    simp at this

theorem validated_wellFormed_iff_oneImage :
    (∃ tr, Returns (validateBuildArchive ⟨headersOnly 2, .ok oneImage⟩) tr (.ok 1)) ∧
      WellFormed oneImage 1 := by
  have returned : ∃ tr, Returns (validateBuildArchive ⟨headersOnly 2, .ok oneImage⟩) tr (.ok 1) :=
    ⟨_, returns_play [] (by decide +kernel)⟩
  obtain ⟨tr, htr⟩ := returned
  exact ⟨⟨tr, htr⟩, (validated_wellFormed_iff _ oneImage tr 1 rfl htr).mpr oneImage_unnested⟩

end KovaService.Archive
