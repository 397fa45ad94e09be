import KovaService.Archive.Extract

/-!
The expansion budget.

Validation and extraction are careful with every member, and that follows from one account: what has
been read so far is the number of bytes that the code itself has counted.
-/

namespace KovaService.Archive

open Lib Lib.Path Exec

variable {m : Member} {budget : ArchiveBudget} {expanded b : Nat} {h : History} {t : Transfer}
  {zip : ArchiveFile}

def elementsSize (l : List Element) : Nat := (l.map fun s => textSize s + 1).sum

theorem textSize_append (p q : List Char) : textSize (p ++ q) = textSize p + textSize q := by
  simp [textSize]

theorem textSize_join {l : List Element} (hne : l ≠ []) :
    textSize (join l) + 1 = elementsSize l := by
  induction l with
  | nil => exact absurd rfl hne
  | cons s l ih =>
    cases l with
    | nil => simp [join, List.intercalate, elementsSize]
    | cons t l =>
      have hj : join (s :: t :: l) = s ++ '/' :: join (t :: l) := by
        simp [join, List.intercalate]
      have ih := ih (by simp)
      have slash : textSize ('/' :: join (t :: l)) = 1 + textSize (join (t :: l)) := by
        simp [textSize]
        rfl
      rw [hj, textSize_append, slash]
      simp only [elementsSize, List.map_cons, List.sum_cons] at ih ⊢
      omega

theorem elementsSize_cons (s : Element) (l : List Element) :
    elementsSize (s :: l) = textSize s + 1 + elementsSize l := by
  simp [elementsSize]

theorem elementsSize_push (rooted : Bool) (out : List Element) (s : Element) :
    elementsSize (push rooted out s) ≤ elementsSize out + (textSize s + 1) := by
  by_cases hskip : s = [] ∨ s = dot
  · rw [push_skip hskip]
    exact Nat.le_add_right _ _
  · unfold push
    rw [if_neg hskip]
    by_cases hdd : s = dotdot
    · subst hdd
      rw [if_pos rfl]
      cases out with
      | nil => cases rooted <;> simp [elementsSize]
      | cons top rest =>
        dsimp only
        split_ifs
        · simp only [elementsSize_cons]
          omega
        · simp only [elementsSize_cons]
          omega
    · rw [if_neg hdd, elementsSize_cons]
      omega

theorem elementsSize_foldl (rooted : Bool) (l out : List Element) :
    elementsSize (l.foldl (push rooted) out) ≤ elementsSize out + elementsSize l := by
  induction l generalizing out with
  | nil => exact Nat.le_add_right _ _
  | cons s l ih =>
    have h₁ := elementsSize_push rooted out s
    have h₂ := ih (push rooted out s)
    rw [List.foldl_cons, elementsSize_cons]
    omega

theorem elementsSize_normalize (rooted : Bool) (l : List Element) :
    elementsSize (normalize rooted l) ≤ elementsSize l := by
  have h := elementsSize_foldl rooted l []
  have hr : ∀ l : List Element, elementsSize l.reverse = elementsSize l := by
    intro l
    rw [elementsSize, List.map_reverse, List.sum_reverse]
    rfl
  rw [Path.normalize, hr]
  simpa [elementsSize] using h

variable {p : List Char}

theorem textSize_pos (h : p ≠ []) : 0 < textSize p := by
  cases p with
  | nil => exact absurd rfl h
  | cons c p =>
    have := Char.utf8Size_pos c
    simp only [textSize, List.map_cons, List.sum_cons]
    omega

theorem textSize_clean (hne : p ≠ []) (h : p.head? ≠ some '/') :
    textSize (clean p) ≤ textSize p := by
  rw [clean_relative h]
  split
  · exact textSize_pos hne
  · next hnil =>
    have h₁ := textSize_join hnil
    have h₂ := elementsSize_normalize false (p.splitOn '/')
    have h₃ := textSize_join (List.splitOn_ne_nil '/' p)
    rw [join, List.intercalate_splitOn] at h₃
    omega

theorem textSize_sublist {q : List Char} (h : p.Sublist q) : textSize p ≤ textSize q := by
  induction h with
  | slnil => exact Nat.le_refl _
  | cons c _ ih =>
    simp only [textSize, List.map_cons, List.sum_cons] at ih ⊢
    omega
  | cons_cons c _ ih =>
    simp only [textSize, List.map_cons, List.sum_cons] at ih ⊢
    omega

theorem textSize_trim (p : List Char) : textSize (Text.trim p) ≤ textSize p := by
  have front : (p.dropWhile Text.isSpace).Sublist p := List.dropWhile_sublist _
  have back := (List.dropWhile_sublist Text.isSpace (l := (p.dropWhile Text.isSpace).reverse)).reverse
  rw [List.reverse_reverse] at back
  exact textSize_sublist (back.trans front)

theorem textSize_unslash (p : List Char) : textSize (unslash p) = textSize p := by
  rw [textSize, unslash, List.map_map, textSize]
  congr 1
  refine List.map_congr_left fun c _ => ?_
  by_cases hc : c = '\\'
  · subst hc
    rfl
  · simp [hc]

theorem resolveArchiveSymlinkTarget_size {name target safe : List Char}
    (h : resolveArchiveSymlinkTarget name target = .ok safe) : textSize safe ≤ textSize target := by
  have hsize : textSize (unslash (Text.trim target)) ≤ textSize target :=
    textSize_unslash (Text.trim target) ▸ textSize_trim target
  unfold resolveArchiveSymlinkTarget at h
  dsimp only at h
  generalize unslash (Text.trim target) = normalized at h hsize
  split_ifs at h with h₁ h₂ h₃
  injection h with h
  exact h ▸ (textSize_clean h₁ h₂).trans hsize

def WithinLimits (t : Transfer) : Prop :=
  ∀ x ∈ t.copies, ∀ n e, requiredLimit x.1.path = some (n, e) → x.2 ≤ n

/-- The code has counted every byte that was read. -/
structure Account (b : Nat) (t : Transfer) (expanded : Nat) : Prop where
  read : t.read = expanded
  written : t.written ≤ expanded
  within : expanded ≤ b
  limits : WithinLimits t

abbrev Accounts (b : Nat) (zip : ArchiveFile) (p : Work Nat) (h : History) : Prop :=
  Meets b zip p h fun expanded h' => Account b (transferred h') expanded

theorem capped_le (limit : Option (Nat × Err)) (remaining : Nat) :
    capped limit remaining ≤ remaining := by
  unfold capped
  split
  · split_ifs <;> omega
  · exact Nat.le_refl _

theorem capped_le_limit (n : Nat) (e : Err) (remaining : Nat) :
    capped (some (n, e)) remaining ≤ n := by
  unfold capped
  dsimp only
  split_ifs <;> omega

variable {cleaned : List Char}

theorem Account.copied (h : Account b t expanded)
    (hc : validateBuildArchivePath m.name = .ok cleaned) {remaining : Nat}
    (hrem : remaining = capped (requiredBuildFileLimit cleaned) (b - expanded))
    (c : Copied (remaining + 1))
    (hok : (if remaining < c.written then some Err.expandedTooLarge else c.err) = none) :
    expanded + c.written ≤ b ∧
      Account b (t.note ⟨.copy m (remaining + 1), c⟩) (expanded + c.written) := by
  have hle : c.written ≤ remaining := by
    by_contra hlt
    rw [if_pos (by omega)] at hok
    cases hok
  rw [if_neg (by omega)] at hok
  have hfull := c.complete hok
  have hcap := capped_le (requiredBuildFileLimit cleaned) (b - expanded)
  have hw := h.within
  have hwritten := h.written
  have hsum : expanded + c.written ≤ b := by omega
  refine ⟨hsum, ?_, ?_, hsum, ?_⟩
  · change t.read + c.read = _
    rw [h.read, hfull]
  · change t.written + c.written ≤ _
    omega
  · intro x hx n e hl
    rcases List.mem_append.mp hx with hx | hx
    · exact h.limits x hx n e hl
    · rw [List.mem_singleton.mp hx] at hl ⊢
      rw [requiredBuildFileLimit_eq hc, hl] at hrem
      have := capped_le_limit n e (b - expanded)
      dsimp only
      omega

/-- A copy within what the budget and the limit of the file have left, and the sum after it. -/
theorem copyExpanded_accounts (hb : b ≤ 2 ^ 62)
    (hc : validateBuildArchivePath m.name = .ok cleaned) (ha : Account b (transferred h) expanded)
    {k : Nat × Option Err → Work Nat}
    (hk : ∀ copied h', (∀ h'', transferred h'' = transferred h' → copied.2 = none →
      Accounts b zip (toUInt64 copied.1 >>= add64 expanded) h'') → Accounts b zip (k copied) h') :
    Accounts b zip
      (copyExpanded m (capped (requiredBuildFileLimit cleaned) (b - expanded)) >>= k) h := by
  have hcap := capped_le (requiredBuildFileLimit cleaned) (b - expanded)
  generalize hrem : capped (requiredBuildFileLimit cleaned) (b - expanded) = remaining at hcap ⊢
  have hw := ha.within
  have hwritten := ha.written
  refine meets_bind (show Meets b zip _ h fun copied h' => ∃ c : Copied (remaining + 1),
    copied = (c.written, if remaining < c.written then some .expandedTooLarge else c.err) ∧
      transferred h' = (transferred h).note ⟨.copy m (remaining + 1), c⟩ from ?_) ?_
  · refine meets_toInt64 (by omega) fun h₁ t₁ => ?_
    refine meets_addInt64 (by omega) (by omega) fun h₂ t₂ => ?_
    have ht := t₂.trans t₁
    refine meets_request ?_ fun c => ?_
    · change (transferred h₂).read + _ ≤ _ ∧ (transferred h₂).written + _ ≤ _
      rw [ht, ha.read]
      omega
    · have hlt : (c : Copied (remaining + 1)).written < 2 ^ 64 := by
        have h₃ := (c : Copied (remaining + 1)).written_le
        have h₄ := (c : Copied (remaining + 1)).read_le
        omega
      refine meets_toUInt64 hlt fun h₃ t₃ => meets_pure ⟨c, rfl, ?_⟩
      rw [t₃, transferred_append, ht]
  · rintro _ h₁ ⟨c, rfl, t₁⟩
    refine hk _ _ fun h₂ t₂ hok => ?_
    obtain ⟨hsum, account⟩ := ha.copied hc hrem.symm c hok
    refine meets_toUInt64 (by omega) fun h₃ t₃ => meets_add64_last (by omega) fun h₄ t₄ => ?_
    rwa [t₄, t₃, t₂, t₁]

theorem validateMember_accounts (hb : b ≤ 2 ^ 62) (ha : Account b (transferred h) expanded) :
    Accounts b zip (validateMember b expanded m) h := by
  unfold validateMember
  split_ifs
  · exact meets_pure ha
  · have hw := ha.within
    refine meets_ofExcept fun cleaned hc => ?_
    refine meets_sub64 ha.within (by omega) fun h₁ t₁ => ?_
    refine meets_quiet rfl fun opened h₂ t₂ => meets_orFail fun _ => ?_
    refine copyExpanded_accounts hb hc (t₂.trans t₁ ▸ ha) fun copied h₃ done => ?_
    refine meets_quiet rfl fun closeErr h₄ t₄ => ?_
    refine meets_orFail fun hok => meets_orFail fun _ => ?_
    exact done h₄ t₄ (Option.map_eq_none_iff.mp hok)

theorem extractFile_accounts (hb : b ≤ 2 ^ 62) (hc : validateBuildArchivePath m.name = .ok cleaned)
    (ha : Account b (transferred h) expanded) :
    Accounts b zip (extractFile b expanded m cleaned) h := by
  have hw := ha.within
  refine meets_quiet rfl fun made h₁ t₁ => meets_orFail fun _ => ?_
  refine meets_quiet rfl fun out h₂ t₂ => meets_orFail fun _ => ?_
  refine meets_quiet rfl fun opened h₃ t₃ => ?_
  cases opened with
  | some e => exact meets_quiet rfl fun _ _ _ => guarded_throw trivial
  | none =>
    refine meets_sub64 ha.within (by omega) fun h₄ t₄ => ?_
    have ht := t₄.trans (t₃.trans (t₂.trans t₁))
    refine copyExpanded_accounts hb hc (ht ▸ ha) fun copied h₅ done => ?_
    refine meets_quiet rfl fun closeReadErr h₆ t₆ => ?_
    refine meets_quiet rfl fun closeWriteErr h₇ t₇ => ?_
    refine meets_orFail fun hok => meets_orFail fun _ => meets_orFail fun _ => ?_
    exact done h₇ (t₇.trans t₆) (Option.map_eq_none_iff.mp hok)

theorem extractSymlink_accounts (hb : b ≤ 2 ^ 62) (ha : Account b (transferred h) expanded)
    {files : List Member} (hopened : zip.opened = .ok files) (hm : m ∈ files) (hlink : m.isSymlink)
    (hne : cleaned ≠ []) (hc : validateBuildArchivePath m.name = .ok cleaned) :
    Accounts b zip (extractSymlink b expanded m cleaned) h := by
  have hw := ha.within
  refine meets_failIf fun _ => ?_
  refine meets_quiet rfl fun opened h₁ t₁ => meets_orFail fun _ => ?_
  refine meets_sub64 ha.within (by omega) fun h₂ t₂ => ?_
  refine meets_add64 (by omega) fun h₃ t₃ => ?_
  -- one byte more than the budget has left, or than a link may have
  have hlimit : (if b - expanded + 1 < maxArchiveSymlinkTargetBytes + 1 then b - expanded + 1
      else maxArchiveSymlinkTargetBytes + 1) ≤ b - expanded + 1 := by
    split_ifs <;> omega
  generalize (if b - expanded + 1 < maxArchiveSymlinkTargetBytes + 1 then b - expanded + 1
      else maxArchiveSymlinkTargetBytes + 1) = limit at hlimit ⊢
  refine meets_toInt64 (by omega) fun h₄ t₄ => ?_
  have ht := t₄.trans (t₃.trans (t₂.trans t₁))
  refine meets_request ?_ fun r => ?_
  · change (transferred h₄).read + _ ≤ _
    rw [ht, ha.read]
    omega
  have hsize := (r : ReadText limit).size_le
  refine meets_quiet rfl fun closeErr h₅ t₅ => meets_orFail fun _ => ?_
  refine meets_toUInt64 (by omega) fun h₆ t₆ => ?_
  refine meets_sub64 ha.within (by omega) fun h₇ t₇ => ?_
  refine meets_failIf fun hleft => meets_failIf fun _ => meets_orFail fun _ => ?_
  have hleft : textSize (r : ReadText limit).text ≤ b - expanded := by simpa using hleft
  refine meets_add64 (by omega) fun h₈ t₈ => ?_
  refine meets_ofExcept fun safe hsafe => ?_
  have hshort := resolveArchiveSymlinkTarget_size hsafe
  refine meets_quiet rfl fun made h₉ t₉ => meets_orFail fun _ => ?_
  refine meets_quiet rfl fun removed h₁₀ t₁₀ => meets_orFail fun _ => ?_
  have hread : transferred h₁₀ = (transferred h).note ⟨.readAll m limit, r⟩ := by
    rw [t₁₀, t₉, t₈, t₇, t₆, t₅, transferred_append, ht]
  have hwritten := ha.written
  refine meets_request ⟨?_, files, m, _, hopened, hm, hlink, hne, hc, hsafe⟩ fun linked => ?_
  · rw [hread]
    change (transferred h).written + _ ≤ _
    omega
  refine meets_orFail fun _ => meets_pure ?_
  rw [transferred_append, hread]
  refine ⟨?_, ?_, by omega, ha.limits⟩
  · change (transferred h).read + textSize (r : ReadText limit).text = _
    rw [ha.read]
  · change (transferred h).written + textSize safe ≤ _
    omega

theorem extractMember_accounts (hb : b ≤ 2 ^ 62) (ha : Account b (transferred h) expanded)
    {files : List Member} (hopened : zip.opened = .ok files) (hm : m ∈ files) :
    Accounts b zip (extractMember b expanded m) h := by
  refine meets_ofExcept fun cleaned hc => ?_
  split_ifs with hnil hdir hlink
  · exact meets_pure ha
  · exact meets_quiet rfl fun made h₁ t₁ => meets_orFail fun _ => meets_pure (t₁ ▸ ha)
  · exact extractSymlink_accounts hb ha hopened hm hlink hnil hc
  · exact extractFile_accounts hb hc ha

theorem account_start (b : Nat) : Account b ⟨0, 0, []⟩ 0 :=
  ⟨rfl, Nat.le_refl _, Nat.zero_le _, by simp [WithinLimits]⟩

theorem foldlM_accounts {f : Nat → Member → Work Nat} {files : List Member}
    (hf : ∀ expanded, ∀ m ∈ files, ∀ h, Account b (transferred h) expanded →
      Accounts b zip (f expanded m) h) (ht : transferred h = ⟨0, 0, []⟩) :
    Accounts b zip (files.foldlM f 0) h :=
  meets_foldlM (fun _ expanded h' => Account b (transferred h') expanded)
    (fun _ m _ hl expanded h' ha => hf expanded m (hl ▸ by simp) h' ha) (ht ▸ account_start b)

/-- Both programs begin with the limits of the file and the headers of its members. -/
theorem meets_opened {α : Type} {k : List Member → Work α} {Post : α → History → Prop}
    (hb : budget.expandedBytes ≤ 2 ^ 62)
    (hk : ∀ files h, zip.opened = .ok files → Headed files → transferred h = ⟨0, 0, []⟩ →
      Meets b zip (k files) h Post) :
    Meets b zip (do
      failIf (budget.compressedBytes < zip.bytes.length) .archiveTooLarge
      ofExcept ((checkZipEntryCount zip.bytes budget.entries).mapError ofZipError)
      let files ← ofExcept zip.opened
      checkArchiveHeaders files budget
      k files) [] Post := by
  refine meets_failIf fun _ => meets_ofExcept fun _ _ => meets_ofExcept fun files hopened => ?_
  exact meets_bind (checkArchiveHeaders_meets hb files) fun _ h hh => hk files h hopened hh.1 hh.2

theorem validateBuildArchiveWithBudget_meets (hb : budget.expandedBytes ≤ 2 ^ 62) :
    Meets budget.expandedBytes zip (validateBuildArchiveWithBudget zip budget) [] fun n h =>
      ∃ files expanded, zip.opened = .ok files ∧ Headed files ∧ countImages files = .ok n ∧
        Account budget.expandedBytes (transferred h) expanded := by
  refine meets_opened hb fun files h₁ hopened headed t₁ => meets_ofExcept fun n hn => ?_
  refine meets_bind (foldlM_accounts (fun _ _ _ _ => validateMember_accounts hb) t₁)
    fun expanded h₂ account => ?_
  exact meets_pure ⟨files, expanded, hopened, headed, hn, account⟩

theorem extractZipWithBudget_meets (hb : budget.expandedBytes ≤ 2 ^ 62) :
    Meets budget.expandedBytes zip (extractZipWithBudget zip budget) [] fun _ h =>
      ∃ files expanded, zip.opened = .ok files ∧ Headed files ∧
        Account budget.expandedBytes (transferred h) expanded := by
  refine meets_opened hb fun files h₁ hopened headed t₁ => ?_
  refine meets_quiet rfl fun staged h₂ t₂ => meets_orFail fun _ => ?_
  refine meets_bind (foldlM_accounts (fun _ _ hm _ ha => extractMember_accounts hb ha hopened hm)
    (t₂.trans t₁)) fun expanded h₃ account => ?_
  refine meets_quiet rfl fun renamed h₄ t₄ => ?_
  cases renamed with
  | some e => exact trivial
  | none => exact meets_pure ⟨files, expanded, hopened, headed, t₄ ▸ account⟩

/-- The promise of a whole run: it reads and writes at most one byte over the budget, no operation
wraps around, and a run that succeeds has kept to the budget and to the limits of the required
files. -/
structure WithinBudget {α : Type} (b : Nat) (p : Work α) : Prop where
  bounded : ∀ tr, (p.run.run ()).Plays tr →
    (transferred tr).read ≤ b + 1 ∧ (transferred tr).written ≤ b + 1
  exact : ∀ tr, (p.run.run ()).Plays tr → ∀ op, ⟨.arith op, ()⟩ ∈ tr → op.Exact
  succeeded : ∀ tr a, Returns p tr (.ok a) → (transferred tr).read ≤ b ∧
    (transferred tr).written ≤ b ∧ WithinLimits (transferred tr)

theorem Meets.withinBudget {α : Type} {p : Work α} {Post : α → History → Prop}
    (hp : Meets b zip p [] Post)
    (hP : ∀ a h, Post a h → ∃ expanded, Account b (transferred h) expanded) :
    WithinBudget b p where
  bounded _ h := hp.bounded h
  exact tr h op hop := by
    obtain ⟨_, hexact⟩ := hp.issued h hop
    exact hexact
  succeeded tr a h := by
    obtain ⟨expanded, account⟩ := hP a tr (h.post hp)
    have hw := account.within
    have hwritten := account.written
    have hread := account.read
    exact ⟨by omega, by omega, account.limits⟩

/-- Validation and extraction keep within the expansion budget. -/
theorem expansion_within_budget (zip : ArchiveFile) (budget : ArchiveBudget)
    (hb : budget.expandedBytes ≤ 2 ^ 62) :
    WithinBudget budget.expandedBytes (validateBuildArchiveWithBudget zip budget) ∧
      WithinBudget budget.expandedBytes (extractZipWithBudget zip budget) :=
  ⟨(validateBuildArchiveWithBudget_meets hb).withinBudget fun _ _ ⟨_, expanded, _, _, _, account⟩ =>
      ⟨expanded, account⟩,
    (extractZipWithBudget_meets hb).withinBudget fun _ _ ⟨_, expanded, _, _, account⟩ =>
      ⟨expanded, account⟩⟩

def headersOnly (n : UInt8) : List UInt8 :=
  (List.replicate n.toNat ([0x50, 0x4b, 0x01, 0x02] ++ List.replicate 42 0)).flatten ++
    [0x50, 0x4b, 0x05, 0x06, 0, 0, 0, 0, n, 0, n, 0, 46 * n, 0, 0, 0, 0, 0, 0, 0, 0, 0]

def oneImage : List Member :=
  [⟨['i', '/'] ++ dockerfileName, .regular, 0⟩, ⟨['i', '/'] ++ metadataName, .regular, 0⟩]

theorem expansion_within_budget_default :
    defaultArchiveBudget.expandedBytes ≤ 2 ^ 62 ∧
      WithinBudget (2 * 2 ^ 30)
        (extractZipWithBudget ⟨headersOnly 2, .ok oneImage⟩ defaultArchiveBudget) :=
  ⟨by decide, (expansion_within_budget ⟨headersOnly 2, .ok oneImage⟩ defaultArchiveBudget
    (by decide)).2⟩

end KovaService.Archive
