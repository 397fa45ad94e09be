import KovaService.Controller.Results
import KovaService.Lib.Contract

/-!
Where the references that a build derives from its targets have to fit: the reference grammar, a
result image of the custom resource, and a key of the result database.

`NormalizeTarget` bounds what the caller sends.  The suffix of a Nydus output comes afterwards.  The
grammar belongs to the container registry library; `ReferenceGrammar` is what is assumed of it.
-/

namespace KovaService.Outputs

open Lib Api Ledger Controller

/-- The CRD bound on a result image, and the bound of the result database on a key. -/
def maxImageLength : Nat := 512

def maxKeyLength : Nat := 511

def Valid (x : Library) (reference : String) : Prop := ∃ n, x.newTag true reference = .ok n

/-- A strictly valid reference is a name, a colon and a tag of at most 128 characters; it stays valid
with another tag, and normalizing adds no white space. -/
structure ReferenceGrammar (x : Library) : Prop where
  tagged : ∀ {r}, Valid x r →
    validTag (tagOf r) ∧ ∃ base, r = base ++ ":" ++ String.ofList (tagOf r)
  retag : ∀ {base : String} {tag tag' : List Char}, validTag tag → validTag tag' →
    Valid x (base ++ ":" ++ String.ofList tag) → Valid x (base ++ ":" ++ String.ofList tag')
  trimmed : ∀ {value n}, Text.trimSpace value = value → x.newTag false value = .ok n →
    Valid x n → Text.trimSpace n = n

variable {x : Library}

theorem tagChars_plain {c : Char} (h : tagChars.contains c) : c ≠ ':' := by
  rintro rfl
  revert h
  decide

theorem tagOf_append {t suffix : String} (h : suffix.toList.all tagChars.contains) :
    tagOf (t ++ suffix) = tagOf t ++ suffix.toList := by
  have hplain : ∀ c ∈ suffix.toList.reverse, (c != ':') := by
    intro c hc
    simpa using tagChars_plain (List.all_eq_true.mp h c (List.mem_reverse.mp hc))
  rw [tagOf, String.toList_append, List.reverse_append, List.takeWhile_append_of_pos hplain,
    List.reverse_append, List.reverse_reverse, tagOf]

theorem validTag_iff {tag : List Char} : validTag tag ↔
    1 ≤ tag.length ∧ tag.length ≤ 128 ∧ tag.all tagChars.contains := by
  simp [validTag, and_assoc]

/-- Appending to the tag of a strictly valid reference. -/
theorem valid_append (hg : ReferenceGrammar x) {t suffix : String} (h : Valid x t)
    (hs : suffix.toList.all tagChars.contains) :
    Valid x (t ++ suffix) ↔ (tagOf t).length + suffix.length ≤ 128 := by
  obtain ⟨hvalid, base, hbase⟩ := hg.tagged h
  obtain ⟨hlow, -, hall⟩ := validTag_iff.mp hvalid
  constructor
  · intro happend
    have hlen := (validTag_iff.mp (hg.tagged happend).1).2.1
    rwa [tagOf_append hs, List.length_append, String.length_toList] at hlen
  · intro hlen
    have hvalid' : validTag (tagOf t ++ suffix.toList) := by
      rw [validTag_iff, List.length_append, String.length_toList, List.all_append, hall, hs]
      exact ⟨by omega, hlen, rfl⟩
    have hsame : t ++ suffix = base ++ ":" ++ String.ofList (tagOf t ++ suffix.toList) := by
      rw [String.ofList_append, String.ofList_toList, ← String.append_assoc, ← hbase]
    rw [hsame]
    exact hg.retag hvalid hvalid' (hbase ▸ h)

/-- What is known of an accepted logical target. -/
structure Logical (x : Library) (t : String) : Prop where
  reference : Valid x t
  nonempty : t ≠ ""
  trimmed : Text.trimSpace t = t
  plain : hasSuffix t nydusV3TargetSuffix = false

theorem normalizeTarget_ok (hg : ReferenceGrammar x) {raw t : String}
    (h : normalizeTarget x raw = .ok t) : Valid x t ∧ Text.trimSpace t = t := by
  unfold normalizeTarget at h
  dsimp only at h
  iterate 6
    split at h
    · cases h
  split at h
  · cases h
  next n hn =>
  split at h
  · cases h
  next n' hn' =>
  cases h
  exact ⟨⟨n', hn'⟩, hg.trimmed (Text.trimSpace_trimSpace raw) hn ⟨n', hn'⟩⟩

theorem normalizeLogicalTarget_ok (hg : ReferenceGrammar x) {raw t : String}
    (h : normalizeLogicalTarget x raw = .ok t) : Logical x t := by
  unfold normalizeLogicalTarget at h
  obtain ⟨target, htarget, h⟩ := bind_ok h
  obtain ⟨_, hsuffix, h⟩ := bind_ok h
  cases h
  obtain ⟨hvalid, htrim⟩ := normalizeTarget_ok hg htarget
  refine ⟨hvalid, ?_, htrim, rejectIf_ok hsuffix⟩
  rintro rfl
  have htag := (hg.tagged hvalid).1
  revert htag
  decide

theorem normalizeTargets_ok (hg : ReferenceGrammar x) {values specs : List TargetSpec}
    {seen : List String} (h : normalizeTargets x values seen = .ok specs) :
    (specs.map TargetSpec.target).Nodup ∧ ∀ s ∈ specs, s.target ∉ seen ∧ Logical x s.target := by
  induction values generalizing seen specs with
  | nil =>
    cases h
    simp
  | cons value rest ih =>
    unfold normalizeTargets at h
    obtain ⟨target, htarget, h⟩ := bind_ok h
    obtain ⟨platform, -, h⟩ := bind_ok h
    obtain ⟨_, hseen, h⟩ := bind_ok h
    obtain ⟨rest', hrest, h⟩ := bind_ok h
    cases h
    obtain ⟨hnodup, hall⟩ := ih hrest
    have hnew : target ∉ seen := by simpa using rejectIf_ok hseen
    constructor
    · rw [List.map_cons, List.nodup_cons]
      refine ⟨fun hmem => ?_, hnodup⟩
      obtain ⟨s, hs, he⟩ := List.mem_map.mp hmem
      exact (hall s hs).1 (he ▸ List.mem_cons_self)
    · intro s hs
      rcases List.mem_cons.mp hs with rfl | hs
      · exact ⟨hnew, normalizeLogicalTarget_ok hg htarget⟩
      · exact ⟨fun hmem => (hall s hs).1 (List.mem_cons_of_mem _ hmem), (hall s hs).2⟩

theorem normalizeTargetSpecs_ok (hg : ReferenceGrammar x) {values targets : List TargetSpec}
    (h : normalizeTargetSpecs x values = .ok targets) :
    (targets.map TargetSpec.target).Nodup ∧ ∀ t ∈ targets, Logical x t.target := by
  unfold normalizeTargetSpecs at h
  obtain ⟨_, -, h⟩ := bind_ok h
  obtain ⟨specs, hspecs, h⟩ := bind_ok h
  cases h
  obtain ⟨hnodup, hall⟩ := normalizeTargets_ok hg hspecs
  have hperm := List.perm_insertionSort (fun a b => targetLess b a = false) specs
  exact ⟨(hperm.map _).nodup_iff.mpr hnodup, fun t ht => (hall t (hperm.mem_iff.mp ht)).2⟩

variable {t : String}

theorem Logical.strip (h : Logical x t) : stripNydusV3Suffix t = t := by
  rw [stripNydusV3Suffix, h.trimmed, trimSuffix, h.plain]
  rfl

theorem Logical.ensure (h : Logical x t) : ensureNydusV3Suffix t = t ++ nydusV3TargetSuffix := by
  have hs : hasNydusV3Suffix t = false := by
    rw [hasNydusV3Suffix, h.trimmed]
    exact h.plain
  simp only [ensureNydusV3Suffix, h.trimmed, hs, Bool.or_false, beq_iff_eq, if_neg h.nonempty]

theorem hasSuffix_append (t suffix : String) : hasSuffix (t ++ suffix) suffix := by
  rw [hasSuffix, String.toList_append, List.isSuffixOf_iff_suffix]
  exact List.suffix_append _ _

theorem Logical.strip_ensure (h : Logical x t) :
    stripNydusV3Suffix (t ++ nydusV3TargetSuffix) = t := by
  have htrim : Text.trimSpace (t ++ nydusV3TargetSuffix) = t ++ nydusV3TargetSuffix :=
    Text.trimSpace_append h.trimmed (by decide) h.nonempty (by decide)
  rw [stripNydusV3Suffix, htrim, trimSuffix, hasSuffix_append, if_pos rfl]
  simp

theorem Logical.recover (h : Logical x t) (format : BuildFormat) :
    stripNydusV3Suffix (normalizeTargetForFormat t format) = t := by
  cases format with
  | oci => rw [normalizeTargetForFormat, h.strip, h.strip]
  | nydus => rw [normalizeTargetForFormat, h.ensure, h.strip_ensure]

theorem Logical.hasSuffix_format (h : Logical x t) (format : BuildFormat) :
    hasSuffix (normalizeTargetForFormat t format) nydusV3TargetSuffix = (format == .nydus) := by
  cases format with
  | oci => rw [normalizeTargetForFormat, h.strip, h.plain]; rfl
  | nydus => rw [normalizeTargetForFormat, h.ensure, hasSuffix_append]; rfl

/-- A tagged destination that fits the reference grammar, a result image and a key of the result
database. -/
def Representable (x : Library) (reference : String) : Prop :=
  Valid x reference ∧ reference.utf8ByteSize ≤ maxImageLength ∧
    0 < reference.utf8ByteSize ∧ reference.utf8ByteSize ≤ maxKeyLength

def Fits (t : String) : BuildFormat → Prop
  | .oci => t.utf8ByteSize ≤ maxKeyLength
  | .nydus => (tagOf t).length + nydusV3TargetSuffix.length ≤ 128 ∧
      t.utf8ByteSize + nydusV3TargetSuffix.utf8ByteSize ≤ maxKeyLength

theorem Logical.representable_iff (hg : ReferenceGrammar x) (h : Logical x t)
    (format : BuildFormat) :
    Representable x (normalizeTargetForFormat t format) ↔ Fits t format := by
  have hpos : 0 < t.utf8ByteSize := by
    rw [Nat.pos_iff_ne_zero, Ne, String.utf8ByteSize_eq_zero_iff]
    exact h.nonempty
  cases format with
  | oci =>
    rw [normalizeTargetForFormat, h.strip]
    unfold Representable Fits maxImageLength maxKeyLength
    constructor
    · rintro ⟨-, -, -, hkey⟩
      exact hkey
    · intro hkey
      exact ⟨h.reference, by omega, hpos, hkey⟩
  | nydus =>
    have hsuffix : nydusV3TargetSuffix.toList.all tagChars.contains := by decide
    rw [normalizeTargetForFormat, h.ensure]
    unfold Representable Fits maxImageLength maxKeyLength
    rw [valid_append hg h.reference hsuffix, String.utf8ByteSize_append]
    constructor
    · rintro ⟨hlen, -, -, hkey⟩
      exact ⟨hlen, hkey⟩
    · rintro ⟨hlen, hkey⟩
      exact ⟨hlen, by omega, by omega, hkey⟩

theorem parseBuildFormats_nodup {value : String} {formats : List BuildFormat}
    (h : parseBuildFormats x value = .ok formats) : formats.Nodup := by
  unfold parseBuildFormats at h
  dsimp only at h
  split_ifs at h <;> cases h <;> decide

variable {x : Ext} {spec : KovaBuildSpec} {formats : List BuildFormat} {targets : List TargetSpec}

section Pending

variable (hf : parseBuildFormats x.library spec.build.format = .ok formats)
  (ht : normalizeTargetSpecs x.library spec.targets = .ok targets)

include hf ht

theorem pendingOutputs_eq : pendingOutputs x spec = (targets.product formats).map fun p =>
    ⟨p.2, normalizeTargetForFormat p.1.target p.2, p.1.platform⟩ := by
  unfold pendingOutputs
  rw [hf, ht]
  simp only [List.product, List.map_flatMap, List.map_map]
  rfl

/-- Different targets and formats have different references. -/
theorem references_nodup (hg : ReferenceGrammar x.library) :
    ((pendingOutputs x spec).map ExpectedOutput.repository).Nodup := by
  obtain ⟨hnodup, hlogical⟩ := normalizeTargetSpecs_ok hg ht
  rw [pendingOutputs_eq hf ht, List.map_map]
  refine List.Nodup.map_on ?_ (hnodup.of_map.product (parseBuildFormats_nodup hf))
  rintro ⟨t₁, f₁⟩ h₁ ⟨t₂, f₂⟩ h₂ he
  simp only [List.pair_mem_product] at h₁ h₂
  simp only [Function.comp_apply] at he
  have hstrip := congrArg stripNydusV3Suffix he
  rw [(hlogical _ h₁.1).recover, (hlogical _ h₂.1).recover] at hstrip
  have hsuffix := congrArg (hasSuffix · nydusV3TargetSuffix) he
  simp only [(hlogical _ h₁.1).hasSuffix_format, (hlogical _ h₂.1).hasSuffix_format] at hsuffix
  have htarget := List.inj_on_of_nodup_map hnodup h₁.1 h₂.1 hstrip
  have hformat : f₁ = f₂ := by
    cases f₁ <;> cases f₂ <;> first | rfl | cases hsuffix
  rw [htarget, hformat]

end Pending

/-- The outputs of a build are distinct, lead back to their targets, and can be represented exactly
when every target leaves room for what its formats append. -/
theorem outputs_representable_iff (x : Ext) (hg : ReferenceGrammar x.library) (spec : KovaBuildSpec)
    (formats : List BuildFormat) (targets : List TargetSpec)
    (hf : parseBuildFormats x.library spec.build.format = .ok formats)
    (ht : normalizeTargetSpecs x.library spec.targets = .ok targets) :
    (((pendingOutputs x spec).map ExpectedOutput.repository).Nodup ∧
      (pendingOutputs x spec).map (fun o => stripNydusV3Suffix o.repository) =
        (targets.product formats).map (fun p => p.1.target) ∧
      ∀ o ∈ pendingOutputs x spec, Representable x.library o.repository) ↔
    ∀ t ∈ targets, ∀ format ∈ formats, Fits t.target format := by
  obtain ⟨-, hlogical⟩ := normalizeTargetSpecs_ok hg ht
  have hrecover : (pendingOutputs x spec).map (fun o => stripNydusV3Suffix o.repository) =
      (targets.product formats).map fun p => p.1.target := by
    rw [pendingOutputs_eq hf ht, List.map_map]
    refine List.map_congr_left ?_
    rintro ⟨t, format⟩ hp
    simp only [Function.comp_apply]
    exact (hlogical t (List.pair_mem_product.mp hp).1).recover format
  constructor
  · rintro ⟨-, -, hall⟩ t htmem format hfmem
    have hmem : ⟨format, normalizeTargetForFormat t.target format, t.platform⟩ ∈
        pendingOutputs x spec := by
      rw [pendingOutputs_eq hf ht, List.mem_map]
      exact ⟨(t, format), List.pair_mem_product.mpr ⟨htmem, hfmem⟩, rfl⟩
    exact ((hlogical t htmem).representable_iff hg format).mp (hall _ hmem)
  · intro hfits
    refine ⟨references_nodup hf ht hg, hrecover, ?_⟩
    intro o ho
    rw [pendingOutputs_eq hf ht] at ho
    obtain ⟨⟨t, format⟩, hp, rfl⟩ := List.mem_map.mp ho
    obtain ⟨htmem, hfmem⟩ := List.pair_mem_product.mp hp
    exact ((hlogical t htmem).representable_iff hg format).mpr (hfits t htmem format hfmem)

theorem plainLibrary_valid {r : String} :
    Valid plainLibrary r ↔ ':' ∈ r.toList ∧ validTag (tagOf r) := by
  unfold Valid plainLibrary
  simp only [Bool.and_eq_true, List.contains_iff_mem]
  split_ifs with h <;> simp [h]

theorem tagOf_colon {base : String} {tag : List Char} (h : validTag tag) :
    tagOf (base ++ ":" ++ String.ofList tag) = tag := by
  rw [tagOf_append (by simpa using (validTag_iff.mp h).2.2), String.toList_ofList, tagOf]
  simp

theorem plainLibrary_grammar : ReferenceGrammar plainLibrary where
  tagged {r} h := by
    obtain ⟨hcolon, htag⟩ := plainLibrary_valid.mp h
    obtain ⟨tag, base, hr, hplain⟩ := List.eq_append_cons_of_mem (List.mem_reverse.mpr hcolon)
    have hall : ∀ c ∈ tag, (c != ':') := fun c hc => by
      simpa using fun heq : c = ':' => hplain (heq ▸ hc)
    have htagOf : tagOf r = tag.reverse := by
      rw [tagOf, hr, List.takeWhile_append_of_pos hall]
      simp
    refine ⟨htag, String.ofList base.reverse, ?_⟩
    have hlist := congrArg List.reverse hr
    rw [← String.toList_inj, htagOf]
    simpa using hlist
  retag _ h _ := by
    rw [plainLibrary_valid, tagOf_colon h]
    exact ⟨by simp, h⟩
  trimmed hv h _ := by
    unfold plainLibrary at h
    dsimp only at h
    split_ifs at h
    cases h
    exact hv

def bareExt : Ext where
  sha256Hex _ := ""
  specDigest _ := ""
  dataDigest _ := ""
  dataBytes _ := 0
  payloadBytes _ := 0
  podTemplateDigest _ := ""
  reservationBytes _ := 0
  queueBytes _ := 0
  library := plainLibrary
  runnerManifestDigest := .ok
  durationString _ := ""
  timeString _ := ""

def specOf (target format : String) : KovaBuildSpec where
  requester := ⟨"ann", "1"⟩
  targets := [⟨target, "linux/amd64"⟩]
  source := ⟨"s3://bucket/source.zip", ""⟩
  build := { format }

def appTarget (tag : List Char) : String :=
  String.ofList (['r', '.', 'e', 'x', '/', 'a', 'p', 'p', ':'] ++ tag)

/-- A tag as long as the grammar allows. -/
def longTarget : String := appTarget (List.replicate 128 'a')

def shortTarget : String := appTarget ['v', '1']

/-- A tag of 128 characters is accepted, and its Nydus output has a tag of 137. -/
theorem long_tag_unrepresentable :
    normalizeTargetSpecs bareExt.library (specOf longTarget "nydus").targets =
        .ok [⟨longTarget, "linux/amd64"⟩] ∧
      ∃ o ∈ pendingOutputs bareExt (specOf longTarget "nydus"),
        ¬ Representable bareExt.library o.repository := by
  have haccepted : normalizeTargetSpecs bareExt.library (specOf longTarget "nydus").targets =
      .ok [⟨longTarget, "linux/amd64"⟩] := by decide +kernel
  refine ⟨haccepted, ⟨.nydus, normalizeTargetForFormat longTarget .nydus, "linux/amd64"⟩, ?_, ?_⟩
  · have hformats : parseBuildFormats bareExt.library (specOf longTarget "nydus").build.format =
        .ok [.nydus] := by decide +kernel
    rw [pendingOutputs_eq hformats haccepted]
    exact List.mem_singleton_self _
  · have hg : ReferenceGrammar bareExt.library := plainLibrary_grammar
    have hlong : ¬ Fits longTarget .nydus := fun h => absurd h.1 (by decide +kernel)
    obtain ⟨-, hlogical⟩ := normalizeTargetSpecs_ok hg haccepted
    rw [List.forall_mem_singleton] at hlogical
    have hiff := hlogical.representable_iff hg .nydus
    dsimp only at hiff ⊢
    rw [hiff]
    exact hlong

theorem outputs_representable_iff_app : let spec := specOf shortTarget "both"
    (((pendingOutputs bareExt spec).map ExpectedOutput.repository).Nodup ∧
      (pendingOutputs bareExt spec).map (fun o => stripNydusV3Suffix o.repository) =
        (spec.targets.product [BuildFormat.nydus, .oci]).map (fun p => p.1.target) ∧
      ∀ o ∈ pendingOutputs bareExt spec, Representable bareExt.library o.repository) ↔
    ∀ t ∈ spec.targets, ∀ format ∈ [BuildFormat.nydus, .oci], Fits t.target format :=
  outputs_representable_iff bareExt plainLibrary_grammar (specOf shortTarget "both") [.nydus, .oci]
    [⟨shortTarget, "linux/amd64"⟩] (by decide +kernel) (by decide +kernel)

end KovaService.Outputs
