import Mathlib.Data.List.Sort
import KovaService.Api.Object
import KovaService.Lib.Text

/-!
The target contract of a build, and the concrete references that its formats derive from a logical
target: `buildcontract` and the formats and suffixes of `source`.

`Library` has the functions of Go and of the container registry library that stay uninterpreted.
The facts about `unicode.ToLower` are those the parsers rest on: it maps letters only, doing it twice
changes nothing more, and ASCII is mapped as usual.
-/

namespace KovaService.Api

open Lib Text

structure Library where
  lower : Char → Char
  lower_space : ∀ c, Text.isSpace (lower c) = Text.isSpace c
  lower_lower : ∀ c, lower (lower c) = lower c
  lower_ascii : ∀ c : Char, c.toNat < 128 → lower c = c.toLower
  quote : String → String
  /-- `name.NewTag`, with the full name of the reference it reads. -/
  newTag (strict : Bool) (reference : String) : Except String String

variable (x : Library)

def Library.toLower (s : String) : String := String.ofList (s.toList.map x.lower)

def rejectIf (c : Bool) (e : String) : Except String Unit := if c then .error e else .ok ()

theorem rejectIf_ok {c : Bool} {e : String} {u : Unit} (h : rejectIf c e = .ok u) : c = false := by
  unfold rejectIf at h
  split_ifs at h with hc
  simpa using hc

theorem rejectIf_false {c : Bool} {e : String} (h : c = false) : rejectIf c e = .ok () := by
  rw [h]
  rfl

def platformLinuxAMD64 : String := "linux/amd64"

def platformLinuxARM64 : String := "linux/arm64"

def maxLogicalTargets : Nat := 100

def maxTargetLength : Nat := 512

def maxBuildConcurrency : Int := maxLogicalTargets

def nydusV3TargetSuffix : String := "_nydus_v3"

def normalizePlatform (raw : String) : Except String String :=
  let value := trimSpace (x.toLower raw)
  if value != raw then .error "platform must be canonical and contain no surrounding whitespace"
  else if value == platformLinuxAMD64 || value == platformLinuxARM64 then .ok value
  else
    .error ("unsupported platform " ++ x.quote raw ++ "; supported platforms are " ++
      platformLinuxAMD64 ++ " and " ++ platformLinuxARM64)

def contains (part : String) (s : String) : Bool := s.toList.tails.any part.toList.isPrefixOf

def lastIndex (c : Char) (s : String) : Int :=
  match s.toList.reverse.findIdx? (· == c) with
  | none => -1
  | some i => s.length - 1 - i

def normalizeTarget (raw : String) : Except String String :=
  let value := trimSpace raw
  if value == "" then .error "target must not be empty"
  else if value.utf8ByteSize > maxTargetLength then
    .error ("target exceeds " ++ toString maxTargetLength ++ " bytes")
  else if value != raw || value.toList.any "\t\r\n ".toList.contains then
    .error "target must not contain surrounding or embedded whitespace"
  else if contains "://" value then
    .error "target must be an image reference without a URI scheme"
  else if contains "@" value then
    .error "target must be a tagged push destination, not a digest reference"
  else if lastIndex ':' value ≤ lastIndex '/' value then
    .error "target must include an explicit tag"
  else
    let invalid (e : String) := "invalid tagged image target " ++ x.quote value ++ ": " ++ e
    match x.newTag false value with
    | .error e => .error (invalid e)
    | .ok normalized =>
      match x.newTag true normalized with
      | .error e => .error (invalid e)
      | .ok _ => .ok normalized

def hasSuffix (s suffix : String) : Bool := suffix.toList.isSuffixOf s.toList

def trimSuffix (s suffix : String) : String :=
  if hasSuffix s suffix then String.ofList (s.toList.take (s.toList.length - suffix.toList.length))
  else s

def normalizeLogicalTarget (raw : String) : Except String String := do
  let target ← normalizeTarget x raw
  rejectIf (hasSuffix target nydusV3TargetSuffix)
    ("target tag suffix " ++ x.quote nydusV3TargetSuffix ++ " is reserved for Kova Nydus outputs")
  pure target

/-- The loop of `NormalizeTargetSpecs`; `seen` holds the normalized targets so far. -/
def normalizeTargets : List TargetSpec → List String → Except String (List TargetSpec)
  | [], _ => .ok []
  | value :: rest, seen => do
    let target ← normalizeLogicalTarget x value.target
    let platform ← normalizePlatform x value.platform
    rejectIf (seen.contains target) ("target " ++ x.quote target ++ " is duplicated")
    let specs ← normalizeTargets rest (target :: seen)
    pure (⟨target, platform⟩ :: specs)

def targetLess (a b : TargetSpec) : Bool :=
  if a.target != b.target then a.target < b.target else a.platform < b.platform

def normalizeTargetSpecs (values : List TargetSpec) : Except String (List TargetSpec) := do
  rejectIf (values.length < 1 || values.length > maxLogicalTargets)
    ("targets must contain between 1 and " ++ toString maxLogicalTargets ++ " entries")
  let specs ← normalizeTargets x values []
  pure (specs.insertionSort fun a b => targetLess b a = false)

def validateConcurrency (concurrency : Int) (logicalTargets : Nat) : Except String Unit :=
  if concurrency < 1 || concurrency > maxBuildConcurrency then
    .error ("concurrency must be between 1 and " ++ itoa maxBuildConcurrency)
  else if concurrency > logicalTargets then
    .error ("concurrency " ++ itoa concurrency ++ " exceeds logical target count " ++
      itoa logicalTargets)
  else .ok ()

def normalizeBuildFormatValue (value : String) : String :=
  let normalized := x.toLower (trimSpace value)
  if normalized == "" then BuildFormat.nydus.toString else normalized

def parseBuildFormats (value : String) : Except String (List BuildFormat) :=
  let normalized := normalizeBuildFormatValue x value
  if normalized == "" || normalized == BuildFormat.nydus.toString then .ok [.nydus]
  else if normalized == BuildFormat.oci.toString then .ok [.oci]
  else if normalized == "both" then .ok [.nydus, .oci]
  else .error "build format must be one of nydus, oci, or both"

def hasNydusV3Suffix (target : String) : Bool := hasSuffix (trimSpace target) nydusV3TargetSuffix

def ensureNydusV3Suffix (target : String) : String :=
  let trimmed := trimSpace target
  if trimmed == "" || hasNydusV3Suffix trimmed then trimmed else trimmed ++ nydusV3TargetSuffix

def stripNydusV3Suffix (target : String) : String :=
  trimSuffix (trimSpace target) nydusV3TargetSuffix

def normalizeTargetForFormat (target : String) : BuildFormat → String
  | .oci => stripNydusV3Suffix target
  | .nydus => ensureNydusV3Suffix target

theorem toLower_toLower (s : String) : x.toLower (x.toLower s) = x.toLower s := by
  unfold Library.toLower
  rw [String.toList_ofList, List.map_map]
  exact congrArg String.ofList (List.map_congr_left fun c _ => x.lower_lower c)

theorem trimSpace_toLower {s : String} (h : trimSpace s = s) :
    trimSpace (x.toLower s) = x.toLower s := by
  rw [trimSpace_eq_self] at h ⊢
  rw [Library.toLower, String.toList_ofList]
  exact trimmed_map x.lower_space h

theorem toLower_ascii {s : String}
    (h : s.toList.all (fun c => decide (c.toNat < 128) && c.toLower == c)) :
    x.toLower s = s := by
  have hmap : s.toList.map x.lower = s.toList := by
    refine (List.map_congr_left fun c hc => ?_).trans (List.map_id _)
    have hc := List.all_eq_true.mp h c hc
    simp only [Bool.and_eq_true, decide_eq_true_eq, beq_iff_eq] at hc
    rw [x.lower_ascii c hc.1, hc.2]
    rfl
  rw [Library.toLower, hmap, String.ofList_toList]

theorem normalizePlatform_supported {platform : String}
    (h : platform = platformLinuxAMD64 ∨ platform = platformLinuxARM64) :
    normalizePlatform x platform = .ok platform := by
  have hlower : x.toLower platform = platform := by
    apply toLower_ascii
    rcases h with rfl | rfl <;> decide
  have htrim : trimSpace platform = platform := by
    rcases h with rfl | rfl <;> decide
  unfold normalizePlatform
  rw [hlower, htrim]
  rcases h with rfl | rfl <;> rfl

theorem toLower_ascii_facts : ∀ n < 128,
    Text.isSpace (Char.ofNat n).toLower = Text.isSpace (Char.ofNat n) ∧
      (Char.ofNat n).toLower.toLower = (Char.ofNat n).toLower := by
  decide

theorem toLower_facts (c : Char) :
    Text.isSpace c.toLower = Text.isSpace c ∧ c.toLower.toLower = c.toLower := by
  by_cases h : c.toNat < 128
  · simpa using toLower_ascii_facts c.toNat h
  · have hself : c.toLower = c := by
      unfold Char.toLower
      rw [dif_neg]
      intro hupper
      have hval : c.val ≤ 90 := hupper.2
      exact h (lt_of_le_of_lt (UInt32.le_iff_toNat_le.mp hval) (by decide))
    rw [hself]
    exact ⟨rfl, hself⟩

def lowerLetters : List Char := (List.range' 97 26).map Char.ofNat

def upperLetters : List Char := (List.range' 65 26).map Char.ofNat

def digits : List Char := (List.range' 48 10).map Char.ofNat

def tagChars : List Char := lowerLetters ++ digits ++ ['_', '-', '.'] ++ upperLetters

/-- A tag of the reference grammar. -/
def validTag (tag : List Char) : Bool :=
  1 ≤ tag.length && tag.length ≤ 128 && tag.all tagChars.contains

def tagOf (reference : String) : List Char :=
  (reference.toList.reverse.takeWhile (· != ':')).reverse

/-- Letters as in ASCII, and references of which only the tag is looked at. -/
def plainLibrary : Library where
  lower := Char.toLower
  lower_space c := (toLower_facts c).1
  lower_lower c := (toLower_facts c).2
  lower_ascii _ _ := rfl
  quote s := s
  newTag _ reference :=
    if reference.toList.contains ':' && validTag (tagOf reference) then .ok reference
    else .error "invalid tag"

end KovaService.Api
