import KovaService.Http.Create
import KovaService.Submission.Options

/-!
`buildRequestFromJSON` of `httpapi/parse.go`: what the service accepts as a build request.

The decoder of the body is given by its outcome.
-/

namespace KovaService.Submission

open Lib Text Api
open Http (CreateBuildRequest)

/-- The range of Go's `int`. -/
def FitsInt (n : Int) : Prop := -2 ^ 63 ≤ n ∧ n < 2 ^ 63

instance (n : Int) : Decidable (FitsInt n) := inferInstanceAs (Decidable (_ ∧ _))

structure RequestBody where
  sourceURI : String
  sourceDigest : String
  targets : List TargetSpec
  format : String := ""
  concurrency : Int := 0
  timeout : Int := 0
  oomCooldown : String := ""
  failFast : Bool := false
  verbose : Bool := false
  buildVariables : List String := []
  idempotencyKey : String := ""
  fits : FitsInt concurrency ∧ FitsInt timeout

/-- The parts of the HTTP request that are read: the media type, the outcome of decoding one value,
and whether the input ends after it. -/
structure BodyRequest where
  mediaType : Option String
  decoded : Except String RequestBody
  atEOF : Bool

def maxSourceURILength : Nat := 2048

def maxBuildVariables : Nat := 100

def maxBuildVariableLength : Nat := 2048

def maxIdempotencyKeyLength : Nat := 256

variable (x : Libraries)

/-- The format of the request, `oci` when it names none. -/
def RequestBody.requestedFormat (body : RequestBody) : String :=
  let format := x.toLower (trimSpace body.format)
  if format == "" then "oci" else format

def RequestBody.requestedCooldown (body : RequestBody) : Except String String :=
  if trimSpace body.oomCooldown != "" then
    match x.parseDuration body.oomCooldown with
    | none => .error "oom_cooldown must be a non-negative duration"
    | some duration =>
      if duration < 0 then .error "oom_cooldown must be a non-negative duration"
      else .ok body.oomCooldown
  else .ok ""

/-- The checks on the sizes and the form of the fields of a body, after its targets. -/
def RequestBody.checkFields (body : RequestBody) (targets : Nat) : Except String Unit := do
  discard (parseBuildFormats x (body.requestedFormat x))
  validateConcurrency body.concurrency targets
  rejectIf (body.timeout < 0) "timeout must be non-negative"
  rejectIf (body.idempotencyKey != trimSpace body.idempotencyKey)
    "idempotency_key must not contain surrounding whitespace"
  rejectIf (body.idempotencyKey.length > maxIdempotencyKeyLength) "idempotency_key is too long"
  rejectIf (body.buildVariables.length > maxBuildVariables)
    ("variables must contain at most " ++ toString maxBuildVariables ++ " entries")
  rejectIf (body.buildVariables.any fun value => value.length > maxBuildVariableLength)
    ("variable exceeds " ++ toString maxBuildVariableLength ++ " characters")
  match parseBuildVariables x body.buildVariables with
  | .error _ => throw "variables must use unique KOVA_NAME=value entries"
  | .ok _ => pure ()

/-- The checks on the source of a body. -/
def RequestBody.checkSource (body : RequestBody) : Except String Unit := do
  rejectIf (body.sourceURI != trimSpace body.sourceURI ||
      body.sourceDigest != trimSpace body.sourceDigest)
    "source_uri and source_digest must not contain surrounding whitespace"
  rejectIf (body.sourceURI.length > maxSourceURILength)
    ("source_uri exceeds " ++ toString maxSourceURILength ++ " characters")
  validateSource x body.sourceURI body.sourceDigest

def buildRequestFromJSON (r : BodyRequest) : Except String CreateBuildRequest := do
  rejectIf (r.mediaType != some "application/json") "content type must be application/json"
  let body ←
    match r.decoded with
    | .error e => throw ("decode request: " ++ e)
    | .ok body => pure body
  rejectIf (!r.atEOF) "request body must contain one JSON object"
  body.checkSource x
  let targets ← normalizeTargetSpecs x body.targets
  body.checkFields x targets.length
  let oomCooldown ← body.requestedCooldown x
  pure
    { targets
      source := { uri := body.sourceURI, digest := body.sourceDigest }
      idempotencyKey := body.idempotencyKey
      options :=
        { format := body.requestedFormat x, concurrency := body.concurrency,
          timeout := body.timeout, oomCooldown, failFast := body.failFast,
          verbose := body.verbose, vars := body.buildVariables } }

/-- The facts about an accepted body that the runner's parser rests on. -/
structure RequestBody.Accepted (body : RequestBody) : Prop where
  format : ∃ formats, parseBuildFormats x (body.requestedFormat x) = .ok formats
  concurrency : 1 ≤ body.concurrency ∧ body.concurrency ≤ maxBuildConcurrency
  timeout : 0 ≤ body.timeout
  vars : ∃ vars, parseBuildVariables x body.buildVariables = .ok vars
  cooldown : trimSpace body.oomCooldown ≠ "" →
    ∃ d, x.parseDuration body.oomCooldown = some d ∧ 0 ≤ d

def RequestBody.options (body : RequestBody) : BuildOptions where
  format := body.requestedFormat x
  concurrency := body.concurrency
  timeout := body.timeout
  oomCooldown := if trimSpace body.oomCooldown = "" then "" else body.oomCooldown
  failFast := body.failFast
  verbose := body.verbose
  vars := body.buildVariables

theorem validateConcurrency_ok {concurrency : Int} {targets : Nat}
    (h : validateConcurrency concurrency targets = .ok ()) :
    1 ≤ concurrency ∧ concurrency ≤ maxBuildConcurrency := by
  unfold validateConcurrency at h
  split_ifs at h with h1 h2
  simp only [Bool.or_eq_true, decide_eq_true_eq, not_or, gt_iff_lt, not_lt] at h1
  exact h1

variable {body : RequestBody}

theorem requestedCooldown_ok {cooldown : String} (h : body.requestedCooldown x = .ok cooldown) :
    cooldown = (if trimSpace body.oomCooldown = "" then "" else body.oomCooldown) ∧
      (trimSpace body.oomCooldown ≠ "" →
        ∃ d, x.parseDuration body.oomCooldown = some d ∧ 0 ≤ d) := by
  unfold RequestBody.requestedCooldown at h
  by_cases hblank : trimSpace body.oomCooldown = ""
  · rw [if_neg (by simpa using hblank)] at h
    cases h
    exact ⟨by rw [if_pos hblank], fun hne => absurd hblank hne⟩
  · rw [if_pos (by simpa using hblank)] at h
    cases hd : x.parseDuration body.oomCooldown with
    | none =>
      rw [hd] at h
      cases h
    | some d =>
      rw [hd] at h
      dsimp only at h
      split_ifs at h with hneg
      cases h
      exact ⟨by rw [if_neg hblank], fun _ => ⟨d, rfl, not_lt.mp hneg⟩⟩

theorem checkFields_ok {targets : Nat} (h : body.checkFields x targets = .ok ()) :
    (∃ formats, parseBuildFormats x (body.requestedFormat x) = .ok formats) ∧
      (1 ≤ body.concurrency ∧ body.concurrency ≤ maxBuildConcurrency) ∧ 0 ≤ body.timeout ∧
      ∃ vars, parseBuildVariables x body.buildVariables = .ok vars := by
  unfold RequestBody.checkFields at h
  obtain ⟨_, hformat, h⟩ := bind_ok h
  obtain ⟨_, hconcurrency, h⟩ := bind_ok h
  obtain ⟨_, htimeout, h⟩ := bind_ok h
  obtain ⟨_, -, h⟩ := bind_ok h
  obtain ⟨_, -, h⟩ := bind_ok h
  obtain ⟨_, -, h⟩ := bind_ok h
  obtain ⟨_, -, h⟩ := bind_ok h
  have hvars : ∃ vars, parseBuildVariables x body.buildVariables = .ok vars := by
    cases hv : parseBuildVariables x body.buildVariables with
    | error e =>
      rw [hv] at h
      cases h
    | ok vars => exact ⟨vars, rfl⟩
  have hformats : ∃ formats, parseBuildFormats x (body.requestedFormat x) = .ok formats := by
    cases hf : parseBuildFormats x (body.requestedFormat x) with
    | error e =>
      rw [hf] at hformat
      cases hformat
    | ok formats => exact ⟨formats, rfl⟩
  exact ⟨hformats, validateConcurrency_ok hconcurrency, by simpa using rejectIf_ok htimeout, hvars⟩

theorem buildRequestFromJSON_ok {r : BodyRequest} {request : CreateBuildRequest}
    (h : buildRequestFromJSON x r = .ok request) :
    ∃ body, r.decoded = .ok body ∧ body.Accepted x ∧ request.options = body.options x := by
  unfold buildRequestFromJSON at h
  obtain ⟨_, -, h⟩ := bind_ok h
  cases hbody : r.decoded with
  | error e =>
    rw [hbody] at h
    cases h
  | ok body =>
    rw [hbody] at h
    obtain ⟨_, hdecoded, h⟩ := bind_ok h
    cases hdecoded
    obtain ⟨_, -, h⟩ := bind_ok h
    obtain ⟨_, -, h⟩ := bind_ok h
    obtain ⟨targets, -, h⟩ := bind_ok h
    obtain ⟨_, hfields, h⟩ := bind_ok h
    obtain ⟨cooldown, hcooldown, h⟩ := bind_ok h
    cases h
    obtain ⟨hformat, hconcurrency, htimeout, hvars⟩ := checkFields_ok x hfields
    obtain ⟨heq, hduration⟩ := requestedCooldown_ok x hcooldown
    exact ⟨body, rfl, ⟨hformat, hconcurrency, htimeout, hvars, hduration⟩, by
      simp only [RequestBody.options, heq]⟩

end KovaService.Submission
