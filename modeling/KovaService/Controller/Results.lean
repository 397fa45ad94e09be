import KovaService.Controller.Base

/-!
`buildresult` and the target contract: the outputs a spec asks for, the receipts collected from
runner exports, and their check against the registry.
-/

namespace KovaService.Controller

open Lib Api Ledger

variable (results : List BuildVerificationResult)

def maxConcreteOutputs : Nat := 200

def equalTargetSpecSets (x : Ext) (left right : List TargetSpec) : Bool :=
  match normalizeTargetSpecs x.library left, normalizeTargetSpecs x.library right with
  | .ok l, .ok r => l == r
  | _, _ => false

/-- The fields of a `buildresult.Result` that identify an expected output. -/
structure ExpectedOutput where
  format : BuildFormat
  repository : String
  platform : String
  deriving DecidableEq

def pendingOutputs (x : Ext) (spec : KovaBuildSpec) : List ExpectedOutput :=
  match parseBuildFormats x.library spec.build.format,
      normalizeTargetSpecs x.library spec.targets with
  | .ok formats, .ok targets =>
    targets.flatMap fun target => formats.map fun format =>
      { format := format, repository := normalizeTargetForFormat target.target format,
        platform := target.platform }
  | _, _ => []

def outputOf (v : BuildVerificationResult) : ExpectedOutput :=
  ⟨v.format, v.image, v.platform⟩

def validVerificationResults (x : Ext) (build : KovaBuild) : Bool :=
  pendingOutputs x build.spec != [] &&
    build.status.verificationResults.map outputOf ==
      pendingOutputs x build.spec &&
    build.status.verificationResults.all fun v => v.state != .succeeded || v.pushedDigest != ""

def verificationDone : Bool × Bool :=
  if results == [] then (false, true)
  else (results.all fun v => v.state != .pending, results.any fun v => v.state == .failed)

def verificationOutputs : List BuildOutput :=
  (results.filter fun v => v.state == .succeeded).map fun v =>
    { format := v.format, image := v.image, manifestDigest := v.pushedDigest,
      platform := v.platform }

def boundVerificationErrors :
    List BuildVerificationResult :=
  results.map fun v => { v with error := truncate v.error 2048 }

def firstFailedResultError : String :=
  match results.find? fun v => v.state == .failed && v.error != "" with
  | none => ""
  | some v => truncate (v.format.toString ++ " " ++ v.image ++ ": " ++ v.error) 2048

def firstVerificationError : String :=
  let first := firstFailedResultError results
  if results.any (fun v => v.state == .failed && v.error != "") then first
  else "one or more build results could not be verified"

/-- A result that still needs a digest from the runner's export of this format. -/
def awaitsExport (format : BuildFormat) (v : BuildVerificationResult) : Bool :=
  v.format == format && v.state == .pending && v.pushedDigest == ""

def failResult (v : BuildVerificationResult) (error : String) : BuildVerificationResult :=
  { v with state := .failed, error := error }

/-- The result of one awaiting output under a parsed export. -/
def collectEntry (entries : List ExportEntry) (v : BuildVerificationResult) :
    BuildVerificationResult :=
  match entries.find? fun e => e.target == v.image with
  | none => failResult v "completed build result is missing"
  | some entry =>
    if !entry.success then failResult v "runner reported failed output"
    else if !digestSHA256 entry.manifestDigest then
      failResult v "runner did not report a valid pushed manifest digest"
    else { v with pushedDigest := entry.manifestDigest }

/-- The effect of one format's export on the results. -/
def collectFormat (format : BuildFormat) (answer : Except Err Export)
    (results : List BuildVerificationResult) : List BuildVerificationResult :=
  results.map fun v =>
    if !awaitsExport format v then v
    else
      match answer with
      | .error e =>
        if e.is .exportTooLarge then failResult v "runner export exceeded its bounded response size"
        else v
      | .ok none => failResult v "invalid runner export"
      | .ok (some entries) => collectEntry entries v

/-- One format of `CollectReceipts`: the new results and the transient error, if any. -/
def collectReceiptsOf (post : Bool → K Export) (format : BuildFormat)
    (results : List BuildVerificationResult) (transient : String) :
    K (List BuildVerificationResult × String) := do
  if results.any (awaitsExport format) then
    let answer ← attempt (post (format == .oci))
    let transient' := match answer with
      | .error e => if e.is .exportTooLarge then transient else "runner export unavailable"
      | .ok _ => transient
    pure (collectFormat format answer results, transient')
  else pure (results, transient)

def newlyFailed (before after : List BuildVerificationResult) : Bool :=
  (before.zip after).any fun p => p.1.state == .pending && p.2.state == .failed

def collectReceipts (post : Bool → K Export) (results : List BuildVerificationResult) :
    K (List BuildVerificationResult × String × Bool) := do
  let (afterOCI, transient) ← collectReceiptsOf post .oci results ""
  let (afterBoth, transient') ← collectReceiptsOf post .nydus afterOCI transient
  pure (afterBoth, transient', newlyFailed results afterBoth)

def verifyOne (v : BuildVerificationResult) (answer : Except Err (String × String)) :
    BuildVerificationResult :=
  match answer with
  | .error e =>
    if e.is .registryDefinitive then failResult v "invalid pushed manifest descriptor" else v
  | .ok (digest, platform) =>
    if digest != v.pushedDigest || platform != v.platform then
      failResult v ("pushed digest/platform " ++ digest ++ " " ++ platform ++
        " does not match receipt " ++ v.pushedDigest ++ " " ++ v.platform)
    else { v with state := .succeeded, error := "" }

/-- `VerifyReceipts`: at most `budget` lookups.  The workers' results are independent of the order
of their calls, which is taken to be that of the list. -/
def verifyReceipts : List BuildVerificationResult → Nat →
    K (List BuildVerificationResult × Bool)
  | [], _ => pure ([], false)
  | v :: vs, budget => do
    if v.state == .pending && v.pushedDigest != "" && budget != 0 then
      let answer ← attempt (resolve v.image v.pushedDigest)
      let unavailable := match answer with
        | .error e => !e.is .registryDefinitive
        | .ok _ => false
      let (rest, transient) ← verifyReceipts vs (budget - 1)
      pure (verifyOne v answer :: rest, unavailable || transient)
    else
      let (rest, transient) ← verifyReceipts vs budget
      pure (v :: rest, transient)

def verificationBatchSize : Nat := 16

/-- `VerifyRemoteReceipts`: the new results, the transient error, and whether a receipt failed. -/
def verifyRemoteReceipts :
    K (List BuildVerificationResult × String × Bool) := do
  let (after, transient) ← verifyReceipts results verificationBatchSize
  pure (after, if transient then "registry manifest verification unavailable" else "",
    newlyFailed results after)

end KovaService.Controller
