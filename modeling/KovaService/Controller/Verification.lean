import KovaService.Controller.Status

/-!
Observing a runner and verifying what it built: the status read of `lifecycle.go`,
`genesis_export.go` and `verification.go`.  Where the Go code assigns fields of `build` and then
writes its status, the value that is written is built here and the stored object is kept.
-/

namespace KovaService.Controller

open Lib Api Ledger

variable (build : KovaBuild)

def expectedPodUID : UID :=
  match build.status.admissionGenesisWitness with
  | some w => w.podUID
  | none => ""

def buildStatus : K BuildState :=
  execStatus build.status.runnerPodName (expectedPodUID build)

def cancelRunner : K Unit :=
  execCancel build.status.runnerPodName (expectedPodUID build)

/-- `Client.Post` with the two bounded summary queries. -/
def postExport (oci : Bool) : K Export :=
  execExport build.status.runnerPodName (expectedPodUID build) oci

/-- `WaitDecision`: whether the build is done and successful. -/
def waitDecision : RunnerStatus → Except Err (Bool × Bool)
  | .running | .cancelling => .ok (false, false)
  | .completed => .ok (true, true)
  | .failed | .error | .cancelled => .ok (true, false)
  | .idle => .error (.text "no build is running; wait requires an active or completed build")
  | .empty => .error (.text "failed to parse build status from daemon response")
  | .unknown status => .error (.text ("unknown build status: " ++ status))

def verificationBackoff (attempt : Int) : Duration :=
  second * 2 ^ (min (max (attempt - 1) 0) 3).toNat

def verifyingStatus (x : Ext) (build : KovaBuild) (phase : Phase) (reason message : String)
    (now deadline : Time) : KovaBuildStatus :=
  KovaBuildStatus.setPhaseCondition
    { build.status with
      phase := phase, observedGeneration := build.generation, reason := truncate reason 128,
      message := truncate message 2048, verificationStartedAt := some now,
      verificationDeadlineAt := some deadline, verificationNextAttemptAt := some now,
      verificationAttempts := 0, verificationLastError := "",
      verificationResults := (pendingOutputs x build.spec).map fun o =>
        { format := o.format, image := o.repository, platform := o.platform } }
    build.generation phase (truncate reason 128) (truncate message 2048)

def failPending (message : String) (results : List BuildVerificationResult) :
    List BuildVerificationResult :=
  results.map fun v => if v.state == .pending then failResult v (truncate message 2048) else v

def KovaBuildStatus.setResults (st : KovaBuildStatus) (results : List BuildVerificationResult) :
    KovaBuildStatus :=
  { st with verificationResults := results, outputs := verificationOutputs results }

/-- The targets of `validateGenesisExportTargets` that an export of this format may name. -/
def exportTargets (x : Ext) (build : KovaBuild) (format : BuildFormat) : List String :=
  ((pendingOutputs x build.spec).filter fun o => o.format == format).map fun o => o.repository

/-- The entry loop of `validateGenesisExportTargets`. -/
def checkExportEntries (expected : List String) : List ExportEntry → List String → Except Err Unit
  | [], _ => .ok ()
  | entry :: rest, seen =>
    if !expected.contains entry.target then
      .error (.text "Genesis export contains an unexpected target")
    else if seen.contains entry.target then .error (.text "Genesis export repeats a target")
    else checkExportEntries expected rest (entry.target :: seen)

def validateGenesisExportTargets (x : Ext) (data : Export) (build : KovaBuild) (oci : Bool) :
    Except Err Unit :=
  let expected := exportTargets x build (if oci then .oci else .nydus)
  if expected == [] then .error (.text "Genesis export format has no requested targets")
  else
    match data with
    | none => .error (.text "Genesis export contains invalid JSONL")
    | some entries => checkExportEntries expected entries []

namespace Reconciler

variable (r : Reconciler) (build : KovaBuild)

def observeBuildStatus : K BuildState := do
  if r.genesis.isSome then
    let (_, before) ← r.directGenesisWitness build
    let state ← buildStatus build
    let (_, after) ← r.directGenesisWitness build
    failIf (!samePodUID before after ||
      (state.status != .idle && !build.status.admissionGenesisWitness.any
        fun w => state.requestID == w.runnerRequestID) ||
      (state.status == .idle && state.requestID != ""))
      (.text "Genesis runner status lacks exact Pod and request identity")
    pure state
  else buildStatus build

/-- The object a Genesis handler goes on with: a direct read under the build's own witness. -/
def witnessed : K KovaBuild := do
  if r.genesis.isSome then
    let (current, _) ← r.directGenesisWitness build
    pure current
  else pure build

def genesisPost (oci : Bool) : K Export := do
  let (before, pod) ← r.directGenesisWitness build
  failIf (before.status.phase != .verifying && before.status.phase != .failedVerifying)
    (.text "Genesis evidence export requires an accepted verification phase")
  let state ← r.observeBuildStatus before
  failIf ((before.status.phase == .verifying && state.status != .completed) ||
    (before.status.phase == .failedVerifying && state.status != .failed && state.status != .error))
    (.text "Genesis evidence export requires matching terminal runner status")
  let data ← attempt (postExport before oci)
  let (after, laterPod) ← r.directGenesisWitness before
  failIf (!samePodUID pod laterPod)
    (.text "Genesis runner Pod UID changed across evidence export")
  failIf (after.status.phase != before.status.phase)
    (.text "Genesis CR phase changed across evidence export")
  let laterState ← r.observeBuildStatus after
  failIf (laterState.status != state.status || laterState.requestID != state.requestID)
    (.text "Genesis runner request changed across evidence export")
  let data ← ofAns data
  ofAns (validateGenesisExportTargets r.ext data before oci)
  pure data

/-- The exporter `reconcileVerifying` and `reconcileFailedVerifying` choose. -/
def exporter (oci : Bool) : K Export :=
  if r.genesis.isSome then r.genesisPost build oci else postExport build oci

def persistVerificationStatus : K KovaBuild := do
  onlyIf r.genesis.isSome do
    let _ ← r.directGenesisWitness build
  updateStatus build

def beginVerificationPhase (phase : Phase) (reason message : String) (window : Duration) :
    K Unit := do
  let build ← r.witnessed build
  let pending := pendingOutputs r.ext build.spec
  if pending == [] || pending.length > maxConcreteOutputs then
    if phase == .failedVerifying then
      let _ ← r.finish build .failed "BuildFailed" message
    else
      let _ ← r.finish build .failed "ResultVerificationFailed" "invalid expected output set"
  else
    let now ← timeNow
    -- the Pod's own deadline bounds the window from the start of the build
    let deadline := match build.status.startedAt with
      | some started =>
        if r.cfg.maxBuildDuration > 0 then
          min (now + window) (started + (r.cfg.maxBuildDuration + window))
        else now + window
      | none => now + window
    let _ ← r.persistVerificationStatus
      { build with status := verifyingStatus r.ext build phase reason message now deadline }

def beginVerification : K Unit :=
  r.beginVerificationPhase build .verifying "RunnerCompleted"
    "verifying digest-pinned build outputs" r.verificationWindow

def beginFailedVerification (runnerError : String) : K Unit :=
  r.beginVerificationPhase build .failedVerifying "BuildFailed" runnerError
    (min r.verificationWindow defaultVerificationWindow)

def failVerification (message : String) : K Unit := do
  let status := { build.status with
    verificationLastError := truncate message 2048, verificationNextAttemptAt := none }
  let build ← r.persistVerificationStatus { build with
    status := KovaBuildStatus.setResults status (failPending message status.verificationResults) }
  let _ ← r.finish build .failed "ResultVerificationFailed" message

def finishFailedVerification : K Unit := do
  let build ← r.persistVerificationStatus
    { build with status := { build.status with verificationNextAttemptAt := none } }
  let message := if build.status.message == "" then "runner reported a failed build"
    else build.status.message
  let _ ← r.finish build .failed "BuildFailed" message

def expireFailedVerification : K Unit :=
  let last := build.status.verificationLastError
  let message := "partial result verification exceeded its deadline" ++
    (if last != "" then ": " ++ last else "")
  let status := { build.status with verificationLastError := truncate message 2048 }
  r.finishFailedVerification { build with
    status := KovaBuildStatus.setResults status (failPending message status.verificationResults) }

/-- The registry half of a verification attempt. -/
def registryAttempt (results : List BuildVerificationResult) (transient : String) :
    K (List BuildVerificationResult × String × Bool) := do
  let (checked, registryTransient, registryFailed) ← verifyRemoteReceipts results
  pure (checked, if registryTransient != "" then registryTransient else transient, registryFailed)

/-- The attempt both verification handlers make: collect push receipts, store them, and only then
ask the registry.  `hardStop` skips the registry after a definitively failed output.  Answers with
the build to go on with, the transient error and whether this attempt failed an output. -/
def verificationAttempt (hardStop : Bool) : K (KovaBuild × String × Bool) := do
  let build := { build with status := { build.status with
    verificationAttempts := build.status.verificationAttempts + 1 } }
  let (collected, transient, collectFailed) ←
    collectReceipts (r.exporter build) build.status.verificationResults
  let build ← r.persistVerificationStatus { build with status := { build.status with
    verificationResults := boundVerificationErrors collected
    verificationLastError := truncate transient 2048 } }
  let results := build.status.verificationResults
  let ctx ← attempt ctxErr
  let (results, transient, failed) ← (if !(hardStop && collectFailed) && ctx.isOk
    then registryAttempt results transient else pure (results, transient, collectFailed))
  let ctx ← attempt ctxErr
  let transient := match ctx with
    | .error e => if transient == "" then e.message r.cfg.namespaceName else transient
    | .ok () => transient
  pure ({ build with status :=
    KovaBuildStatus.setResults build.status (boundVerificationErrors results) }, transient, failed)

/-- Whether the handler may attempt a verification now: the deadline is open, the next attempt is
due and the process has a free slot. -/
def attemptDue : K Bool := do
  let now ← timeNow
  if build.status.verificationNextAttemptAt.any fun next => now < next then pure false
  else tryVerificationSlot

def pendingMessage : String := "verification batch remains pending"

/-- The backoff both handlers store after an attempt that left outputs pending. -/
def attemptDelay (transient : String) : Duration :=
  if transient == "" || transient == pendingMessage then 100 * millisecond
  else verificationBackoff build.status.verificationAttempts

def pendingStatus (transient : String) : KovaBuild :=
  { build with status := { build.status with
    verificationLastError :=
      truncate (if transient == "" then pendingMessage else transient) 2048 } }

def reconcileVerifying : K Unit := do
  let build ← r.witnessed build
  match build.status.verificationDeadlineAt with
  | none => r.failVerification build "verification state is missing or inconsistent"
  | some deadline =>
  if build.status.verificationStartedAt.isNone || !validVerificationResults r.ext build then
    r.failVerification build "verification state is missing or inconsistent"
  else
    let results := build.status.verificationResults
    let (done, failed) := verificationDone results
    if failed then r.failVerification build (firstVerificationError results)
    else if done then
      let _ ← r.finish { build with status := { build.status with
        outputs := verificationOutputs results, verificationLastError := "",
        verificationNextAttemptAt := none } } .succeeded "Completed" ""
    else
      let now ← timeNow
      if deadline - now ≤ 0 then
        let last := build.status.verificationLastError
        r.failVerification build ("result verification exceeded its deadline" ++
          (if last != "" then ": " ++ last else ""))
      else if !(← attemptDue build) then pure ()
      else
        let (build, transient, hardFailure) ← r.verificationAttempt build true
        let (done, failed) := verificationDone build.status.verificationResults
        if hardFailure || failed then
          let message := firstVerificationError build.status.verificationResults
          r.failVerification build message
        else if done then
          let build ← r.persistVerificationStatus { build with status := { build.status with
            verificationLastError := "", verificationNextAttemptAt := none } }
          let _ ← r.finish build .succeeded "Completed" ""
        else
          let later ← timeNow
          let delay := min (attemptDelay build transient) (max (deadline - later) millisecond)
          let build := pendingStatus build transient
          let _ ← r.persistVerificationStatus { build with status := { build.status with
            verificationNextAttemptAt := some (later + delay) } }

def reconcileFailedVerifying : K Unit := do
  let build ← r.witnessed build
  let malformed := { build with status := { build.status with
    verificationResults := [], outputs := [],
    verificationLastError := "failed build verification state is missing or inconsistent" } }
  match build.status.verificationDeadlineAt with
  | none => r.finishFailedVerification malformed
  | some deadline =>
  if build.status.verificationStartedAt.isNone || !validVerificationResults r.ext build then
    r.finishFailedVerification malformed
  else
    let results := build.status.verificationResults
    if (verificationDone results).1 then
      let status := { build.status with verificationLastError := firstFailedResultError results }
      r.finishFailedVerification { build with
        status := KovaBuildStatus.setResults status results }
    else
      let now ← timeNow
      if deadline - now ≤ 0 then r.expireFailedVerification build
      else if !(← attemptDue build) then pure ()
      else
        let (build, transient, _) ← r.verificationAttempt build false
        let results := build.status.verificationResults
        if (verificationDone results).1 then
          r.finishFailedVerification { build with status := { build.status with
            verificationLastError := firstFailedResultError results } }
        else
          let later ← timeNow
          let pending := pendingStatus build transient
          if deadline - later ≤ 0 then r.expireFailedVerification pending
          else
            let delay := min (attemptDelay build transient) (deadline - later)
            let _ ← r.persistVerificationStatus { pending with status := { pending.status with
              verificationNextAttemptAt := some (later + delay) } }

end Reconciler

end KovaService.Controller
