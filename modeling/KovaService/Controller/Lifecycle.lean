import KovaService.Controller.Start
import KovaService.Controller.Verification

/-!
`lifecycle.go` from the Starting status on, and `Reconcile`, the dispatch on the cached object.
-/

namespace KovaService.Controller

open Lib Api Ledger

/-- `FetchExitCodeInvalidSource` and `FetchExitCodeResourceExhausted`. -/
def fetchExitCodeInvalidSource : Int := 20

def fetchExitCodeResourceExhausted : Int := 21

/-- `sourceFetchFailure`: the reason and message of a failed source fetch. -/
def sourceFetchFailure (pod : Pod) : Option (String × String) :=
  if pod.status.reason == "Evicted" then
    some ("RunnerResourceExhausted", "runner Pod was evicted before build submission")
  else
    (pod.status.initContainerStatuses.find? fun s =>
      s.name == "source-fetch" && s.exitCode != 0).map fun s =>
        let message := if s.message != "" then s.message else if s.reason != "" then s.reason
          else "source fetch exited with code " ++ toString s.exitCode
        if s.reason == "OOMKilled" || s.exitCode == fetchExitCodeResourceExhausted then
          ("SourceFetchResourceExhausted", message)
        else if s.exitCode == fetchExitCodeInvalidSource then ("InvalidSource", message)
        else ("SourceFetchUnavailable", message)

def submitBuild (r : Reconciler) (build : KovaBuild) : K Unit := do
  let state ← execSubmit build.status.runnerPodName (expectedPodUID build) (r.requestID build)
  failIf (state.status == .failed || state.status == .error) (.text "build request failed")

/-- The terminal reason for a failed source inspection; `none` where it is retried. -/
def inspectFailure (e : Err) : Option String :=
  if e.is .runnerResponseTooLarge || e.is .sourceInspectProtocol then some "RunnerProtocolError"
  else if e.is .sourceInspectTransport then none
  else if e.is .sourceInspectInvalid then some "InvalidSource"
  else if e.is .sourceInspectResourceExhausted then some "SourceInspectResourceExhausted"
  else some "SourceInspectUnavailable"

namespace Reconciler

variable (r : Reconciler) (build : KovaBuild)

def describe (e : Err) : String := e.message r.cfg.namespaceName

/-- `finish` with phase Failed, for the callers that return right after it. -/
def failBuild (reason message : String) : K Unit := do
  let _ ← r.finish build .failed reason message

def getRunnerPod : K Pod := getPod build.status.runnerPodName

def clearPollFailure : K KovaBuild :=
  if build.status.pollFailureSince.isNone && build.status.pollFailureCount == 0 then pure build
  else updateStatus { build with status := { build.status with
    pollFailureSince := none, pollFailureCount := 0 } }

def retryStatusObservation (observationErr : Err) : K Unit := do
  failIf (r.genesis.isSome && build.status.admissionGenesisWitness.isSome) observationErr
  failIf (build.status.runnerPodName == "") (.text ("running KovaBuild " ++
    r.qualified build.name ++ " has no runner Pod name"))
  ofAns (r.validateRunnerPodStatusName build)
  match ← attempt (getRunnerPod build) with
  | .error e =>
    if e.isNotFound then
      r.failBuild build "RunnerUnavailable"
        "runner Pod disappeared while build status was unavailable"
    else throw e
  | .ok pod =>
    failIf (!pod.ownedByBuild build) (.text ("runner Pod " ++ r.qualified pod.name ++
      " is not owned by KovaBuild UID " ++ build.uid))
    if pod.status.phase == .failed || pod.status.phase == .succeeded then
      r.failBuild build "RunnerUnavailable"
        ("runner Pod terminated while build status was unavailable: " ++ pod.status.phase.toString)
    else
      let now ← timeNow
      let since := build.status.pollFailureSince.getD now
      let build := { build with status := { build.status with pollFailureSince := some since } }
      let later ← timeNow
      if r.cfg.pollRetryWindow > 0 && later - since ≥ r.cfg.pollRetryWindow then
        failIf r.genesis.isSome (.text "Genesis runner stop requires the terminal-first stop path")
        r.deleteOwnedRunnerPodAndConfirm build pod
        r.failBuild build "RunnerUnavailable" ("runner status unavailable for " ++
          r.ext.durationString r.cfg.pollRetryWindow ++ ": " ++ r.describe observationErr)
      else
        let count := build.status.pollFailureCount
        let _ ← updateStatus { build with status := { build.status with
          pollFailureCount := if count < 5 then count + 1 else count } }

def finishObservedBuild (state : BuildState) : K Unit := do
  let build := { build with status := { build.status with
    pollFailureSince := none, pollFailureCount := 0 } }
  if waitDecision state.status matches .ok (_, true) then r.beginVerification build
  else if state.status == .cancelled then
    let _ ← r.finish build .cancelled "Cancelled" state.error
  else r.beginFailedVerification build state.error

def expireActiveBuild : K Bool := do
  let now ← timeNow
  if r.cfg.maxBuildDuration ≤ 0 || !build.status.startedAt.any
      fun t => now - t ≥ r.cfg.maxBuildDuration then pure false
  else
    failIf r.genesis.isSome
      (.text "Genesis expiry requires exact nonterminal runner observation before forced stop")
    onlyIf (build.status.runnerPodName != "") do
      ofAns (r.validateRunnerPodStatusName build)
      let _ ← attempt (cancelRunner build)
      r.deleteRunnerAndConfirm build
    r.failBuild build "BuildTimedOut" ("build exceeded the service maximum duration of " ++
      r.ext.durationString r.cfg.maxBuildDuration)
    pure true

/-- `reconcileExpiredBuild` on the observed state of a Genesis runner. -/
def expireGenesisBuild (state : BuildState) : K Unit := do
  if state.status == .idle then
    failIf (build.status.phase != .starting) (.text
      "Genesis Running runner reported idle at expiry; accepted request outcome is uncertain")
    r.stopGenesisRunner build "BuildTimedOut"
  else
    let (done, _) ← ofAns (waitDecision state.status)
    if done then r.finishObservedBuild build state
    else r.stopGenesisRunner build "BuildTimedOut"

/-- `reconcileExpiredBuild`: whether the handler ends here. -/
def reconcileExpiredBuild : K Bool := do
  let now ← timeNow
  if r.cfg.maxBuildDuration ≤ 0 || !build.status.startedAt.any
      fun t => now - t ≥ r.cfg.maxBuildDuration then pure false
  else
    let answer ← attempt (r.observeBuildStatus build)
    if r.genesis.isSome then
      r.expireGenesisBuild build (← ofAns answer)
      pure true
    else
      match answer with
      | .ok state =>
        if (state.requestID == "" || state.requestID == r.requestID build) &&
            (waitDecision state.status matches .ok (true, _)) then
          r.finishObservedBuild build state
          pure true
        else r.expireActiveBuild build
      | .error _ => r.expireActiveBuild build

def runningStatus : KovaBuildStatus :=
  KovaBuildStatus.setPhaseCondition
    { build.status with
      phase := .running, observedGeneration := build.generation, message := "",
      pollFailureSince := none, pollFailureCount := 0 }
    build.generation .running "BuildSubmitted" "build was submitted to the runner"

/-- A state the runner reports: of another request, at the end, or still `working`. -/
def followState (state : BuildState) (working : K Unit) : K Unit := do
  if state.requestID != "" && state.requestID != r.requestID build then
    r.failBuild build "RunnerProtocolError" "runner reported a different build request"
  else
    match waitDecision state.status with
    | .error e => r.failBuild build "RunnerProtocolError" (r.describe e)
    | .ok (true, _) => r.finishObservedBuild build state
    | .ok (false, _) => working

/-- Ask the runner for its state; no answer is tried again, an answer it cannot mean ends the build. -/
def withState (next : BuildState → K Unit) : K Unit := do
  match ← attempt (r.observeBuildStatus build) with
  | .error e =>
    if e.is .invalidBuildStatus then r.failBuild build "RunnerProtocolError" (r.describe e)
    else r.retryStatusObservation build e
  | .ok state => next state

def markSubmitted (state : BuildState) : K Unit := do
  failIf (r.genesis.isSome && !build.status.admissionGenesisWitness.any
    fun w => state.requestID == w.runnerRequestID)
    (.text "Genesis runner acceptance lacks exact request witness")
  r.followState build state do
    let _ ← updateStatus { build with status := runningStatus build }

def observeExistingGenesisSubmission (grantErr : Err) : K Unit := do
  match ← attempt genesisCheck with
  | .ok () => throw grantErr
  | .error e =>
    failIf (!e.isNotFound && !e.is .genesisChanged) grantErr
    match ← attempt (r.directGenesisWitness build) with
    | .error _ => throw grantErr
    | .ok (current, _) =>
      match ← attempt (r.observeBuildStatus current) with
      | .error _ => throw grantErr
      | .ok state =>
        failIf (state.status == .idle) grantErr
        r.markSubmitted current state

/-- The direct grant each stage of a Genesis submission needs; a legacy submission goes on as is. -/
def withGrant (pod : Option Pod) (next : KovaBuild → Option Pod → K Unit) :
    K Unit := do
  if r.genesis.isSome then
    match ← attempt (r.directGenesisGrant build) with
    | .error e => r.observeExistingGenesisSubmission build e
    | .ok (current, witnessedPod) => next current (some witnessedPod)
  else next build pod

/-- `submitWhenReady`, after the build was sent to the runner with this answer. -/
def afterSubmit (pod : Option Pod) (answer : Except Err Unit) : K Unit := do
  if r.genesis.isSome then
    let (current, after) ← r.directGenesisWitness build
    failIf (!pod.any fun p => samePodUID p after)
      (.text "Genesis runner Pod UID changed across build submission")
    match ← attempt (r.observeBuildStatus current) with
    | .error e => r.retryStatusObservation current e
    | .ok state => if state.status == .idle then pure () else r.markSubmitted current state
  else
    match answer with
    | .ok () => r.markSubmitted build { status := .running }
    | .error _ =>
      r.withState build fun state =>
        if state.status == .idle then pure () else r.markSubmitted build state

/-- `submitWhenReady`, from an idle runner on: inspect the source, check the grant again and send
the build. -/
def submitIdle (pod : Option Pod) : K Unit := do
  match ← attempt (execInspect build.status.runnerPodName (expectedPodUID build)) with
  | .error e =>
    match inspectFailure e with
    | some reason => r.failBuild build reason (r.describe e)
    | none => r.retryStatusObservation build e
  | .ok sourceTargets =>
    if !equalTargetSpecSets r.ext build.spec.targets sourceTargets then
      r.failBuild build "InvalidTargets" "source targets do not exactly match requested targets"
    else
      r.withGrant build pod fun build pod => do
        if ← r.reconcileExpiredBuild build then pure ()
        else
          r.withGrant build pod fun build pod => do
            let answer ← attempt (submitBuild r build)
            r.afterSubmit build pod answer

/-- `submitWhenReady` on a Pod that is not ready. -/
def awaitReady (pod : Pod) : K Unit := do
  match sourceFetchFailure pod with
  | some (reason, message) => r.failBuild build reason message
  | none =>
    if pod.status.phase == .failed || pod.status.phase == .succeeded then
      r.failBuild build "RunnerUnavailable"
        ("runner Pod terminated before becoming ready: " ++ pod.status.phase.toString)
    else
      let now ← timeNow
      if r.cfg.waitTimeout > 0 &&
          build.status.startedAt.any (fun t => now - t ≥ r.cfg.waitTimeout) then
        r.failBuild build "RunnerUnavailable" ("runner Pod did not become ready within " ++
          r.ext.durationString r.cfg.waitTimeout)

/-- `submitWhenReady` on the runner Pod it read. -/
def submitToPod (pod : Pod) : K Unit := do
  if !pod.status.ready then r.awaitReady build pod
  else
    r.withState build fun state => do
      if state.status != .idle then r.markSubmitted build state
      else if !state.idempotent then
        r.failBuild build "RunnerProtocolIncompatible" ("idle runner does not advertise " ++
          "idempotent build submission; drain Starting jobs and replace the legacy runner before " ++
          "upgrading the controller")
      else
        let build ← clearPollFailure build
        r.withGrant build (some pod) r.submitIdle

def submitWhenReady : K Unit :=
  r.withGrant build none fun build pod => do
    if ← r.reconcileExpiredBuild build then pure ()
    else
      match pod with
      | some pod => r.submitToPod build pod
      | none =>
        match ← attempt (getRunnerPod build) with
        | .ok pod => r.submitToPod build pod
        | .error e =>
          if e.isNotFound then
            r.failBuild build "RunnerUnavailable"
              "runner Pod disappeared before the build was submitted"
          else throw e

def pollBuild : K Unit := do
  let build ← r.witnessed build
  if ← r.reconcileExpiredBuild build then pure ()
  else
    r.withState build fun state => r.followState build state do
      let _ ← clearPollFailure build

/-- A missing or replaced ledger pair does not end a cancellation. -/
def toleratePair : Except Err Unit → Except Err Unit
  | .ok () => .ok ()
  | .error e => if !e.isNotFound && !e.is .genesisChanged then .error e else .ok ()

def reconcileGenesisCancellation : K Unit := do
  let pair ← attempt genesisCheck
  ofAns (toleratePair pair)
  let (current, _) ← r.directGenesisWitness build
  onlyIf pair.isOk do
    let _ ← r.directGenesisCharge current
  if current.status.phase == .verifying then r.reconcileVerifying current
  else
    failIf (current.status.phase != .starting && current.status.phase != .running)
      (.text "Genesis cancellation has no observable active phase")
    let state ← r.observeBuildStatus current
    if state.status == .idle then
      failIf (current.status.phase != .starting)
        (.text "Genesis Running runner reported idle; accepted request outcome is uncertain")
      r.stopGenesisRunner current "Cancelled"
    else
      let (done, _) ← ofAns (waitDecision state.status)
      if done then r.finishObservedBuild current state
      else
        ofAns pair
        r.stopGenesisRunner current "Cancelled"

def cancelBuild : K Unit := do
  failIf (r.genesis.isSome && build.status.admissionGenesisWitness.isSome)
    (.text "Genesis accepted runner cancellation requires exact terminal observation before stop")
  r.fenceReservation build
  ofAns (r.validateRunnerPodStatusName build)
  onlyIf (r.genesis.isNone && build.status.phase == .running &&
      build.status.runnerPodName != "") do
    -- the Pod's deletion is the authoritative stop, so the daemon's answer does not matter
    let _ ← attempt (cancelRunner build)
  r.deleteRunnerAndConfirm build
  let _ ← r.finish build .cancelled "Cancelled" "build was cancelled"

/-- The release both cleanup handlers make once the runner is gone. -/
def releaseCapacity : K Unit := do
  match ← attempt (r.releaseReservation build) with
  | .ok () => r.releaseQueueIntent build
  | .error e =>
    reportRecovery build e
    throw e

def reconcileTerminal : K Unit := do
  r.fenceReservation build
  r.deleteRunnerAndConfirm build
  r.releaseCapacity build
  let build ← clearAdmissionRecovery build
  match build.status.finishedAt with
  | none => pure ()
  | some finished =>
    let now ← timeNow
    if r.cfg.jobTTL ≤ 0 || finished + r.cfg.jobTTL - now > 0 then pure ()
    else
      failIf (build.uid == "") (.text ("refusing to delete terminal KovaBuild " ++
        r.qualified build.name ++ " without a UID"))
      let answer ← attempt (deleteBuild build.name build.uid)
      ofAns (ignoreNotFound answer)

def reconcileDelete : K Unit := do
  if r.genesis.isSome && build.status.admissionGenesisWitness.isSome &&
      !build.status.phase.isTerminal then
    if build.status.admissionGenesisStopIntent.isSome then r.resumeGenesisStop build
    else r.stopGenesisRunner build "Deleted"
  else
    r.fenceReservation build
    r.deleteRunnerAndConfirm build
    let build ← (if !build.status.phase.isTerminal then
        r.finish build .cancelled "Deleted" "build was deleted"
      else pure build)
    r.releaseCapacity build
    if build.finalizers.contains cleanupFinalizer then
      match ← attempt (updateBuild { build with
          finalizers := build.finalizers.filter fun f => f != cleanupFinalizer }) with
      | .ok _ => pure ()
      | .error e => failIf (!e.isNotFound) e

def missingPlatform : Option String :=
  (build.spec.targets.map fun t => t.platform).find? fun p =>
    !r.cfg.buildkitPlatformAddrs.any fun a => a.1 == p

/-- `Reconcile` on a build that waits for a runner. -/
def reconcileQueued : K Unit := do
  onlyIf r.genesis.isSome genesisCheck
  match normalizeTargetSpecs r.ext.library build.spec.targets with
  | .error e => r.failBuild build "InvalidTargets" e
  | .ok _ =>
    match validateConcurrency build.requestedConcurrency build.spec.targets.length with
    | .error e => r.failBuild build "InvalidTargets" e
    | .ok () =>
      match r.missingPlatform build with
      | some platform =>
        r.failBuild build "WorkerPlatformUnavailable"
          ("no BuildKit worker pool is configured for platform " ++ platform)
      | none => r.startBuild build

/-- `Reconcile` on a live build without a pending cancellation. -/
def reconcilePhase : K Unit :=
  match build.status.phase with
  | .succeeded | .failed | .cancelled => r.reconcileTerminal build
  | .unset | .queued => r.reconcileQueued build
  | .starting => r.submitWhenReady build
  | .running => r.pollBuild build
  | .verifying => r.reconcileVerifying build
  | .failedVerifying => r.reconcileFailedVerifying build

/-- `Reconcile` on the cached object. -/
def dispatch : K Unit := do
  let st := build.status
  if build.inertTombstone then pure ()
  else if build.deletionTimestamp.isSome then r.reconcileDelete build
  else if !build.finalizers.contains cleanupFinalizer then
    onlyIf r.genesis.isSome genesisCheck
    let _ ← updateBuild { build with finalizers := build.finalizers ++ [cleanupFinalizer] }
  else if r.genesis.isSome && st.admissionGenesisStopIntent.isSome && !st.phase.isTerminal then
    r.resumeGenesisStop build
  else if build.cancellationRequested && !st.phase.isTerminal && st.phase != .failedVerifying then
    if r.genesis.isSome && st.admissionGenesisWitness.isSome &&
        (st.phase == .starting || st.phase == .running || st.phase == .verifying) then
      r.reconcileGenesisCancellation build
    else r.cancelBuild build
  else r.reconcilePhase build

def reconcile (name : String) : K Unit := do
  match ← attempt (cachedBuild name) with
  | .ok build => r.dispatch build
  | .error e => failIf (!e.isNotFound) e

end Reconciler

end KovaService.Controller
