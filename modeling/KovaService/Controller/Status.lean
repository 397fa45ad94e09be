import KovaService.Controller.Witness
import KovaService.Controller.Reservation

/-!
`status.go` and the writing half of `genesis_stop.go`.  A status write returns the stored object, and
the caller goes on with it, as the Go client decodes the answer into the object it was given.
-/

namespace KovaService.Controller

open Lib Api Ledger

def admissionRecoveryCondition : String := "AdmissionRecoveryRequired"

def setStatusCondition (cs : List Condition) (c : Condition) : List Condition :=
  if cs.any fun d => d.type == c.type then cs.map fun d => if d.type == c.type then c else d
  else cs ++ [c]

def removeStatusCondition (cs : List Condition) (type : String) : List Condition :=
  cs.filter fun d => d.type != type

def phaseCondition (generation : Int) (phase : Phase) (reason message : String) : Condition :=
  let message := truncate message 2048
  { type := "Ready"
    status := match phase with
      | .succeeded => "True"
      | .failed | .cancelled => "False"
      | _ => "Unknown"
    reason := truncate reason 128
    message := if message == "" then phase.toString else message
    observedGeneration := generation }

def KovaBuildStatus.setPhaseCondition (st : KovaBuildStatus) (generation : Int) (phase : Phase)
    (reason message : String) : KovaBuildStatus :=
  { st with conditions :=
      setStatusCondition st.conditions (phaseCondition generation phase reason message) }

def terminalStatus (build : KovaBuild) (phase : Phase) (reason message : String) (now : Time) :
    KovaBuildStatus :=
  KovaBuildStatus.setPhaseCondition
    { build.status with
      phase := phase, observedGeneration := build.generation, reason := truncate reason 128,
      message := truncate message 2048, finishedAt := some now, pollFailureSince := none,
      pollFailureCount := 0 }
    build.generation phase (truncate reason 128) (truncate message 2048)

def defaultVerificationWindow : Duration := 5 * 60 * second

namespace Reconciler

variable (r : Reconciler) (build : KovaBuild)

def verificationWindow : Duration :=
  if r.cfg.verificationWindow > 0 then r.cfg.verificationWindow else defaultVerificationWindow

def markAdmissionRecoveryReason (reason message : String) : K KovaBuild :=
  if (build.status.conditions.find? fun c => c.type == admissionRecoveryCondition).any fun c =>
      c.status == "True" && c.reason == reason && c.message == message then pure build
  else
    updateStatus { build with status := { build.status with
      conditions := setStatusCondition build.status.conditions
        { type := admissionRecoveryCondition, status := "True", reason := reason,
          message := message, observedGeneration := build.generation } } }

def markAdmissionRecovery (pending : Nat) : K KovaBuild :=
  markAdmissionRecoveryReason build "PodCreateOutcomeUnknown"
    (toString pending ++
      " runner Pod create attempt(s) have an unknown outcome; capacity remains reserved")

def clearAdmissionRecovery : K KovaBuild :=
  if build.status.conditions.any fun c => c.type == admissionRecoveryCondition then
    updateStatus { build with status := { build.status with
      conditions := removeStatusCondition build.status.conditions admissionRecoveryCondition } }
  else pure build

def writeTerminalStatus (phase : Phase) (reason message : String) :
    K KovaBuild := do
  let now ← timeNow
  updateStatus { build with status := terminalStatus build phase reason message now }

/-- The Genesis conditions of `finish` on a terminal outcome. -/
def finishEffective (phase : Phase) : K Unit := do
  if build.status.admissionGenesisWitness.isNone then
    failIf (phase == .succeeded)
      (.text "Genesis success cannot be recorded without independent runner witness")
    genesisCheck
  else
    let _ ← r.directGenesisWitness build
    onlyIf (phase == .succeeded) do
      failIf (!validVerificationResults r.ext build)
        (.text "Genesis success lacks exact verification results")
      failIf (verificationDone build.status.verificationResults != (true, false))
        (.text "Genesis success has pending or failed verification")

def finish (phase : Phase) (reason message : String) : K KovaBuild := do
  onlyIf r.genesis.isSome (r.finishEffective build phase)
  writeTerminalStatus build phase reason message

def validateRunnerPodStatusName : Except Err Unit :=
  if build.status.runnerPodName != "" && build.status.runnerPodName != buildPodName build.name then
    .error (.text ("KovaBuild " ++ r.qualified build.name ++ " references unexpected runner Pod \"" ++
      build.status.runnerPodName ++ "\""))
  else .ok ()

/-- The Genesis preconditions of `deleteOwnedRunnerPodAndConfirm`: the objects to go on with. -/
def genesisDeleteState (pod : Pod) : K (KovaBuild × Pod) := do
  genesisCheck
  let (current, observed) ← r.directGenesisStopState build
  match observed with
  | none => throw (.text "Genesis Pod deletion lacks exact durable terminal or stop witness")
  | some observed =>
    failIf (observed.uid != pod.uid ||
      (!current.status.phase.isTerminal && !validGenesisStopIntent current))
      (.text "Genesis Pod deletion lacks exact durable terminal or stop witness")
    let entry ← r.directGenesisCharge current
    failIf (!entry.closing) (.text "Genesis Pod deletion lacks fenced active charge")
    r.qualifyGenesisPod current (some observed) true
    pure (current, observed)

def ignoreNotFound : Except Err Unit → Except Err Unit
  | .ok () => .ok ()
  | .error e => if e.isNotFound then .ok () else .error e

/-- `DeletePodWithUID`.  Of the polling reads that wait for the Pod to go only the last is kept. -/
def deletePodWithUID (name : String) (uid : UID) : K Unit := do
  failIf (uid == "") (.text ("refusing to delete pod " ++ r.qualified name ++ " without a UID"))
  let answer ← attempt (deletePod name uid)
  ofAns (ignoreNotFound answer)
  match ← attempt (getPod name) with
  | .error e => failIf (!e.isNotFound) e
  | .ok pod =>
    if pod.uid != uid then
      throw (.api .conflict ("pod " ++ r.qualified name ++ " was replaced: expected UID " ++ uid ++
        ", observed UID " ++ pod.uid))
    else
      throw (.text ("timed out waiting for pod " ++ r.qualified name ++ " UID " ++ uid ++
        " deletion"))

/-- Settle the attempt a Pod is stamped with. -/
def settleStamp (pod : Pod) : K Unit :=
  onlyIf (pod.annotations.createAttempt != "")
    (r.completePodCreate build pod.annotations.createAttempt)

def deleteOwnedRunnerPodAndConfirm (pod : Pod) : K Unit := do
  failIf (pod.name != buildPodName build.name || !pod.ownedByBuild build)
    (.text ("refusing to delete runner Pod " ++ r.qualified pod.name ++
      " not matching KovaBuild UID " ++ build.uid))
  failIf (pod.uid == "")
    (.text ("refusing to delete runner Pod " ++ r.qualified pod.name ++ " without a UID"))
  let (build, pod) ←
    (if r.genesis.isSome then r.genesisDeleteState build pod else pure (build, pod))
  r.settleStamp build pod
  r.deletePodWithUID pod.name pod.uid
  match ← attempt (getPod pod.name) with
  | .error e => failIf (!e.isNotFound) e
  | .ok present =>
    if present.uid != pod.uid then
      throw (.api .conflict ("runner Pod " ++ r.qualified pod.name ++
        " was replaced after deletion: expected UID " ++ pod.uid ++ ", observed UID " ++
        present.uid))
    else
      throw (.text ("runner Pod " ++ r.qualified pod.name ++ " UID " ++ pod.uid ++
        " still exists after deletion"))

/-- Delete the runner Pod a read returned, if there is one. -/
def deleteFound : Option Pod → K Unit
  | none => pure ()
  | some pod => r.deleteOwnedRunnerPodAndConfirm build pod

def deleteRunnerAndConfirm : K Unit := do
  ofAns (r.validateRunnerPodStatusName build)
  if r.genesis.isSome then
    genesisCheck
    if build.status.admissionGenesisWitness.isNone then
      let pod ← r.getOwnedPod build
      failIf pod.isSome (.text "Genesis cleanup refuses a runner Pod without durable witness")
    else
      let (current, pod) ← r.directGenesisStopState build
      match pod with
      | none =>
        failIf (!current.status.phase.isTerminal)
          (.text "Genesis cleanup cannot infer a nonterminal result from Pod absence")
      | some pod =>
        failIf (!current.status.phase.isTerminal && !validGenesisStopIntent current)
          (.text "Genesis cleanup lacks a terminal result or durable stop intent")
        r.deleteOwnedRunnerPodAndConfirm current pod
  else
    r.deleteFound build (← r.getOwnedPod build)

def finishGenesisStopped : K Unit := do
  genesisCheck
  let (current, pod) ← r.directGenesisStopState build
  failIf (!validGenesisStopIntent current || pod.isSome || current.status.phase.isTerminal)
    (.text "Genesis stopped outcome lacks durable intent or direct Pod absence")
  let entry ← r.directGenesisCharge current
  failIf (!entry.closing || entry.inFlight != [])
    (.text "Genesis stopped outcome still has an open or in-flight active charge")
  match current.status.admissionGenesisStopIntent with
  | none => throw (.text "Genesis stopped outcome lacks durable intent or direct Pod absence")
  | some i =>
    let (phase, message) ← ofAns (genesisStopOutcome i.reason)
    let _ ← writeTerminalStatus current phase i.reason message

def resumeGenesisStop : K Unit := do
  genesisCheck
  let (current, pod) ← r.directGenesisStopState build
  failIf (!validGenesisStopIntent current || current.status.phase.isTerminal)
    (.text "Genesis stop has no valid nonterminal intent")
  let entry ← r.directGenesisCharge current
  failIf (!entry.closing) (.text "Genesis stop active charge is not fenced")
  r.deleteFound current pod
  r.finishGenesisStopped current

/-- The conditions of `stopGenesisRunner` on recording an intent for this reason. -/
def stopEffective (reason : String) : K Unit := do
  let active := build.status.phase == .starting || build.status.phase == .running
  if reason == "Cancelled" then
    failIf (!build.cancellationRequested || !active)
      (.text "Genesis cancellation is no longer requested for an active runner")
  else if reason == "BuildTimedOut" then
    let now ← timeNow
    failIf (!active || r.cfg.maxBuildDuration ≤ 0 ||
      !build.status.startedAt.any fun t => now - t ≥ r.cfg.maxBuildDuration)
      (.text "Genesis build timeout is no longer effective")
  else if reason == "Deleted" then
    failIf build.deletionTimestamp.isNone (.text "Genesis CR deletion is not durable")

/-- Record a stop intent for this reason, fencing the charge first. -/
def recordStop (current : KovaBuild) (pod : Option Pod) (reason : String) :
    K KovaBuild := do
  failIf (pod.isNone || pod.any (fun p => p.deletionTimestamp.isSome) ||
    current.status.phase.isTerminal)
    (.text "Genesis stop has no live original Pod or active phase before intent")
  failIf (current.status.phase != build.status.phase)
    (.text "Genesis stop phase changed after the runner observation")
  r.stopEffective current reason
  let _ ← r.directGenesisCharge current
  r.fenceReservation current
  let entry ← r.directGenesisCharge current
  failIf (!entry.closing) (.text "Genesis stop lacks a fenced exact active charge")
  updateStatus { current with status := { current.status with
    admissionGenesisStopIntent :=
      current.status.admissionGenesisWitness.map fun w => genesisStopIntent w reason } }

def stopGenesisRunner (reason : String) : K Unit := do
  let _ ← ofAns (genesisStopOutcome reason)
  genesisCheck
  let (current, pod) ← r.directGenesisStopState build
  let stopped ← (if current.status.admissionGenesisStopIntent.isSome then pure current
    else r.recordStop build current pod reason)
  failIf (!stopped.status.admissionGenesisStopIntent.any fun i => i.reason == reason)
    (.text "Genesis stop already committed a different outcome")
  r.resumeGenesisStop stopped

end Reconciler

end KovaService.Controller
