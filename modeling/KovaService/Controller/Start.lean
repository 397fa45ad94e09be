import KovaService.Controller.Admission
import KovaService.Controller.Status

/-!
`startBuild`: from a queued build to a runner Pod and the Starting status.  A handler that returns
early in the source, with or without a requeue, answers here without an error; requeue times are left
out.
-/

namespace KovaService.Controller.Reconciler

open Lib Api Ledger

variable (r : Reconciler) (build : KovaBuild)

def controllerReference : OwnerReference where
  apiVersion := "kova.cofy.dev/v1alpha1"
  kind := "KovaBuild"
  name := build.name
  uid := build.uid

def sourceFetch : Container where
  name := "source-fetch"
  image := r.cfg.runnerImage
  command := ["kovad", "source", "fetch", "--uri", build.spec.source.uri, "--digest",
    build.spec.source.digest, "--output", materializedSourcePath] ++
    r.cfg.registryPlainHTTP.flatMap fun host => ["--registry-plain-http", host]

def ceilSeconds (d : Duration) : Int :=
  d.tdiv second + if d.tmod second != 0 then 1 else 0

def preparePod : Pod where
  name := buildPodName build.name
  buildIDLabel := build.name
  ownerReferences := [controllerReference build]
  spec :=
    { restartPolicy := "Never"
      containers := [{
        name := "runner", image := r.cfg.runnerImage, command := ["kovad", "daemon"],
        env := (r.cfg.runnerEnv.insertionSort fun a b => a.1 ≤ b.1).map fun v =>
          { name := v.1, value := v.2 } }]
      initContainers := if build.spec.source.uri != "" then [r.sourceFetch build] else []
      activeDeadlineSeconds :=
        if r.cfg.maxBuildDuration > 0 then
          some (ceilSeconds (r.cfg.maxBuildDuration + r.verificationWindow))
        else none }

/-- Store the recovery condition for a queue intent that disagrees with the build. -/
def reportDrift (e : Err) (blocked : String) : K Unit := do
  if e.is .queueDrift then
    let _ ← markAdmissionRecoveryReason build "QueueIntentDrift"
      ("queue intent does not match the build; " ++ blocked ++ " is blocked")

/-- Store the recovery condition for Pod Creates whose outcome is unknown. -/
def reportRecovery (e : Err) : K Unit := do
  match e.asRecovery with
  | some pending =>
    let _ ← markAdmissionRecovery build pending
  | none => pure ()

/-- `ReleaseForBuild` with the error handling all its callers share. -/
def releaseQueueIntent : K Unit := do
  match ← attempt (r.queueStore.releaseForBuild build) with
  | .ok () => mark (.released build)
  | .error e =>
    reportDrift build e "release"
    throw e

/-- The Genesis checks of `startBuild` on a Pod it found. -/
def acceptPod (pod : Pod) : K Unit := do
  if r.genesis.isSome then
    r.qualifyGenesisPod build (some pod) false
    let _ ← ofAns (r.witnessFromPod build (some pod))

/-- What `startBuild` does with the answer of its Pod Create. -/
def settleCreate (attempted : String) (answer : Except Err Pod) : K Bool := do
  match answer with
  | .ok _ =>
    onlyIf r.genesis.isSome do
      let observed ← r.getOwnedPod build
      r.qualifyGenesisPod build observed false
    r.completePodCreate build attempted
    pure true
  | .error e =>
    if e.isAlreadyExists then
      match ← r.getOwnedPod build with
      | none => throw (.text ("runner Pod " ++ r.qualified (buildPodName build.name) ++
          " disappeared after AlreadyExists"))
      | some owned =>
        r.acceptPod build owned
        failIf (r.genesis.isSome && owned.annotations.createAttempt != attempted)
          (.text "Genesis runner Pod Create was won by another attempt")
        r.completePodCreate build attempted
        r.settleStamp build owned
        pure true
    else if e.isDefinitiveRejection then
      r.completePodCreate build attempted
      let _ ← r.finish build .failed "RunnerCreateRejected" (e.message r.cfg.namespaceName)
      pure false
    else
      let _ ← r.finish build .failed "RunnerCreateOutcomeUnknown" (e.message r.cfg.namespaceName)
      pure false

/-- The runner Pod of an admitted build: the one found, or one created under a fresh attempt.
Answers whether `startBuild` goes on to the Starting status. -/
def ensureRunner : K Bool := do
  match ← r.getOwnedPod build with
  | some owned =>
    r.acceptPod build owned
    r.settleStamp build owned
    pure true
  | none =>
    match ← attempt (r.beginPodCreate build) with
    | .error e =>
      if e.is .admissionClosed || e.isNotFound then pure false
      else
        reportRecovery build e
        throw e
    | .ok attempted =>
      let pod := r.preparePod build
      let pod := { pod with annotations := { pod.annotations with createAttempt := attempted } }
      let pod ← r.stampGenesisPod build pod attempted
      let pod ←
        (if r.genesis.isSome then r.finishFreshPodAttempt build pod attempted else pure pod)
      let answer ← attempt (createPod pod)
      r.settleCreate build attempted answer

def startingStatus (allocation : Int) (witness : Option AdmissionGenesisWitness) (now : Time) :
    KovaBuildStatus :=
  KovaBuildStatus.setPhaseCondition
    { build.status with
      phase := .starting, observedGeneration := build.generation,
      allocatedConcurrency := allocation, runnerPodName := buildPodName build.name,
      admissionGenesisWitness := witness, startedAt := some now, message := "",
      conditions := removeStatusCondition build.status.conditions admissionRecoveryCondition }
    build.generation .starting "RunnerCreated" "runner Pod was created"

def waitingStatus (message : String) : KovaBuildStatus :=
  KovaBuildStatus.setPhaseCondition
    { build.status with
      phase := .queued, observedGeneration := build.generation,
      conditions := removeStatusCondition build.status.conditions admissionRecoveryCondition }
    build.generation .queued "WaitingForCapacity" message

/-- The witness of the runner Pod, read once more for the Starting status. -/
def podWitness : K (Option AdmissionGenesisWitness) := do
  let observed ← r.getOwnedPod build
  r.qualifyGenesisPod build observed false
  let witness ← ofAns (r.witnessFromPod build observed)
  pure (some witness)

/-- The end of `startBuild`: the Starting status, with the Pod's witness in Genesis mode. -/
def markStarting (allocation : Int) : K Unit := do
  let now ← timeNow
  let witness ← (if r.genesis.isSome then r.podWitness build
    else pure build.status.admissionGenesisWitness)
  onlyIf r.genesis.isSome genesisCheck
  let _ ← updateStatus { build with status := startingStatus build allocation witness now }

/-- `startBuild` after the admission decision. -/
def startDecided (decision : AdmissionDecision) : K Unit := do
  if decision.deferred then pure ()
  else if !decision.admitted then
    let status := waitingStatus build decision.message
    if status != build.status then
      let _ ← updateStatus { build with status := status }
  else
    onlyIf r.genesis.isNone (r.releaseQueueIntent build)
    if ← r.ensureRunner build then r.markStarting build decision.allocation

def startBuild : K Unit := do
  if r.cfg.runnerImage == "" then
    let _ ← r.finish build .failed "ConfigurationInvalid" "runner image is required"
  else
    let current ← getBuild build.name
    if current.uid != build.uid || !current.live then pure ()
    else
      match ← attempt (r.admission current) with
      | .error e =>
        if e.is .admissionClosed || e.isNotFound then pure ()
        else
          reportDrift current e "active admission"
          throw e
      | .ok decision => r.startDecided current decision

end KovaService.Controller.Reconciler
