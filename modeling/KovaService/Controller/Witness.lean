import KovaService.Controller.PodReceipt
import KovaService.Controller.Results

/-!
`genesis_witness.go` and `genesis_stop.go`, the reading half: a runner Pod is identified by the
witness that the CR status and the Pod itself carry independently.
-/

namespace KovaService.Controller

open Lib Api Ledger

def runnerPodUIDEnv : String := "KOVA_RUNNER_POD_UID"

def genesisRunnerContainer (pod : Pod) : Except Err Container :=
  match pod.spec.containers.filter fun c => c.name == "runner" with
  | [c] => .ok c
  | [] => .error (.text "Genesis runner Pod has no runner container")
  | _ => .error (.text "Genesis runner Pod has duplicate runner containers")

/-- The runner container carries exactly one Downward API source of the Pod's UID. -/
def uidFence (c : Container) : Except Err Unit :=
  let fences := c.env.filter fun v => v.name == runnerPodUIDEnv
  if !fences.all (fun v => v.value == "" && v.fieldRef == some ("v1", "metadata.uid")) then
    .error (.text "Genesis runner Pod has no immutable Downward API UID fence")
  else if fences.length != 1 then
    .error (.text "Genesis runner Pod UID env must have one Downward API source")
  else .ok ()

namespace Reconciler

variable (r : Reconciler) (build : KovaBuild)

def stampGenesisPod (pod : Pod) (attempted : String) : K Pod := do
  match r.genesis with
  | none => pure pod
  | some g =>
    genesisCheck
    failIf (build.uid == "" || build.uid.utf8ByteSize > 256 || !validReservationHex attempted 32 ||
      pod.name != buildPodName build.name || !pod.ownedByBuild build)
      (.text "Genesis runner Pod lacks exact CR ownership or create attempt")
    let runner ← ofAns (genesisRunnerContainer pod)
    failIf (runner.env.any fun v => v.name == runnerPodUIDEnv)
      (.text "Genesis runner Pod UID env collides with configured runner env")
    let fence : EnvVar := { name := runnerPodUIDEnv, fieldRef := some ("v1", "metadata.uid") }
    pure { pod with
      spec := { pod.spec with containers := pod.spec.containers.map fun c =>
        if c.name == "runner" then { c with env := c.env ++ [fence] } else c }
      annotations := { pod.annotations with
        namespaceUID := g.namespaceUID, genesisUID := g.genesisUID, generation := g.generation,
        activeLedgerUID := g.activeLedgerUID, queueLedgerUID := g.queueLedgerUID,
        buildUID := build.uid, requestID := r.requestID build, createAttempt := attempted } }

def witnessFromPodMode (pod : Option Pod) (allowTerminating : Bool) :
    Except Err AdmissionGenesisWitness :=
  match r.genesis, pod with
  | some g, some pod =>
    if build.uid == "" || build.uid.utf8ByteSize > 256 || pod.uid == "" ||
        pod.uid.utf8ByteSize > 256 || pod.name != buildPodName build.name ||
        pod.buildIDLabel != build.name || !pod.ownedByBuild build ||
        (!allowTerminating && pod.deletionTimestamp.isSome) then
      .error (.text "Genesis runner Pod lacks a live exact UID and CR owner")
    else
      match genesisRunnerContainer pod with
      | .error e => .error e
      | .ok runner =>
        match uidFence runner with
        | .error e => .error e
        | .ok () =>
          let a := pod.annotations
          if !validReservationHex a.createAttempt 32 ||
              (r.requestID build).utf8ByteSize > 256 || a.namespaceUID != g.namespaceUID ||
              a.genesisUID != g.genesisUID || a.generation != g.generation ||
              a.activeLedgerUID != g.activeLedgerUID || a.queueLedgerUID != g.queueLedgerUID ||
              a.buildUID != build.uid || a.requestID != r.requestID build then
            .error (.text "Genesis runner Pod stamps differ from original admission receipt")
          else
            match r.ext.canonicalPodTemplateDigest pod with
            | .error _ =>
              .error (.text "Genesis runner Pod template differs from the durable pre-Create witness")
            | .ok digest =>
              if a.podTemplateDigest != digest then
                .error (.text
                  "Genesis runner Pod template differs from the durable pre-Create witness")
              else
                .ok { namespaceUID := g.namespaceUID, genesisUID := g.genesisUID,
                      generation := g.generation, activeLedgerUID := g.activeLedgerUID,
                      queueLedgerUID := g.queueLedgerUID, buildUID := build.uid,
                      podName := pod.name, podUID := pod.uid, podCreateAttempt := a.createAttempt,
                      podTemplateDigest := digest, runnerRequestID := r.requestID build }
  | _, _ => .error (.text "Genesis runner Pod lacks a live exact UID and CR owner")

def witnessFromPod (pod : Option Pod) : Except Err AdmissionGenesisWitness :=
  r.witnessFromPodMode build pod false

/-- `directGenesisWitnessModeWithObservation`, for the live mode all its callers use. -/
def directGenesisWitnessWith (observed : Bool) (build : KovaBuild) : K (KovaBuild × Pod) := do
  failIf (r.genesis.isNone || build.uid == "")
    (.text "Genesis witness requires an original CR and direct API reader")
  let current ← observedRead observed (getBuild build.name)
  failIf (current.uid != build.uid || current.deletionTimestamp.isSome ||
    current.status.admissionGenesisWitness.isNone ||
    current.status.admissionGenesisWitness != build.status.admissionGenesisWitness ||
    current.status.admissionGenesisWitness.any (fun w => current.status.runnerPodName != w.podName) ||
    current.status.runnerPodName != buildPodName build.name)
    (.text "Genesis CR status has no matching durable runner witness")
  let pod ← observedRead observed (r.getOwnedPod current)
  let witness ← ofAns (r.witnessFromPodMode current pod false)
  failIf (some witness != current.status.admissionGenesisWitness)
    (.text "Genesis CR and Pod witnesses disagree")
  match pod with
  | none => throw (.text "Genesis runner Pod lacks a live exact UID and CR owner")
  | some pod => pure (current, pod)

def directGenesisWitness : K (KovaBuild × Pod) :=
  r.directGenesisWitnessWith false build

def directGenesisChargeWith (observed : Bool) (build : KovaBuild) : K ActiveReservation := do
  let cm ← r.readReservationsWith observed
  match cm.data.active.lookup build.reservationKey with
  | none => throw (.text "Genesis runner has no exact active charge")
  | some entry =>
    failIf (entry.buildName != build.name || entry.requester != build.requesterKey ||
      entry.slots != build.status.allocatedConcurrency)
      (.text "Genesis runner has no exact active charge")
    pure entry

def directGenesisCharge : K ActiveReservation :=
  r.directGenesisChargeWith false build

def directGenesisGrant : K (KovaBuild × Pod) := do
  failIf r.genesis.isNone (.text "Genesis guard is not enabled")
  observe do
    let (current, pod) ← r.directGenesisWitnessWith true build
    failIf (current.status.phase != .starting || current.cancellationRequested)
      (.text "Genesis runner submission requires a live Starting CR")
    let entry ← r.directGenesisChargeWith true current
    failIf (entry.closing || entry.inFlight != [])
      (.text "Genesis runner submission lacks an open active grant")
    r.verifyPinnedGrantWith current entry
    r.qualifyGenesisPodWith true current (some pod) false
    pure (current, pod)

end Reconciler

def genesisStopOutcome (reason : String) : Except Err (Phase × String) :=
  if reason == "Cancelled" then .ok (.cancelled, "build was cancelled")
  else if reason == "Deleted" then .ok (.cancelled, "build was deleted")
  else if reason == "BuildTimedOut" then
    .ok (.failed, "build exceeded the service maximum duration")
  else .error (.text ("unsupported Genesis stop reason \"" ++ reason ++ "\""))

def genesisStopIntent (w : AdmissionGenesisWitness) (reason : String) :
    AdmissionGenesisStopIntent where
  buildUID := w.buildUID
  podUID := w.podUID
  podCreateAttempt := w.podCreateAttempt
  runnerRequestID := w.runnerRequestID
  reason := reason

def validGenesisStopIntent (build : KovaBuild) : Bool :=
  match build.status.admissionGenesisWitness, build.status.admissionGenesisStopIntent with
  | some w, some i =>
    (genesisStopOutcome i.reason).isOk && i.buildUID == w.buildUID && i.podUID == w.podUID &&
      i.podCreateAttempt == w.podCreateAttempt && i.runnerRequestID == w.runnerRequestID
  | _, _ => false

namespace Reconciler

variable (r : Reconciler)

def validGenesisStatusWitness (build : KovaBuild) : Bool :=
  match r.genesis, build.status.admissionGenesisWitness with
  | some g, some w =>
    build.uid != "" && w.namespaceUID == g.namespaceUID && w.genesisUID == g.genesisUID &&
      w.generation == g.generation && w.activeLedgerUID == g.activeLedgerUID &&
      w.queueLedgerUID == g.queueLedgerUID && w.buildUID == build.uid &&
      w.podName == buildPodName build.name && w.podUID != "" && w.podUID.utf8ByteSize ≤ 256 &&
      validReservationHex w.podCreateAttempt 32 && w.runnerRequestID == r.requestID build &&
      build.status.runnerPodName == w.podName
  | _, _ => false

def directGenesisStopState (build : KovaBuild) : K (KovaBuild × Option Pod) := do
  failIf (r.genesis.isNone || build.uid == "" || build.status.admissionGenesisWitness.isNone)
    (.text "Genesis stop requires an original durable runner witness")
  let current ← getBuild build.name
  failIf (current.uid != build.uid || !r.validGenesisStatusWitness current ||
    current.status.admissionGenesisWitness != build.status.admissionGenesisWitness ||
    (build.status.admissionGenesisStopIntent.isSome &&
      current.status.admissionGenesisStopIntent != build.status.admissionGenesisStopIntent) ||
    (current.status.admissionGenesisStopIntent.isSome && !validGenesisStopIntent current))
    (.text "Genesis stop CR identity, witness, or intent changed")
  match ← attempt (getPod current.status.runnerPodName) with
  | .error e => if e.isNotFound then pure (current, none) else throw e
  | .ok pod =>
    let witness ← ofAns (r.witnessFromPodMode current (some pod) true)
    failIf (some witness != current.status.admissionGenesisWitness)
      (.text "Genesis stop Pod UID or stamps differ from the durable CR witness")
    pure (current, some pod)

end Reconciler

end KovaService.Controller
