import Mathlib.Tactic

/-!
The objects of the Kova service, as its Go types have them: KovaBuilds, runner Pods, and the errors
the code tells apart.

One namespace is modelled, so namespaces appear in messages only.  A resourceVersion is an opaque
string in the API; here it is the store's write counter, and `0` stands for the empty string of an
object that was never stored.  Annotations and labels are records of the keys the code reads; a
missing key is the empty string, as in a Go map.  Telemetry, events and log lines are left out.
-/

namespace KovaService.Api

abbrev Time := Int

abbrev Duration := Int

abbrev UID := String

def second : Duration := 1000000000

def millisecond : Duration := 1000000

inductive Reason where
  | notFound | alreadyExists | conflict | invalid | forbidden | badRequest | unauthorized
  | tooManyRequests | other
  deriving DecidableEq

inductive Sentinel where
  | admissionClosed | grantUnpinned | podReceiptUnpinned
  | queueFull | queueBusy | queueConflict | queueDrift
  | receiptInvalid | receiptChanged | receiptUnconfirmed
  | genesisChanged | genesisUncommitted | unlinkedGenesisHTTPBuild
  | invalidBuildStatus | sourceInspectTransport | sourceInspectInvalid
  | sourceInspectResourceExhausted | sourceInspectProtocol
  | exportTooLarge | runnerResponseTooLarge | registryDefinitive | reviewUnavailable
  deriving DecidableEq

def Sentinel.message : Sentinel → String
  | .admissionClosed => "KovaBuild is no longer eligible for runner admission"
  | .grantUnpinned => "active grant receipt is not pinned; recovery observation only"
  | .podReceiptUnpinned => "Pod Create receipt is not pinned; recovery observation only"
  | .queueFull => "queue admission limit reached"
  | .queueBusy => "queue admission is busy"
  | .queueConflict => "queue intent has different build parameters"
  | .queueDrift => "queue admission ledger and KovaBuild disagree"
  | .receiptInvalid => "invalid admission recovery receipt"
  | .receiptChanged => "admission recovery receipt changed"
  | .receiptUnconfirmed => "admission recovery receipt is unconfirmed"
  | .genesisChanged => "original admission installation changed"
  | .genesisUncommitted => "admission Genesis is not committed"
  | .unlinkedGenesisHTTPBuild => "existing KovaBuild is not linked to this HTTP submission"
  | .invalidBuildStatus => "invalid runner build status"
  | .sourceInspectTransport => "source inspect transport failed"
  | .sourceInspectInvalid => "source inspect rejected invalid archive"
  | .sourceInspectResourceExhausted => "source inspect exhausted runner resources"
  | .sourceInspectProtocol => "source inspect returned invalid response"
  | .exportTooLarge => "runner export exceeds 1 MiB limit"
  | .runnerResponseTooLarge => "runner response exceeds 1 MiB limit"
  | .registryDefinitive => "definitive result verification failure"
  | .reviewUnavailable => "identity review unavailable"

/-- A Go error: an API status, a package value, a plain text, `*admissionRecoveryError`, an error
wrapped by `fmt.Errorf` with `%w`, or two joined errors. -/
inductive Err where
  | api (reason : Reason) (message : String)
  | sentinel (s : Sentinel)
  | text (message : String)
  | recovery (buildName : String) (pending : Nat)
  | wrap (before : String) (e : Err) (after : String)
  | join (a b : Err)
  deriving DecidableEq

namespace Err

def message (namespaceName : String) : Err → String
  | .api _ m => m
  | .sentinel s => s.message
  | .text m => m
  | .recovery name pending =>
    "admission recovery required for " ++ namespaceName ++ "/" ++ name ++ ": " ++ toString pending
      ++ " Pod create attempt(s) have unknown outcome"
  | .wrap before e after => before ++ e.message namespaceName ++ after
  | .join a b => a.message namespaceName ++ "\n" ++ b.message namespaceName

def is (s : Sentinel) : Err → Bool
  | .sentinel s' => s' == s
  | .wrap _ e _ => e.is s
  | .join a b => a.is s || b.is s
  | _ => false

def reason : Err → Option Reason
  | .api r _ => some r
  | .wrap _ e _ => e.reason
  | .join a b => a.reason.or b.reason
  | _ => none

def isNotFound (e : Err) : Bool := e.reason == some .notFound

def isAlreadyExists (e : Err) : Bool := e.reason == some .alreadyExists

def isConflict (e : Err) : Bool := e.reason == some .conflict

def isTooManyRequests (e : Err) : Bool := e.reason == some .tooManyRequests

/-- `errors.As` with `*admissionRecoveryError`: the number of pending attempts. -/
def asRecovery : Err → Option Nat
  | .recovery _ pending => some pending
  | .wrap _ e _ => e.asRecovery
  | .join a b => a.asRecovery.or b.asRecovery
  | _ => none

/-- `definitivePodCreateRejection` and `definitiveCreateRejection`: the server refused the Create. -/
def isDefinitiveRejection (e : Err) : Bool :=
  e.reason == some .forbidden || e.reason == some .invalid || e.reason == some .badRequest ||
    e.reason == some .unauthorized

end Err

inductive Phase where
  | unset | queued | starting | running | verifying | failedVerifying | succeeded | failed
  | cancelled
  deriving DecidableEq

def Phase.toString : Phase → String
  | .unset => ""
  | .queued => "Queued"
  | .starting => "Starting"
  | .running => "Running"
  | .verifying => "Verifying"
  | .failedVerifying => "FailedVerifying"
  | .succeeded => "Succeeded"
  | .failed => "Failed"
  | .cancelled => "Cancelled"

def Phase.isTerminal : Phase → Bool
  | .succeeded | .failed | .cancelled => true
  | _ => false

inductive BuildFormat where
  | oci | nydus
  deriving DecidableEq

def BuildFormat.toString : BuildFormat → String
  | .oci => "oci"
  | .nydus => "nydus"

structure TargetSpec where
  target : String
  platform : String
  deriving DecidableEq

structure Requester where
  username : String
  uid : String
  deriving DecidableEq

structure SourceSpec where
  uri : String
  digest : String
  deriving DecidableEq

structure BuildOptions where
  format : String := ""
  concurrency : Int := 0
  timeout : Int := 0
  oomCooldown : String := ""
  failFast : Bool := false
  verbose : Bool := false
  vars : List String := []
  deriving DecidableEq

structure KovaBuildSpec where
  requester : Requester
  targets : List TargetSpec
  source : SourceSpec
  build : BuildOptions
  idempotencyKey : String := ""
  deriving DecidableEq

structure AdmissionGenesisWitness where
  namespaceUID : UID
  genesisUID : UID
  generation : String
  activeLedgerUID : UID
  queueLedgerUID : UID
  buildUID : UID
  podName : String
  podUID : UID
  podCreateAttempt : String
  podTemplateDigest : String
  runnerRequestID : String
  deriving DecidableEq

structure AdmissionGenesisStopIntent where
  buildUID : UID
  podUID : UID
  podCreateAttempt : String
  runnerRequestID : String
  reason : String
  deriving DecidableEq

structure BuildOutput where
  format : BuildFormat
  image : String
  manifestDigest : String
  platform : String
  deriving DecidableEq

inductive ResultState where
  | pending | succeeded | failed
  deriving DecidableEq

structure BuildVerificationResult where
  format : BuildFormat
  image : String
  platform : String
  pushedDigest : String := ""
  state : ResultState := .pending
  error : String := ""
  deriving DecidableEq

structure Condition where
  type : String
  status : String
  reason : String
  message : String
  observedGeneration : Int
  deriving DecidableEq

structure KovaBuildStatus where
  phase : Phase := .unset
  observedGeneration : Int := 0
  allocatedConcurrency : Int := 0
  runnerPodName : String := ""
  admissionGenesisWitness : Option AdmissionGenesisWitness := none
  admissionGenesisStopIntent : Option AdmissionGenesisStopIntent := none
  reason : String := ""
  message : String := ""
  startedAt : Option Time := none
  finishedAt : Option Time := none
  pollFailureSince : Option Time := none
  pollFailureCount : Int := 0
  verificationStartedAt : Option Time := none
  verificationDeadlineAt : Option Time := none
  verificationNextAttemptAt : Option Time := none
  verificationAttempts : Int := 0
  verificationLastError : String := ""
  verificationResults : List BuildVerificationResult := []
  outputs : List BuildOutput := []
  conditions : List Condition := []
  deriving DecidableEq

structure BuildAnnotations where
  cancellationRequestedAt : String := ""
  queueIntent : String := ""
  queueReceiptUID : String := ""
  queueReceiptDigest : String := ""
  queueReceiptSettledUID : String := ""
  deriving DecidableEq

def cleanupFinalizer : String := "kova.cofy.dev/cleanup"

/-- A KovaBuild.  `inertTombstone` is `recoverydrain.IsInertBuildTombstone`, the conjunction of
marker label, marker annotations, hold finalizer and inert spec that only recovery writes. -/
structure KovaBuild where
  name : String
  uid : UID := ""
  resourceVersion : Nat := 0
  generation : Int := 1
  creationTimestamp : Time := 0
  deletionTimestamp : Option Time := none
  annotations : BuildAnnotations := {}
  finalizers : List String := []
  inertTombstone : Bool := false
  spec : KovaBuildSpec
  status : KovaBuildStatus := {}
  deriving DecidableEq

def KovaBuild.cancellationRequested (b : KovaBuild) : Bool :=
  b.annotations.cancellationRequestedAt != ""

def KovaBuild.terminalOrDeleting (b : KovaBuild) : Bool :=
  b.deletionTimestamp.isSome || b.status.phase.isTerminal

/-- The condition under which a build may still receive a runner: not deleting, no cancellation
request, and not past the queue. -/
def KovaBuild.live (b : KovaBuild) : Bool :=
  b.deletionTimestamp.isNone && !b.cancellationRequested &&
    (b.status.phase == .unset || b.status.phase == .queued)

def KovaBuild.requesterKey (b : KovaBuild) : String :=
  if b.spec.requester.username != "" then b.spec.requester.username else "unknown/" ++ b.name

def KovaBuild.reservationKey (b : KovaBuild) : String :=
  if b.uid != "" then b.uid else "name:" ++ b.name

def KovaBuild.requestedConcurrency (b : KovaBuild) : Int :=
  if b.spec.build.concurrency > 0 then b.spec.build.concurrency else 1

def buildPodName (name : String) : String := "kova-job-" ++ name

structure OwnerReference where
  apiVersion : String
  kind : String
  name : String
  uid : UID
  deriving DecidableEq

/-- An environment variable with a literal value or a Downward API field `(apiVersion, fieldPath)`. -/
structure EnvVar where
  name : String
  value : String := ""
  fieldRef : Option (String × String) := none
  deriving DecidableEq

structure Container where
  name : String
  image : String
  command : List String
  env : List EnvVar := []
  deriving DecidableEq

structure PodSpec where
  restartPolicy : String
  containers : List Container
  initContainers : List Container := []
  activeDeadlineSeconds : Option Int := none
  deriving DecidableEq

inductive PodPhase where
  | pending | running | succeeded | failed | unknown
  deriving DecidableEq

def PodPhase.toString : PodPhase → String
  | .pending => "Pending"
  | .running => "Running"
  | .succeeded => "Succeeded"
  | .failed => "Failed"
  | .unknown => "Unknown"

structure InitContainerStatus where
  name : String
  exitCode : Int
  reason : String
  message : String
  deriving DecidableEq

structure PodStatus where
  phase : PodPhase := .pending
  reason : String := ""
  ready : Bool := false
  initContainerStatuses : List InitContainerStatus := []
  deriving DecidableEq

structure PodAnnotations where
  createAttempt : String := ""
  podTemplateDigest : String := ""
  namespaceUID : String := ""
  genesisUID : String := ""
  generation : String := ""
  activeLedgerUID : String := ""
  queueLedgerUID : String := ""
  buildUID : String := ""
  requestID : String := ""
  deriving DecidableEq

structure Pod where
  name : String
  uid : UID := ""
  deletionTimestamp : Option Time := none
  buildIDLabel : String := ""
  annotations : PodAnnotations := {}
  ownerReferences : List OwnerReference := []
  spec : PodSpec
  status : PodStatus := {}
  deriving DecidableEq

def Pod.ownedByBuild (p : Pod) (b : KovaBuild) : Bool :=
  p.ownerReferences.any fun o =>
    o.apiVersion == "kova.cofy.dev/v1alpha1" && o.kind == "KovaBuild" && o.name == b.name &&
      o.uid == b.uid

def samePodUID (left right : Pod) : Bool :=
  left.uid != "" && left.uid == right.uid

end KovaService.Api
