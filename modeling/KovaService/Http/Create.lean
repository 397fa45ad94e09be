import KovaService.Controller.Base

/-!
The handlers of the HTTP API that write: `create.go` and the cancellation of `actions.go`.

The body is given as the outcome of its parser.  The gate that bounds the concurrent queue writers of
one process is a context check here, since it only delays; response headers and bodies are reduced to
`Response`.
-/

namespace KovaService.Http

open Lib Api Ledger

structure Principal where
  username : String
  uid : String
  deriving DecidableEq

structure CreateBuildRequest where
  targets : List TargetSpec
  source : SourceSpec
  options : BuildOptions
  idempotencyKey : String := ""
  deriving DecidableEq

structure Server where
  ext : Ext
  cfg : Config
  genesis : Option Genesis

def idempotentJobID (x : Ext) (username key : String) : String :=
  if key == "" then ""
  else "idem-" ++ String.ofList ((x.sha256Hex (username ++ "\x00" ++ key)).toList.take 20)

def sameBuildRequest (build : KovaBuild) (request : CreateBuildRequest) : Bool :=
  build.spec.source == request.source && build.spec.targets == request.targets &&
    build.spec.build == request.options

def handled {α : Type} (call : K α) (failed : Err → Response) (next : α → K Response) :
    K Response := do
  match ← attempt call with
  | .error e => pure (failed e)
  | .ok a => next a

def differentParameters : Response :=
  .conflict "idempotency key is already used with different build parameters"

def authorizationFailure (e : Err) : Response :=
  if e.is .reviewUnavailable then .unavailable e else .forbidden

def genesisHTTPReplayFailure (e : Err) : Response :=
  if e.is .unlinkedGenesisHTTPBuild then
    .conflict "idempotency key belongs to a KovaBuild without this HTTP receipt link"
  else .unavailable e

def reserveFailure (e : Err) : Response :=
  if e.is .queueFull then .capacityExceeded "queue limit is reached"
  else if e.is .queueBusy then .capacityExceeded "queue admission is busy; retry"
  else if e.is .queueConflict then differentParameters
  else .unavailable e

namespace Server

variable (s : Server) (p : Principal) (request : CreateBuildRequest) (build : KovaBuild)
variable (intent : Intent) (witness : Option Queue.ObservedQueueIntent)

def checkGenesis : K Unit := do
  if s.genesis.isSome then genesisCheck

def queueStore : Queue.Store where
  ext := s.ext
  genesis := s.genesis
  namespaceName := s.cfg.namespaceName
  globalLimit := s.cfg.maxQueuedJobs
  requesterLimit := s.cfg.maxQueuedJobsPerRequester

def reconciler : Controller.Reconciler where
  ext := s.ext
  cfg := s.cfg
  genesis := s.genesis

def checkActiveAdmissionLedger : K Unit := do
  let cm ← getLedger
  match s.genesis with
  | none =>
    ofAns (s.reconciler.decodeReservations cm.data)
    failIf (cm.data.version != 1) (.text "legacy admission requires active ledger version 1")
    ofAns (cm.data.validateLimits s.cfg)
  | some g =>
    ofAns ((s.reconciler.role g).checkLedger cm)
    ofAns (s.reconciler.validateForGenesis cm.data)

def verifyGenesisHTTPReplay (request : CreateBuildRequest) (username : String) : K Unit := do
  if s.genesis.isNone then pure ()
  else
    let a := build.annotations
    failIf (build.spec.requester.username != username ||
      build.spec.idempotencyKey != request.idempotencyKey || a.queueIntent == "" ||
      a.queueReceiptUID == "" || a.queueReceiptDigest == "") (.sentinel .unlinkedGenesisHTTPBuild)
    if a.queueReceiptSettledUID == "" then s.queueStore.verifyForBuild build
    else
      failIf (a.queueReceiptSettledUID != a.queueReceiptUID || !build.terminalOrDeleting)
        (.sentinel .unlinkedGenesisHTTPBuild)
      let found ← s.queueStore.lookup build.name
      failIf found.isSome (.sentinel .queueDrift)
      s.queueStore.checkReceiptNamespace
      match ← attempt (getReceipt (queueReceiptPrefix ++ a.queueIntent)) with
      | .ok _ => throw (.sentinel .queueDrift)
      | .error e =>
        failIf (!e.isNotFound) e
        s.checkGenesis

def replay (existing : KovaBuild) : K Response :=
  if !sameBuildRequest existing request then pure differentParameters
  else
    handled (s.verifyGenesisHTTPReplay existing request p.username) genesisHTTPReplayFailure
      fun _ => pure (.existing existing)

def newBuild (id : String) : KovaBuild where
  name := id
  finalizers := [cleanupFinalizer]
  spec :=
    { requester := ⟨p.username, p.uid⟩, targets := request.targets, source := request.source,
      build := request.options, idempotencyKey := request.idempotencyKey }

/-- The branch of a submission whose intent another request holds. -/
def notFresh (id : String) (intent : Intent) :
    K Response := do
  match ← attempt (getBuild id) with
  | .ok existing => s.replay p request existing
  | .error e =>
    if !e.isNotFound then pure (.internal e)
    else if s.genesis.isSome && intent.cleanupKind == .rejected then
      handled (s.queueStore.resumeRejectedCleanup id intent.nonce) .unavailable
        fun _ => pure (.pending id)
    else pure (.pending id)

/-- The queue receipt of a fresh Genesis submission: one Create, one readback, one pin. -/
def recordReceipt : K Queue.ObservedQueueIntent := do
  let store := s.queueStore
  let receiptIntent ← ofAns (store.receiptIntent build intent)
  store.checkReceiptNamespace
  let w ← recordOnce s.ext (.queue receiptIntent)
  let witness : Queue.ObservedQueueIntent := ⟨receiptIntent, w.receiptUID, w.dataDigest⟩
  store.checkReceiptNamespace
  store.pinReceipt build intent witness
  pure witness

/-- Give back the intent of a Create the server refused. -/
def releaseRefused : K Unit :=
  match witness with
  | some w => s.queueStore.releaseRejectedReceipt build w
  | none => s.queueStore.releaseRejected build.name intent.nonce

/-- `handleCreateBuild` after an AlreadyExists answer, on the build it read. -/
def collided (existing : KovaBuild) : K Response := do
  if existing.annotations.queueIntent != intent.nonce then
    handled s.checkGenesis .unavailable fun _ =>
      handled (s.releaseRefused build intent witness) .internal fun _ =>
        s.replay p request existing
  else if witness.any fun w => existing.annotations.queueReceiptUID != w.receiptUID ||
      existing.annotations.queueReceiptDigest != w.dataDigest then
    pure (.conflict "existing KovaBuild has a different queue recovery receipt")
  else s.replay p request existing

/-- What `handleCreateBuild` does with the answer of its one Create. -/
def created (answer : Except Err KovaBuild) : K Response := do
  match answer with
  | .ok stored => pure (.accepted stored)
  | .error e =>
    if e.isAlreadyExists then
      handled (getBuild build.name) .internal (s.collided p request build intent witness)
    else if e.isDefinitiveRejection then
      handled s.checkGenesis .unavailable fun _ =>
        handled (s.releaseRefused build intent witness) .internal fun _ => pure (.internal e)
    else pure (.pending build.name)

def linked :
    KovaBuild :=
  { build with annotations := { build.annotations with
      queueIntent := intent.nonce
      queueReceiptUID := (witness.map fun w => w.receiptUID).getD ""
      queueReceiptDigest := (witness.map fun w => w.dataDigest).getD "" } }

/-- `handleCreateBuild` with a recorded receipt, or none in legacy mode: the one Create. -/
def createLinked : K Response :=
  handled (do
      s.checkGenesis
      if s.genesis.isSome then s.queueStore.checkReceiptNamespace) .unavailable fun _ => do
    let answer ← attempt (createBuild (linked build intent witness))
    s.created p request (linked build intent witness) intent witness answer

def fresh :
    K Response := do
  if s.genesis.isSome then
    match ← attempt (s.recordReceipt (linked build intent none) intent) with
    | .error _ => pure (.pending build.name)
    | .ok witness => s.createLinked p request build intent (some witness)
  else s.createLinked p request build intent none

def submit (id : String) : K Response :=
  handled (do
      s.checkActiveAdmissionLedger
      s.checkGenesis
      if s.genesis.isSome then ctxErr) .unavailable fun _ => do
    let build := newBuild p request id
    match ← attempt (s.queueStore.reserve build) with
    | .error e => pure (reserveFailure e)
    | .ok (intent, isFresh) =>
      mark (.reserved id intent isFresh)
      if isFresh then s.fresh p request build intent else s.notFresh p request id intent

/-- `handleCreateBuild` for a known job id. -/
def createNamed (id : String) : K Response := do
  if request.idempotencyKey != "" then
    match ← attempt (getBuild id) with
    | .ok existing => s.replay p request existing
    | .error e => if e.isNotFound then s.submit p request id else pure (.internal e)
  else s.submit p request id

/-- The identity bounds of the CRD. -/
def identitySupported : Bool :=
  p.username != "" && p.username.length ≤ 253 && p.uid.length ≤ 253

def handleCreateBuild (body : Except Err CreateBuildRequest) : K Unit := do
  let _ ← handled authorize authorizationFailure fun _ =>
    handled s.checkGenesis .unavailable fun _ => do
      if !identitySupported p then
        pure (.invalid "authenticated requester identity exceeds the KovaBuild contract")
      else if s.cfg.runnerImage.toList.all Text.isSpace then
        pure (.internal (.text "runner image is required"))
      else
        match body with
        | .error e => pure (.invalid (e.message s.cfg.namespaceName))
        | .ok request =>
          let known := idempotentJobID s.ext p.username request.idempotencyKey
          handled (if known == "" then newJobID else pure known) .internal fun id => do
            let response ← s.createNamed p request id
            mark (.responded id response)
            pure response

def handleCancelBuild (name : String) : K Unit := do
  match ← attempt (getBuild name) with
  | .error _ => pure ()
  | .ok build =>
    let _ ← handled authorize authorizationFailure fun _ => do
      if build.status.phase.isTerminal || build.status.phase == .failedVerifying then
        pure (.existing build)
      else
        let now ← timeNow
        let requested := build.annotations.cancellationRequestedAt
        let marked := { build with annotations := { build.annotations with
          cancellationRequestedAt := if requested == "" then s.ext.timeString now else requested } }
        handled s.checkGenesis .unavailable fun _ =>
          if build.uid == "" || build.resourceVersion == 0 then
            pure (.internal (.text
              "cancellation requires the original build UID and resourceVersion"))
          else handled (patchAnnotations marked) .internal fun stored => pure (.accepted stored)

end Server

end KovaService.Http
