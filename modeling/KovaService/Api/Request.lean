import KovaService.Lib.Prog
import KovaService.Ledger.Receipt

/-!
The requests the service's code makes of its surroundings, and the type of each answer.

Reads by name go to the API server directly; `cachedBuild` is the informer cache.  Each ledger write
names the function that issues it and the entry it is about, which the server ignores.  Clock,
randomness, context errors and process-local permits are requests too, so that a handler's
behaviour is a function of the answers it gets.
-/

namespace KovaService.Api

open Lib Ledger

structure Stored (D : Type) where
  uid : UID
  resourceVersion : Nat
  data : D
  deriving DecidableEq

/-- The operations of a JSON Patch on a ledger, each with the one path it is used with:
`/metadata/uid`, `/metadata/resourceVersion` and `/data/` followed by the data key. -/
inductive PatchOp (D : Type) where
  | testUID (value : UID)
  | testResourceVersion (value : Nat)
  | testData (value : D)
  | replaceData (value : D)

section Patch

variable {D : Type} [DecidableEq D]

def PatchOp.apply : PatchOp D → Stored D → Option (Stored D)
  | .testUID value, cm => if cm.uid = value then some cm else none
  | .testResourceVersion value, cm => if cm.resourceVersion = value then some cm else none
  | .testData value, cm => if cm.data = value then some cm else none
  | .replaceData value, cm => some { cm with data := value }

/-- A JSON Patch takes effect as a whole or not at all. -/
def applyPatch (body : List (PatchOp D)) (cm : Stored D) : Option (Stored D) :=
  body.foldlM (fun cm op => op.apply cm) cm

end Patch

abbrev LedgerMap := Stored ReservationState

abbrev QueueMap := Stored QueueState

/-- `runner.BuildState`; the two unknown spellings of a status are kept apart from the known ones. -/
inductive RunnerStatus where
  | idle | running | cancelling | completed | failed | error | cancelled | empty
  | unknown (text : String)
  deriving DecidableEq

structure BuildState where
  status : RunnerStatus
  error : String := ""
  requestID : String := ""
  idempotent : Bool := false
  deriving DecidableEq

structure ExportEntry where
  target : String
  manifestDigest : String := ""
  success : Bool
  deriving DecidableEq

/-- A decoded export; `none` stands for bytes that are not valid JSON lines. -/
abbrev Export := Option (List ExportEntry)

inductive LedgerWriter where
  | admission | fenceReservation | releaseReservation | beginPodCreate | completePodCreate
  | armFreshGrant | pinGrantReceipt | releaseGrantReceipt
  | armFreshPodAttempt | pinPodReceipt | authorizeFreshPodCreate | releasePodReceipt
  | completeGenesisPodCreate
  deriving DecidableEq

inductive QueueWriter where
  | reserve | pinReceipt | markReceiptCleanupReady | releaseForBuild | releaseReceiptedBuild
  | releaseRejected
  deriving DecidableEq

/-- The status line of an answer of the HTTP API, as far as the create handler tells them apart. -/
inductive Response where
  | existing (build : KovaBuild)
  | accepted (build : KovaBuild)
  | conflict (message : String)
  | pending (id : String)
  | capacityExceeded (message : String)
  | invalid (message : String)
  | forbidden
  | notFound
  | unavailable (e : Err)
  | internal (e : Err)
  deriving DecidableEq

/-- Points of a handler's execution that leave no trace in the store. -/
inductive Mark where
  | reserved (name : String) (intent : Intent) (fresh : Bool)
  | released (build : KovaBuild)
  | responded (name : String) (r : Response)
  | proposed (next : ReservationState)
  deriving DecidableEq

inductive Request where
  -- ledgers
  | getLedger
  -- an Update, or the Patch with this body; `rv` and `next` are what it was computed from and for
  | putLedger (writer : LedgerWriter) (key : String)
      (patch : Option (List (PatchOp ReservationState))) (rv : Nat) (next : ReservationState)
  | getQueue
  | putQueue (writer : QueueWriter) (id : String) (patch : Option (List (PatchOp QueueState)))
      (rv : Nat) (next : QueueState)
  -- builds
  | cachedBuild (name : String)
  | getBuild (name : String)
  | listBuilds
  | createBuild (b : KovaBuild)
  | updateBuild (b : KovaBuild)
  | updateStatus (b : KovaBuild)
  | patchAnnotations (b : KovaBuild)
  | deleteBuild (name : String) (uid : UID)
  -- pods
  | getPod (name : String)
  | listPods
  | createPod (p : Pod)
  | deletePod (name : String) (uid : UID)
  -- receipts
  | getReceipt (name : String)
  | createReceipt (r : Receipt)
  | deleteReceipt (name : String) (uid : UID)
  -- the Genesis guard
  | genesisCheck
  | receiptNamespace
  -- the runner and the registry
  | execStatus (pod : String) (expectedPodUID : UID)
  | execInspect (pod : String) (expectedPodUID : UID)
  | execSubmit (pod : String) (expectedPodUID : UID) (requestID : String)
  | execCancel (pod : String) (expectedPodUID : UID)
  | execExport (pod : String) (expectedPodUID : UID) (oci : Bool)
  | resolve (image digest : String)
  -- the process
  | nonce
  | jobID
  | now
  | ctxErr
  | wait (retry : Nat)
  | tryBegin
  | verificationSlot
  | authorize
  | mark (m : Mark)

abbrev Ans (α : Type) := Except Err α

def Answer : Request → Type
  | .getLedger => Ans LedgerMap
  | .putLedger .. => Ans LedgerMap
  | .getQueue => Ans QueueMap
  | .putQueue .. => Ans QueueMap
  | .cachedBuild _ => Ans KovaBuild
  | .getBuild _ => Ans KovaBuild
  | .listBuilds => Ans (List KovaBuild)
  | .createBuild _ => Ans KovaBuild
  | .updateBuild _ => Ans KovaBuild
  | .updateStatus _ => Ans KovaBuild
  | .patchAnnotations _ => Ans KovaBuild
  | .deleteBuild .. => Ans Unit
  | .getPod _ => Ans Pod
  | .listPods => Ans (List Pod)
  | .createPod _ => Ans Pod
  | .deletePod .. => Ans Unit
  | .getReceipt _ => Ans Receipt
  | .createReceipt _ => Option Receipt × Option Err
  | .deleteReceipt .. => Ans Unit
  | .genesisCheck => Ans Unit
  | .receiptNamespace => Ans Unit
  | .execStatus .. => Ans BuildState
  | .execInspect .. => Ans (List TargetSpec)
  | .execSubmit .. => Ans BuildState
  | .execCancel .. => Ans Unit
  | .execExport .. => Ans Export
  | .resolve .. => Ans (String × String)
  | .nonce => Ans String
  | .jobID => Ans String
  | .now => Time
  | .ctxErr => Ans Unit
  | .wait _ => Ans Unit
  | .tryBegin => Ans Bool
  | .verificationSlot => Bool
  | .authorize => Ans Unit
  | .mark _ => Unit

/-- Handler code: it calls the surroundings and may fail with an `Err`. -/
abbrev K := Fallible Request Answer Err

def invoke (q : Request) : Prog Request Answer (Answer q) := Prog.perform q

def getLedger : K LedgerMap := ExceptT.mk (invoke .getLedger)

def putLedger (writer : LedgerWriter) (key : String)
    (patch : Option (List (PatchOp ReservationState))) (rv : Nat) (next : ReservationState) :
    K LedgerMap :=
  ExceptT.mk (invoke (.putLedger writer key patch rv next))

def getQueue : K QueueMap := ExceptT.mk (invoke .getQueue)

def putQueue (writer : QueueWriter) (id : String) (patch : Option (List (PatchOp QueueState)))
    (rv : Nat) (next : QueueState) : K QueueMap :=
  ExceptT.mk (invoke (.putQueue writer id patch rv next))

def cachedBuild (name : String) : K KovaBuild := ExceptT.mk (invoke (.cachedBuild name))

def getBuild (name : String) : K KovaBuild := ExceptT.mk (invoke (.getBuild name))

def listBuilds : K (List KovaBuild) := ExceptT.mk (invoke .listBuilds)

def createBuild (b : KovaBuild) : K KovaBuild := ExceptT.mk (invoke (.createBuild b))

def updateBuild (b : KovaBuild) : K KovaBuild := ExceptT.mk (invoke (.updateBuild b))

def updateStatus (b : KovaBuild) : K KovaBuild := ExceptT.mk (invoke (.updateStatus b))

def patchAnnotations (b : KovaBuild) : K KovaBuild :=
  ExceptT.mk (invoke (.patchAnnotations b))

def deleteBuild (name : String) (uid : UID) : K Unit :=
  ExceptT.mk (invoke (.deleteBuild name uid))

def getPod (name : String) : K Pod := ExceptT.mk (invoke (.getPod name))

def listPods : K (List Pod) := ExceptT.mk (invoke .listPods)

def createPod (p : Pod) : K Pod := ExceptT.mk (invoke (.createPod p))

def deletePod (name : String) (uid : UID) : K Unit :=
  ExceptT.mk (invoke (.deletePod name uid))

def getReceipt (name : String) : K Receipt := ExceptT.mk (invoke (.getReceipt name))

/-- The typed client's Create: an object (perhaps an empty one) and an error, both optional. -/
def createReceipt (r : Receipt) : K (Option Receipt × Option Err) :=
  Fallible.lift (invoke (.createReceipt r))

def deleteReceipt (name : String) (uid : UID) : K Unit :=
  ExceptT.mk (invoke (.deleteReceipt name uid))

/-- `Guard.Check` as one call with any outcome; its reads are those of `Guard.check`. -/
def genesisCheck : K Unit := ExceptT.mk (invoke .genesisCheck)

/-- The namespace read of `CheckReceiptNamespace` and its comparison with the pinned UID. -/
def receiptNamespace : K Unit := ExceptT.mk (invoke .receiptNamespace)

def execStatus (pod : String) (uid : UID) : K BuildState :=
  ExceptT.mk (invoke (.execStatus pod uid))

def execInspect (pod : String) (uid : UID) : K (List TargetSpec) :=
  ExceptT.mk (invoke (.execInspect pod uid))

def execSubmit (pod : String) (uid : UID) (requestID : String) : K BuildState :=
  ExceptT.mk (invoke (.execSubmit pod uid requestID))

def execCancel (pod : String) (uid : UID) : K Unit :=
  ExceptT.mk (invoke (.execCancel pod uid))

def execExport (pod : String) (uid : UID) (oci : Bool) : K Export :=
  ExceptT.mk (invoke (.execExport pod uid oci))

def resolve (image digest : String) : K (String × String) :=
  ExceptT.mk (invoke (.resolve image digest))

def newNonce : K String := ExceptT.mk (invoke .nonce)

def newJobID : K String := ExceptT.mk (invoke .jobID)

def timeNow : K Time := Fallible.lift (invoke .now)

def ctxErr : K Unit := ExceptT.mk (invoke .ctxErr)

def waitCAS (retry : Nat) : K Unit := ExceptT.mk (invoke (.wait retry))

def tryBegin : K Bool := ExceptT.mk (invoke .tryBegin)

def tryVerificationSlot : K Bool := Fallible.lift (invoke .verificationSlot)

def authorize : K Unit := ExceptT.mk (invoke .authorize)

def mark (m : Mark) : K Unit := Fallible.lift (invoke (.mark m))

section Control

variable {Q : Type} {R : Q → Type} {α : Type}

def ofAns (r : Except Err α) : Fallible Q R Err α := ExceptT.mk (pure r)

/-- `if cond { if err := call; err != nil { return err } }`. -/
def onlyIf (c : Bool) (call : Fallible Q R Err Unit) : Fallible Q R Err Unit :=
  if c then call else pure ()

end Control

export Fallible (attempt failIf retry)

end KovaService.Api
