import KovaService.Queue.Store

/-!
What every part of the build controller uses: reading and writing the active ledger, the direct
check that a build may still be admitted, and the direct read of a build's own Pod.
-/

namespace KovaService.Controller

open Lib Api Ledger

structure Reconciler where
  ext : Ext
  cfg : Config
  genesis : Option Genesis
  coordinator : Bool := false

namespace Reconciler

variable (r : Reconciler) (build : KovaBuild)

def qualified (name : String) : String := r.cfg.namespaceName ++ "/" ++ name

def queueStore : Queue.Store where
  ext := r.ext
  genesis := r.genesis
  namespaceName := r.cfg.namespaceName
  globalLimit := r.cfg.maxQueuedJobs
  requesterLimit := r.cfg.maxQueuedJobsPerRequester

def decodeReservations (d : ReservationState) : Except Err Unit :=
  match d.validate with
  | .ok () => .ok ()
  | .error e =>
    .error (.wrap ("admission ledger " ++ r.qualified "kova-service-admission" ++
      " has unsupported state: ") e "")

def validateForGenesis (d : ReservationState) : Except Err Unit :=
  match r.decodeReservations d with
  | .error e => .error e
  | .ok () =>
    if d.version != 2 then .error (.text "admission Genesis requires active ledger version 2")
    else d.validateLimits r.cfg

def role (g : Genesis) : Role ReservationState where
  name := "active"
  configMap := "kova-service-admission"
  expectedUID := g.activeLedgerUID
  validate := r.validateForGenesis

/-- The checks `readReservationsWithObservation` makes on a decoded ledger. -/
def checkRead (d : ReservationState) : Except Err Unit :=
  match r.decodeReservations d with
  | .error e => .error e
  | .ok () =>
    match d.validateLimits r.cfg with
    | .error e => .error e
    | .ok () =>
      if (r.genesis.isSome && d.version != 2) || (r.genesis.isNone && d.version != 1) then
        .error (.text "active admission ledger has the wrong receipt protocol version")
      else .ok ()

/-- The direct read with its identity check. -/
def readLedger : K LedgerMap := do
  let cm ← getLedger
  match r.genesis with
  | none => pure cm
  | some g =>
    ofAns ((r.role g).checkLedger cm)
    pure cm

def readReservationsWith (observed : Bool) : K LedgerMap := do
  onlyIf (r.genesis.isSome && !observed) genesisCheck
  failIf (r.genesis.isNone && observed)
    (.text "read-only reservation observation requires Genesis")
  let cm ← observedRead observed r.readLedger
  ofAns (r.checkRead cm.data)
  pure cm

def readReservations : K LedgerMap := r.readReservationsWith false

def storeReservations (writer : LedgerWriter) (key : String) (cm : LedgerMap)
    (next : ReservationState) : K Unit := do
  ofAns (r.ext.encodeReservations next)
  match r.genesis with
  | some g =>
    let patch := fun body => putLedger writer key (some body) cm.resourceVersion next
    (r.role g).patchLedgerData genesisCheck getLedger patch cm next
  | none =>
    let _ ← putLedger writer key none cm.resourceVersion next
    pure ()

/-- `writeReservations`, with a mark of the state it is called with. -/
def writeReservations (writer : LedgerWriter) (key : String) (cm : LedgerMap)
    (next : ReservationState) : K Unit := do
  mark (.proposed next)
  r.storeReservations writer key cm next

def admissionClosed (build : KovaBuild) (what : String) : Err :=
  .wrap "" (.sentinel .admissionClosed) (": " ++ r.qualified build.name ++ what)

def ensureLiveAdmissionBuild : K Unit := do
  let current ← getBuild build.name
  failIf (current.uid != build.uid || !current.live) (r.admissionClosed build "")

def getOwnedPod : K (Option Pod) := do
  match ← attempt (getPod (buildPodName build.name)) with
  | .error e => if e.isNotFound then pure none else throw e
  | .ok pod =>
    failIf (!pod.ownedByBuild build)
      (.text ("runner Pod " ++ r.qualified pod.name ++ " is not owned by KovaBuild UID " ++
        build.uid))
    pure (some pod)

def requestID : String :=
  if build.uid != "" then build.uid else r.qualified build.name

def mismatchedName (entry : ActiveReservation) : Err :=
  .text ("admission reservation for " ++ r.qualified build.name ++ " has mismatched build name \"" ++
    entry.buildName ++ "\"")

end Reconciler

end KovaService.Controller
