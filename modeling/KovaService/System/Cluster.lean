import KovaService.Runner.Daemon

/-!
The API server and the runners as one store, and what each request does to it.

Every object keeps its own resourceVersion, drawn from one counter.  An update names the version it
was computed from and is refused when the object has moved on; an update that changes nothing keeps
the version.  Creates are unique by name, deletes are conditioned on a UID.  UIDs and nonces are
never given out twice.  `versions` is the history that lagging caches serve from.
-/

namespace KovaService.System

open Api Ledger Runner

structure Cluster where
  ledger : LedgerMap
  queue : QueueMap
  builds : Finmap fun _ : String => KovaBuild
  pods : Finmap fun _ : String => Pod
  receipts : Finmap fun _ : String => Receipt
  daemons : Finmap fun _ : UID => Daemon
  /-- Every version of a build that was ever stored. -/
  versions : List KovaBuild
  /-- The last resourceVersion given out. -/
  clock : Nat
  uids : Finset UID
  nonces : Finset String
  /-- The calls of `backend.runBuild`: the Pod's UID and the request id, in order. -/
  runs : List (UID × String)

namespace Cluster

variable (s : Cluster)

variable (b : KovaBuild)

section Swap

variable {D : Type} [DecidableEq D] (cm : Stored D) (clock rv : Nat)
variable (patch : Option (List (PatchOp D))) (next : D)

/-- A write at another version, or a Patch whose body does not give the new data. -/
def refuses : Bool :=
  rv != cm.resourceVersion ||
    patch.any fun body => applyPatch body cm != some { cm with data := next }

/-- Compare-and-swap on a ConfigMap.  A failed test of a JSON Patch is a 422, a stale Update a 409. -/
def swap : Option (Stored D) × Ans (Stored D) :=
  if refuses cm rv patch next then
    (none, .error (.api (if patch.isSome then .invalid else .conflict)
      "resourceVersion does not match"))
  else if next = cm.data then (none, .ok cm)
  else
    let written : Stored D := { cm with resourceVersion := clock + 1, data := next }
    (some written, .ok written)

end Swap

def putLedger (patch : Option (List (PatchOp ReservationState))) (rv : Nat)
    (next : ReservationState) : Cluster × Ans LedgerMap :=
  match swap s.ledger s.clock rv patch next with
  | (none, answer) => (s, answer)
  | (some cm, answer) => ({ s with ledger := cm, clock := s.clock + 1 }, answer)

def putQueue (patch : Option (List (PatchOp QueueState))) (rv : Nat) (next : QueueState) :
    Cluster × Ans QueueMap :=
  match swap s.queue s.clock rv patch next with
  | (none, answer) => (s, answer)
  | (some cm, answer) => ({ s with queue := cm, clock := s.clock + 1 }, answer)

def notFound {α : Type} (kind name : String) : Ans α :=
  .error (.api .notFound (kind ++ " \"" ++ name ++ "\" not found"))

def storeBuild : Cluster × KovaBuild :=
  let b := { b with resourceVersion := s.clock + 1 }
  ({ s with builds := s.builds.insert b.name b, versions := b :: s.versions, clock := s.clock + 1 },
    b)

/-- A build that is being deleted goes with its last finalizer. -/
def settleBuild : Cluster × KovaBuild :=
  if b.deletionTimestamp.isSome && b.finalizers == [] then
    ({ s with builds := s.builds.erase b.name }, b)
  else s.storeBuild b

def createBuild (uid : UID) (now : Time) : Cluster × Ans KovaBuild :=
  if (s.builds.lookup b.name).isSome then
    (s, .error (.api .alreadyExists "kovabuilds already exists"))
  else
    let stored := { b with
      uid := uid, generation := 1, creationTimestamp := now, deletionTimestamp := none,
      status := {} }
    let (s, stored) := { s with uids := insert uid s.uids }.storeBuild stored
    (s, .ok stored)

/-- Replace parts of the stored object when the writer's version is current. -/
def updateBuildWith (stale : Reason) (b : KovaBuild) (change : KovaBuild → KovaBuild) :
    Cluster × Ans KovaBuild :=
  match s.builds.lookup b.name with
  | none => (s, notFound "kovabuilds" b.name)
  | some current =>
    if b.uid ≠ current.uid ∨ b.resourceVersion ≠ current.resourceVersion then
      (s, .error (.api stale "the object has been modified"))
    else if change current = current then (s, .ok current)
    else
      let (s, stored) := s.settleBuild (change current)
      (s, .ok stored)

/-- Update of the main resource: the code only ever changes annotations and finalizers. -/
def updateBuild : Cluster × Ans KovaBuild :=
  s.updateBuildWith .conflict b fun current =>
    { current with annotations := b.annotations, finalizers := b.finalizers }

def updateStatus : Cluster × Ans KovaBuild :=
  s.updateBuildWith .conflict b fun current => { current with status := b.status }

def patchAnnotations : Cluster × Ans KovaBuild :=
  s.updateBuildWith .invalid b fun current => { current with annotations := b.annotations }

def beginDelete (now : Time) : Cluster :=
  if b.finalizers == [] then { s with builds := s.builds.erase b.name }
  else if b.deletionTimestamp.isSome then s
  else (s.storeBuild { b with deletionTimestamp := some now }).1

def deleteBuild (name : String) (uid : UID) (now : Time) : Cluster × Ans Unit :=
  match s.builds.lookup name with
  | none => (s, notFound "kovabuilds" name)
  | some current =>
    if uid ≠ current.uid then (s, .error (.api .conflict "the UID in the precondition does not match"))
    else (s.beginDelete current now, .ok ())

def createPod (p : Pod) (uid : UID) : Cluster × Ans Pod :=
  if (s.pods.lookup p.name).isSome then (s, .error (.api .alreadyExists "pods already exists"))
  else
    let stored := { p with uid := uid, deletionTimestamp := none, status := {} }
    ({ s with
      pods := s.pods.insert p.name stored, daemons := s.daemons.insert uid {},
      uids := insert uid s.uids }, .ok stored)

/-- Delete a Pod: at once, or by letting it terminate first. -/
def deletePod (name : String) (uid : UID) (now : Option Time) : Cluster × Ans Unit :=
  match s.pods.lookup name with
  | none => (s, notFound "pods" name)
  | some current =>
    if uid ≠ current.uid then (s, .error (.api .conflict "the UID in the precondition does not match"))
    else
      match now with
      | none => ({ s with pods := s.pods.erase name }, .ok ())
      | some now =>
        ({ s with pods := s.pods.insert name { current with deletionTimestamp := some now } }, .ok ())

def createReceipt (r : Receipt) (uid : UID) : Option (Cluster × Receipt) :=
  if (s.receipts.lookup r.name).isSome then none
  else
    let stored := { r with uid := uid, resourceVersion := s.clock + 1 }
    some ({ s with
      receipts := s.receipts.insert r.name stored, uids := insert uid s.uids,
      clock := s.clock + 1 }, stored)

def deleteReceipt (name : String) (uid : UID) : Cluster × Ans Unit :=
  match s.receipts.lookup name with
  | none => (s, notFound "configmaps" name)
  | some current =>
    if uid ≠ current.uid then (s, .error (.api .conflict "the UID in the precondition does not match"))
    else ({ s with receipts := s.receipts.erase name }, .ok ())

/-- The daemon an exec reaches: that of the Pod which has the name now, behind its UID fence. -/
def target (pod : String) (expected : UID) : Option (UID × Daemon) :=
  match s.pods.lookup pod with
  | none => none
  | some p =>
    if validateExpectedPodUID p expected then (s.daemons.lookup p.uid).map fun d => (p.uid, d)
    else none

def setDaemon (uid : UID) (d : Daemon) : Cluster := { s with daemons := s.daemons.insert uid d }

def submit (pod : String) (expected : UID) (requestID : String) : Option (Cluster × BuildState) :=
  (s.target pod expected).map fun (uid, d) =>
    let (d', state) := d.handleBuildPost requestID
    (s.setDaemon uid d', state)

def cancelRunner (pod : String) (expected : UID) : Option Cluster :=
  (s.target pod expected).map fun (uid, d) => s.setDaemon uid (d.cancelActiveBuild "cancel requested")

/-- One event of a daemon's build; a call of `runBuild` is recorded. -/
def advanceDaemon (uid : UID) (e : Daemon.Event) : Option Cluster :=
  (s.daemons.lookup uid).bind fun d =>
    (d.advance e).map fun d' =>
      let s := s.setDaemon uid d'
      if e = .run then { s with runs := s.runs ++ [(uid, d.requestID)] } else s

def retireDaemon (uid : UID) (requestID : String) : Option Cluster :=
  (s.daemons.lookup uid).map fun d => s.setDaemon uid (d.handleBuildRetirePost requestID)

end Cluster

end KovaService.System
