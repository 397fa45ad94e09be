import KovaService.Controller.PodReceipt

/-!
`reservation.go`: the cleanup fence, the release of an entry, and the in-flight bracket around a Pod
Create.
-/

namespace KovaService.Controller.Reconciler

open Lib Api Ledger

variable (r : Reconciler) (build : KovaBuild)

/-- The next ledger of `fenceReservation`: the fence moves even when the build has no entry. -/
def fenced (s : ReservationState) (key : String) : ReservationState :=
  let s' := { s with fence := s.fence + 1 }
  match s.active.lookup key with
  | none => s'
  | some entry => s'.set key { entry with closing := true }

/-- An entry must carry the name of the build that asks for it. -/
def checkName : Option ActiveReservation → Except Err Unit
  | none => .ok ()
  | some entry =>
    if entry.buildName != build.name then .error (r.mismatchedName build entry) else .ok ()

def fenceReservation (build : KovaBuild) : K Unit :=
  retry (r.busyGrant build "fencing") (fun n (_ : Unit) => do
    let cm ← r.readReservations
    ofAns (r.checkName build (cm.data.active.lookup build.reservationKey))
    match ← attempt (r.writeReservations .fenceReservation build.reservationKey cm
        (fenced cm.data build.reservationKey)) with
    | .ok () => pure (.done ())
    | .error e => onConflict n () e (throw e)) maxReservationCASAttempts 0 ()

/-- In Genesis mode the release goes on with the CR it read, which must be at its end. -/
def endedBuild : K KovaBuild := do
  if r.genesis.isSome then
    let current ← getBuild build.name
    failIf (current.uid != build.uid ||
      (!current.status.phase.isTerminal && current.deletionTimestamp.isNone))
      (.text ("Genesis active grant cannot be released before its original CR is terminal " ++
        "or deleting"))
    pure current
  else pure build

/-- Both receipts of an entry, the Pod's first; a legacy entry has none. -/
def releaseReceipts (cm : LedgerMap) (entry : ActiveReservation) :
    K Bool := do
  if r.genesis.isSome then
    if ← r.releaseGenesisPodReceipt build cm entry then
      r.releaseGenesisGrantReceipt build cm entry
    else pure false
  else pure true

/-- `releaseReservation`.  In Genesis mode each round replaces the build by the one it read. -/
def releaseReservation (build : KovaBuild) : K Unit :=
  retry (r.busyGrant build "releasing") (fun n (build : KovaBuild) => do
    ctxErr
    let cm ← r.readReservations
    match cm.data.active.lookup build.reservationKey with
    | none => pure (.done ())
    | some entry =>
      failIf (entry.buildName != build.name) (r.mismatchedName build entry)
      failIf (!entry.closing) (.text ("admission reservation for " ++ r.qualified build.name ++
        " cannot be released before its cleanup fence"))
      let current ← r.endedBuild build
      failIf (entry.inFlight != []) (.recovery current.name entry.inFlight.length)
      match ← r.getOwnedPod current with
      | some pod => throw (.text ("runner Pod " ++ r.qualified pod.name ++
          " still exists while releasing active capacity"))
      | none =>
        match ← attempt (r.releaseReceipts current cm entry) with
        | .error e =>
          onConflict n current e (throw e)
        | .ok false => pure (.again current)
        | .ok true =>
          match ← attempt (r.writeReservations .releaseReservation current.reservationKey cm
              (cm.data.remove current.reservationKey)) with
          | .ok () => pure (.done ())
          | .error e =>
            onConflict n current e (throw e)) maxReservationCASAttempts 0 build

def noReservation : Err :=
  .text ("KovaBuild " ++ r.qualified build.name ++ " has no matching active reservation")

def podCreateAttemptRecorded (attempted : String) : K Bool := do
  let cm ← r.readReservations
  match cm.data.active.lookup build.reservationKey with
  | none => throw (r.noReservation build)
  | some entry =>
    failIf (entry.buildName != build.name) (r.noReservation build)
    if r.genesis.isSome then pure (entry.podAttemptNonce == attempted)
    else pure (entry.inFlight.contains attempted)

def beginPodCreate (build : KovaBuild) : K String := do
  let attempted ← newNonce
  retry (r.busyGrant build "starting Pod create for") (fun n (_ : Unit) => do
    ctxErr
    let cm ← r.readReservations
    r.ensureLiveAdmissionBuild build
    match cm.data.active.lookup build.reservationKey with
    | none => throw (r.noReservation build)
    | some entry =>
      failIf (entry.buildName != build.name) (r.noReservation build)
      failIf entry.closing (r.admissionClosed build " grant is closing")
      onlyIf r.genesis.isSome do
        r.verifyPinnedGrant build entry
        failIf (entry.podAttemptNonce != "") (.recovery build.name 1)
      failIf (entry.inFlight != []) (.recovery build.name entry.inFlight.length)
      let next : ActiveReservation :=
        if r.genesis.isSome then { entry with podAttemptNonce := attempted }
        else { entry with inFlight := entry.inFlight ++ [attempted] }
      match ← attempt (r.writeReservations .beginPodCreate build.reservationKey cm
          (cm.data.set build.reservationKey next)) with
      | .ok () => pure (.done attempted)
      | .error e =>
        onConflict n () e do
          match ← attempt (r.podCreateAttemptRecorded build attempted) with
          | .ok true => pure (.done attempted)
          | _ => throw e) maxReservationCASAttempts 0 ()

def completePodCreate (build : KovaBuild) (attempted : String) : K Unit :=
  if r.genesis.isSome then r.completeGenesisPodCreate build attempted
  else
    retry (r.busyGrant build "completing Pod create for") (fun n (_ : Unit) => do
      ctxErr
      let cm ← r.readReservations
      match cm.data.active.lookup build.reservationKey with
      | none => throw (.text ("KovaBuild " ++ r.qualified build.name ++
          " lost its active reservation while completing Pod create"))
      | some entry =>
        failIf (entry.buildName != build.name) (.text ("KovaBuild " ++ r.qualified build.name ++
          " lost its active reservation while completing Pod create"))
        if !entry.inFlight.contains attempted then pure (.done ())
        else
          match ← attempt (r.writeReservations .completePodCreate build.reservationKey cm
              (cm.data.set build.reservationKey
                { entry with inFlight := entry.inFlight.erase attempted })) with
          | .ok () => pure (.done ())
          | .error e =>
            onConflict n () e do
              match ← attempt (r.podCreateAttemptRecorded build attempted) with
              | .ok false => pure (.done ())
              | _ => throw e) maxReservationCASAttempts 0 ()

end KovaService.Controller.Reconciler
