import KovaService.Controller.GrantReceipt

/-!
`pod_receipt.go`: the second receipt, written between spending the Pod attempt nonce and the one Pod
Create it authorizes.
-/

namespace KovaService.Controller

open Lib Api Ledger

def samePodAttempt (left right : ActiveReservation) : Bool :=
  sameGrant left right && left.grantObservedRV == right.grantObservedRV &&
    left.grantReceiptUID == right.grantReceiptUID &&
    left.grantReceiptDigest == right.grantReceiptDigest &&
    left.podAttemptNonce == right.podAttemptNonce

def materializedSourcePath : String := "/var/lib/kova/source/source.zip"

namespace Reconciler

variable (r : Reconciler) (build : KovaBuild) (entry : ActiveReservation)

def validateGenesisPodRuntimeIdentity (pod : Pod) : Except Err Unit :=
  if pod.spec.restartPolicy != "Never" ||
      !(match pod.spec.containers with
        | [c] => c.name == "runner" && c.image == r.cfg.runnerImage &&
            c.command == ["kovad", "daemon"]
        | _ => false) then
    .error (.text "Genesis Pod runner differs from pinned image and command")
  else if build.spec.source.uri == "" then
    if pod.spec.initContainers != [] then
      .error (.text "Genesis Pod has unexpected source-fetch container")
    else .ok ()
  else
    match pod.spec.initContainers with
    | [c] =>
      let want := ["kovad", "source", "fetch", "--uri", build.spec.source.uri, "--digest",
        build.spec.source.digest, "--output", materializedSourcePath]
      if c.name != "source-fetch" || c.image != r.cfg.runnerImage then
        .error (.text "Genesis Pod source-fetch image differs from pinned runner image")
      else if c.command.take want.length != want then
        .error (.text "Genesis Pod source-fetch command differs from original source")
      else .ok ()
    | _ => .error (.text "Genesis Pod source-fetch image differs from pinned runner image")

def podIntentWith (observed : Bool) (build : KovaBuild) (entry : ActiveReservation) :
    K PodCreateIntent := do
  failIf (!validReservationHex entry.podAttemptNonce 32 || !digestSHA256 entry.podTemplateDigest ||
    !validReceiptUID entry.grantReceiptUID || !digestSHA256 entry.grantReceiptDigest)
    (.text "Genesis Pod attempt has no reconstructible pre-effect identity")
  let grant ← r.grantIntentWith observed build entry
  let grantCM ← ofAns (newReceipt r.ext (.grant grant))
  match r.genesis with
  | none => throw (.text "Genesis grant has no reconstructible pre-effect identity")
  | some g =>
    failIf (r.cfg.runnerImage != g.runnerImage)
      (.text "runner image differs from immutable admission Genesis")
    match r.ext.runnerManifestDigest r.cfg.runnerImage with
    | .error _ =>
      throw (.text "runner image digest is not derived from the original manifest reference")
    | .ok digest =>
      failIf (digest != r.cfg.runnerImageDigest)
        (.text "runner image digest is not derived from the original manifest reference")
      pure
        { build := grant.build
          grantReceipt := ⟨grantCM.name, entry.grantReceiptUID, entry.grantReceiptDigest⟩
          podName := buildPodName build.name, podAttemptNonce := entry.podAttemptNonce,
          podTemplateDigest := entry.podTemplateDigest, runnerImageDigest := digest,
          buildRequestID := r.requestID build }

/-- The reads before a write for a Pod attempt: its entry, the build, and the receipts. -/
def readAttempt (lost : String) (changed : ActiveReservation → Bool)
    (verify : ActiveReservation → K Unit) : K (LedgerMap × ActiveReservation) := do
  let cm ← r.readReservationsWith true
  match cm.data.active.lookup build.reservationKey with
  | none => throw (.text lost)
  | some entry =>
    failIf (changed entry) (.text lost)
    observedRead true (r.ensureLiveAdmissionBuild build)
    r.verifyPinnedGrantWith build entry
    verify entry
    pure (cm, entry)

/-- The reads of `armFreshPodAttempt` before each write. -/
def freshAttempt (attempted : String) : K (LedgerMap × ActiveReservation) :=
  r.readAttempt build "fresh Pod attempt lost its unarmed active charge"
    (fun entry => entry.buildName != build.name || entry.podAttemptNonce != attempted ||
      entry.podTemplateDigest != "" || entry.podReceiptUID != "" || entry.closing ||
      entry.inFlight != [])
    fun _ => pure ()

def armFreshPodAttempt (build : KovaBuild) (attempted digest : String) : K ActiveReservation := do
  failIf (!validReservationHex attempted 32 || !digestSHA256 digest)
    (.text "invalid Pod attempt or canonical template digest")
  retry (.text ("active ledger is busy arming Pod attempt for " ++ r.qualified build.name))
      (fun n (_ : Unit) => do
    let (cm, entry) ← observe (r.freshAttempt build attempted)
    let next : ActiveReservation := { entry with podTemplateDigest := digest }
    match ← attempt (r.writeReservations .armFreshPodAttempt build.reservationKey cm
        (cm.data.set build.reservationKey next)) with
    | .error e =>
      onConflict n () e (throw e)
    | .ok () =>
      let observed ← r.readReservations
      match observed.data.active.lookup build.reservationKey with
      | none => throw (.text "armed Pod attempt changed before receipt Create")
      | some armed =>
        failIf (!samePodAttempt armed next || armed.podTemplateDigest != digest ||
          armed.podReceiptUID != "" || armed.closing || armed.inFlight != [])
          (.text "armed Pod attempt changed before receipt Create")
        pure (.done armed)) maxReservationCASAttempts 0 ()

def podSlot : ReceiptSlot where
  what := "Pod"
  subject := "Pod attempt"
  pinner := .pinPodReceipt
  marker := .releasePodReceipt
  same := samePodAttempt
  armedBy e := e.podTemplateDigest
  uid e := e.podReceiptUID
  digest e := e.podReceiptDigest
  cleanupReady e := e.podCleanupReady
  pin e w := { e with podReceiptUID := w.receiptUID, podReceiptDigest := w.dataDigest }
  mark e := { e with podCleanupReady := true }
  data r observed build e := do
    let intent ← r.podIntentWith observed build e
    pure (.podCreate intent)
  unpinned := .podReceiptUnpinned

def observePodReceiptWith : K Witness := r.observeReceiptWith build entry podSlot

def observePodReceipt : K Witness :=
  observe (r.observePodReceiptWith build entry)

def verifyPinnedPodReceiptWith : Bool → K Unit := r.verifyPinnedReceiptWith build entry podSlot

def verifyPinnedPodReceipt (allowClosing : Bool) : K Unit :=
  observe (r.verifyPinnedPodReceiptWith build entry allowClosing)

def pinPodReceipt : ActiveReservation → Witness → K ActiveReservation :=
  r.pinEntryReceipt podSlot
    (.text ("active ledger is busy pinning Pod receipt for " ++ r.qualified build.name)) build

def freshIssueRecorded (issued : ActiveReservation) : K Unit := do
  let cm ← r.readReservations
  match cm.data.active.lookup build.reservationKey with
  | none => throw (.text "Pod Create issue fence is not durably recorded")
  | some entry =>
    failIf (!samePodAttempt entry issued || entry.closing || entry.podCleanupReady ||
      entry.podTemplateDigest != issued.podTemplateDigest ||
      entry.podReceiptUID != issued.podReceiptUID ||
      entry.podReceiptDigest != issued.podReceiptDigest ||
      entry.inFlight != [issued.podAttemptNonce])
      (.text "Pod Create issue fence is not durably recorded")

/-- The reads of `authorizeFreshPodCreate` before each write. -/
def pinnedAttempt (pinned : ActiveReservation) : K (LedgerMap × ActiveReservation) :=
  r.readAttempt build "pinned Pod attempt changed before Create issue"
    (fun entry => !samePodAttempt entry pinned ||
      entry.podTemplateDigest != pinned.podTemplateDigest ||
      entry.podReceiptUID != pinned.podReceiptUID ||
      entry.podReceiptDigest != pinned.podReceiptDigest || entry.closing ||
      entry.podCleanupReady || entry.inFlight != [])
    fun entry => r.verifyPinnedPodReceiptWith build entry false

def authorizeFreshPodCreate (build : KovaBuild) (pinned : ActiveReservation) : K Unit :=
  retry (.text ("active ledger is busy issuing Pod Create for " ++ r.qualified build.name))
      (fun n (_ : Unit) => do
    let (cm, entry) ← observe (r.pinnedAttempt build pinned)
    let issued : ActiveReservation := { entry with inFlight := [pinned.podAttemptNonce] }
    match ← attempt (r.writeReservations .authorizeFreshPodCreate build.reservationKey cm
        (cm.data.set build.reservationKey issued)) with
    | .error e =>
      onConflict n () e do
        match ← attempt (r.freshIssueRecorded build issued) with
        | .ok () => pure (.done ())
        | .error _ => throw e
    | .ok () =>
      r.freshIssueRecorded build issued
      pure (.done ())) maxReservationCASAttempts 0 ()

/-- `finishFreshPodAttempt`: the Pod gets its template digest, its receipt, and the issue fence. -/
def finishFreshPodAttempt (pod : Pod) (attempted : String) : K Pod := do
  failIf (pod.name != buildPodName build.name || pod.annotations.createAttempt != attempted ||
    !pod.ownedByBuild build) (.text "Pod template differs from fresh attempt or CR owner")
  ofAns (r.validateGenesisPodRuntimeIdentity build pod)
  let digest ← ofAns (r.ext.canonicalPodTemplateDigest pod)
  let armed ← r.armFreshPodAttempt build attempted digest
  let pinned ← r.recordAndPin build armed podSlot (r.pinPodReceipt build armed)
  r.authorizeFreshPodCreate build pinned
  pure { pod with annotations := { pod.annotations with podTemplateDigest := digest } }

def qualifyGenesisPodWith (observed : Bool) (build : KovaBuild) (pod : Option Pod)
    (allowClosing : Bool) : K Unit := do
  match pod with
  | none => throw (.text "Genesis Pod has no exact original UID and CR owner")
  | some pod =>
    failIf (pod.uid == "" || pod.name != buildPodName build.name || !pod.ownedByBuild build)
      (.text "Genesis Pod has no exact original UID and CR owner")
    ofAns (r.validateGenesisPodRuntimeIdentity build pod)
    let cm ← r.readReservationsWith observed
    match cm.data.active.lookup build.reservationKey with
    | none => throw (.text "Genesis Pod lacks the original receipted attempt")
    | some entry =>
      failIf (entry.buildName != build.name || entry.podAttemptNonce == "" ||
        entry.podReceiptUID == "" || pod.annotations.createAttempt != entry.podAttemptNonce ||
        pod.annotations.podTemplateDigest != entry.podTemplateDigest)
        (.text "Genesis Pod lacks the original receipted attempt")
      failIf ((r.ext.canonicalPodTemplateDigest pod).toOption != some entry.podTemplateDigest)
        (.text "Genesis Pod execution template differs from immutable pre-Create receipt")
      if observed then r.verifyPinnedPodReceiptWith build entry allowClosing
      else r.verifyPinnedPodReceipt build entry allowClosing

def qualifyGenesisPod (pod : Option Pod) (allowClosing : Bool) : K Unit :=
  r.qualifyGenesisPodWith false build pod allowClosing

def completeGenesisPodCreate (build : KovaBuild) (attempted : String) : K Unit :=
  retry (.text ("active ledger is busy completing Pod Create for " ++ r.qualified build.name))
      (fun n (_ : Unit) => do
    let cm ← r.readReservations
    match cm.data.active.lookup build.reservationKey with
    | none => throw (.text "Genesis Pod completion lacks exact spent and receipted attempt")
    | some entry =>
      failIf (entry.buildName != build.name || entry.podAttemptNonce != attempted ||
        entry.podReceiptUID == "")
        (.text "Genesis Pod completion lacks exact spent and receipted attempt")
      if entry.inFlight == [] then pure (.done ())
      else
        failIf (entry.inFlight != [attempted])
          (.text "Genesis Pod completion differs from in-flight issue fence")
        r.verifyPinnedPodReceipt build entry true
        let next : ActiveReservation := { entry with inFlight := [] }
        match ← attempt (r.writeReservations .completeGenesisPodCreate build.reservationKey cm
            (cm.data.set build.reservationKey next)) with
        | .ok () => pure (.done ())
        | .error e =>
          onConflict n () e do
            match ← attempt r.readReservations with
            | .error _ => throw e
            | .ok observed =>
              match observed.data.active.lookup build.reservationKey with
              | none => throw e
              | some complete =>
                failIf (!samePodAttempt complete next ||
                  complete.podReceiptUID != next.podReceiptUID || complete.inFlight != []) e
                pure (.done ())) maxReservationCASAttempts 0 ()

def deletePinnedPodReceipt : K Unit := r.deletePinned build entry podSlot

/-- `releaseGenesisPodReceipt`: true when nothing of the receipt is left. -/
def releaseGenesisPodReceipt (cm : LedgerMap) (entry : ActiveReservation) : K Bool :=
  r.releaseReceipt build entry podSlot (r.observePodReceipt build entry)
    (r.pinPodReceipt build entry) (r.verifyPinnedPodReceipt build entry true)
    (r.deletePinnedPodReceipt build entry) cm

end Reconciler

end KovaService.Controller
