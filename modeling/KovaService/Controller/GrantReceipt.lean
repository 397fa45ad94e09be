import KovaService.Controller.Base

/-!
`grant_receipt.go`: the receipt a fresh grant writes before any Pod is created, and its removal.
-/

namespace KovaService.Controller

open Lib Api Ledger

def sameGrant (left right : ActiveReservation) : Bool :=
  left.buildName == right.buildName && left.requester == right.requester &&
    left.slots == right.slots && left.grantNonce == right.grantNonce &&
    left.grantFence == right.grantFence

namespace Reconciler

variable (r : Reconciler) (build : KovaBuild) (entry : ActiveReservation)

def checkGrantReceiptNamespaceWith (observed : Bool) : K Unit := do
  failIf r.genesis.isNone (.text "Genesis grant requires a direct receipt ConfigMap client")
  r.queueStore.checkReceiptNamespaceWith observed

def checkGrantReceiptNamespace : K Unit := r.checkGrantReceiptNamespaceWith false

/-- The identity of a build in this installation, shared by both effect receipts. -/
def pinnedBuild (g : Genesis) (build : KovaBuild) : PinnedBuild where
  namespaceName := r.cfg.namespaceName
  namespaceUID := g.namespaceUID
  receiptNamespace := g.receiptNamespace
  receiptNamespaceUID := g.receiptNamespaceUID
  genesisName := g.genesisName
  genesisUID := g.genesisUID
  generation := g.generation
  activeLedgerUID := g.activeLedgerUID
  queueLedgerUID := g.queueLedgerUID
  buildName := build.name
  buildUID := build.uid
  requesterName := build.spec.requester.username
  requesterUID := build.spec.requester.uid
  requesterHash := r.ext.hashRequester build.spec.requester.username
  requestDigest := r.ext.digestBuild build.spec
  sourceDigest := build.spec.source.digest
  workerPoolID := r.cfg.workerPoolID

/-- The link from a grant to its build's queue receipt, or the direct mode. -/
def admissionMode (queueEntry : Option Intent) :
    Except Err AdmissionMode :=
  if build.annotations.queueIntent == "" then
    if queueEntry.isSome then .error Queue.errDrift else .ok .direct
  else
    match queueEntry with
    | none => .error Queue.errDrift
    | some entry =>
      if entry.nonce != build.annotations.queueIntent || entry.receiptUID == "" ||
          entry.receiptDigest == "" || entry.requestDigest != r.ext.digestBuild build.spec ||
          entry.cleanupKind != .unset then .error Queue.errDrift
      else
        match r.queueStore.receiptIntent build entry with
        | .error e => .error e
        | .ok intent =>
          match newReceipt r.ext (.queue intent) with
          | .error e => .error e
          | .ok cm => .ok (.queued ⟨cm.name, entry.receiptUID, entry.receiptDigest⟩)

def grantIntentWith (observed : Bool) (build : KovaBuild) (grant : ActiveReservation) :
    K GrantIntent := do
  match r.genesis with
  | none => throw (.text "Genesis grant has no reconstructible pre-effect identity")
  | some g =>
    failIf (build.uid == "" || grant.buildName != build.name ||
      grant.requester != build.requesterKey || !validReservationHex grant.grantNonce 32 ||
      grant.grantFence == 0 || !validGrantObservedRV grant.grantObservedRV)
      (.text "Genesis grant has no reconstructible pre-effect identity")
    onlyIf (!observed) genesisCheck
    failIf (r.cfg.workerPoolID == "" || r.cfg.workerPoolID != g.workerPoolID)
      (.text "configured worker pool differs from immutable admission Genesis")
    let verified ← r.queueStore.verifyForBuildWith observed build
    let queueEntry ← r.queueStore.lookupWith observed build.name
    failIf (queueEntry != verified) Queue.errDrift
    let mode ← ofAns (r.admissionMode build queueEntry)
    pure
      { build := r.pinnedBuild g build, admissionMode := mode, grantNonce := grant.grantNonce,
        activeLedgerFence := grant.grantFence, activeLedgerRV := grant.grantObservedRV,
        allocatedWorkerSlots := grant.slots }

def busyGrant (doing : String) : Err :=
  .text ("active admission ledger is busy " ++ doing ++ " " ++ r.qualified build.name)

def armFreshGrant (build : KovaBuild) (original : ActiveReservation) : K ActiveReservation :=
  retry (r.busyGrant build "arming grant for") (fun n (_ : Unit) => do
    let cm ← r.readReservations
    match cm.data.active.lookup build.reservationKey with
    | none => throw (.text "fresh grant lost its unarmed active charge")
    | some entry =>
      failIf (!sameGrant entry original || entry.closing || entry.grantObservedRV != "" ||
        entry.grantReceiptUID != "") (.text "fresh grant lost its unarmed active charge")
      r.ensureLiveAdmissionBuild build
      failIf (!validGrantObservedRV (rvString cm.resourceVersion))
        (.text "active ledger observation has unsupported opaque resourceVersion")
      let armed : ActiveReservation := { entry with grantObservedRV := rvString cm.resourceVersion }
      match ← attempt (r.writeReservations .armFreshGrant build.reservationKey cm
          (cm.data.set build.reservationKey armed)) with
      | .error e =>
        onConflict n () e (throw e)
      | .ok () =>
        let confirmed ← r.readReservations
        match confirmed.data.active.lookup build.reservationKey with
        | none => throw (.text "armed grant changed before receipt Create")
        | some observed =>
          failIf (!sameGrant observed original ||
            observed.grantObservedRV != armed.grantObservedRV || observed.closing ||
            observed.grantReceiptUID != "") (.text "armed grant changed before receipt Create")
          pure (.done observed)) maxReservationCASAttempts 0 ()

/-- `ObserveGrant` and `ObservePodCreate`: one direct read of the receipt of this content. -/
def observeEffect (data : ReceiptData) : K Witness := do
  let expected ← ofAns (newReceipt r.ext data)
  match ← attempt (getReceipt expected.name) with
  | .error e =>
    throw (.wrap "" (.sentinel .receiptUnconfirmed) (": direct read: " ++ e.message ""))
  | .ok readback => ofAns (qualify r.ext expected readback)

/-- What the grant receipt and the Pod receipt differ in: the names in the texts, the writers, the
fields of an entry, the content, and the error of an entry without a pinned receipt. -/
structure ReceiptSlot where
  what : String
  subject : String
  pinner : LedgerWriter
  marker : LedgerWriter
  same : ActiveReservation → ActiveReservation → Bool
  armedBy : ActiveReservation → String
  uid : ActiveReservation → UID
  digest : ActiveReservation → String
  cleanupReady : ActiveReservation → Bool
  pin : ActiveReservation → Witness → ActiveReservation
  mark : ActiveReservation → ActiveReservation
  data : Reconciler → Bool → KovaBuild → ActiveReservation → K ReceiptData
  unpinned : Sentinel

section Slot

variable (x : ReceiptSlot)

def observeReceiptWith : K Witness := do
  r.checkGrantReceiptNamespaceWith true
  let data ← x.data r true build entry
  let witness ← observedRead true (r.observeEffect data)
  r.checkGrantReceiptNamespaceWith true
  pure witness

def verifyPinnedReceiptWith (allowClosing : Bool) : K Unit := do
  failIf (!allowClosing && entry.closing)
    (r.admissionClosed build (" " ++ x.subject ++ " is closing"))
  if x.uid entry == "" || x.digest entry == "" then
    onlyIf (x.armedBy entry != "") do
      let _ ← attempt (r.observeReceiptWith build entry x)
    throw (.sentinel x.unpinned)
  else
    let witness ← r.observeReceiptWith build entry x
    failIf (witness.receiptUID != x.uid entry || witness.dataDigest != x.digest entry)
      (.sentinel .receiptChanged)

def pinEntryReceipt (busy : Err) (build : KovaBuild) (armed : ActiveReservation)
    (witness : Witness) : K ActiveReservation := do
  failIf (!validReceiptUID witness.receiptUID || !digestSHA256 witness.dataDigest)
    (.sentinel .receiptChanged)
  let pinnedTo (e : ActiveReservation) : Bool :=
    x.same e armed && x.armedBy e == x.armedBy armed &&
      x.uid e == witness.receiptUID && x.digest e == witness.dataDigest
  retry busy (fun n (_ : Unit) => do
    let cm ← r.readReservations
    match cm.data.active.lookup build.reservationKey with
    | none => throw (.text (x.subject ++ " changed before receipt pin"))
    | some entry =>
      failIf (!x.same entry armed || x.armedBy entry != x.armedBy armed || x.cleanupReady entry)
        (.text (x.subject ++ " changed before receipt pin"))
      if x.uid entry != "" then
        failIf (x.uid entry != witness.receiptUID || x.digest entry != witness.dataDigest)
          (.sentinel .receiptChanged)
        pure (.done entry)
      else
        let next := cm.data.set build.reservationKey (x.pin entry witness)
        match ← attempt (r.writeReservations x.pinner build.reservationKey cm next) with
        | .error e =>
          onConflict n () e do
            match ← attempt r.readReservations with
            | .error _ => throw e
            | .ok observed =>
              match observed.data.active.lookup build.reservationKey with
              | none => throw e
              | some pinned =>
                failIf (!pinnedTo pinned) e
                pure (.done pinned)
        | .ok () =>
          let observed ← r.readReservations
          match observed.data.active.lookup build.reservationKey with
          | none => throw (.sentinel .receiptChanged)
          | some pinned =>
            failIf (!pinnedTo pinned) (.sentinel .receiptChanged)
            pure (.done pinned)) maxReservationCASAttempts 0 ()

/-- The reads before the Create of a receipt. -/
def freshReceipt : K ReceiptData := do
  observedRead true (r.ensureLiveAdmissionBuild build)
  r.checkGrantReceiptNamespaceWith true
  x.data r true build entry

/-- What `finishFreshGrant` and `finishFreshPodAttempt` do with the entry they have armed. -/
def recordAndPin (pin : Witness → K ActiveReservation) : K ActiveReservation := do
  let data ← observe (r.freshReceipt build entry x)
  let witness ← recordOnce r.ext data
  r.checkGrantReceiptNamespace
  pin witness

/-- The Delete of a receipt that is found under its pinned identity. -/
def deleteQualified (expected : Receipt) (uid : UID) (digest : String) : K Unit := do
  match ← attempt (getReceipt expected.name) with
  | .error e => failIf (!e.isNotFound) e
  | .ok observed =>
    match qualify r.ext expected observed with
    | .error _ => throw (.sentinel .receiptChanged)
    | .ok witness =>
      failIf (witness.receiptUID != uid || witness.dataDigest != digest)
        (.sentinel .receiptChanged)
      match ← attempt (deleteReceipt expected.name uid) with
      | .ok () => pure ()
      | .error e => failIf (!e.isNotFound) e

/-- Delete the receipt of this content under its pinned UID and confirm that it is gone. -/
def deletePinnedEffect (data : ReceiptData) (uid : UID) (digest what : String) : K Unit := do
  let expected ← ofAns (newReceipt r.ext data)
  r.deleteQualified expected uid digest
  match ← attempt (getReceipt expected.name) with
  | .ok _ => throw (.text (what ++ " receipt still exists after UID-preconditioned Delete"))
  | .error e =>
    failIf (!e.isNotFound) e
    r.checkGrantReceiptNamespace
    genesisCheck

def deletePinned : K Unit := do
  failIf (!x.cleanupReady entry || !entry.closing || x.uid entry == "")
    (.text (x.what ++ " receipt lacks durable cleanup disposition"))
  r.checkGrantReceiptNamespace
  let data ← x.data r false build entry
  r.deletePinnedEffect data (x.uid entry) (x.digest entry) x.what

def releaseReceipt (observe : K Witness) (pin : Witness → K ActiveReservation)
    (verify delete : K Unit) (cm : LedgerMap) : K Bool := do
  if x.armedBy entry == "" then pure true
  else if x.uid entry == "" then
    match ← attempt observe with
    | .error e => throw (.wrap ("armed " ++ x.what ++ " receipt outcome is unknown: ") e "")
    | .ok witness =>
      let _ ← pin witness
      pure false
  else if !x.cleanupReady entry then
    verify
    r.writeReservations x.marker build.reservationKey cm
      (cm.data.set build.reservationKey (x.mark entry))
    pure false
  else
    delete
    pure true

end Slot

def grantSlot : ReceiptSlot where
  what := "grant"
  subject := "grant"
  pinner := .pinGrantReceipt
  marker := .releaseGrantReceipt
  same := sameGrant
  armedBy e := e.grantObservedRV
  uid e := e.grantReceiptUID
  digest e := e.grantReceiptDigest
  cleanupReady e := e.grantCleanupReady
  pin e w := { e with grantReceiptUID := w.receiptUID, grantReceiptDigest := w.dataDigest }
  mark e := { e with grantCleanupReady := true }
  data r observed build e := do
    let intent ← r.grantIntentWith observed build e
    pure (.grant intent)
  unpinned := .grantUnpinned

def observeGrantReceiptWith : K Witness := r.observeReceiptWith build entry grantSlot

def observeGrantReceipt : K Witness :=
  observe (r.observeGrantReceiptWith build entry)

def verifyPinnedGrantWith : K Unit := r.verifyPinnedReceiptWith build entry grantSlot false

def verifyPinnedGrant : K Unit :=
  observe (r.verifyPinnedGrantWith build entry)

def pinGrantReceipt : ActiveReservation → Witness → K ActiveReservation :=
  r.pinEntryReceipt grantSlot (r.busyGrant build "pinning grant receipt for") build

def finishFreshGrant (original : ActiveReservation) : K Unit := do
  let armed ← r.armFreshGrant build original
  let pinned ← r.recordAndPin build armed grantSlot (r.pinGrantReceipt build armed)
  r.ensureLiveAdmissionBuild build
  r.verifyPinnedGrant build pinned

def deletePinnedGrantReceipt : K Unit := r.deletePinned build entry grantSlot

def verifyPinnedGrantForCleanup : K Unit := do
  let witness ← r.observeGrantReceipt build entry
  failIf (witness.receiptUID != entry.grantReceiptUID ||
    witness.dataDigest != entry.grantReceiptDigest) (.sentinel .receiptChanged)

/-- `releaseGenesisGrantReceipt`: true when nothing of the receipt is left. -/
def releaseGenesisGrantReceipt (cm : LedgerMap) (entry : ActiveReservation) : K Bool :=
  r.releaseReceipt build entry grantSlot (r.observeGrantReceipt build entry)
    (r.pinGrantReceipt build entry) (r.verifyPinnedGrantForCleanup build entry)
    (r.deletePinnedGrantReceipt build entry) cm

end Reconciler

end KovaService.Controller
