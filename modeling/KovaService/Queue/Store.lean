import KovaService.Api.Guard

/-!
`queueadmission.Store`: the programs that reserve, pin, mark and release queue intents.
-/

namespace KovaService.Queue

open Lib Api Ledger

structure Store where
  ext : Ext
  genesis : Option Genesis
  namespaceName : String
  globalLimit : Int
  requesterLimit : Int

structure ObservedQueueIntent where
  intent : QueueIntent
  receiptUID : UID
  dataDigest : String
  deriving DecidableEq

def errDrift : Err := .sentinel .queueDrift

def errBusy : Err := .sentinel .queueBusy

namespace Store

variable (s : Store) (build : KovaBuild) (observed : Bool) (entry : Intent)

def key : String := s.namespaceName ++ "/kova-service-queue-admission"

def validateForGenesis (d : QueueState) : Except Err Unit :=
  if d.globalLimit != s.globalLimit || d.requesterLimit != s.requesterLimit then
    .error (.text "queue admission ledger limits differ from receipt")
  else if d.version != 2 then .error (.text "queue admission Genesis requires version 2")
  else d.validate

def role (g : Genesis) : Role QueueState where
  name := "queue"
  configMap := "kova-service-queue-admission"
  expectedUID := g.queueLedgerUID
  validate := s.validateForGenesis

/-- The checks `readWithObservation` makes on a decoded ledger. -/
def checkRead (d : QueueState) : Except Err Unit :=
  if d.globalLimit != s.globalLimit || d.requesterLimit != s.requesterLimit then
    .error (.text ("queue ledger " ++ s.key ++ " has invalid state or mismatched replica limits"))
  else if (s.genesis.isSome && d.version != 2) || (s.genesis.isNone && d.version != 1) then
    .error (.text ("queue ledger " ++ s.key ++ " has the wrong receipt protocol version"))
  else
    match d.validate with
    | .error e => .error (.wrap ("queue ledger " ++ s.key ++ " has unsupported state: ") e "")
    | .ok () => .ok ()

/-- In Genesis mode the ledger must be the original one. -/
def checkIdentity (cm : QueueMap) : Except Err Unit :=
  match s.genesis with
  | none => .ok ()
  | some g => (s.role g).checkLedger cm

def readWith : K QueueMap := do
  onlyIf (s.genesis.isSome && !observed) genesisCheck
  let cm ← observedRead observed getQueue
  ofAns (s.checkIdentity cm)
  ofAns (s.checkRead cm.data)
  pure cm

def read : K QueueMap := s.readWith false

def write (writer : QueueWriter) (id : String) (cm : QueueMap) (next : QueueState) : K Unit := do
  ofAns (s.ext.encodeState next)
  match s.genesis with
  | some g =>
    let patch := fun body => putQueue writer id (some body) cm.resourceVersion next
    (s.role g).patchLedgerData genesisCheck getQueue patch cm next
  | none =>
    let _ ← putQueue writer id none cm.resourceVersion next
    pure ()

def lookupWith (id : String) : K (Option Intent) := do
  let cm ← s.readWith observed
  pure (cm.data.intents.lookup id)

def lookup (id : String) : K (Option Intent) := s.lookupWith false id

def reserve (build : KovaBuild) : K (Intent × Bool) := do
  let digest := s.ext.digestBuild build.spec
  let nonce ← newNonce
  let requester := s.ext.hashRequester build.spec.requester.username
  let now ← timeNow
  let proposed : Intent :=
    { requesterHash := requester, requestDigest := digest, nonce := nonce,
      createdAtUnix := now / second }
  retry errBusy (fun n (_ : Unit) => do
    ctxErr
    let cm ← s.read
    match cm.data.intents.lookup build.name with
    | some existing =>
      failIf (existing.requesterHash != requester || existing.requestDigest != digest)
        (.sentinel .queueConflict)
      pure (.done (existing, false))
    | none =>
      failIf ((cm.data.intents.keys.card : Int) ≥ s.globalLimit) (.sentinel .queueFull)
      failIf ((cm.data.requesterCount requester : Int) ≥ s.requesterLimit) (.sentinel .queueFull)
      match ← attempt (s.write .reserve build.name cm (cm.data.set build.name proposed)) with
      | .ok () => pure (.done (proposed, true))
      | .error e =>
        onConflict n () e do
          match ← attempt (s.lookup build.name) with
          | .ok (some observed) =>
            if observed == proposed then pure (.done (proposed, true))
            else throw (if e.isTooManyRequests then errBusy else e)
          | _ => throw (if e.isTooManyRequests then errBusy else e)) maxCASAttempts 0 ()

def receiptIntent : Except Err QueueIntent :=
  match s.genesis with
  | none => .error errDrift
  | some g =>
    if build.name == "" || entry.nonce == "" || g.receiptNamespace == s.namespaceName ||
        g.receiptNamespace == "" || g.receiptNamespaceUID == "" || g.activeLedgerUID == "" ||
        g.queueLedgerUID == "" then .error errDrift
    else if entry.requesterHash != s.ext.hashRequester build.spec.requester.username ||
        entry.requestDigest != s.ext.digestBuild build.spec then .error errDrift
    else
      let intent : QueueIntent :=
        { namespaceName := s.namespaceName, namespaceUID := g.namespaceUID,
          receiptNamespace := g.receiptNamespace, receiptNamespaceUID := g.receiptNamespaceUID,
          genesisName := g.genesisName, genesisUID := g.genesisUID, generation := g.generation,
          activeLedgerUID := g.activeLedgerUID, queueLedgerUID := g.queueLedgerUID,
          buildName := build.name, requesterName := build.spec.requester.username,
          requesterUID := build.spec.requester.uid, requesterHash := entry.requesterHash,
          requestDigest := entry.requestDigest, sourceDigest := build.spec.source.digest,
          queueNonce := entry.nonce }
      match newReceipt s.ext (.queue intent) with
      | .error e => .error e
      | .ok _ => .ok intent

def checkReceiptNamespaceWith : K Unit := do
  failIf s.genesis.isNone errDrift
  observedRead observed receiptNamespace

def checkReceiptNamespace : K Unit := s.checkReceiptNamespaceWith false

def pinReceipt (build : KovaBuild) (reserved : Intent) (witness : ObservedQueueIntent) :
    K Unit := do
  s.checkReceiptNamespace
  let expected ← ofAns (s.receiptIntent build reserved)
  failIf (witness.intent != expected || !validReceiptUID witness.receiptUID ||
    !digestSHA256 witness.dataDigest) errDrift
  retry errBusy (fun n (_ : Unit) => do
    let cm ← s.read
    match cm.data.intents.lookup build.name with
    | none => throw errDrift
    | some entry =>
      failIf (entry.nonce != reserved.nonce || entry.requestDigest != reserved.requestDigest ||
        entry.requesterHash != reserved.requesterHash || entry.cleanupKind != .unset) errDrift
      if entry.receiptUID != "" then
        failIf (entry.receiptUID != witness.receiptUID || entry.receiptDigest != witness.dataDigest)
          errDrift
        s.checkReceiptNamespace
        pure (.done ())
      else
        let pinned : Intent :=
          { entry with receiptUID := witness.receiptUID, receiptDigest := witness.dataDigest }
        let linked (o : Option Intent) : Bool := o.any fun observed =>
          observed.nonce == pinned.nonce && observed.receiptUID == pinned.receiptUID &&
            observed.receiptDigest == pinned.receiptDigest && observed.cleanupKind == .unset
        match ← attempt (s.write .pinReceipt build.name cm (cm.data.set build.name pinned)) with
        | .error e =>
          onConflict n () e do
            match ← attempt (s.lookup build.name) with
            | .ok o =>
              failIf (!linked o) e
              s.checkReceiptNamespace
              pure (.done ())
            | .error _ => throw e
        | .ok () =>
          let observed ← s.lookup build.name
          failIf (!linked observed) errDrift
          s.checkReceiptNamespace
          pure (.done ())) maxCASAttempts 0 ()

def observePinnedReceiptWith (build : KovaBuild) (entry : Intent) : K Unit := do
  s.checkReceiptNamespaceWith observed
  failIf (entry.receiptUID == "" || entry.receiptDigest == "" || entry.cleanupKind != .unset ||
    build.annotations.queueReceiptUID != entry.receiptUID ||
    build.annotations.queueReceiptDigest != entry.receiptDigest) errDrift
  let intent ← ofAns (s.receiptIntent build entry)
  let expected ← ofAns (newReceipt s.ext (.queue intent))
  match ← attempt (observedRead observed (getReceipt expected.name)) with
  | .error e =>
    throw (.wrap "" errDrift (": pinned queue receipt is unavailable: " ++ e.message ""))
  | .ok receipt =>
    match qualify s.ext expected receipt with
    | .error _ => throw errDrift
    | .ok witness =>
      failIf (witness.receiptUID != entry.receiptUID || witness.dataDigest != entry.receiptDigest)
        errDrift
      onlyIf (!observed) genesisCheck

def observePinnedReceipt : K Unit :=
  s.observePinnedReceiptWith false build entry

def markReceiptCleanupReady (id : String) (expected : Intent) (kind : CleanupKind) : K Unit := do
  failIf (kind == .unset) errDrift
  retry errBusy (fun n (_ : Unit) => do
    let cm ← s.read
    match cm.data.intents.lookup id with
    | none => throw errDrift
    | some entry =>
      failIf (entry.nonce != expected.nonce || entry.requestDigest != expected.requestDigest ||
        entry.requesterHash != expected.requesterHash || entry.receiptUID != expected.receiptUID ||
        entry.receiptDigest != expected.receiptDigest || entry.receiptUID == "") errDrift
      if entry.cleanupKind == kind then pure (.done ())
      else
        failIf (entry.cleanupKind != .unset) errDrift
        let marked : Intent := { entry with cleanupKind := kind }
        match ← attempt (s.write .markReceiptCleanupReady id cm (cm.data.set id marked)) with
        | .ok () => pure (.done ())
        | .error e =>
          onConflict n () e do
            match ← attempt (s.lookup id) with
            | .ok (some observed) =>
              failIf (observed.nonce != marked.nonce || observed.receiptUID != marked.receiptUID ||
                observed.receiptDigest != marked.receiptDigest || observed.cleanupKind != kind) e
              pure (.done ())
            | _ => throw e) maxCASAttempts 0 ()

def deletePinnedReceipt : K Unit := do
  failIf (s.genesis.isNone || entry.cleanupKind == .unset || !validReceiptUID entry.receiptUID)
    errDrift
  s.checkReceiptNamespace
  let name := queueReceiptPrefix ++ entry.nonce
  match ← attempt (getReceipt name) with
  | .error e =>
    failIf (!e.isNotFound) e
    genesisCheck
  | .ok current =>
    let digest := s.ext.digestData current.data
    failIf (digest.toOption != some entry.receiptDigest || current.name != name ||
      current.uid != entry.receiptUID || !current.immutable ||
      current.deletionTimestamp.isSome || current.ownerReferences != [] || current.binaryData)
      errDrift
    genesisCheck
    let deleted ← attempt (deleteReceipt name current.uid)
    match ← attempt (getReceipt name) with
    | .error e =>
      failIf (!e.isNotFound) e
      genesisCheck
    | .ok after =>
      failIf (after.uid != current.uid) errDrift
      ofAns deleted
      throw (.text ("queue receipt " ++ name ++ " remains after UID-preconditioned Delete"))

def markReceiptSettled : K Unit :=
  retry errBusy (fun n (_ : Unit) => do
    let current ← getBuild build.name
    failIf (current.uid == "" || current.uid != build.uid || !current.terminalOrDeleting ||
      current.annotations.queueIntent != entry.nonce ||
      current.annotations.queueReceiptUID != entry.receiptUID ||
      current.annotations.queueReceiptDigest != entry.receiptDigest) errDrift
    if current.annotations.queueReceiptSettledUID == entry.receiptUID then pure (.done ())
    else
      failIf (current.annotations.queueReceiptSettledUID != "") errDrift
      genesisCheck
      let written ← attempt (updateBuild { current with
        annotations := { current.annotations with queueReceiptSettledUID := entry.receiptUID } })
      let readback ← attempt (getBuild build.name)
      let settled : Bool := match readback with
        | .ok o => o.uid == build.uid && o.annotations.queueReceiptSettledUID == entry.receiptUID
        | .error _ => false
      if settled then
        genesisCheck
        pure (.done ())
      else
        match written with
        | .error e =>
          onConflict n () e (throw e)
        | .ok _ =>
          match readback with
          | .error e => throw e
          | .ok _ => throw errDrift) maxCASAttempts 0 ()

def noMatchingIntent (what : String) : Err :=
  .wrap "" errDrift (": KovaBuild " ++ s.namespaceName ++ "/" ++ build.name ++ what)

def verifyForBuildWith (build : KovaBuild) : K (Option Intent) := do
  let nonce := build.annotations.queueIntent
  if nonce == "" then
    if s.genesis.isSome then
      let _ ← s.readWith observed
      pure none
    else
      failIf observed (.text "read-only queue observation requires Genesis")
      pure none
  else
    match ← attempt (s.lookupWith observed build.name) with
    | .error e =>
      if e.isNotFound then
        throw (.wrap "" errDrift (": queue ledger " ++ s.key ++ " is absent for KovaBuild " ++
          s.namespaceName ++ "/" ++ build.name))
      else throw e
    | .ok none => throw (s.noMatchingIntent build " has no matching queue intent")
    | .ok (some entry) =>
      failIf (entry.nonce != nonce ||
        entry.requesterHash != s.ext.hashRequester build.spec.requester.username)
        (s.noMatchingIntent build " has no matching queue intent")
      failIf (entry.requestDigest != s.ext.digestBuild build.spec)
        (s.noMatchingIntent build " request digest differs from queue intent")
      onlyIf s.genesis.isSome (s.observePinnedReceiptWith observed build entry)
      pure (some entry)

def verifyForBuild : K Unit := do
  let _ ← s.verifyForBuildWith false build
  pure ()

/-- The CAS that ends a release: delete the intent and write the ledger. -/
def removeIntent (writer : QueueWriter) (id : String) (n : Nat) (cm : QueueMap) :
    K (Round Unit Unit) := do
  match ← attempt (s.write writer id cm (cm.data.remove id)) with
  | .ok () => pure (.done ())
  | .error e =>
    onConflict n () e do
      match ← attempt (s.lookup id) with
      | .ok none => pure (.done ())
      | _ => throw e

def releaseReceiptedBuild (build : KovaBuild) : K Unit := do
  failIf (build.uid == "" || !build.terminalOrDeleting) errDrift
  let nonce := build.annotations.queueIntent
  if nonce == "" then pure ()
  else
    let digest := s.ext.digestBuild build.spec
    retry errBusy (fun n (_ : Unit) => do
      let cm ← s.read
      match cm.data.intents.lookup build.name with
      | none =>
        let persisted ← getBuild build.name
        failIf (persisted.uid != build.uid || !persisted.terminalOrDeleting ||
          persisted.annotations.queueIntent != nonce ||
          persisted.annotations.queueReceiptSettledUID == "" ||
          persisted.annotations.queueReceiptSettledUID != persisted.annotations.queueReceiptUID)
          errDrift
        s.checkReceiptNamespace
        match ← attempt (getReceipt (queueReceiptPrefix ++ nonce)) with
        | .ok _ => throw errDrift
        | .error e =>
          failIf (!e.isNotFound) e
          genesisCheck
          pure (.done ())
      | some entry =>
        failIf (entry.nonce != nonce ||
          entry.requesterHash != s.ext.hashRequester build.spec.requester.username ||
          entry.requestDigest != digest || entry.receiptUID == "" ||
          build.annotations.queueReceiptUID != entry.receiptUID ||
          build.annotations.queueReceiptDigest != entry.receiptDigest) errDrift
        match entry.cleanupKind with
        | .unset =>
          s.observePinnedReceipt build entry
          s.markReceiptCleanupReady build.name entry .terminal
          pure (.again ())
        | .rejected => throw errDrift
        | .terminal =>
          s.deletePinnedReceipt entry
          markReceiptSettled build entry
          s.removeIntent .releaseReceiptedBuild build.name n cm) maxCASAttempts 0 ()

def releaseForBuild (build : KovaBuild) : K Unit := do
  if s.genesis.isSome then s.releaseReceiptedBuild build
  else
    let nonce := build.annotations.queueIntent
    if nonce == "" then pure ()
    else
      let digest := s.ext.digestBuild build.spec
      retry errBusy (fun n (_ : Unit) => do
        let cm ← s.read
        match cm.data.intents.lookup build.name with
        | none => pure (.done ())
        | some entry =>
          failIf (entry.nonce != nonce ||
            entry.requesterHash != s.ext.hashRequester build.spec.requester.username ||
            entry.requestDigest != digest)
            (s.noMatchingIntent build " has a different queue intent")
          s.removeIntent .releaseForBuild build.name n cm) maxCASAttempts 0 ()

def releaseRejectedIntent (id nonce : String) : K Unit :=
  retry errBusy (fun n (_ : Unit) => do
    let cm ← s.read
    match cm.data.intents.lookup id with
    | none => pure (.done ())
    | some entry =>
      failIf (entry.nonce != nonce)
        (.wrap "" errDrift (": queue intent " ++ id ++ " changed before rejection cleanup"))
      failIf (s.genesis.isSome && (entry.cleanupKind != .rejected || entry.receiptUID == ""))
        errDrift
      s.removeIntent .releaseRejected id n cm) maxCASAttempts 0 ()

def releaseRejected (id nonce : String) : K Unit := do
  failIf s.genesis.isSome
    (.wrap "" errDrift ": Genesis rejection cleanup requires its pinned receipt")
  s.releaseRejectedIntent id nonce

def releaseRejectedReceipt (witness : ObservedQueueIntent) : K Unit := do
  failIf (s.genesis.isNone || witness.intent.buildName != build.name) errDrift
  match ← s.lookup build.name with
  | none => throw errDrift
  | some entry =>
    failIf (entry.nonce != witness.intent.queueNonce || entry.receiptUID != witness.receiptUID ||
      entry.receiptDigest != witness.dataDigest || entry.cleanupKind != .unset) errDrift
    s.observePinnedReceipt build entry
    s.markReceiptCleanupReady build.name entry .rejected
    s.deletePinnedReceipt { entry with cleanupKind := .rejected }
    s.releaseRejectedIntent build.name entry.nonce

def resumeRejectedCleanup (id nonce : String) : K Unit := do
  failIf s.genesis.isNone errDrift
  match ← s.lookup id with
  | none => throw errDrift
  | some entry =>
    failIf (entry.nonce != nonce || entry.cleanupKind != .rejected) errDrift
    match ← attempt (getBuild id) with
    | .ok _ => throw errDrift
    | .error e =>
      failIf (!e.isNotFound) e
      s.deletePinnedReceipt entry
      s.releaseRejectedIntent id nonce

end Store

end KovaService.Queue
