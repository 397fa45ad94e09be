import KovaService.Drain.Objects
import KovaService.Lib.Prog

/-!
Recovery drain: `Drain`, with the preflight of the stopped epoch, the link from receipts to names,
and the occupation of one name.

The errors inside one call are kept as their texts.
-/

namespace KovaService.Drain

open Api Ledger Lib

variable (T : Tools) (exp : Expectation) (item : Target)

/-- An API error, as far as the drain looks at it. -/
structure ApiErr where
  notFound : Bool
  text : String
  deriving DecidableEq

/-- `Disposition`; the state is "original-retained" or "tombstone-retained". -/
structure Disposition where
  kind : Kind
  name : String
  uid : UID
  state : String
  deriving DecidableEq

/-- `Report`; the stage is preflight-blocked, occupancy-unknown or occupied-not-drained. -/
structure Report where
  stage : String
  permitDigest : String := ""
  dispositions : List Disposition := []
  deriving DecidableEq

/-- The calls of `DirectAPI`, by the type of their object.  `returned` marks what a call of `Drain`
returns, with its error. -/
inductive Request where
  | getNamespace (name : String)
  | getConfigMap (key : Key)
  | listConfigMaps (namespaceName : String) (limit : Nat)
  | getBuild (key : Key)
  | getPod (key : Key)
  | createConfigMap (cm : ConfigMap)
  | createBuild (b : KovaBuild)
  | createPod (p : Pod)
  | updateBuild (b : KovaBuild)
  | updatePod (p : Pod)
  | returned (i : Input) (report : Report) (err : Option String)

/-- A Create or Update answers with the object as the API has it now. -/
def Answer : Request → Type
  | .getNamespace _ => Except ApiErr Namespace
  | .getConfigMap _ | .createConfigMap _ => Except ApiErr ConfigMap
  | .listConfigMaps .. => Except ApiErr ConfigMapList
  | .getBuild _ | .createBuild _ | .updateBuild _ => Except ApiErr KovaBuild
  | .getPod _ | .createPod _ | .updatePod _ => Except ApiErr Pod
  | .returned .. => Unit

abbrev D : Type → Type := Fallible Request Answer String

def ask (q : Request) : D (Answer q) := Fallible.lift (Prog.perform q)

def ofExcept {α : Type} : Except String α → D α
  | .ok a => pure a
  | .error e => throw e

def errText {α : Type} : Except ApiErr α → String
  | .ok _ => "<nil>"
  | .error e => e.text

def errPreflight : String := "recovery drain preflight is not qualified"

def errUnknown : String := "recovery occupancy outcome is unknown"

/-- The namespace is there, with this UID, and active. -/
def activeNamespace (uid : UID) : Except ApiErr Namespace → Bool
  | .ok ns => ns.metadata.uid == uid && ns.metadata.deletionTimestamp.isNone && ns.phase == "Active"
  | .error _ => false

def stopUnchanged (stop : ConfigMap) : Bool :=
  match digestData T stop.data with
  | .error _ => false
  | .ok digest =>
    stop.metadata.namespaceName == exp.epoch.namespaceName &&
      stop.metadata.uid == exp.stopIntent.uid && stop.metadata.name == exp.stopIntent.name &&
      stop.metadata.resourceVersion != "" && stop.metadata.deletionTimestamp.isNone &&
      stop.immutable == some true && stop.metadata.ownerReferences == [] &&
      stop.binaryData.size == 0 && digest == exp.stopIntent.dataDigest

def StopIntentRef.key (s : StopIntentRef) : Key :=
  { namespaceName := s.namespaceName, name := s.name }

def qualifyStopAndNamespace : D Unit := do
  let ns ← ask (.getNamespace exp.epoch.namespaceName)
  Fallible.failIf (!activeNamespace exp.epoch.namespaceUID ns)
    ("old namespace UID is unavailable or changed: " ++ errText ns)
  let receipts ← ask (.getNamespace exp.epoch.receiptNamespace)
  Fallible.failIf (!activeNamespace exp.epoch.receiptNamespaceUID receipts)
    ("old receipt namespace UID is unavailable or changed: " ++ errText receipts)
  match ← ask (.getConfigMap exp.stopIntent.key) with
  | .error e => throw ("stop intent direct read: " ++ e.text)
  | .ok stop =>
    Fallible.failIf (!stopUnchanged T exp stop)
      "stop intent identity or immutable payload changed"

def refKey (kind name : String) : String := kind ++ "/" ++ name

def receiptDataKey (d : ReceiptData) : String := refKey (receiptDataKind d) d.receiptName

def provide (provided : List (String × ReceiptData)) (d : ReceiptData) :
    Except String (List (String × ReceiptData)) :=
  match newReceiptConfigMap T d with
  | .error _ => .error errPreflight
  | .ok cm =>
    if cm.metadata.namespaceName != exp.epoch.receiptNamespace ||
        (provided.lookup (receiptDataKey d)).isSome then
      .error errPreflight
    else .ok (provided ++ [(receiptDataKey d, d)])

/-- The intents by the keys of their receipts. -/
def provideAll (i : Input) : Except String (List (String × ReceiptData)) :=
  i.intents.foldlM (provide T i.expected) []

/-- `refs`, the signed receipts by their keys; an error when one has no intent. -/
def signedRefs (provided : List (String × ReceiptData)) :
    Except String (Finmap fun _ : String => ReceiptRef) :=
  exp.receipts.foldlM
    (fun refs ref =>
      if (provided.lookup (refKey ref.kind ref.name)).isSome then
        .ok (refs.insert (refKey ref.kind ref.name) ref)
      else .error ("missing intent for " ++ refKey ref.kind ref.name))
    ∅

def receiptKind (name : String) : String :=
  if queueReceiptPrefix.toList.isPrefixOf name.toList then "queue"
  else if grantReceiptPrefix.toList.isPrefixOf name.toList then "grant"
  else if podReceiptPrefix.toList.isPrefixOf name.toList then "pod-create"
  else ""

/-- One item of the inventory list; the keys seen so far are collected. -/
def listed (refs : Finmap fun _ : String => ReceiptRef) (seen : List String) (cm : ConfigMap) :
    Except String (List String) :=
  let kind := receiptKind cm.metadata.name
  if kind == "" then .ok seen
  else
    let key := refKey kind cm.metadata.name
    let changed : Except String (List String) :=
      .error ("unlisted, duplicate, or replaced old receipt " ++ key)
    match refs.lookup key with
    | none => changed
    | some ref =>
      if seen.contains key || cm.metadata.namespaceName != ref.namespaceName ||
          cm.metadata.uid != ref.uid then
        changed
      else .ok (seen ++ [key])

def readReceipt (provided : List (String × ReceiptData)) (ref : ReceiptRef) :
    D PUnit := do
  match ← ask (.getConfigMap { namespaceName := ref.namespaceName, name := ref.name }) with
  | .error e => throw ("direct receipt read " ++ ref.name ++ ": " ++ e.text)
  | .ok cm =>
    match provided.lookup (refKey ref.kind ref.name) with
    | none => throw errPreflight
    | some d =>
      let digest ← ofExcept (qualifyReceipt T d cm)
      Fallible.failIf (cm.metadata.uid != ref.uid || digest != ref.dataDigest)
        ("receipt UID or data digest changed: " ++ refKey ref.kind ref.name)

def maxConfigMaps : Nat := 8192

/-- The epoch fields of a receipt agree with the permit. -/
def sameEpoch (e : EpochIdentity) (namespaceName namespaceUID genesisName receiptNamespace
    receiptNamespaceUID genesisUID generation activeLedgerUID queueLedgerUID : String) : Bool :=
  namespaceName == e.namespaceName && namespaceUID == e.namespaceUID &&
    genesisName == e.genesisName && receiptNamespace == e.receiptNamespace &&
    receiptNamespaceUID == e.receiptNamespaceUID && genesisUID == e.genesisUID &&
    generation == e.generation && activeLedgerUID == e.activeLedgerUID &&
    queueLedgerUID == e.queueLedgerUID

def findTarget (targets : List Target) (name : String) : Option Target :=
  targets.find? fun t => t.name == name

def putTarget (targets : List Target) (item : Target) : List Target :=
  targets.map fun t => if t.name == item.name then item else t

def linkQueue (e : EpochIdentity) (byBuild : List Target) (q : QueueIntent) :
    Except String (List Target) :=
  if !sameEpoch e q.namespaceName q.namespaceUID q.genesisName q.receiptNamespace
      q.receiptNamespaceUID q.genesisUID q.generation q.activeLedgerUID q.queueLedgerUID ||
      (findTarget byBuild q.buildName).isSome then
    .error "queue receipt epoch or build identity conflicts"
  else .ok (byBuild ++ [{ kind := .kovaBuild, name := q.buildName, queue := some q }])

/-- The last signed receipt of this kind and name. -/
def findRef (kind name : String) : Option ReceiptRef :=
  exp.receipts.reverse.find? fun r => r.kind == kind && r.name == name

/-- The link names the signed receipt; a missing one has empty fields. -/
def linksRef (l : ReceiptLink) (ref : Option ReceiptRef) : Bool :=
  match ref with
  | some r => l.name == r.name && l.uid == r.uid && l.dataDigest == r.dataDigest
  | none => l.name == "" && l.uid == "" && l.dataDigest == ""

def grantLinksQueue (g : GrantIntent) (q : QueueIntent) : Bool :=
  (match g.admissionMode with
    | .queued link => linksRef link (findRef exp "queue" (queueReceiptPrefix ++ q.queueNonce))
    | .direct => false) &&
    q.requesterName == g.build.requesterName && q.requesterHash == g.build.requesterHash &&
    q.requesterUID == g.build.requesterUID && q.requestDigest == g.build.requestDigest &&
    q.sourceDigest == g.build.sourceDigest

/-- A queued grant needs a queue receipt, a direct one excludes it. -/
def grantTopology (g : GrantIntent) (item : Target) : Bool :=
  item.grant.isNone &&
    match g.admissionMode with
    | .queued _ => item.queue.isSome
    | .direct => item.queue.isNone

def ensureTarget (byBuild : List Target) (name : String) : List Target × Target :=
  match findTarget byBuild name with
  | some item => (byBuild, item)
  | none => (byBuild ++ [{ kind := .kovaBuild, name := name }], { kind := .kovaBuild, name := name })

def linkGrant (byBuild : List Target) (g : GrantIntent) :
    Except String (List Target) :=
  let b := g.build
  if !sameEpoch exp.epoch b.namespaceName b.namespaceUID b.genesisName b.receiptNamespace
      b.receiptNamespaceUID b.genesisUID b.generation b.activeLedgerUID b.queueLedgerUID ||
      b.workerPoolID != exp.epoch.workerPoolID then
    .error "grant receipt epoch conflicts"
  else
    let (byBuild, item) := ensureTarget byBuild b.buildName
    if !grantTopology g item then .error "grant/queue topology conflicts"
    else if item.queue.any fun q => !grantLinksQueue exp g q then
      .error "grant does not link exact queue receipt"
    else .ok (putTarget byBuild { item with grant := some g })

def linkPod (byBuild byPod : List Target) (p : PodCreateIntent) :
    Except String (List Target) :=
  match (findTarget byBuild p.build.buildName).bind (·.grant) with
  | none => .error "Pod attempt does not link exact grant/build"
  | some g =>
    if g.build != p.build || !linksRef p.grantReceipt (findRef exp "grant" p.grantReceipt.name) ||
        p.podName != buildPodName p.build.buildName then
      .error "Pod attempt does not link exact grant/build"
    else
      match findTarget byPod p.podName with
      | none => .ok (byPod ++ [{ kind := .pod, name := p.podName, grant := some g, pods := [p] }])
      | some item => .ok (putTarget byPod { item with pods := item.pods ++ [p] })

def Target.le (a b : Target) : Bool :=
  if a.kind != b.kind then a.kind.toString < b.kind.toString else a.name ≤ b.name

def linkTargets (i : Input) : Except String (List Target) := do
  let queued ← i.queues.foldlM (linkQueue i.expected.epoch) []
  let byBuild ← i.grants.foldlM (linkGrant i.expected) queued
  let byPod ← i.podCreates.foldlM (linkPod i.expected byBuild) []
  pure ((byBuild ++ byPod).mergeSort Target.le)

def qualifyInventory (i : Input) : D (List Target) := do
  let provided ← ofExcept (provideAll T i)
  Fallible.failIf (provided.length != i.expected.receipts.length)
    "supplied intent count differs from signed receipt count"
  let refs ← ofExcept (signedRefs i.expected provided)
  match ← ask (.listConfigMaps i.expected.epoch.receiptNamespace maxConfigMaps) with
  | .error e => throw ("direct complete ConfigMap list: " ++ e.text)
  | .ok all =>
    Fallible.failIf (all.continue_ != "" || all.items.length > maxConfigMaps)
      "ConfigMap inventory exceeded one bounded complete page"
    let seen ← ofExcept (all.items.foldlM (listed refs) [])
    Fallible.failIf (seen.length != refs.keys.card)
      "direct old-receipt list missed a signed receipt"
    i.expected.receipts.forM (readReceipt T provided)
    ofExcept (linkTargets i)

def getTarget (namespaceName : String) (item : Target) : D (Except ApiErr Occupant) :=
  match item.kind with
  | .kovaBuild => do
    let r : Except ApiErr KovaBuild ←
      ask (.getBuild { namespaceName := namespaceName, name := item.name })
    pure (r.map .build)
  | .pod => do
    let r : Except ApiErr Pod ← ask (.getPod { namespaceName := namespaceName, name := item.name })
    pure (r.map .pod)

def createTarget : Occupant → D (Except ApiErr Occupant)
  | .build b => do
    let r : Except ApiErr KovaBuild ← ask (.createBuild b)
    pure (r.map .build)
  | .pod p => do
    let r : Except ApiErr Pod ← ask (.createPod p)
    pure (r.map .pod)

def updateTarget : Occupant → D (Except ApiErr Occupant)
  | .build b => do
    let r : Except ApiErr KovaBuild ← ask (.updateBuild b)
    pure (r.map .build)
  | .pod p => do
    let r : Except ApiErr Pod ← ask (.updatePod p)
    pure (r.map .pod)

/-- The occupant is the tombstone or the original it was taken for. -/
def qualifyOccupant (tombstone : Bool) (o : Occupant) : Except String Unit :=
  if tombstone then qualifyTombstone exp item o else qualifyOriginal T item o

/-- The Update of `retain` that adds the finalizer, with the object it leaves. -/
def hold (T : Tools) (exp : Expectation) (observed : Occupant) : D Occupant := do
  if observed.metadata.held then pure observed
  else
    let r ← (qualifyStopAndNamespace T exp).attempt
    match r with
    | .error e => throw ("namespace/stop changed before hold: " ++ e)
    | .ok () =>
      let proposed := observed.setFinalizers (observed.metadata.finalizers ++ [holdFinalizer])
      match ← updateTarget proposed with
      | .error e => throw ("UID/RV-bounded hold: " ++ e.text)
      | .ok o => pure o

def readHeld (tombstone : Bool) (uid : UID) :
    D Occupant := do
  match ← getTarget exp.epoch.namespaceName item with
  | .error _ => throw "held occupant direct readback changed"
  | .ok readback =>
    Fallible.failIf (readback.metadata.uid != uid ||
        readback.metadata.deletionTimestamp.isSome || !readback.metadata.held)
      "held occupant direct readback changed"
    ofExcept (qualifyOccupant T exp item tombstone readback)
    pure readback

def retain (observed : Occupant) :
    D Disposition := do
  Fallible.failIf (observed.metadata.deletionTimestamp.isSome || observed.metadata.uid == "" ||
      observed.metadata.resourceVersion == "")
    "occupant is deleting or lacks exact identity"
  let tombstone := observed.metadata.labels.get markerKey == markerValue
  ofExcept (qualifyOccupant T exp item tombstone observed)
  let observed ← hold T exp observed
  let readback ← readHeld T exp item tombstone observed.metadata.uid
  let r ← (qualifyStopAndNamespace T exp).attempt
  match r with
  | .error e => throw ("namespace/stop changed after occupant readback: " ++ e)
  | .ok () =>
    pure
      { kind := item.kind, name := item.name, uid := readback.metadata.uid
        state := if tombstone then "tombstone-retained" else "original-retained" }

/-- The fresh-UID proof of `recordAttemptOnce`. -/
def attemptProved (expected : ConfigMap) (created observed : Except ApiErr ConfigMap) : Bool :=
  match created, observed with
  | .ok c, .ok o =>
    sameAttempt o expected && c.metadata.uid != "" && c.metadata.uid == o.metadata.uid
  | _, _ => false

def recordAttemptOnce : D Bool := do
  let expected := newAttempt T exp.epoch item.kind item.name
  let existing : Except ApiErr ConfigMap ← ask (.getConfigMap expected.metadata.key)
  match existing with
  | .ok existing =>
    Fallible.failIf (!sameAttempt existing expected) "existing attempt changed"
    pure false
  | .error e =>
    Fallible.failIf (!e.notFound) e.text
    let r ← (qualifyStopAndNamespace T exp).attempt
    match r with
    | .error e => throw ("namespace/stop changed before occupancy attempt: " ++ e)
    | .ok () =>
      let created : Except ApiErr ConfigMap ← ask (.createConfigMap expected)
      let observed : Except ApiErr ConfigMap ← ask (.getConfigMap expected.metadata.key)
      Fallible.failIf (!attemptProved expected created observed)
        ("attempt Create " ++ errText created ++ "; direct read " ++ errText observed ++
          "; fresh-UID proof failed")
      pure true

/-- The one tombstone Create and the direct read after it. -/
def createTombstone : D Occupant := do
  let r ← (qualifyStopAndNamespace T exp).attempt
  match r with
  | .error e => throw ("namespace/stop changed before tombstone Create: " ++ e)
  | .ok () =>
    let created ← createTarget (item.tombstone exp)
    match ← getTarget exp.epoch.namespaceName item with
    | .error e => throw ("tombstone Create " ++ errText created ++ "; direct read " ++ e.text)
    | .ok observed =>
      match created with
      | .error _ => pure observed
      | .ok proposed =>
        Fallible.failIf (proposed.metadata.uid == "") "successful Create response lacked UID"
        Fallible.failIf (proposed.metadata.uid != observed.metadata.uid)
          "Create response and direct occupant UID differ"
        pure observed

def occupy : D Disposition := do
  match ← getTarget exp.epoch.namespaceName item with
  | .ok observed => retain T exp item observed
  | .error e =>
    Fallible.failIf (!e.notFound) e.text
    let created ← recordAttemptOnce T exp item
    Fallible.failIf (!created) "old attempt exists; no second tombstone Create"
    let observed ← createTombstone T exp item
    retain T exp item observed

def occupyAll (T : Tools) (exp : Expectation) : List Target → List Disposition →
    Prog Request Answer (List Disposition × Option String)
  | [], done => pure (done, none)
  | item :: rest, done => do
    match ← (occupy T exp item).run with
    | .error e =>
      pure (done, some
        (errUnknown ++ ": " ++ item.kind.toString ++ "/" ++ item.name ++ ": " ++ e))
    | .ok d => occupyAll T exp rest (done ++ [d])

def preflight (i : Input) : D (List Target) := do
  qualifyStopAndNamespace T i.expected
  qualifyInventory T i

def maxLiabilities : Int := 2048

def drain (i : Input) : Prog Request Answer (Report × Option String) :=
  if i.maxLiabilities < 1 || i.maxLiabilities > maxLiabilities ||
      (i.expected.receipts.length : Int) > i.maxLiabilities then
    pure ({ stage := "preflight-blocked" }, some errPreflight)
  else
    match verifyDrainPermit T i.permit i.expected i.trustRoots with
    | .error e =>
      pure ({ stage := "preflight-blocked" }, some (errPreflight ++ ": permit: " ++ e))
    | .ok digest => do
      match ← (preflight T i).run with
      | .error e =>
        pure ({ stage := "preflight-blocked", permitDigest := digest },
          some (errPreflight ++ ": " ++ e))
      | .ok targets =>
        let (dispositions, err) ← occupyAll T i.expected targets []
        let unknown : Report :=
          { stage := "occupancy-unknown", permitDigest := digest, dispositions := dispositions }
        match err with
        | some e => pure (unknown, some e)
        | none =>
          match ← (qualifyStopAndNamespace T i.expected).run with
          | .error e =>
            pure (unknown, some (errUnknown ++ ": final namespace/stop readback: " ++ e))
          | .ok () => pure ({ unknown with stage := "occupied-not-drained" }, none)

end KovaService.Drain
