import KovaService.Ledger.Receipt

/-!
Recovery drain: the objects it reads and writes, and the checks it makes of one object.

Objects are typed, as the drain sees them.  `other` stands for the fields no function here
names, as one text, so that two objects are equal only when these are; an object the drain builds
has none.  A nil slice or map is an empty one.
-/

namespace KovaService.Drain

open Api Ledger

abbrev StringMap : Type := Finmap fun _ : String => String

namespace StringMap

def get (m : StringMap) (key : String) : String := (m.lookup key).getD ""

def ofList (l : List (String × String)) : StringMap :=
  (l.map fun e => (⟨e.1, e.2⟩ : Sigma fun _ : String => String)).toFinmap

def size (m : StringMap) : Nat := m.keys.card

end StringMap

structure Key where
  namespaceName : String := ""
  name : String
  deriving DecidableEq

structure OwnerReference where
  apiVersion : String
  kind : String
  name : String
  uid : UID
  controller : Option Bool := none
  other : String := ""
  deriving DecidableEq

structure ObjectMeta where
  namespaceName : String := ""
  name : String := ""
  generateName : String := ""
  uid : UID := ""
  resourceVersion : String := ""
  deletionTimestamp : Option Time := none
  labels : StringMap := ∅
  annotations : StringMap := ∅
  ownerReferences : List OwnerReference := []
  finalizers : List String := []
  other : String := ""
  deriving DecidableEq

def ObjectMeta.key (m : ObjectMeta) : Key := { namespaceName := m.namespaceName, name := m.name }

structure Namespace where
  metadata : ObjectMeta
  phase : String
  deriving DecidableEq

structure ConfigMap where
  metadata : ObjectMeta
  immutable : Option Bool := none
  data : StringMap := ∅
  binaryData : StringMap := ∅
  deriving DecidableEq

structure ConfigMapList where
  items : List ConfigMap
  continue_ : String := ""

structure KovaBuild where
  metadata : ObjectMeta
  spec : KovaBuildSpec
  other : String := ""
  deriving DecidableEq

structure Container where
  name : String
  image : String := ""
  imagePullPolicy : String := ""
  command : List String := []
  other : String := ""
  deriving DecidableEq

/-- The scheduling gates by their names. -/
structure PodSpec where
  restartPolicy : String := ""
  schedulingGates : List String := []
  nodeSelector : StringMap := ∅
  automountServiceAccountToken : Option Bool := none
  nodeName : String := ""
  hostNetwork : Bool := false
  hostPID : Bool := false
  hostIPC : Bool := false
  initContainers : List Container := []
  ephemeralContainers : List Container := []
  containers : List Container := []
  other : String := ""
  deriving DecidableEq

structure Pod where
  metadata : ObjectMeta
  spec : PodSpec
  other : String := ""
  deriving DecidableEq

structure EpochIdentity where
  namespaceName : String
  namespaceUID : UID
  receiptNamespace : String
  receiptNamespaceUID : UID
  genesisName : String
  genesisUID : UID
  generation : String
  activeLedgerUID : UID
  queueLedgerUID : UID
  workerPoolID : String
  deriving DecidableEq

structure StopIntentRef where
  namespaceName : String
  name : String
  uid : UID
  dataDigest : String
  deriving DecidableEq

structure ReceiptRef where
  kind : String
  namespaceName : String
  name : String
  uid : UID
  dataDigest : String
  deriving DecidableEq

structure KubeObjectRef where
  namespaceName : String
  name : String
  uid : UID
  deriving DecidableEq

structure ServiceProcessRef where
  pod : KubeObjectRef
  containerID : String
  processID : String
  deriving DecidableEq

structure Expectation where
  permitDigest : String
  incidentID : String
  stopIntent : StopIntentRef
  epoch : EpochIdentity
  receipts : List ReceiptRef
  workerIDs : List String
  capacitySlots : Int
  ingressRoutes : List KubeObjectRef
  controlDeployments : List KubeObjectRef
  serviceProcesses : List ServiceProcessRef
  deriving DecidableEq

/-- `Input`; `trustRoots` are the public keys by issuer and key name. -/
structure Input where
  permit : String
  expected : Expectation
  trustRoots : List (String × String × String)
  maxLiabilities : Int
  queues : List QueueIntent
  grants : List GrantIntent
  podCreates : List PodCreateIntent
  deriving DecidableEq

/-- The supplied intents in the order they are added to the inventory. -/
def Input.intents (i : Input) : List ReceiptData :=
  i.queues.map .queue ++ i.grants.map .grant ++ i.podCreates.map .podCreate

/-- Functions that stay uninterpreted: hashes, encodings and the check of the signed envelope. -/
structure Tools where
  ext : Ext
  /-- The first 16 bytes of the digest of a list of texts, as a number. -/
  attemptSum : List String → Nat
  mapBytes : StringMap → Nat
  mapDigest : StringMap → String
  payload : ReceiptData → String
  podTemplateDigest : Pod → String
  /-- What `VerifyDrainPermit` does after the checks of the expectation itself. -/
  verifyEnvelope : String → Expectation → List (String × String × String) → Except String String

namespace EpochIdentity

def valid (e : EpochIdentity) : Bool :=
  isDNS1123Label e.namespaceName && isDNS1123Label e.receiptNamespace &&
    e.receiptNamespace != e.namespaceName && safeEffectID e.receiptNamespaceUID 256 &&
    isDNS1123Subdomain e.genesisName && safeEffectID e.namespaceUID 256 &&
    safeEffectID e.genesisUID 256 && safeEffectID e.activeLedgerUID 256 &&
    safeEffectID e.queueLedgerUID 256 && lowerHex e.generation 32 && safeEffectID e.workerPoolID 128

end EpochIdentity

def StopIntentRef.valid (s : StopIntentRef) : Bool :=
  isDNS1123Label s.namespaceName && isDNS1123Subdomain s.name && safeEffectID s.uid 256 &&
    digestSHA256 s.dataDigest

def KubeObjectRef.valid (o : KubeObjectRef) : Bool :=
  isDNS1123Label o.namespaceName && isDNS1123Subdomain o.name && safeEffectID o.uid 256

def KubeObjectRef.precedes (a b : KubeObjectRef) : Bool :=
  a.namespaceName < b.namespaceName || a.namespaceName == b.namespaceName && a.name < b.name

def orderedObjects (values : List KubeObjectRef) (limit : Nat) : Bool :=
  values != [] && values.length ≤ limit && values.all (·.valid) &&
    (values.zip values.tail).all fun p => p.1.precedes p.2

def orderedProcesses (values : List ServiceProcessRef) : Bool :=
  values != [] && values.length ≤ 512 &&
    (values.all fun v => v.pod.valid && safeEffectID v.containerID 256 &&
      safeEffectID v.processID 256) &&
    (values.zip values.tail).all fun p => p.1.pod.precedes p.2.pod

/-- `VerifyDrainPermit`: the checks of the expectation, then the envelope. -/
def verifyDrainPermit (T : Tools) (raw : String) (expected : Expectation)
    (roots : List (String × String × String)) : Except String String :=
  if raw == "" || raw.utf8ByteSize > 128 * 1024 || !digestSHA256 expected.permitDigest ||
      !safeEffectID expected.incidentID 128 || !expected.stopIntent.valid ||
      !expected.epoch.valid || expected.capacitySlots < 1 || expected.capacitySlots > 65535 ||
      expected.workerIDs == [] || expected.workerIDs.length > 512 ||
      !orderedObjects expected.ingressRoutes 256 ||
      !orderedObjects expected.controlDeployments 256 ||
      !orderedProcesses expected.serviceProcesses then
    .error "unqualified external drain permit"
  else T.verifyEnvelope raw expected roots

def errInvalid : String := "invalid admission recovery receipt"

def errChanged : String := "admission recovery receipt changed"

def queueReceiptLabel : String := "kova.cofy.dev/admission-receipt"

def effectReceiptLabel : String := "kova.cofy.dev/recovery-receipt"

/-- The kind of a receipt, as the permit names it. -/
def receiptDataKind : ReceiptData → String
  | .queue _ => "queue"
  | .grant _ => "grant"
  | .podCreate _ => "pod-create"

def receiptDataNamespace : ReceiptData → String
  | .queue q => q.receiptNamespace
  | .grant g => g.build.receiptNamespace
  | .podCreate p => p.build.receiptNamespace

def queueFields (q : QueueIntent) : List (String × String) :=
  [("version", "1"), ("namespaceName", q.namespaceName), ("namespaceUID", q.namespaceUID),
    ("receiptNamespaceName", q.receiptNamespace), ("receiptNamespaceUID", q.receiptNamespaceUID),
    ("genesisName", q.genesisName), ("genesisUID", q.genesisUID), ("generation", q.generation),
    ("activeLedgerUID", q.activeLedgerUID), ("queueLedgerUID", q.queueLedgerUID),
    ("buildName", q.buildName), ("requesterName", q.requesterName),
    ("requesterHash", q.requesterHash), ("requesterUID", q.requesterUID),
    ("requestDigest", q.requestDigest), ("sourceDigest", q.sourceDigest),
    ("queueNonce", q.queueNonce)]

/-- `QueueIntent.data` and `effectData`. -/
def receiptFields (T : Tools) : ReceiptData → List (String × String)
  | .queue q => queueFields q
  | d => [("version", "1"), ("kind", receiptDataKind d), ("payload", T.payload d)]

def receiptLabel : ReceiptData → String × String
  | .queue _ => (queueReceiptLabel, "queue-intent")
  | d => (effectReceiptLabel, receiptDataKind d)

/-- `NewQueueConfigMap`, `NewGrantConfigMap` and `NewPodCreateConfigMap`. -/
def newReceiptConfigMap (T : Tools) (d : ReceiptData) : Except String ConfigMap :=
  if d.valid T.ext then
    .ok { metadata :=
            { namespaceName := receiptDataNamespace d, name := d.receiptName
              labels := StringMap.ofList [receiptLabel d] }
          immutable := some true
          data := StringMap.ofList (receiptFields T d) }
  else .error errInvalid

def digestData (T : Tools) (data : StringMap) : Except String String :=
  if data.size == 0 || T.mapBytes data > maxEffectJSONBytes * 2 then .error errInvalid
  else .ok (T.mapDigest data)

/-- `QualifyQueue`, `QualifyGrant` and `QualifyPodCreate`, with the digest of the witness.  Only an
effect receipt must have no other label. -/
def qualifyReceipt (T : Tools) (d : ReceiptData) (cm : ConfigMap) : Except String String :=
  if !d.valid T.ext then .error errInvalid
  else if cm.metadata.namespaceName != receiptDataNamespace d ||
      cm.metadata.name != d.receiptName || !opaqueUID cm.metadata.uid ||
      cm.metadata.resourceVersion == "" || cm.metadata.deletionTimestamp.isSome ||
      cm.immutable != some true || cm.binaryData.size != 0 ||
      cm.metadata.ownerReferences != [] || cm.data.size != (receiptFields T d).length ||
      (match d with
        | .queue _ => false
        | _ => cm.metadata.labels.size != 1) ||
      cm.metadata.labels.get (receiptLabel d).1 != (receiptLabel d).2 ||
      (receiptFields T d).any fun f => cm.data.get f.1 != f.2 then
    .error errChanged
  else
    match digestData T cm.data with
    | .ok digest => .ok digest
    | .error e =>
      match d with
      | .queue _ => .error errChanged
      | _ => .error e

inductive Kind where
  | kovaBuild | pod
  deriving DecidableEq

def Kind.toString : Kind → String
  | .kovaBuild => "KovaBuild"
  | .pod => "Pod"

/-- `target`: one name to occupy, with the receipts that name it. -/
structure Target where
  kind : Kind
  name : String
  queue : Option QueueIntent := none
  grant : Option GrantIntent := none
  pods : List PodCreateIntent := []
  deriving DecidableEq

inductive Occupant where
  | build (b : KovaBuild)
  | pod (p : Pod)
  deriving DecidableEq

namespace Occupant

def kind : Occupant → Kind
  | .build _ => .kovaBuild
  | .pod _ => .pod

def metadata : Occupant → ObjectMeta
  | .build b => b.metadata
  | .pod p => p.metadata

def setFinalizers (finalizers : List String) : Occupant → Occupant
  | .build b => .build { b with metadata := { b.metadata with finalizers := finalizers } }
  | .pod p => .pod { p with metadata := { p.metadata with finalizers := finalizers } }

end Occupant

def markerKey : String := "kova.cofy.dev/recovery-tombstone"

def markerValue : String := "v1"

def epochKey : String := "kova.cofy.dev/recovery-epoch-uid"

def holdFinalizer : String := "kova.cofy.dev/recovery-hold"

def ObjectMeta.held (m : ObjectMeta) : Bool := m.finalizers.contains holdFinalizer

def occupiedMarker (m : ObjectMeta) (exp : Expectation) (name : String) : Bool :=
  m.labels.get markerKey == markerValue && m.annotations.get markerKey == exp.incidentID &&
    m.annotations.get epochKey == exp.epoch.namespaceUID &&
    m.namespaceName == exp.epoch.namespaceName && m.name == name && m.uid != "" &&
    m.resourceVersion != "" && m.deletionTimestamp.isNone && m.held && m.ownerReferences == []

def newMeta (exp : Expectation) (name : String) : ObjectMeta where
  namespaceName := exp.epoch.namespaceName
  name := name
  labels := StringMap.ofList [(markerKey, markerValue)]
  annotations := StringMap.ofList
    [(markerKey, exp.incidentID), (epochKey, exp.epoch.namespaceUID)]
  finalizers := [holdFinalizer]

def inertBuildSpec : KovaBuildSpec where
  requester := { username := "recovery-tombstone", uid := "" }
  targets := [{ target := "recovery.invalid/tombstone:never", platform := "linux/amd64" }]
  source :=
    { uri := "https://recovery.invalid/inert"
      digest := "sha256:" ++ String.ofList (List.replicate 64 '0') }
  build := { format := "oci", concurrency := 1 }

def isInertBuildTombstone (b : KovaBuild) : Bool :=
  b.metadata.labels.get markerKey == markerValue && b.metadata.annotations.get markerKey != "" &&
    b.metadata.annotations.get epochKey != "" && b.metadata.held &&
    b.metadata.ownerReferences == [] && b.spec == inertBuildSpec

def newBuildTombstone (exp : Expectation) (name : String) : KovaBuild where
  metadata := newMeta exp name
  spec := inertBuildSpec

def inertImage : String := "registry.invalid/kova-recovery-tombstone:never"

def newPodTombstone (exp : Expectation) (name : String) : Pod where
  metadata := newMeta exp name
  spec :=
    { restartPolicy := "Never"
      schedulingGates := [holdFinalizer]
      nodeSelector := StringMap.ofList [(markerKey, "never")]
      automountServiceAccountToken := some false
      containers :=
        [{ name := "inert", image := inertImage, imagePullPolicy := "Never"
           command := ["/bin/false"] }] }

def Target.tombstone (exp : Expectation) (item : Target) : Occupant :=
  match item.kind with
  | .kovaBuild => .build (newBuildTombstone exp item.name)
  | .pod => .pod (newPodTombstone exp item.name)

def inertPodSpec (s : PodSpec) : Bool :=
  s.schedulingGates == [holdFinalizer] && s.nodeSelector.get markerKey == "never" &&
    s.automountServiceAccountToken == some false && s.nodeName == "" && !s.hostNetwork &&
    !s.hostPID && !s.hostIPC && s.initContainers == [] && s.ephemeralContainers == [] &&
    (match s.containers with
      | [c] => c.imagePullPolicy == "Never" && c.name == "inert" && c.command == ["/bin/false"] &&
          c.image == inertImage
      | _ => false) &&
    s.restartPolicy == "Never"

def qualifyTombstone (exp : Expectation) (item : Target) (observed : Occupant) :
    Except String Unit :=
  if !occupiedMarker observed.metadata exp item.name then .error "tombstone identity changed"
  else
    match item.kind, observed with
    | .kovaBuild, .build b =>
      if isInertBuildTombstone b then .ok () else .error "KovaBuild tombstone is not inert"
    | .kovaBuild, .pod _ => .error "KovaBuild tombstone is not inert"
    | .pod, .pod p => if inertPodSpec p.spec then .ok () else .error "Pod tombstone is not inert"
    | .pod, .build _ => .error "Pod tombstone is not inert"

def podFetchesDigest (pod : Pod) (digest : String) : Bool :=
  pod.spec.initContainers.any fun c =>
    c.name == "source-fetch" &&
      (c.command.zip c.command.tail).any fun w => w.1 == "--digest" && w.2 == digest

def canonicalPodTemplateDigest (T : Tools) (pod : Pod) : Except String String :=
  if pod.metadata.namespaceName == "" || pod.metadata.name == "" ||
      pod.metadata.ownerReferences.length != 1 then
    .error "Pod template has no exact name or sole controller owner"
  else .ok (T.podTemplateDigest pod)

def podAttemptKey : String := "kova.cofy.dev/create-attempt"

def metricDigest : String := "kova.cofy.dev/pod-template-digest"

def podMatches (T : Tools) (pod : Pod) (p : PodCreateIntent) : Bool :=
  pod.metadata.annotations.get podAttemptKey == p.podAttemptNonce &&
    pod.metadata.annotations.get metricDigest == p.podTemplateDigest &&
    (match canonicalPodTemplateDigest T pod with
      | .ok computed => computed == p.podTemplateDigest
      | .error _ => false) &&
    (match pod.spec.containers with
      | c :: _ => ("@" ++ p.runnerImageDigest).toList.isSuffixOf c.image.toList
      | [] => false) &&
    podFetchesDigest pod p.build.sourceDigest

def runnerPod (pod : Pod) (b : PinnedBuild) : Bool :=
  pod.metadata.namespaceName == b.namespaceName && pod.metadata.labels.get markerKey == "" &&
    (match pod.metadata.ownerReferences with
      | [o] => o.apiVersion == "kova.cofy.dev/v1alpha1" && o.kind == "KovaBuild" &&
          o.name == b.buildName && o.uid == b.buildUID && o.controller == some true
      | _ => false) &&
    pod.metadata.labels.get "kova.cofy.dev/build-id" == b.buildName &&
    pod.spec.restartPolicy == "Never" &&
    (match pod.spec.containers with
      | [c] => c.name == "runner" && c.command == ["kovad", "daemon"]
      | _ => false)

def buildMatchesQueue (T : Tools) (b : KovaBuild) (q : QueueIntent) : Bool :=
  T.ext.digestBuild b.spec == q.requestDigest && b.spec.requester.username == q.requesterName &&
    b.spec.requester.uid == q.requesterUID && b.spec.source.digest == q.sourceDigest

def buildMatchesGrant (T : Tools) (b : KovaBuild) (p : PinnedBuild) : Bool :=
  b.metadata.uid == p.buildUID && T.ext.digestBuild b.spec == p.requestDigest &&
    b.spec.requester.username == p.requesterName && b.spec.requester.uid == p.requesterUID &&
    b.spec.source.digest == p.sourceDigest

def Target.expectedNamespace (item : Target) : String :=
  match item.grant, item.queue with
  | some g, _ => g.build.namespaceName
  | none, some q => q.namespaceName
  | none, none => ""

/-- `qualifyOriginal`.  A Pod target has a grant, so the third branch of a Pod is not reached. -/
def qualifyOriginal (T : Tools) (item : Target) : Occupant → Except String Unit
  | .build b =>
    if item.kind != .kovaBuild || item.expectedNamespace == "" ||
        b.metadata.namespaceName != item.expectedNamespace || b.metadata.name != item.name ||
        b.metadata.deletionTimestamp.isSome || b.metadata.labels.get markerKey != "" then
      .error "foreign KovaBuild occupant"
    else if item.queue.any fun q => !buildMatchesQueue T b q then
      .error "KovaBuild differs from queue receipt"
    else if item.grant.any fun g => !buildMatchesGrant T b g.build then
      .error "KovaBuild differs from grant receipt"
    else .ok ()
  | .pod p =>
    match item.grant with
    | some g =>
      if item.kind != .pod || p.metadata.name != item.name || !runnerPod p g.build then
        .error "foreign Pod occupant"
      else if item.pods.any (podMatches T p) then .ok ()
      else .error "Pod does not match a pre-effect attempt/source/image receipt"
    | none => .error "foreign Pod occupant"

def attemptPrefix : String := "kova-recovery-occupancy-"

def attemptLabel : String := "kova.cofy.dev/recovery-occupancy-attempt"

def hexText : Nat → Nat → List Char
  | 0, _ => []
  | k + 1, n => hexText k (n / 16) ++ [Nat.digitChar (n % 16)]

def occupancyAttemptName (T : Tools) (epoch : EpochIdentity) (kind : Kind) (name : String) :
    String :=
  attemptPrefix ++ String.ofList (hexText 32
    (T.attemptSum [epoch.namespaceUID, epoch.genesisUID, kind.toString, name]))

def attemptData (epoch : EpochIdentity) (kind : Kind) (name : String) : StringMap :=
  StringMap.ofList
    [("version", "1"), ("namespaceUid", epoch.namespaceUID), ("genesisUid", epoch.genesisUID),
      ("kind", kind.toString), ("name", name)]

def newAttempt (T : Tools) (epoch : EpochIdentity) (kind : Kind) (name : String) : ConfigMap where
  metadata :=
    { namespaceName := epoch.namespaceName
      name := occupancyAttemptName T epoch kind name
      labels := StringMap.ofList [(attemptLabel, "v1")]
      finalizers := [holdFinalizer] }
  immutable := some true
  data := attemptData epoch kind name

def sameAttempt (a b : ConfigMap) : Bool :=
  a.metadata.namespaceName == b.metadata.namespaceName && a.metadata.name == b.metadata.name &&
    a.metadata.uid != "" && a.metadata.resourceVersion != "" &&
    a.metadata.deletionTimestamp.isNone && a.immutable == some true &&
    a.metadata.ownerReferences == [] && a.binaryData.size == 0 && a.metadata.held &&
    a.data.size == b.data.size && a.metadata.labels.get attemptLabel == "v1" &&
    ["version", "namespaceUid", "genesisUid", "kind", "name"].all fun k =>
      a.data.get k == b.data.get k

end KovaService.Drain
