import KovaService.Ledger.Reservation
import KovaService.Ledger.Queue
import KovaService.Api.Target

/-!
Admission recovery receipts: immutable ConfigMaps written before an effect, in a namespace of their
own.  A receipt's `Data` map is kept as the record it encodes; two maps are equal when the records
are.

`Ext` collects the functions of the surroundings that stay uninterpreted: hashes, sizes of JSON
encodings, the image reference grammar.  Nothing is assumed of them, injectivity included.
-/

namespace KovaService.Ledger

open Api

structure PinnedBuild where
  namespaceName : String
  namespaceUID : UID
  receiptNamespace : String
  receiptNamespaceUID : UID
  genesisName : String
  genesisUID : UID
  generation : String
  activeLedgerUID : UID
  queueLedgerUID : UID
  buildName : String
  buildUID : UID
  requesterName : String
  requesterUID : String
  requesterHash : String
  requestDigest : String
  sourceDigest : String
  workerPoolID : String
  deriving DecidableEq

structure ReceiptLink where
  name : String
  uid : UID
  dataDigest : String
  deriving DecidableEq

/-- `AdmissionMode` and the `QueueReceipt` that goes with it: "queued" carries a link, "direct" does
not. -/
inductive AdmissionMode where
  | queued (queueReceipt : ReceiptLink)
  | direct
  deriving DecidableEq

structure GrantIntent where
  build : PinnedBuild
  admissionMode : AdmissionMode
  grantNonce : String
  activeLedgerFence : UInt64
  activeLedgerRV : String
  allocatedWorkerSlots : Int
  deriving DecidableEq

structure PodCreateIntent where
  build : PinnedBuild
  grantReceipt : ReceiptLink
  podName : String
  podAttemptNonce : String
  podTemplateDigest : String
  runnerImageDigest : String
  buildRequestID : String
  deriving DecidableEq

structure QueueIntent where
  namespaceName : String
  namespaceUID : UID
  receiptNamespace : String
  receiptNamespaceUID : UID
  genesisName : String
  genesisUID : UID
  generation : String
  activeLedgerUID : UID
  queueLedgerUID : UID
  buildName : String
  requesterName : String
  requesterHash : String
  requesterUID : String
  requestDigest : String
  sourceDigest : String
  queueNonce : String
  deriving DecidableEq

/-- The `Data` of a receipt together with the label that names its kind. -/
inductive ReceiptData where
  | grant (g : GrantIntent)
  | podCreate (p : PodCreateIntent)
  | queue (q : QueueIntent)
  deriving DecidableEq

structure Receipt where
  name : String
  uid : UID := ""
  resourceVersion : Nat := 0
  deletionTimestamp : Option Time := none
  immutable : Bool := true
  ownerReferences : List OwnerReference := []
  binaryData : Bool := false
  data : ReceiptData
  deriving DecidableEq

structure Ext where
  sha256Hex : String → String
  specDigest : KovaBuildSpec → String
  dataDigest : ReceiptData → String
  dataBytes : ReceiptData → Nat
  payloadBytes : ReceiptData → Nat
  podTemplateDigest : Pod → String
  reservationBytes : ReservationState → Nat
  queueBytes : QueueState → Nat
  library : Library
  runnerManifestDigest : String → Except Err String
  durationString : Duration → String
  timeString : Time → String

def grantReceiptPrefix : String := "kova-grant-intent-"

def podReceiptPrefix : String := "kova-pod-create-intent-"

def queueReceiptPrefix : String := "kova-admission-intent-"

def maxEffectJSONBytes : Nat := 16 * 1024

/-- The name a receipt of this content is stored under. -/
def ReceiptData.receiptName : ReceiptData → String
  | .grant g => grantReceiptPrefix ++ g.grantNonce
  | .podCreate p => podReceiptPrefix ++ p.podAttemptNonce
  | .queue q => queueReceiptPrefix ++ q.queueNonce

def Ext.hashRequester (x : Ext) (username : String) : String :=
  x.sha256Hex username

/-- `DigestBuild`: the authentication UID is not part of the digest. -/
def Ext.digestBuild (x : Ext) (spec : KovaBuildSpec) : String :=
  x.specDigest { spec with requester := { spec.requester with uid := "" } }

def Ext.digestData (x : Ext) (data : ReceiptData) : Except Err String :=
  if x.dataBytes data > maxEffectJSONBytes * 2 then .error (.sentinel .receiptInvalid)
  else .ok (x.dataDigest data)

/-- `CanonicalPodTemplateDigest`: API-assigned metadata, status and the digest's own annotation do
not enter. -/
def Ext.canonicalPodTemplateDigest (x : Ext) (pod : Pod) : Except Err String :=
  if pod.name == "" || pod.ownerReferences.length != 1 then
    .error (.text "Pod template has no exact name or sole controller owner")
  else
    .ok (x.podTemplateDigest { pod with
      uid := "", deletionTimestamp := none, status := {},
      annotations := { pod.annotations with podTemplateDigest := "" } })

def Ext.encodeReservations (x : Ext) (s : ReservationState) : Except Err Unit :=
  match s.validate with
  | .error e => .error e
  | .ok () =>
    if (x.reservationBytes s : Int) > maxReservationLedgerBytes then
      .error (.text "active admission ledger exceeds 786432 bytes")
    else .ok ()

def Ext.encodeState (x : Ext) (s : QueueState) : Except Err Unit :=
  match s.validate with
  | .error e => .error e
  | .ok () =>
    if (x.queueBytes s : Int) > maxQueueLedgerBytes then
      .error (.text "queue ledger would exceed 786432 bytes")
    else .ok ()

def PinnedBuild.valid (x : Ext) (b : PinnedBuild) : Bool :=
  isDNS1123Label b.namespaceName && isDNS1123Label b.receiptNamespace &&
    b.receiptNamespace != b.namespaceName && opaqueUID b.receiptNamespaceUID &&
    isDNS1123Subdomain b.genesisName && isDNS1123Subdomain b.buildName &&
    opaqueUID b.namespaceUID && opaqueUID b.genesisUID && opaqueUID b.activeLedgerUID &&
    opaqueUID b.queueLedgerUID && opaqueUID b.buildUID && lowerHex b.generation 32 &&
    lowerHex b.requesterHash 64 && lowerHex b.requestDigest 64 && b.requesterName != "" &&
    b.requesterName.length ≤ 253 && b.requesterUID.length ≤ 253 && digestSHA256 b.sourceDigest &&
    safeEffectID b.workerPoolID 128 && x.sha256Hex b.requesterName == b.requesterHash

/-- `ReceiptLink.validate`; the name is the kind's fixed text followed by a nonce. -/
def ReceiptLink.valid (kind : String) (l : ReceiptLink) : Bool :=
  l.name.toList.take kind.length == kind.toList &&
    lowerHex (String.ofList (l.name.toList.drop kind.length)) 32 && opaqueUID l.uid &&
    digestSHA256 l.dataDigest

def GrantIntent.valid (x : Ext) (g : GrantIntent) : Bool :=
  g.build.valid x && lowerHex g.grantNonce 32 && g.activeLedgerFence != 0 &&
    safeEffectID g.activeLedgerRV 256 && 1 ≤ g.allocatedWorkerSlots &&
    g.allocatedWorkerSlots ≤ 65535 &&
    (match g.admissionMode with
      | .queued link => link.valid queueReceiptPrefix
      | .direct => true) &&
    x.payloadBytes (.grant g) ≤ maxEffectJSONBytes

def PodCreateIntent.valid (x : Ext) (p : PodCreateIntent) : Bool :=
  p.build.valid x && p.grantReceipt.valid grantReceiptPrefix && isDNS1123Subdomain p.podName &&
    lowerHex p.podAttemptNonce 32 && digestSHA256 p.podTemplateDigest &&
    digestSHA256 p.runnerImageDigest && p.buildRequestID == p.build.buildUID &&
    x.payloadBytes (.podCreate p) ≤ maxEffectJSONBytes

def QueueIntent.valid (x : Ext) (q : QueueIntent) : Bool :=
  isDNS1123Label q.namespaceName && isDNS1123Label q.receiptNamespace &&
    q.receiptNamespace != q.namespaceName && opaqueUID q.receiptNamespaceUID &&
    isDNS1123Subdomain q.genesisName && isDNS1123Subdomain q.buildName &&
    opaqueUID q.namespaceUID && opaqueUID q.genesisUID && opaqueUID q.activeLedgerUID &&
    opaqueUID q.queueLedgerUID && lowerHex q.generation 32 && lowerHex q.queueNonce 32 &&
    q.requesterName != "" && q.requesterName.length ≤ 253 && lowerHex q.requesterHash 64 &&
    lowerHex q.requestDigest 64 && q.requesterUID.length ≤ 253 && digestSHA256 q.sourceDigest &&
    x.sha256Hex q.requesterName == q.requesterHash &&
    x.payloadBytes (.queue q) ≤ maxEffectJSONBytes

def ReceiptData.valid (x : Ext) : ReceiptData → Bool
  | .grant g => g.valid x
  | .podCreate p => p.valid x
  | .queue q => q.valid x

/-- `NewGrantConfigMap`, `NewPodCreateConfigMap` and `NewQueueConfigMap`. -/
def newReceipt (x : Ext) (data : ReceiptData) : Except Err Receipt :=
  if data.valid x then .ok { name := data.receiptName, data := data }
  else .error (.sentinel .receiptInvalid)

/-- `EffectWitness` and `ObservedQueueIntent`: one direct readback of a receipt. -/
structure Witness where
  receiptName : String
  receiptUID : UID
  dataDigest : String
  deriving DecidableEq

/-- `qualifyEffect` and `QualifyQueue`.  The latter reports an undigestible `Data` as changed. -/
def qualify (x : Ext) (expected observed : Receipt) : Except Err Witness :=
  if observed.name != expected.name || !opaqueUID observed.uid || observed.resourceVersion == 0 ||
      observed.deletionTimestamp.isSome || !observed.immutable || observed.ownerReferences != [] ||
      observed.binaryData || observed.data != expected.data then
    .error (.sentinel .receiptChanged)
  else
    match x.digestData observed.data with
    | .ok digest => .ok ⟨observed.name, observed.uid, digest⟩
    | .error e =>
      match expected.data with
      | .queue _ => .error (.sentinel .receiptChanged)
      | _ => .error e

theorem newReceipt_data {x : Ext} {d : ReceiptData} {r : Receipt} (h : newReceipt x d = .ok r) :
    r.name = d.receiptName ∧ r.data = d := by
  unfold newReceipt at h
  split_ifs at h
  cases h
  exact ⟨rfl, rfl⟩

theorem qualify_ok {x : Ext} {expected observed : Receipt} {w : Witness}
    (h : qualify x expected observed = .ok w) :
    observed.name = expected.name ∧ observed.data = expected.data ∧ observed.uid ≠ "" ∧
      w.receiptUID = observed.uid ∧ w.dataDigest = x.dataDigest observed.data := by
  unfold qualify at h
  split_ifs at h with hc
  simp only [Bool.or_eq_true, not_or, bne_iff_ne, ne_eq, not_not, Bool.not_eq_true', opaqueUID,
    Bool.not_eq_false, Bool.and_eq_true] at hc
  cases hd : x.digestData observed.data with
  | ok digest =>
    rw [hd] at h
    unfold Ext.digestData at hd
    split_ifs at hd
    cases hd
    cases h
    exact ⟨hc.1.1.1.1.1.1.1, hc.2, hc.1.1.1.1.1.1.2.1, rfl, rfl⟩
  | error e =>
    rw [hd] at h
    cases hx : expected.data <;> simp [hx] at h

end KovaService.Ledger
