import KovaService.Protocol.Queue

/-!
What the service owes for each request it sends.

`demand ρ n t q` is what must be known about the past of the run when thread `t` sends `q` at
instant `n`.  It is a statement about past instants only, so it stays true until `q` takes effect,
however late that is.
-/

namespace KovaService.Protocol

open Lib Api Ledger Controller KovaService.System

variable {w : World} (ρ : w.Execution)

def pastQueue (p : Phase) : Prop := p ≠ .unset ∧ p ≠ .queued

structure Kept (st st' : KovaBuildStatus) : Prop where
  phase : st'.phase = st.phase
  outputs : st'.outputs = st.outputs
  results : st'.verificationResults = st.verificationResults
  finishedAt : st'.finishedAt = st.finishedAt

def controlledBy (p : Pod) (uid : UID) : Prop := ∃ o ∈ p.ownerReferences, o.uid = uid

/-- Thread `t` works on an object that goes back to a direct read, made after it had been dispatched
on a cached version that was neither terminal nor deleting; the runner Pod still existed after that
read. -/
def DirectBase (t n : Nat) (base : KovaBuild) : Prop :=
  ∃ k₀ k₁ k₂ b c p, k₀ < k₁ ∧ k₁ < k₂ ∧ k₂ < n ∧ ρ.gets k₀ t (.cachedBuild base.name) (.ok b) ∧
    b.terminalOrDeleting = false ∧ ρ.gets k₁ t (.getBuild base.name) (.ok c) ∧ c.uid = base.uid ∧
    c.annotations = base.annotations ∧ c.status.phase = base.status.phase ∧
    (ρ.store k₂).pods.lookup (buildPodName base.name) = some p ∧ controlledBy p base.uid

structure StatusWrite (n t : Nat) (b base : KovaBuild) : Prop where
  stored : base ∈ (ρ.store n).versions
  status : b = { base with status := b.status }
  queue : pastQueue base.status.phase → pastQueue b.status.phase
  terminal : base.status.phase.isTerminal →
    Kept base.status b.status ∨ w.genesis.isSome ∧ DirectBase ρ t n base

/-- Annotations other than the settled mark and the cancellation are as they were. -/
structure Linked (a a' : BuildAnnotations) : Prop where
  intent : a'.queueIntent = a.queueIntent
  receipt : a'.queueReceiptUID = a.queueReceiptUID
  digest : a'.queueReceiptDigest = a.queueReceiptDigest
  cancelled : a.cancellationRequestedAt ≠ "" →
    a'.cancellationRequestedAt = a.cancellationRequestedAt
  settled : a.queueReceiptSettledUID ≠ "" → a'.queueReceiptSettledUID = a.queueReceiptSettledUID

/-- The active ledger, fenced for this build, had no entry for it before the object was read, and the
object was at its end. -/
def MaySettle (n : Nat) (base : KovaBuild) : Prop :=
  ∃ k k', k < k' ∧ k' < n ∧ (ρ.store k).ledger.data.active.lookup base.uid = none ∧
    Fenced ρ k base.uid ∧ (ρ.store k').builds.lookup base.name = some base ∧ base.terminalOrDeleting

structure MetadataWrite (n : Nat) (b base : KovaBuild) : Prop where
  stored : base ∈ (ρ.store n).versions
  metadata : b = { base with annotations := b.annotations, finalizers := b.finalizers }
  linked : Linked base.annotations b.annotations
  settle : b.annotations.queueReceiptSettledUID = base.annotations.queueReceiptSettledUID ∨
    b.annotations.queueReceiptSettledUID = base.annotations.queueReceiptUID ∧ MaySettle ρ n base

def isCreateBuild : Request → Prop
  | .createBuild _ => True
  | _ => False

/-- A KovaBuild Create of the HTTP API. -/
def Submission (n t : Nat) (b : KovaBuild) : Prop :=
  ∃ m e, m < n ∧ ρ.sends m t (.mark (.reserved b.name e true)) ∧
    ρ.silent t isCreateBuild m n ∧ b.annotations.queueIntent = e.nonce ∧
    e.requesterHash = w.ext.hashRequester b.spec.requester.username ∧
    b.annotations.queueReceiptSettledUID = ""

def isArming : LedgerWriter → Prop
  | .armFreshGrant | .armFreshPodAttempt => True
  | _ => False

/-- Thread `t` has not been left without an answer to a write that arms a receipt. -/
def Confirmed (t n : Nat) : Prop :=
  ∀ m writer uid patch rv next e, m < n → isArming writer →
    ρ.gets m t (.putLedger writer uid patch rv next) (.error e) → unknownOutcome e = false

structure PodCreation (n t : Nat) (p : Pod) (b : KovaBuild) : Prop where
  stored : b ∈ (ρ.store n).versions
  name : p.name = buildPodName b.name
  owner : p.ownerReferences = [Reconciler.controllerReference b]
  recorded : ∃ m e, m ≤ n ∧ (ρ.store m).ledger.data.active.lookup b.uid = some e ∧
    p.annotations.createAttempt ∈ e.inFlight
  unspent : Unspent ρ t n p.annotations.createAttempt isCreatePod
  confirmed : w.genesis.isSome → Confirmed ρ t n
  fenced : w.genesis.isSome → ∀ uid, Runner.runnerPodUID { p with uid := uid } = some uid

def ReceiptCreation (n t : Nat) (r : Receipt) : Prop :=
  r.name = r.data.receiptName ∧
  match r.data with
  | .grant g =>
    (∃ m e, m ≤ n ∧ (ρ.store m).ledger.data.active.lookup g.build.buildUID = some e ∧
      e.grantNonce = g.grantNonce ∧ e.grantObservedRV ≠ "") ∧
    Unspent ρ t n g.grantNonce isEffect ∧ Confirmed ρ t n
  | .podCreate p =>
    (∃ m e, m ≤ n ∧ (ρ.store m).ledger.data.active.lookup p.build.buildUID = some e ∧
      e.podAttemptNonce = p.podAttemptNonce ∧ e.podTemplateDigest ≠ "") ∧
    Unspent ρ t n p.podAttemptNonce isEffect ∧ Confirmed ρ t n
  | .queue _ => True

/-- A Delete of a receipt: its ledger had it marked for cleanup under this UID. -/
def ReceiptDeletion (n : Nat) (name : String) (uid : UID) : Prop :=
  (∃ m id e, m ≤ n ∧ (ρ.store m).queue.data.intents.lookup id = some e ∧
    name = queueReceiptPrefix ++ e.nonce ∧ e.cleanupKind ≠ .unset ∧ uid = e.receiptUID) ∨
  ∃ m key e, m ≤ n ∧ (ρ.store m).ledger.data.active.lookup key = some e ∧
    (name = grantReceiptPrefix ++ e.grantNonce ∧ e.grantCleanupReady ∧
        uid = e.grantReceiptUID ∨
      name = podReceiptPrefix ++ e.podAttemptNonce ∧ e.podCleanupReady ∧
        uid = e.podReceiptUID)

structure RunnerSubmission (n : Nat) (expected : UID) (requestID : String) (b : KovaBuild) :
    Prop where
  stored : b ∈ (ρ.store n).versions
  request : requestID = b.uid
  witnessed : w.genesis.isSome → expected ≠ "" ∧ ∃ k p, k < n ∧
    (ρ.store k).pods.lookup (buildPodName b.name) = some p ∧ p.uid = expected ∧
    controlledBy p b.uid

/-- The end of a release: the intent is gone, and in Genesis mode so is the receipt, which the build
names as settled. -/
structure Released (n : Nat) (b : KovaBuild) : Prop where
  intent : ∃ k, k ≤ n ∧ (ρ.store k).queue.data.intents.lookup b.name = none
  receipt : w.genesis.isSome → ∃ k, k < n ∧
    (ρ.store k).receipts.lookup (queueReceiptPrefix ++ b.annotations.queueIntent) = none
  settled : w.genesis.isSome → ∃ k c, k < n ∧ (ρ.store k).builds.lookup b.name = some c ∧
    c.uid = b.uid ∧ c.annotations.queueReceiptSettledUID ≠ ""

def Marked (n t : Nat) : Mark → Prop
  | .reserved id e true =>
    Unspent ρ t n e.nonce isFreshMark ∧
    ∃ k, k ≤ n ∧ (ρ.store k).queue.data.intents.lookup id = some e
  | .responded id (.accepted _) => ∃ e, Reserved ρ t n id e
  | .released b => b.annotations.queueIntent = "" ∨ Released ρ n b
  | _ => True

def demand (n t : Nat) : Request → Prop
  | .putLedger writer uid _ rv next => LedgerWrite ρ n t writer uid rv next
  | .putQueue writer id _ rv next => QueueWrite ρ n t writer id rv next
  | .createBuild b => Submission ρ n t b
  | .updateBuild b => ∃ base, MetadataWrite ρ n b base
  | .patchAnnotations b => ∃ base, MetadataWrite ρ n b base
  | .updateStatus b => ∃ base, StatusWrite ρ n t b base
  | .createPod p => ∃ b, PodCreation ρ n t p b
  | .createReceipt r => ReceiptCreation ρ n t r
  | .deleteReceipt name uid => ReceiptDeletion ρ n name uid
  | .execSubmit _ expected requestID => ∃ b, RunnerSubmission ρ n expected requestID b
  | .mark m => Marked ρ n t m
  | _ => True

end KovaService.Protocol
