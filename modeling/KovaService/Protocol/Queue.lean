import KovaService.Protocol.Ledger

/-!
The protocol on the queue ledger: how an intent is reserved, pinned to its receipt, marked with a
cleanup kind, and removed.
-/

namespace KovaService.Protocol

open Lib Api Ledger KovaService.System

variable {w : World} (ρ : w.Execution)

def isFreshMark : Request → Prop
  | .mark (.reserved _ _ fresh) => fresh = true
  | _ => False

/-- Thread `t` was told before `n` that its own intent is in the ledger under this name. -/
def Reserved (t n : Nat) (id : String) (e : Intent) : Prop :=
  ∃ m, m < n ∧ ρ.sends m t (.mark (.reserved id e true))

/-- The KovaBuild Create for the intent with nonce `a` arrived before `n` and created nothing. -/
def Refused (n : Nat) (a : String) : Prop :=
  ∃ m b, m < n ∧ ρ.acts m (.createBuild b) ∧ b.annotations.queueIntent = a ∧
    (ρ.store (m + 1)).versions = (ρ.store m).versions

/-- The intent with this nonce carried this kind of cleanup, and afterwards its receipt was gone. -/
def ReceiptCleaned (n : Nat) (id nonce : String) (kind : CleanupKind) : Prop :=
  ∃ k k' e, k ≤ k' ∧ k' < n ∧ (ρ.store k).queue.data.intents.lookup id = some e ∧ e.nonce = nonce ∧
    e.cleanupKind = kind ∧ (ρ.store k').receipts.lookup (queueReceiptPrefix ++ nonce) = none

/-- Thread `t` read the exact receipt of this intent before `n`, when the ledger already had it. -/
def ObservedReceipt (t n : Nat) (id : String) (e : Intent) : Prop :=
  ∃ k k' e' r, k < k' ∧ k' < n ∧ (ρ.store k).queue.data.intents.lookup id = some e' ∧
    e'.nonce = e.nonce ∧ e'.receiptUID = e.receiptUID ∧ e'.receiptDigest = e.receiptDigest ∧
    e'.cleanupKind = .unset ∧ ρ.gets k' t (.getReceipt (queueReceiptPrefix ++ e.nonce)) (.ok r) ∧
    r.uid = e.receiptUID ∧ w.ext.dataDigest r.data = e.receiptDigest

/-- The build of this intent was seen at its end before `n`, and then with a settled mark that names
the receipt. -/
def SettledBuild (n : Nat) (id : String) (e : Intent) : Prop :=
  ∃ k k' b c, k ≤ k' ∧ k' < n ∧ (ρ.store k).builds.lookup id = some b ∧
    (ρ.store k').builds.lookup id = some c ∧ c.uid = b.uid ∧ b.terminalOrDeleting ∧
    b.annotations.queueIntent = e.nonce ∧ b.annotations.queueReceiptUID = e.receiptUID ∧
    c.annotations.queueReceiptSettledUID = e.receiptUID ∧ e.receiptUID ≠ ""

/-- Who may choose a kind: the owner once its Create was refused, or anyone who has seen the build of
this intent at its end. -/
def MayClean (t n : Nat) (id nonce : String) : CleanupKind → Prop
  | .unset => False
  | .rejected => (∃ e, Reserved ρ t n id e ∧ e.nonce = nonce) ∧ Refused ρ n nonce
  | .terminal => ∃ b ∈ (ρ.store n).versions, b.name = id ∧ b.annotations.queueIntent = nonce ∧
      b.terminalOrDeleting

/-- The moves of the protocol on the intent of one name. -/
inductive IntentMove (t m n : Nat) (id : String) :
    QueueWriter → Option Intent → Option Intent → Prop where
  | reserve {e : Intent} (ha : ∃ k, m < k ∧ k ≤ n ∧ Unspent ρ t k e.nonce isFreshMark)
      (hu : e.receiptUID = "") (hk : e.cleanupKind = .unset) :
      IntentMove t m n id .reserve none (some e)
  | pin {e : Intent} {receipt digest : String} (hu : e.receiptUID = "")
      (hk : e.cleanupKind = .unset) :
      IntentMove t m n id .pinReceipt (some e)
        (some { e with receiptUID := receipt, receiptDigest := digest })
  | mark {e : Intent} {kind : CleanupKind} (hu : e.receiptUID ≠ "") (hk : e.cleanupKind = .unset)
      (ho : ObservedReceipt ρ t n id e) (hm : MayClean ρ t n id e.nonce kind) :
      IntentMove t m n id .markReceiptCleanupReady (some e) (some { e with cleanupKind := kind })
  | releaseLegacy {e : Intent} {b : KovaBuild} (hg : w.genesis = none)
      (hb : b ∈ (ρ.store n).versions) (hn : b.name = id)
      (ha : b.annotations.queueIntent = e.nonce)
      (hd : b.terminalOrDeleting ∨
        ∃ k, k < n ∧ ∃ r, (ρ.store k).ledger.data.active.lookup b.uid = some r) :
      IntentMove t m n id .releaseForBuild (some e) none
  | releaseTerminal {e : Intent} (hk : e.cleanupKind = .terminal)
      (hc : ReceiptCleaned ρ n id e.nonce .terminal) (hb : SettledBuild ρ n id e) :
      IntentMove t m n id .releaseReceiptedBuild (some e) none
  | releaseRefused {e e' : Intent} (hg : w.genesis = none) (ho : Reserved ρ t n id e')
      (hn : e'.nonce = e.nonce) (hs : Refused ρ n e.nonce) :
      IntentMove t m n id .releaseRejected (some e) none
  | releaseRejected {e : Intent} (hk : e.cleanupKind = .rejected)
      (hc : ReceiptCleaned ρ n id e.nonce .rejected) :
      IntentMove t m n id .releaseRejected (some e) none

/-- A move on the intent of `id`, as a change of the whole ledger. -/
inductive QueueChange (t m n : Nat) (id : String) (s : QueueState) (writer : QueueWriter) :
    QueueState → Prop where
  | set {before : Option Intent} {e : Intent} (he : s.intents.lookup id = before)
      (hm : IntentMove ρ t m n id writer before (some e)) :
      QueueChange t m n id s writer (s.set id e)
  | remove {before : Option Intent} (he : s.intents.lookup id = before)
      (hm : IntentMove ρ t m n id writer before none) :
      QueueChange t m n id s writer (s.remove id)

/-- What is known when thread `t` sends a write of the queue ledger at instant `n`. -/
structure QueueWrite (n t : Nat) (writer : QueueWriter) (id : String) (rv : Nat)
    (next : QueueState) : Prop where
  read : ∃ m, m < n ∧ (ρ.store m).queue.resourceVersion = rv ∧
    QueueChange ρ t m n id (ρ.store m).queue.data writer next
  valid : next.validate = .ok ()

end KovaService.Protocol
