import KovaService.Lib.Triple
import KovaService.System.Builds
import KovaService.System.Objects

/-!
The admission protocol on the active ledger.

`LedgerChange` is the list of moves a process may make: what it must find in the ledger it read at
instant `m`, what it must see between that read and the instant `n` at which it sends the write, and
the ledger it proposes.  Nothing here mentions a handler; that the handlers only make these moves is
proved in `KovaService.Proof`.
-/

namespace KovaService.Protocol

open Lib Api Ledger KovaService.System

variable {w : World} (ρ : w.Execution)

def Minted (t n : Nat) (a : String) : Prop := ∃ m, m < n ∧ ρ.gets m t .nonce (.ok a)

/-- The requests that bring a Pod or a receipt into being. -/
def isEffect : Request → Prop
  | .createPod _ | .createReceipt _ => True
  | _ => False

def isCreatePod : Request → Prop
  | .createPod _ => True
  | _ => False

/-- Thread `t` drew the nonce `a` before `n` and has sent nothing of kind `P` since. -/
def Unspent (t n : Nat) (a : String) (P : Request → Prop) : Prop :=
  ∃ m, m < n ∧ ρ.gets m t .nonce (.ok a) ∧ ρ.silent t P m n

/-- Between `m` and `n` the stored build with this UID satisfied `P`. -/
def SawBuild (m n : Nat) (uid : UID) (P : KovaBuild → Prop) : Prop :=
  ∃ k b, m < k ∧ k < n ∧ (ρ.store k).builds.lookup b.name = some b ∧ b.uid = uid ∧ P b

def SawLive (m n : Nat) (uid : UID) : Prop := SawBuild ρ m n uid fun b => b.live

/-- Before `n` no Pod of this name existed, at an instant after `m`. -/
def SawNoPod (m n : Nat) (name : String) : Prop :=
  ∃ k, m < k ∧ k < n ∧ (ρ.store k).pods.lookup name = none

def SawNoReceipt (m n : Nat) (name : String) : Prop :=
  ∃ k, m < k ∧ k < n ∧ (ρ.store k).receipts.lookup name = none

def Ended (n : Nat) (uid : UID) : Prop :=
  ∃ b ∈ (ρ.store n).versions, b.uid = uid ∧ b.terminalOrDeleting

/-- The ledger was written before `n`, at an instant by which the build had ended. -/
def Fenced (n : Nat) (uid : UID) : Prop :=
  ∃ k, k < n ∧ (ρ.store k).ledger.resourceVersion < (ρ.store (k + 1)).ledger.resourceVersion ∧
    Ended ρ k uid

/-- The Pod Create stamped with `a` has arrived at the server before `n`. -/
def Settled (n : Nat) (a : String) : Prop :=
  ∃ m p, m < n ∧ ρ.acts m (.createPod p) ∧ p.annotations.createAttempt = a

/-- The receipt of this content existed before `n` with this UID and digest. -/
def SawReceipt (n : Nat) (uid : UID) (digest : String) (P : ReceiptData → Prop) : Prop :=
  ∃ k r, k < n ∧ (ρ.store k).receipts.lookup r.data.receiptName = some r ∧ r.uid = uid ∧
    w.ext.dataDigest r.data = digest ∧ P r.data

def grantOf (uid : UID) (nonce : String) : ReceiptData → Prop
  | .grant g => g.build.buildUID = uid ∧ g.grantNonce = nonce
  | _ => False

def podCreateOf (uid : UID) (nonce : String) : ReceiptData → Prop
  | .podCreate p => p.build.buildUID = uid ∧ p.podAttemptNonce = nonce
  | _ => False

/-- Nothing of the entry's receipts is left: each was never armed, or it was pinned, marked for
cleanup, and seen to be gone. -/
structure ReceiptsGone (m n : Nat) (e : ActiveReservation) : Prop where
  pod : e.podTemplateDigest = "" ∨ e.podReceiptUID ≠ "" ∧ e.podCleanupReady ∧
    SawNoReceipt ρ m n (podReceiptPrefix ++ e.podAttemptNonce)
  grant : e.grantObservedRV = "" ∨ e.grantReceiptUID ≠ "" ∧ e.grantCleanupReady ∧
    SawNoReceipt ρ m n (grantReceiptPrefix ++ e.grantNonce)

/-- The moves of the protocol on an entry that stays. -/
inductive EntryUpdate (t m n : Nat) (uid : UID) (e : ActiveReservation) :
    LedgerWriter → ActiveReservation → Prop where
  | beginLegacy {a : String} (hc : e.closing = false) (hi : e.inFlight = [])
      (hl : SawLive ρ m n uid) (ha : Minted ρ t n a) (hg : w.genesis.isSome = false) :
      EntryUpdate t m n uid e .beginPodCreate { e with inFlight := [a] }
  | begin {a : String} (hc : e.closing = false) (hi : e.inFlight = []) (hl : SawLive ρ m n uid)
      (ha : Minted ρ t n a) (hg : w.genesis.isSome) (hp : e.podAttemptNonce = "") :
      EntryUpdate t m n uid e .beginPodCreate { e with podAttemptNonce := a }
  | complete {a : String} (hs : Settled ρ n a) :
      EntryUpdate t m n uid e .completePodCreate { e with inFlight := e.inFlight.erase a }
  | completeGenesis {a : String} (hi : e.inFlight = [a]) (hs : Settled ρ n a) :
      EntryUpdate t m n uid e .completeGenesisPodCreate { e with inFlight := [] }
  | armGrant {rv : String} (hc : e.closing = false) (hl : SawLive ρ m n uid)
      (ho : e.grantObservedRV = "") (hr : rv ≠ "") (ha : Unspent ρ t n e.grantNonce isEffect) :
      EntryUpdate t m n uid e .armFreshGrant { e with grantObservedRV := rv }
  | pinGrant {receipt digest : String} (ho : e.grantObservedRV ≠ "") (hn : e.grantReceiptUID = "")
      (hr : SawReceipt ρ n receipt digest (grantOf uid e.grantNonce)) :
      EntryUpdate t m n uid e .pinGrantReceipt
        { e with grantReceiptUID := receipt, grantReceiptDigest := digest }
  | markGrant (hu : e.grantReceiptUID ≠ "") :
      EntryUpdate t m n uid e .releaseGrantReceipt { e with grantCleanupReady := true }
  | armPod {digest : String} (hc : e.closing = false) (hl : SawLive ρ m n uid)
      (ho : e.podTemplateDigest = "") (hr : digest ≠ "")
      (ha : Unspent ρ t n e.podAttemptNonce isEffect) :
      EntryUpdate t m n uid e .armFreshPodAttempt { e with podTemplateDigest := digest }
  | pinPod {receipt digest : String} (ho : e.podTemplateDigest ≠ "") (hn : e.podReceiptUID = "")
      (hr : SawReceipt ρ n receipt digest (podCreateOf uid e.podAttemptNonce)) :
      EntryUpdate t m n uid e .pinPodReceipt
        { e with podReceiptUID := receipt, podReceiptDigest := digest }
  | issue (hc : e.closing = false) (hi : e.inFlight = []) (hl : SawLive ρ m n uid)
      (ha : Unspent ρ t n e.podAttemptNonce isCreatePod) :
      EntryUpdate t m n uid e .authorizeFreshPodCreate { e with inFlight := [e.podAttemptNonce] }
  | markPod (hu : e.podReceiptUID ≠ "") :
      EntryUpdate t m n uid e .releasePodReceipt { e with podCleanupReady := true }

/-- The moves of the protocol on the ledger, each made for the entry of one build. -/
inductive LedgerChange (t m n : Nat) (uid : UID) (s : ReservationState) :
    LedgerWriter → ReservationState → Prop where
  | admission {b : KovaBuild} {slots : Int} {nonce hash : String} {fence fence' : UInt64}
      (hb : b ∈ (ρ.store n).versions) (hu : b.uid = uid) (hn : s.active.lookup uid = none)
      (hl : SawLive ρ m n uid) (ha : w.genesis.isSome → Minted ρ t n nonce) :
      LedgerChange t m n uid s .admission
        { s.set uid
            { buildName := b.name, requester := b.requesterKey, slots := slots
              grantNonce := nonce, grantFence := fence } with
          fence := fence', lastGrantedRequesterHash := hash }
  | fence : LedgerChange t m n uid s .fenceReservation (Controller.Reconciler.fenced s uid)
  | release {e : ActiveReservation} (he : s.active.lookup uid = some e) (hc : e.closing = true)
      (hi : e.inFlight = []) (hp : SawNoPod ρ m n (buildPodName e.buildName))
      (hd : Ended ρ n uid) (hr : w.genesis.isSome → ReceiptsGone ρ m n e) :
      LedgerChange t m n uid s .releaseReservation (s.remove uid)
  | update {writer : LedgerWriter} {e e' : ActiveReservation}
      (he : s.active.lookup uid = some e) (hu : EntryUpdate ρ t m n uid e writer e') :
      LedgerChange t m n uid s writer (s.set uid e')

/-- What is known when thread `t` sends a ledger write at instant `n`. -/
structure LedgerWrite (n t : Nat) (writer : LedgerWriter) (uid : UID) (rv : Nat)
    (next : ReservationState) : Prop where
  read : ∃ m, m < n ∧ (ρ.store m).ledger.resourceVersion = rv ∧
    LedgerChange ρ t m n uid (ρ.store m).ledger.data writer next
  valid : next.validate = .ok ()

end KovaService.Protocol
