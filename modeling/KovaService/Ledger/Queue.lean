import Mathlib.Data.Finmap
import KovaService.Api.Config

/-!
The queue ledger: the HTTP queue's intents and the checks of `validateState`.  As with the active
ledger, the stored value is the decoded one, and iteration order over `Intents` plays no role.
-/

namespace KovaService.Ledger

open Api

/-- `CleanupKind`; `validateState` admits only these three values of the string. -/
inductive CleanupKind where
  | unset | rejected | terminal
  deriving DecidableEq

structure Intent where
  requesterHash : String
  requestDigest : String
  nonce : String
  createdAtUnix : Int
  receiptUID : UID := ""
  receiptDigest : String := ""
  cleanupKind : CleanupKind := .unset
  deriving DecidableEq

abbrev IntentMap := Finmap fun _ : String => Intent

structure QueueState where
  version : Int
  globalLimit : Int
  requesterLimit : Int
  intents : IntentMap
  deriving DecidableEq

def maxCASAttempts : Nat := 16

def maxQueueLedgerBytes : Int := 768 * 1024

def maxQueueHeaderBytes : Int := 4096

def maxIntentBytes : Int := 736

def queueLimitsSupported (global requester : Int) : Bool :=
  !(global < 1 || global > 1000 || requester < 1 || requester > global ||
    maxQueueHeaderBytes + global * maxIntentBytes > maxQueueLedgerBytes)

theorem queueLimits_bounds {global requester : Int} (h : queueLimitsSupported global requester) :
    1 ≤ global ∧ global ≤ 1000 ∧ 1 ≤ requester ∧ requester ≤ global := by
  simp only [queueLimitsSupported, Bool.not_eq_true', Bool.or_eq_false_iff,
    decide_eq_false_iff_not, gt_iff_lt, not_lt] at h
  exact ⟨h.1.1.1.1, h.1.1.1.2, h.1.1.2, h.1.2⟩

namespace Intent

def wellFormed (id : String) (e : Intent) : Bool :=
  id != "" && id.utf8ByteSize ≤ 253 && isDNS1123Subdomain id && lowerHex e.requesterHash 64 &&
    lowerHex e.requestDigest 64 && lowerHex e.nonce 32 && 1 ≤ e.createdAtUnix

/-- The checks on the link from an intent to its receipt. -/
def linkOk (version : Int) (e : Intent) : Bool :=
  ((e.receiptUID == "") == (e.receiptDigest == "")) &&
    !(version == 1 && (e.receiptUID != "" || e.cleanupKind != .unset)) &&
    (e.receiptUID == "" || (validReceiptUID e.receiptUID && digestSHA256 e.receiptDigest)) &&
    (e.cleanupKind == .unset || e.receiptUID != "")

end Intent

namespace QueueState

variable (s : QueueState)

def heldBy (requesterHash id : String) : Bool :=
  (s.intents.lookup id).any fun e => e.requesterHash == requesterHash

def requesterCount (requesterHash : String) : Nat :=
  (s.intents.keys.filter fun id => s.heldBy requesterHash id).card

def allIntents (p : String → Intent → Bool) : Bool :=
  decide (∀ id ∈ s.intents.keys, (s.intents.lookup id).all (p id))

def validate : Except Err Unit :=
  if !((s.version == 1 || s.version == 2) && queueLimitsSupported s.globalLimit s.requesterLimit &&
      (s.intents.keys.card : Int) ≤ s.globalLimit) then
    .error (.text "unsupported queue admission state")
  else if !s.allIntents Intent.wellFormed then
    .error (.text "queue admission state has an invalid intent")
  else if !s.allIntents (fun _ => Intent.linkOk s.version) then
    .error (.text "queue admission state has an invalid receipt link")
  else if !s.allIntents (fun _ e => s.requesterCount e.requesterHash ≤ s.requesterLimit) then
    .error (.text "queue admission state exceeds requester capacity")
  else .ok ()

def freshState (globalLimit requesterLimit : Int) : QueueState where
  version := 1
  globalLimit := globalLimit
  requesterLimit := requesterLimit
  intents := ∅

/-- The state behind `GenesisEmptyQueueData`. -/
def genesisEmpty (globalLimit requesterLimit : Int) : QueueState :=
  { freshState globalLimit requesterLimit with version := 2 }

def set (id : String) (e : Intent) : QueueState :=
  { s with intents := s.intents.insert id e }

def remove (id : String) : QueueState :=
  { s with intents := s.intents.erase id }

section Lemmas

variable {s : QueueState} {id id' : String} {e : Intent}

@[simp] theorem lookup_set_self : (s.set id e).intents.lookup id = some e :=
  Finmap.lookup_insert _

theorem lookup_set_of_ne (h : id' ≠ id) : (s.set id e).intents.lookup id' = s.intents.lookup id' :=
  Finmap.lookup_insert_of_ne _ h

@[simp] theorem lookup_remove_self : (s.remove id).intents.lookup id = none :=
  Finmap.lookup_erase _ _

theorem lookup_remove_of_ne (h : id' ≠ id) :
    (s.remove id).intents.lookup id' = s.intents.lookup id' :=
  Finmap.lookup_erase_ne h

theorem allIntents_apply {p : String → Intent → Bool} (h : s.allIntents p)
    (he : s.intents.lookup id = some e) : p id e := by
  have hk := of_decide_eq_true h id (Finmap.mem_keys.mpr (Finmap.mem_of_lookup_eq_some he))
  rwa [he] at hk

/-- The facts behind a successful `validateState`. -/
structure Valid (s : QueueState) : Prop where
  version : s.version = 1 ∨ s.version = 2
  limits : queueLimitsSupported s.globalLimit s.requesterLimit
  intent : ∀ id e, s.intents.lookup id = some e → e.wellFormed id
  global : (s.intents.keys.card : Int) ≤ s.globalLimit
  link : ∀ id e, s.intents.lookup id = some e → e.linkOk s.version
  requester : ∀ id e, s.intents.lookup id = some e →
    (s.requesterCount e.requesterHash : Int) ≤ s.requesterLimit

theorem validate_ok (h : s.validate = .ok ()) : s.Valid := by
  unfold validate at h
  split_ifs at h with h1 h2 h3 h4
  simp only [Bool.not_eq_true', Bool.not_eq_false] at h1 h2 h3 h4
  simp only [Bool.and_eq_true, Bool.or_eq_true, beq_iff_eq, decide_eq_true_eq] at h1
  exact ⟨h1.1.1, h1.1.2, fun id e he => allIntents_apply h2 he, h1.2,
    fun id e he => allIntents_apply h3 he,
    fun id e he => by simpa using allIntents_apply h4 he⟩

end Lemmas

end QueueState

end KovaService.Ledger
