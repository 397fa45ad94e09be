import Mathlib.Data.Finmap
import KovaService.Api.Config

/-!
The active ledger: `reservationState` and the checks every reader and every writer of it makes.

`Active` is a finite map, so iteration order plays no role.  Where the Go loop would report the
first bad entry it meets, the model reports the first failing kind of check; which states are
accepted is the same.  The ledger is kept in its decoded form: `decodeReservations` of stored bytes
is the validation below, and the length of the encoding is the uninterpreted `reservationBytes`.
-/

namespace KovaService.Ledger

open Api

structure ActiveReservation where
  buildName : String
  requester : String
  slots : Int
  grantNonce : String := ""
  grantFence : UInt64 := 0
  grantObservedRV : String := ""
  grantReceiptUID : UID := ""
  grantReceiptDigest : String := ""
  grantCleanupReady : Bool := false
  podAttemptNonce : String := ""
  podTemplateDigest : String := ""
  podReceiptUID : UID := ""
  podReceiptDigest : String := ""
  podCleanupReady : Bool := false
  closing : Bool := false
  inFlight : List String := []
  deriving DecidableEq

abbrev ActiveMap := Finmap fun _ : String => ActiveReservation

structure ReservationState where
  version : Int
  fence : UInt64
  maxJobs : Int
  maxPerRequester : Int
  workerSlots : Int
  lastGrantedRequesterHash : String := ""
  active : ActiveMap
  deriving DecidableEq

def maxReservationCASAttempts : Nat := 16

def maxReservationLedgerBytes : Int := 768 * 1024

def maxReservationHeaderBytes : Int := 8192

def maxReservationEntryBytes : Int := 6000

def maxReservationUIDBytes : Nat := 256

def maxRequesterRunes : Nat := 253

def maxActiveJobsLimit : Int := 128

def maxWorkerSlotsLimit : Int := 65535

/-- `ValidateReservationCapacity`, on the three limits it reads. -/
def capacitySupported (maxActiveJobs maxPerRequester workerSlots : Int) : Bool :=
  !(maxActiveJobs < 1 || maxActiveJobs > maxActiveJobsLimit ||
    maxPerRequester < 1 || maxPerRequester > maxActiveJobs ||
    workerSlots < 1 || workerSlots > maxWorkerSlotsLimit ||
    maxReservationHeaderBytes + maxActiveJobs * maxReservationEntryBytes > maxReservationLedgerBytes)

theorem capacity_bounds {jobs perRequester slots : Int}
    (h : capacitySupported jobs perRequester slots) :
    1 ≤ jobs ∧ jobs ≤ 128 ∧ 1 ≤ perRequester ∧ perRequester ≤ jobs ∧ 1 ≤ slots ∧ slots ≤ 65535 := by
  simp only [capacitySupported, maxActiveJobsLimit, maxWorkerSlotsLimit, Bool.not_eq_true',
    Bool.or_eq_false_iff, decide_eq_false_iff_not, gt_iff_lt, not_lt] at h
  exact ⟨h.1.1.1.1.1.1, h.1.1.1.1.1.2, h.1.1.1.1.2, h.1.1.1.2, h.1.1.2, h.1.2⟩

def validateReservationCapacity (cfg : Config) : Except Err Unit :=
  if capacitySupported cfg.maxActiveJobs cfg.maxActiveJobsPerRequester cfg.workerSlots then .ok ()
  else .error (.text "active admission limits exceed the supported encoded capacity")

namespace ActiveReservation

/-- The checks on one entry that do not depend on the protocol version. -/
def wellFormed (workerSlots : Int) (key : String) (e : ActiveReservation) : Bool :=
  key != "" && key.utf8ByteSize ≤ maxReservationUIDBytes &&
    e.buildName != "" && e.buildName.utf8ByteSize ≤ 253 && isDNS1123Subdomain e.buildName &&
    e.requester != "" && e.requester.length ≤ maxRequesterRunes &&
    1 ≤ e.slots && e.slots ≤ workerSlots && e.inFlight.length ≤ 1 &&
    e.inFlight.all fun nonce => validReservationHex nonce 32

/-- A version 1 entry carries none of the Genesis fields. -/
def legacy (e : ActiveReservation) : Bool :=
  e.grantNonce == "" && e.grantFence == 0 && e.grantObservedRV == "" &&
    e.grantReceiptUID == "" && e.grantReceiptDigest == "" && !e.grantCleanupReady &&
    e.podAttemptNonce == "" && e.podTemplateDigest == "" && e.podReceiptUID == "" &&
    e.podReceiptDigest == "" && !e.podCleanupReady

/-- The grant half of a version 2 entry. -/
def grantConsistent (e : ActiveReservation) : Bool :=
  validReservationHex e.grantNonce 32 && e.grantFence != 0 &&
    (e.grantObservedRV == "" || validGrantObservedRV e.grantObservedRV) &&
    ((e.grantReceiptUID == "") == (e.grantReceiptDigest == "")) &&
    (e.grantReceiptUID == "" || (e.grantObservedRV != "" && validReceiptUID e.grantReceiptUID &&
      digestSHA256 e.grantReceiptDigest)) &&
    (!e.grantCleanupReady || (e.closing && e.inFlight == [] && e.grantReceiptUID != "" &&
      (e.podTemplateDigest == "" || e.podCleanupReady)))

/-- The Pod half of a version 2 entry. -/
def podConsistent (e : ActiveReservation) : Bool :=
  (e.podAttemptNonce != "" || (e.podTemplateDigest == "" && e.podReceiptUID == "" &&
      e.podReceiptDigest == "" && !e.podCleanupReady && e.inFlight == [])) &&
    (e.podAttemptNonce == "" || validReservationHex e.podAttemptNonce 32) &&
    (e.podTemplateDigest != "" || (e.podReceiptUID == "" && e.podReceiptDigest == "" &&
      !e.podCleanupReady && e.inFlight == [])) &&
    (e.podTemplateDigest == "" || (digestSHA256 e.podTemplateDigest && e.grantReceiptUID != "")) &&
    ((e.podReceiptUID == "") == (e.podReceiptDigest == "")) &&
    (e.podReceiptUID == "" || (validReceiptUID e.podReceiptUID && digestSHA256 e.podReceiptDigest)) &&
    (e.inFlight.all fun nonce => nonce == e.podAttemptNonce && e.podReceiptUID != "") &&
    (!e.podCleanupReady || (e.closing && e.inFlight == [] && e.podReceiptUID != ""))

end ActiveReservation

namespace ReservationState

variable (s : ReservationState)

def slotsOf (key : String) : Int :=
  ((s.active.lookup key).map ActiveReservation.slots).getD 0

def usedSlots : Int :=
  ∑ key ∈ s.active.keys, s.slotsOf key

def heldBy (requester key : String) : Bool :=
  (s.active.lookup key).any fun e => e.requester == requester

def byRequester (requester : String) : Nat :=
  (s.active.keys.filter fun key => s.heldBy requester key).card

def headerOk : Bool :=
  (s.version == 1 || s.version == 2) &&
    capacitySupported s.maxJobs s.maxPerRequester s.workerSlots &&
    (s.active.keys.card : Int) ≤ s.maxJobs &&
    (s.lastGrantedRequesterHash == "" || validReservationHex s.lastGrantedRequesterHash 64)

def allEntries (p : String → ActiveReservation → Bool) : Bool :=
  decide (∀ key ∈ s.active.keys, (s.active.lookup key).all (p key))

def validate : Except Err Unit :=
  if !s.headerOk then .error (.text "admission ledger has unsupported capacity or state")
  else if !s.allEntries (ActiveReservation.wellFormed s.workerSlots) then
    .error (.text "admission ledger has invalid active reservation")
  else if s.version == 1 && !s.allEntries (fun _ => ActiveReservation.legacy) then
    .error (.text "legacy active reservation contains Genesis grant fields")
  else if s.version == 2 &&
      !s.allEntries (fun _ e => e.grantConsistent && e.podConsistent) then
    .error (.text "Genesis active reservation has invalid grant receipt state")
  else if s.usedSlots > s.workerSlots then .error (.text "admission ledger exceeds worker slots")
  else if !s.allEntries (fun _ e => s.byRequester e.requester ≤ s.maxPerRequester) then
    .error (.text "admission ledger exceeds requester capacity")
  else .ok ()

def validateLimits (cfg : Config) : Except Err Unit :=
  match validateReservationCapacity cfg with
  | .error e => .error e
  | .ok () =>
    if s.maxJobs != cfg.maxActiveJobs || s.maxPerRequester != cfg.maxActiveJobsPerRequester ||
        s.workerSlots != cfg.workerSlots then
      .error (.text "active admission ledger limits differ from this Service replica")
    else .ok ()

def freshReservations (cfg : Config) : ReservationState where
  version := 1
  fence := 0
  maxJobs := cfg.maxActiveJobs
  maxPerRequester := cfg.maxActiveJobsPerRequester
  workerSlots := cfg.workerSlots
  active := ∅

/-- The state behind `GenesisEmptyAdmissionData`. -/
def genesisEmpty (cfg : Config) : ReservationState :=
  { freshReservations cfg with version := 2, fence := 1 }

def set (key : String) (e : ActiveReservation) : ReservationState :=
  { s with active := s.active.insert key e }

def remove (key : String) : ReservationState :=
  { s with active := s.active.erase key }

section Lemmas

variable {s : ReservationState} {key key' : String} {e : ActiveReservation}

@[simp] theorem lookup_set_self : (s.set key e).active.lookup key = some e :=
  Finmap.lookup_insert _

theorem lookup_set_of_ne (h : key' ≠ key) :
    (s.set key e).active.lookup key' = s.active.lookup key' :=
  Finmap.lookup_insert_of_ne _ h

@[simp] theorem lookup_remove_self : (s.remove key).active.lookup key = none :=
  Finmap.lookup_erase _ _

theorem lookup_remove_of_ne (h : key' ≠ key) :
    (s.remove key).active.lookup key' = s.active.lookup key' :=
  Finmap.lookup_erase_ne h

theorem allEntries_apply {p : String → ActiveReservation → Bool} (h : s.allEntries p)
    (he : s.active.lookup key = some e) : p key e := by
  have hk := of_decide_eq_true h key (Finmap.mem_keys.mpr (Finmap.mem_of_lookup_eq_some he))
  rwa [he] at hk

/-- The facts behind a successful `validateReservationState`. -/
structure Valid (s : ReservationState) : Prop where
  version : s.version = 1 ∨ s.version = 2
  capacity : capacitySupported s.maxJobs s.maxPerRequester s.workerSlots
  lastGranted : s.lastGrantedRequesterHash = "" ∨
    validReservationHex s.lastGrantedRequesterHash 64
  jobs : (s.active.keys.card : Int) ≤ s.maxJobs
  slots : s.usedSlots ≤ s.workerSlots
  entry : ∀ key e, s.active.lookup key = some e → e.wellFormed s.workerSlots key
  legacy : s.version = 1 → ∀ key e, s.active.lookup key = some e → e.legacy
  genesis : s.version = 2 → ∀ key e, s.active.lookup key = some e →
    e.grantConsistent ∧ e.podConsistent
  requester : ∀ key e, s.active.lookup key = some e →
    (s.byRequester e.requester : Int) ≤ s.maxPerRequester

theorem validate_ok (h : s.validate = .ok ()) : s.Valid := by
  unfold validate at h
  split_ifs at h with h1 h2 h3 h4 h5 h6
  simp only [Bool.and_eq_true, Bool.not_eq_true', not_and, beq_iff_eq, Bool.not_eq_false]
    at h1 h2 h3 h4 h6
  have hh := h1
  simp only [headerOk, Bool.and_eq_true, Bool.or_eq_true, beq_iff_eq, decide_eq_true_eq] at hh
  refine ⟨hh.1.1.1, hh.1.1.2, hh.2, hh.1.2, not_lt.mp h5, fun key e he => allEntries_apply h2 he,
    fun hv key e he => allEntries_apply (h3 hv) he, fun hv key e he => ?_, fun key e he => ?_⟩
  · simpa using allEntries_apply (h4 hv) he
  · simpa using allEntries_apply h6 he

theorem slotsOf_nonneg (h : s.Valid) (key : String) : 0 ≤ s.slotsOf key := by
  unfold slotsOf
  cases he : s.active.lookup key with
  | none => simp
  | some e =>
    have hw := h.entry key e he
    simp only [ActiveReservation.wellFormed, Bool.and_eq_true, decide_eq_true_eq] at hw
    simp only [Option.map_some, Option.getD_some]
    omega

end Lemmas

end ReservationState

end KovaService.Ledger
