import KovaService.Codec.Strict
import KovaService.Ledger.Queue
import KovaService.Ledger.Reservation
import KovaService.Lib.JsonFields

/-!
The encoded form of both ledgers: the `json` tags of the Go types, `encodeReservations`,
`encodeState`, and the decoding that every reader of a ledger starts with.

A nil `active` or `intents` map, and a cleanup kind other than the two known ones, are refused by the
validation that follows the decoding; here they have no decoded form.
-/

namespace KovaService.Codec

open Lib Lib.Json Api Ledger

variable (field : String → Option Value)

structure ConfigMapData where
  data : List (String × String)
  binaryData : List (String × List UInt8) := []

def ConfigMapData.get (cm : ConfigMapData) (key : String) : String := (cm.data.lookup key).getD ""

def ConfigMapData.single (key value : String) : ConfigMapData := { data := [(key, value)] }

/-- `len(cm.Data) != 1 || len(cm.Data[key]) == 0 || len(cm.Data[key]) > limit ||
len(cm.BinaryData) != 0` -/
def invalidKeysOrSize (cm : ConfigMapData) (key : String) (limit : Int) : Bool :=
  cm.data.length != 1 || (cm.get key).utf8ByteSize == 0 ||
    ((cm.get key).utf8ByteSize : Int) > limit || cm.binaryData.length != 0

def cannotUnmarshal : Err := .text "json: cannot unmarshal"

def members : Value → Option (List (String × Value))
  | .obj ms => some ms
  | _ => none

def reservationDataKey : String := "reservations.json"

def reservationFields (e : ActiveReservation) : Fields :=
  [("buildName", some (.str e.buildName)),
   ("requester", some (.str e.requester)),
   ("slots", some (.int e.slots)),
   ("grantNonce", nonEmpty e.grantNonce),
   ("grantFence", nonZero e.grantFence.toNat),
   ("grantObservedRV", nonEmpty e.grantObservedRV),
   ("grantReceiptUID", nonEmpty e.grantReceiptUID),
   ("grantReceiptDigest", nonEmpty e.grantReceiptDigest),
   ("grantCleanupReady", nonFalse e.grantCleanupReady),
   ("podAttemptNonce", nonEmpty e.podAttemptNonce),
   ("podTemplateDigest", nonEmpty e.podTemplateDigest),
   ("podReceiptUID", nonEmpty e.podReceiptUID),
   ("podReceiptDigest", nonEmpty e.podReceiptDigest),
   ("podCleanupReady", nonFalse e.podCleanupReady),
   ("closing", nonFalse e.closing),
   ("inFlight", nonNil e.inFlight)]

def marshalReservation (e : ActiveReservation) : Value := .record (reservationFields e)

def stateFields (s : ReservationState) : Fields :=
  [("version", some (.int s.version)),
   ("fence", some (.int s.fence.toNat)),
   ("maxJobs", some (.int s.maxJobs)),
   ("maxPerRequester", some (.int s.maxPerRequester)),
   ("workerSlots", some (.int s.workerSlots)),
   ("lastGrantedRequesterHash", nonEmpty s.lastGrantedRequesterHash),
   ("active", some (.obj (mapMembers marshalReservation s.active)))]

def marshalReservations (s : ReservationState) : Value := .record (stateFields s)

def readReservation : Option ActiveReservation := do
  pure
    { buildName := ← readString (field "buildName")
      requester := ← readString (field "requester")
      slots := ← readInt (field "slots")
      grantNonce := ← readString (field "grantNonce")
      grantFence := ← readUInt64 (field "grantFence")
      grantObservedRV := ← readString (field "grantObservedRV")
      grantReceiptUID := ← readString (field "grantReceiptUID")
      grantReceiptDigest := ← readString (field "grantReceiptDigest")
      grantCleanupReady := ← readBool (field "grantCleanupReady")
      podAttemptNonce := ← readString (field "podAttemptNonce")
      podTemplateDigest := ← readString (field "podTemplateDigest")
      podReceiptUID := ← readString (field "podReceiptUID")
      podReceiptDigest := ← readString (field "podReceiptDigest")
      podCleanupReady := ← readBool (field "podCleanupReady")
      closing := ← readBool (field "closing")
      inFlight := ← readStrings (field "inFlight") }

def unmarshalReservation (v : Value) : Option ActiveReservation :=
  (members v).bind fun ms => readReservation (ms.lookup ·)

def readReservations : Option ReservationState := do
  pure
    { version := ← readInt (field "version")
      fence := ← readUInt64 (field "fence")
      maxJobs := ← readInt (field "maxJobs")
      maxPerRequester := ← readInt (field "maxPerRequester")
      workerSlots := ← readInt (field "workerSlots")
      lastGrantedRequesterHash := ← readString (field "lastGrantedRequesterHash")
      active := ← readMap unmarshalReservation (field "active") }

def unmarshalReservations (v : Value) : Except Err ReservationState :=
  match members v with
  | none => .error cannotUnmarshal
  | some ms =>
    if (ms.lookup "active").isNone then
      .error (.text "admission ledger has unsupported capacity or state")
    else
      match readReservations (ms.lookup ·) with
      | none => .error cannotUnmarshal
      | some s => .ok s

def allowedReservationField : Allowed
  | [], key => ["version", "fence", "maxJobs", "maxPerRequester", "workerSlots",
      "lastGrantedRequesterHash", "active"].contains key
  | [p], _ => p == "active"
  | [p, _], key => p == "active" && ["buildName", "requester", "slots", "grantNonce", "grantFence",
      "grantObservedRV", "grantReceiptUID", "grantReceiptDigest", "grantCleanupReady",
      "podAttemptNonce", "podTemplateDigest", "podReceiptUID", "podReceiptDigest",
      "podCleanupReady", "closing", "inFlight"].contains key
  | _, _ => false

def encodeReservations (s : ReservationState) : Except Err String :=
  match s.validate with
  | .error e => .error e
  | .ok () =>
    let data := String.ofList (print (marshalReservations s))
    if (data.utf8ByteSize : Int) > maxReservationLedgerBytes then
      .error (.text "active admission ledger exceeds 786432 bytes")
    else .ok data

def decodeReservations (cm : ConfigMapData) : Except Err ReservationState :=
  if invalidKeysOrSize cm reservationDataKey maxReservationLedgerBytes then
    .error (.text "admission ledger has invalid data keys or size")
  else
    match decode (cm.get reservationDataKey).toList allowedReservationField with
    | .error e => .error (.wrap "admission ledger is invalid: " e "")
    | .ok v =>
      match unmarshalReservations v with
      | .error e => .error (.wrap "admission ledger is invalid: " e "")
      | .ok s =>
        match s.validate with
        | .error e => .error (.wrap "admission ledger has unsupported state: " e "")
        | .ok () => .ok s

def queueDataKey : String := "queue.json"

def CleanupKind.text : CleanupKind → String
  | .unset => ""
  | .rejected => "rejected"
  | .terminal => "terminal"

def readKind (s : String) : Option CleanupKind :=
  if s = "" then some .unset
  else if s = "rejected" then some .rejected
  else if s = "terminal" then some .terminal
  else none

def intentFields (e : Intent) : Fields :=
  [("requesterHash", some (.str e.requesterHash)),
   ("requestDigest", some (.str e.requestDigest)),
   ("nonce", some (.str e.nonce)),
   ("createdAtUnix", some (.int e.createdAtUnix)),
   ("receiptUID", nonEmpty e.receiptUID),
   ("receiptDigest", nonEmpty e.receiptDigest),
   ("cleanupKind", nonEmpty (CleanupKind.text e.cleanupKind))]

def marshalIntent (e : Intent) : Value := .record (intentFields e)

def queueFields (s : QueueState) : Fields :=
  [("version", some (.int s.version)),
   ("globalLimit", some (.int s.globalLimit)),
   ("requesterLimit", some (.int s.requesterLimit)),
   ("intents", some (.obj (mapMembers marshalIntent s.intents)))]

def marshalQueue (s : QueueState) : Value := .record (queueFields s)

def readIntent : Option Intent := do
  pure
    { requesterHash := ← readString (field "requesterHash")
      requestDigest := ← readString (field "requestDigest")
      nonce := ← readString (field "nonce")
      createdAtUnix := ← readInt (field "createdAtUnix")
      receiptUID := ← readString (field "receiptUID")
      receiptDigest := ← readString (field "receiptDigest")
      cleanupKind := ← (readString (field "cleanupKind")).bind readKind }

def unmarshalIntent (v : Value) : Option Intent :=
  (members v).bind fun ms => readIntent (ms.lookup ·)

def readQueue : Option QueueState := do
  pure
    { version := ← readInt (field "version")
      globalLimit := ← readInt (field "globalLimit")
      requesterLimit := ← readInt (field "requesterLimit")
      intents := ← readMap unmarshalIntent (field "intents") }

def unmarshalQueue (v : Value) : Except Err QueueState :=
  match members v with
  | none => .error cannotUnmarshal
  | some ms =>
    if (ms.lookup "intents").isNone then .error (.text "unsupported queue admission state")
    else
      match readQueue (ms.lookup ·) with
      | none => .error cannotUnmarshal
      | some s => .ok s

def allowedQueueField : Allowed
  | [], key => ["version", "globalLimit", "requesterLimit", "intents"].contains key
  | [p], _ => p == "intents"
  | [p, _], key => p == "intents" && ["requesterHash", "requestDigest", "nonce", "createdAtUnix",
      "receiptUID", "receiptDigest", "cleanupKind"].contains key
  | _, _ => false

def encodeState (s : QueueState) : Except Err String :=
  match s.validate with
  | .error e => .error e
  | .ok () =>
    let data := String.ofList (print (marshalQueue s))
    if (data.utf8ByteSize : Int) > maxQueueLedgerBytes then
      .error (.text "queue ledger would exceed 786432 bytes")
    else .ok data

/-- The decoding and validation in `readWithObservation`, for a replica with these limits and the
ledger version its mode asks for. -/
def decodeQueue (globalLimit requesterLimit version : Int) (cm : ConfigMapData) :
    Except Err QueueState :=
  if invalidKeysOrSize cm queueDataKey maxQueueLedgerBytes then
    .error (.text "queue ledger has invalid data keys or size")
  else
    match decode (cm.get queueDataKey).toList allowedQueueField with
    | .error e => .error (.wrap "queue ledger is invalid: " e "")
    | .ok v =>
      match unmarshalQueue v with
      | .error e => .error (.wrap "queue ledger is invalid: " e "")
      | .ok s =>
        if s.globalLimit != globalLimit || s.requesterLimit != requesterLimit then
          .error (.text "queue ledger has invalid state or mismatched replica limits")
        else if s.version != version then
          .error (.text "queue ledger has the wrong receipt protocol version")
        else
          match s.validate with
          | .error e => .error (.wrap "queue ledger has unsupported state: " e "")
          | .ok () => .ok s

end KovaService.Codec
