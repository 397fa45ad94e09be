import KovaService.Api.Request

/-!
The Genesis guard: which ledger an installation may use, and `PatchLedgerData`, the only ledger
writer of Genesis mode.  Both ledgers go through the same code, so it is written once over the type
of the decoded data; `Role` holds what differs, and the calls of the API are arguments.

`Guard.check` spells out the reads of one check.  The handlers make it as a single call, since they
learn nothing from it but its error.

An `Observation` brackets a chain of reads by two full checks.  It is synchronous and belongs to the
guard that opened it, so its own assertions cannot fail; only its context check remains.
-/

namespace KovaService.Api

open Lib Ledger

/-- The parts of an `admissioncontract.Role` and its `LedgerTemplate`. -/
structure Role (D : Type) where
  name : String
  configMap : String
  expectedUID : UID
  validate : D → Except Err Unit

def genesisChanged (what : String) : Err := .wrap "" (.sentinel .genesisChanged) what

/-- The body of the Patch: what it was computed from is tested before the data is replaced. -/
def ledgerPatch {D : Type} (cm : Stored D) (next : D) : List (PatchOp D) :=
  [.testUID cm.uid, .testResourceVersion cm.resourceVersion, .testData cm.data, .replaceData next]

namespace Role

variable {D : Type} [DecidableEq D] (role : Role D)

def checkLedger (cm : Stored D) : Except Err Unit :=
  if cm.uid == role.expectedUID then .ok ()
  else .error (genesisChanged (": " ++ role.name ++ " ledger differs from startup UID"))

variable {Q : Type} {R : Q → Type} (check : Fallible Q R Err Unit)
variable (get : Fallible Q R Err (Stored D)) (patch : List (PatchOp D) → Fallible Q R Err (Stored D))

/-- `classifyLedgerPatchError`: a failed test is told from other rejections by a direct read. -/
def classifyLedgerPatchError (cm : Stored D) (patchErr : Err) : Fallible Q R Err Unit := do
  failIf (patchErr.reason != some .invalid) patchErr
  match ← attempt get with
  | .error e =>
    throw (.join patchErr (.wrap (role.name ++ " ledger 422 readback failed: ") e ""))
  | .ok current =>
    ofAns (role.checkLedger current)
    match role.validate current.data with
    | .error e =>
      throw (genesisChanged (": " ++ role.name ++ " ledger changed to invalid state: " ++
        e.message ""))
    | .ok () =>
      check
      if current.resourceVersion == cm.resourceVersion && current.data == cm.data then
        throw patchErr
      else
        throw (.api .conflict ("Operation cannot be fulfilled on configmaps \"" ++ role.configMap ++
          "\": " ++ patchErr.message ""))

def patchLedgerData (cm : Stored D) (next : D) : Fallible Q R Err Unit := do
  ofAns (role.checkLedger cm)
  failIf (cm.resourceVersion == 0)
    (genesisChanged (": " ++ role.name ++ " ledger lacks a resourceVersion"))
  match role.validate next with
  | .error e => throw (.wrap (role.name ++ " ledger proposal: ") e "")
  | .ok () =>
    check
    match ← attempt (patch (ledgerPatch cm next)) with
    | .error e => role.classifyLedgerPatchError check get cm e
    | .ok updated =>
      ofAns (role.checkLedger updated)
      failIf (updated.data != next)
        (genesisChanged (": " ++ role.name ++ " ledger Patch response differs from proposal"))
      let readback ← get
      ofAns (role.checkLedger readback)
      ofAns (role.validate readback.data)
      check

end Role

structure Namespace where
  name : String
  uid : UID
  deletionTimestamp : Option Time
  active : Bool

/-- `admissioncontract.GenesisData`, with the contract as its text. -/
structure GenesisData where
  contract : String
  committed : Bool
  activeLedgerUID : UID
  queueLedgerUID : UID
  deriving DecidableEq

/-- The calls of the guard: those on its direct client, and the external check of the receipt
Secret. -/
inductive GuardCall where
  | receiptCheck
  | getNamespace (name : String)
  | getGenesis
  | getActive
  | getQueue
  | patchActive (body : List (PatchOp ReservationState))
  | patchQueue (body : List (PatchOp QueueState))

/-- The Genesis object is read as its stored text. -/
def GuardCall.Answer : GuardCall → Type
  | .receiptCheck => Ans Unit
  | .getNamespace _ => Ans Namespace
  | .getGenesis => Ans (Stored String)
  | .getActive => Ans LedgerMap
  | .getQueue => Ans QueueMap
  | .patchActive _ => Ans LedgerMap
  | .patchQueue _ => Ans QueueMap

abbrev GuardK := Fallible GuardCall GuardCall.Answer Err

namespace GuardCall

def send (q : GuardCall) : Prog GuardCall GuardCall.Answer q.Answer := Prog.perform q

def checkReceipt : GuardK Unit := ExceptT.mk (send .receiptCheck)

def readNamespace (name : String) : GuardK Namespace := ExceptT.mk (send (.getNamespace name))

def readGenesis : GuardK (Stored String) := ExceptT.mk (send .getGenesis)

def readActive : GuardK LedgerMap := ExceptT.mk (send .getActive)

def readQueue : GuardK QueueMap := ExceptT.mk (send .getQueue)

def sendActive (body : List (PatchOp ReservationState)) : GuardK LedgerMap :=
  ExceptT.mk (send (.patchActive body))

def sendQueue (body : List (PatchOp QueueState)) : GuardK QueueMap :=
  ExceptT.mk (send (.patchQueue body))

end GuardCall

/-- A `Guard` with its `Bootstrapper`.  `NewGuard` refuses an original without ledger UIDs. -/
structure Guard where
  original : Genesis
  namespaceName : String
  /-- `Bootstrapper.validate` looks at the templates and the receipt only. -/
  validate : Except String Unit
  /-- `Receipt.QualifyGenesis`. -/
  qualifyGenesis : Stored String → Except String GenesisData
  receiptInstalled : Bool
  activePinned : original.activeLedgerUID ≠ ""
  queuePinned : original.queueLedgerUID ≠ ""

def ofText {Q : Type} {R : Q → Type} {α : Type} (r : Except String α) : Fallible Q R Err α :=
  ofAns (r.mapError .text)

/-- `QualifyNamespace` and `QualifyReceiptNamespace`. -/
def qualifyNamespace (what name uid : String) (ns : Namespace) : Except String Unit :=
  if ns.name != name || ns.uid != uid || ns.deletionTimestamp.isSome || !ns.active then
    .error ("original " ++ what ++ " Namespace is unavailable or changed")
  else .ok ()

namespace Guard

open GuardCall

variable (g : Guard) (active : Role ReservationState) (queue : Role QueueState)

/-- `getOriginal`: the version and the state of the Genesis object. -/
def getOriginal : GuardK (Nat × GenesisData) := do
  let ns ← readNamespace g.namespaceName
  ofText (qualifyNamespace "admission" g.namespaceName g.original.namespaceUID ns)
  let receipts ← readNamespace g.original.receiptNamespace
  ofText (qualifyNamespace "recovery receipt" g.original.receiptNamespace
    g.original.receiptNamespaceUID receipts)
  let cm ← readGenesis
  let state ← ofText (g.qualifyGenesis cm)
  pure (cm.resourceVersion, state)

/-- `readLedger` without the demand for an empty ledger. -/
def readLedger {D : Type} (role : Role D) (get : GuardK (Stored D)) (pinnedUID : UID) :
    GuardK Unit := do
  match ← attempt get with
  | .error e => failIf (!(e.isNotFound && pinnedUID == "")) e
  | .ok cm =>
    failIf (pinnedUID != "" && cm.uid != pinnedUID)
      (genesisChanged (": " ++ role.name ++ " ledger UID changed"))
    ofAns (role.validate cm.data)

/-- `ObserveCommitted`: the UIDs of the two ledgers. -/
def observeCommitted : GuardK (UID × UID) := do
  ofText g.validate
  let (first, state) ← g.getOriginal
  failIf (!state.committed) (.sentinel .genesisUncommitted)
  readLedger active readActive state.activeLedgerUID
  readLedger queue readQueue state.queueLedgerUID
  let (last, later) ← g.getOriginal
  failIf (later != state || last != first)
    (genesisChanged ": Genesis changed during committed observation")
  pure (state.activeLedgerUID, state.queueLedgerUID)

def check : GuardK Unit := do
  onlyIf g.receiptInstalled checkReceipt
  let current ← g.observeCommitted active queue
  failIf (current != (g.original.activeLedgerUID, g.original.queueLedgerUID))
    (genesisChanged ": committed admission pair differs from startup binding")
  onlyIf g.receiptInstalled checkReceipt

end Guard

def joinErrors : List Err → Option Err
  | [] => none
  | e :: es => some (es.foldl .join e)

variable {α : Type}

def errorOf : Except Err α → List Err
  | .ok _ => []
  | .error e => [e]

/-- `Guard.Observe`: the closing check runs even when the reads failed. -/
def observe (read : K α) : K α := do
  genesisCheck
  let result ← attempt read
  let live ← attempt ctxErr
  let check ← attempt genesisCheck
  match joinErrors (errorOf result ++ errorOf live ++ errorOf check) with
  | some e => throw e
  | none => ofAns result

/-- `Observation.Read` inside an observation, and the plain read outside of one. -/
def observedRead (observed : Bool) (read : K α) : K α := do
  onlyIf observed ctxErr
  read

/-- What a CAS loop does with a failed write: another round on a conflict. -/
def onConflict {τ : Type} (n : Nat) (s : τ) (e : Err) (otherwise : K (Round τ α)) :
    K (Round τ α) := do
  if e.isConflict then
    waitCAS n
    pure (.again s)
  else otherwise

/-- The object of a Create answer must be the one that was read back. -/
def checkCreated (x : Ext) (expected : Receipt) (observed : Witness) (created : Option Receipt)
    (createErr : Option Err) : K Unit :=
  match created with
  | some c =>
    match qualify x expected c with
    | .error _ => throw (.sentinel .receiptChanged)
    | .ok w => failIf (w.receiptUID != observed.receiptUID) (.sentinel .receiptChanged)
  | none => failIf createErr.isNone (.sentinel .receiptUnconfirmed)

/-- `recordEffectOnce` and `RecordQueueOnce`: one Create and one exact readback. -/
def recordOnce (x : Ext) (data : ReceiptData) : K Witness := do
  let expected ← ofAns (newReceipt x data)
  let (created, createErr) ← createReceipt expected
  match ← attempt (getReceipt expected.name) with
  | .error e =>
    throw (.wrap "" (.sentinel .receiptUnconfirmed) (": direct read: " ++ e.message ""))
  | .ok readback =>
    let observed ← ofAns (qualify x expected readback)
    checkCreated x expected observed created createErr
    failIf (createErr.any fun e => e.isAlreadyExists || e.isDefinitiveRejection)
      (.sentinel .receiptUnconfirmed)
    pure observed

end KovaService.Api
