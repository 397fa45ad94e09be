import KovaService.Disposal.Plan
import KovaService.Lib.Trace

/-!
The exact disposal executor: `preflightArchives` and `Execute`.

The program reads the clock, its contexts and the API, and each of them may answer anything at any
time.  Its state is the report, which is returned on failure as well.
-/

namespace KovaService.Disposal

open Lib Lib.Json Lib.Unstructured Exec

inductive ExecErr where
  | unqualified | unknown | budget
  deriving DecidableEq

inductive ApiErr where
  | notFound | other
  deriving DecidableEq

inductive PatchOp where
  | test (path : String) (value : Value)
  | replace (path : String) (value : Value)

/-- What the executor asks for.  `callerErr`, `ctxErr` and `callErr` are the contexts of the caller,
of the execution and of one API call. -/
inductive Request where
  | now
  | callerErr
  | ctxErr
  | callErr
  | getNamespace (name : String)
  | getTarget (kind : GroupVersionKind) (namespaceName name : String)
  | delete (obj : Value) (uid resourceVersion : String)
  | patch (obj : Value) (ops : List PatchOp)

def Answer : Request → Type
  | .now => Time
  | .callerErr | .ctxErr | .callErr => Bool
  | .getNamespace _ | .getTarget .. | .patch .. => Except ApiErr Value
  | .delete .. => Except ApiErr Unit

def Request.api : Request → Bool
  | .getNamespace _ | .getTarget .. | .delete .. | .patch .. => true
  | _ => false

def Request.mutates : Request → Bool
  | .delete .. | .patch .. => true
  | _ => false

structure ExecutionObservation where
  resource : ExecutionResource
  namespaceName : String
  name : String
  uid : String
  observation : String
  deriving DecidableEq

structure ExecutionReport where
  stage : String
  planDigest : String
  grantDigest : String
  apiCalls : Nat := 0
  mutationAttempts : Nat := 0
  observedBytes : Int := 0
  observations : List ExecutionObservation := []
  deriving DecidableEq

abbrev X : Type → Type := Exec Request Answer ExecutionReport ExecErr

inductive CallErr where
  | exec (e : ExecErr)
  | api (e : ApiErr)
  deriving DecidableEq

structure Executor where
  tools : Tools
  plan : ExecutionPlanPayload
  grant : VerifiedMutationGrant
  refs : List QualifiedArchive

def readClock : X Time := request Request.now

def callerDone : X Bool := request Request.callerErr

def ctxDone : X Bool := request Request.ctxErr

def callDone : X Bool := request Request.callErr

def granted (grant : VerifiedMutationGrant) : X Bool := do
  let now ← readClock
  pure (grant.current now)

def stillQualified (grant : VerifiedMutationGrant) : X Bool := do
  if ← ctxDone then pure false else granted grant

/-- The context of the call is done, or the clock has left the grant. -/
def outOfTime (grant : VerifiedMutationGrant) : X Bool := do
  if ← callDone then pure true
  else
    let current ← granted grant
    pure (!current)

/-- The sizes of the archives: the bounds in the order they are checked. -/
def checkSizes (p : ExecutionPlanPayload) (grant : VerifiedMutationGrant) :
    List String → Int → X Unit
  | [], _ => pure ()
  | raw :: archives, total => do
    failIf (!(← stillQualified grant)) .unqualified
    failIf (raw.utf8ByteSize > p.maxObjectArchiveBytes) .unqualified
    let total := total + raw.utf8ByteSize
    failIf (total > executionMaxTargetArchiveBytes) .budget
    failIf (total > p.maxArchiveBytes || total > p.evidenceArchiveBytes) .unqualified
    checkSizes p grant archives total

/-- The archives of the targets, qualified one by one. -/
def qualifyAll (T : Tools) (grant : VerifiedMutationGrant) :
    List ExecutionTarget → List String → X (List QualifiedArchive)
  | t :: targets, raw :: archives => do
    failIf (!(← stillQualified grant)) .unqualified
    match T.qualifyArchive t raw with
    | none => throw .unqualified
    | some (ref, digest) =>
      failIf (digest != t.qualificationDigest) .unqualified
      failIf (!(← stillQualified grant)) .unqualified
      let refs ← qualifyAll T grant targets archives
      pure (ref :: refs)
  | _, _ => pure []

def preflightArchives (T : Tools) (plan : VerifiedExecutionPlan) (grant : VerifiedMutationGrant)
    (archives : List String) : X (List QualifiedArchive) := do
  failIf (!plan.valid) .unqualified
  failIf (!(← stillQualified grant)) .unqualified
  failIf (archives.length != plan.payload.targets.length) .unqualified
  failIf (plan.payload.maxCalls < 9 + 24 * plan.payload.targets.length) .budget
  checkSizes plan.payload grant archives 0
  qualifyAll T grant plan.payload.targets archives

namespace Executor

variable (x : Executor) (t : ExecutionTarget) (ref : QualifiedArchive) (obj : Value)

/-- `call`.  A mutation is counted before it is issued. -/
def call {α : Type} (q : Request) (answer : Answer q → Except ApiErr α) :
    X (Except CallErr α) := do
  let now ← readClock
  let done ← ctxDone
  if done || !x.grant.current now then pure (.error (.exec .unknown))
  else
    let report ← get
    if (report.apiCalls : Int) ≥ x.plan.maxCalls then pure (.error (.exec .budget))
    else
      let done ← callDone
      if done then pure (.error (.exec .unknown))
      else
        modify fun report => { report with
          apiCalls := report.apiCalls + 1
          mutationAttempts := report.mutationAttempts + (if q.mutates then 1 else 0) }
        let a ← request q
        let late ← outOfTime x.grant
        if late then pure (.error (.exec .unknown))
        else
          match answer a with
          | .ok v => pure (.ok v)
          | .error e => pure (.error (.api e))

def account : X Unit := do
  match x.tools.marshal obj with
  | none => throw .budget
  | some raw =>
    let observed := (← get).observedBytes
    failIf (raw.utf8ByteSize > x.plan.maxObjectArchiveBytes ||
      observed + raw.utf8ByteSize > executionMaxObservedBytes) .budget
    modify fun report => { report with observedBytes := report.observedBytes + raw.utf8ByteSize }

def pins : List (String × String) :=
  [(x.plan.systemNamespace, x.plan.systemNamespaceUID),
    (x.plan.sourceNamespace, x.plan.sourceNamespaceUID),
    (x.plan.receiptNamespace, x.plan.receiptNamespaceUID)]

def namespaceOk (pin : String × String) (obj : Value) : Bool :=
  match nestedString obj ["status", "phase"], x.tools.executionDeleting obj with
  | some phase, some deleting =>
    getAPIVersion obj == "v1" && getKind obj == "Namespace" && getName obj == pin.1 &&
      getNamespace obj == "" && getUID obj == pin.2 &&
      safeID (getResourceVersion obj) maxIDBytes &&
      (if pin.1 != x.plan.systemNamespace then deleting && phase.getD "" == "Terminating"
        else !deleting && phase.getD "" == "Active")
  | _, _ => false

def guard : X Unit :=
  x.pins.forM fun pin => do
    match ← x.call (.getNamespace pin.1) (fun a => (a : Except ApiErr Value)) with
    | .error _ => throw .unknown
    | .ok obj =>
      x.account obj
      failIf (!x.namespaceOk pin obj) .unknown

/-- `target`: the object of the target, or none when it is absent. -/
def target : X (Option Value) := do
  match ← x.call (.getTarget (executionGVK t.resource) t.namespaceName t.name)
      (fun a => (a : Except ApiErr Value)) with
  | .error (.api .notFound) => pure none
  | .error _ => throw .unknown
  | .ok obj =>
    x.account obj
    failIf (!x.tools.qualifies t ref obj) .unknown
    pure (some obj)

/-- The patch of the finalizers of an object. -/
def finalizerPatch (before after : List String) : List PatchOp :=
  [.test "/metadata/uid" (.str (getUID obj)),
    .test "/metadata/resourceVersion" (.str (getResourceVersion obj)),
    .test "/metadata/finalizers" (.arr (before.map .str)),
    .replace "/metadata/finalizers" (.arr (after.map .str))]

/-- `absent-at-direct-read`, after a last look at the namespaces. -/
def absentAtDirectRead : X String := do
  x.guard
  pure "absent-at-direct-read"

/-- The part of `dispose` that patches the finalizers and reads the object again: whether it is
gone. -/
def patchFinalizers (before after : List String) : X Bool := do
  x.guard
  match ← x.call (.patch obj (finalizerPatch obj before after))
      (fun a => (a : Except ApiErr Value)) with
  | .error _ => throw .unknown
  | .ok response =>
    x.account response
    failIf (!(x.tools.qualifies t ref response && x.tools.deleting response &&
      Tools.executionFinalizers response == some after)) .unknown
    x.guard
    match ← x.target t ref with
    | none => pure true
    | some obj =>
      failIf (!(x.tools.deleting obj && Tools.executionFinalizers obj == some after)) .unknown
      pure false

/-- The second half of `dispose`: an object in deletion loses the finalizers its target allows. -/
def removeFinalizers : X String := do
  match Tools.executionFinalizers obj with
  | none => throw .unknown
  | some before =>
    let after := Tools.foreign t before
    let absent ← (if after.length != before.length then x.patchFinalizers t ref obj before after
      else pure false)
    if absent then x.absentAtDirectRead
    else
      x.guard
      pure (if after.length != 0 then "deleting-foreign-finalizers-preserved"
        else "deleting-no-authorized-kova-finalizers-observed")

/-- The part of `dispose` for an object that is not in deletion yet. -/
def deleteTarget : X String := do
  x.guard
  match ← x.call (.delete obj (getUID obj) (getResourceVersion obj))
      (fun a => (a : Except ApiErr Unit)) with
  | .error _ => throw .unknown
  | .ok () =>
    x.guard
    match ← x.target t ref with
    | none => x.absentAtDirectRead
    | some obj =>
      failIf (!x.tools.deleting obj) .unknown
      x.removeFinalizers t ref obj

def dispose : X String := do
  x.guard
  match ← x.target t ref with
  | none => x.absentAtDirectRead
  | some obj =>
    if x.tools.deleting obj then x.removeFinalizers t ref obj else x.deleteTarget t ref obj

def run : X Unit := do
  modify fun report => { report with stage := "unknown" }
  x.guard
  (x.plan.targets.zip x.refs).forM fun p => do
    let _ ← x.target p.1 p.2
    pure ()
  x.guard
  (x.plan.targets.zip x.refs).forM fun p => do
    let observation ← x.dispose p.1 p.2
    modify fun report => { report with
      observations := report.observations ++ [{ resource := p.1.resource
                                                namespaceName := p.1.namespaceName
                                                name := p.1.name
                                                uid := p.1.uid
                                                observation := observation }] }
  x.guard
  modify fun report => { report with
    stage :=
      if report.observations.all fun o => o.observation == "absent-at-direct-read" then
        "exact-targets-absent-observed-not-closed"
      else "exact-disposal-pending" }

end Executor

def executeBody (T : Tools) (plan : VerifiedExecutionPlan) (grant : VerifiedMutationGrant)
    (archives : List String) : X Unit := do
  failIf (!plan.valid || !grant.valid || !T.validMutationGrant grant plan) .unqualified
  failIf (!(← granted grant)) .unqualified
  failIf (← callerDone) .unqualified
  failIf (archives.length != plan.payload.targets.length) .unqualified
  let refs ← preflightArchives T plan grant archives
  failIf (!(← granted grant)) .unqualified
  Executor.run { tools := T, plan := plan.payload, grant := grant, refs := refs }

def emptyReport (plan : VerifiedExecutionPlan) (grant : VerifiedMutationGrant) : ExecutionReport :=
  { stage := "not-started", planDigest := plan.planDigest, grantDigest := grant.envelopeDigest }

/-- `execute`: the report is returned with an error as well. -/
def execute (T : Tools) (plan : VerifiedExecutionPlan) (grant : VerifiedMutationGrant)
    (archives : List String) : Prog Request Answer (Except ExecErr Unit × ExecutionReport) :=
  (executeBody T plan grant archives).run.run (emptyReport plan grant)

end KovaService.Disposal
