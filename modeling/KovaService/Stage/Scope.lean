import KovaService.Drain.Program
import KovaService.Lib.Unstructured

/-!
The scope of a recovery stage: which addresses its transport may read, create and update, built from
the pins of an invocation.
-/

namespace KovaService.Stage

open Lib Lib.Json Lib.Unstructured Drain

variable (T : Tools) (e : EpochIdentity)

def safeToken (value : String) : Bool :=
  value != "" && value.utf8ByteSize ≤ 256 &&
    value.toList.all fun c => c ∉ [' ', '\t', '\r', '\n', '\x00']

/-- The kinds of `stageGVK`. -/
inductive Resource where
  | namespace_ | configMap | pod | kovaBuild
  deriving DecidableEq

def Resource.gvk : Resource → GroupVersionKind
  | .namespace_ => { version := "v1", kind := "Namespace" }
  | .configMap => { version := "v1", kind := "ConfigMap" }
  | .pod => { version := "v1", kind := "Pod" }
  | .kovaBuild => { group := "kova.cofy.dev", version := "v1alpha1", kind := "KovaBuild" }

def Resource.apiVersion (r : Resource) : String :=
  if r.gvk.group == "" then r.gvk.version else r.gvk.group ++ "/" ++ r.gvk.version

/-- The check at the end of `stageGVK`. -/
def Resource.ofGVK (g : GroupVersionKind) : Option Resource :=
  [.namespace_, .configMap, .pod, .kovaBuild].find? fun r => r.gvk = g

def Resource.segments : Resource → String → List String
  | .namespace_, ns => ["", "api", "v1", "namespaces", ns, ""]
  | .configMap, ns => ["", "api", "v1", "namespaces", ns, "configmaps"]
  | .pod, ns => ["", "api", "v1", "namespaces", ns, "pods"]
  | .kovaBuild, ns => ["", "apis", "kova.cofy.dev", "v1alpha1", "namespaces", ns, "kovabuilds"]

def collection (r : Resource) (ns : String) : String := "/".intercalate (r.segments ns)

def objectPath (r : Resource) (ns name : String) : String := collection r ns ++ "/" ++ name

def namespacePath (name : String) : String := "/".intercalate ["", "api", "v1", "namespaces", name]

def stageAddress (r : Resource) (key : Key) : Option String :=
  if !Api.isDNS1123Subdomain key.name then none
  else if r = .namespace_ then
    if key.namespaceName != "" then none else some (namespacePath key.name)
  else if !Api.isDNS1123Label key.namespaceName then none
  else some (objectPath r key.namespaceName key.name)

structure NamespacePin where
  name : String
  uid : String
  deriving DecidableEq

structure InventoryInput where
  incidentID : String
  systemNamespaceUID : String
  runner : NamespacePin
  receipts : NamespacePin
  barrierEvidenceDigest : String
  objectLimit : Int
  objectByteLimit : Int
  archiveByteLimit : Int
  deriving DecidableEq

/-- `StagePins`; of the connection, whether `validConnection` accepts it and the system UID. -/
structure StagePins where
  version : String
  action : String
  validConnection : Bool
  systemNamespaceUID : String
  maxAPICalls : Int
  inventory : Option InventoryInput
  drain : Option Drain.Input
  roots : List (String × String × String)
  deriving DecidableEq

structure StageScope where
  namespaces : List (String × String)
  reads : Finmap fun _ : String => String
  targets : List String
  attempts : Finmap fun _ : String => StringMap
  lists : List String
  incident : String
  epochUID : String
  deriving DecidableEq

def errInput : String := "recovery operator input is not independently qualified"

def addNS (systemUID : String) (namespaces : List (String × String)) (name uid : String) :
    Except String (List (String × String)) :=
  if name == "kube-system" || !Api.isDNS1123Label name || !safeToken uid || uid == systemUID ||
      namespaces.any (fun p => p.1 == name) || namespaces.any (fun p => p.2 == uid) then
    .error errInput
  else .ok (namespaces ++ [(name, uid)])

def kindResource : Kind → Resource
  | .kovaBuild => .kovaBuild
  | .pod => .pod

def stageTargets (i : Drain.Input) : List (Kind × String) :=
  i.queues.map (fun q => (.kovaBuild, q.buildName)) ++
    i.grants.map (fun g => (.kovaBuild, g.build.buildName)) ++
    i.podCreates.map fun p => (.pod, p.podName)

def attemptPath (t : Kind × String) : String :=
  objectPath .configMap e.namespaceName (occupancyAttemptName T e t.1 t.2)

def targetPath (t : Kind × String) : String :=
  objectPath (kindResource t.1) e.namespaceName t.2

def addTarget (s : StageScope) (t : Kind × String) :
    Except String StageScope :=
  if !Api.isDNS1123Subdomain t.2 then .error errInput
  else .ok { s with
    targets := s.targets ++ [targetPath e t]
    reads := (s.reads.insert (targetPath e t) "").insert (attemptPath T e t) ""
    attempts := s.attempts.insert (attemptPath T e t) (attemptData e t.1 t.2) }

def addReceipt (reads : Finmap fun _ : String => String) (r : ReceiptRef) :
    Except String (Finmap fun _ : String => String) :=
  if r.namespaceName != e.receiptNamespace || !Api.isDNS1123Subdomain r.name ||
      (reads.lookup (objectPath .configMap r.namespaceName r.name)).isSome then
    .error errInput
  else .ok (reads.insert (objectPath .configMap r.namespaceName r.name) r.uid)

def collectScope (systemUID : String) (i : InventoryInput) : Except String StageScope := do
  let one ← addNS systemUID [("kube-system", systemUID)] i.runner.name i.runner.uid
  let namespaces ← addNS systemUID one i.receipts.name i.receipts.uid
  pure
    { namespaces := namespaces, reads := ∅, targets := [], attempts := ∅
      lists := [i.runner.name, i.receipts.name].flatMap fun ns =>
        [collection .configMap ns, collection .pod ns, collection .kovaBuild ns]
      incident := "", epochUID := "" }

def stopReads (stop : StopIntentRef) : Finmap fun _ : String => String :=
  (∅ : Finmap fun _ : String => String).insert
    (objectPath .configMap stop.namespaceName stop.name) stop.uid

def drainScope (systemUID : String) (i : Drain.Input) : Except String StageScope := do
  let e := i.expected.epoch
  let one ← addNS systemUID [("kube-system", systemUID)] e.namespaceName e.namespaceUID
  let namespaces ← addNS systemUID one e.receiptNamespace e.receiptNamespaceUID
  if i.expected.stopIntent.namespaceName != e.namespaceName ||
      !Api.isDNS1123Subdomain i.expected.stopIntent.name then
    throw errInput
  let reads ← i.expected.receipts.foldlM (addReceipt e) (stopReads i.expected.stopIntent)
  (stageTargets i).foldlM (addTarget T e)
    { namespaces := namespaces, reads := reads, targets := [], attempts := ∅
      lists := [collection .configMap e.receiptNamespace]
      incident := i.expected.incidentID, epochUID := e.namespaceUID }

/-- The reads of the pinned namespaces, added last. -/
def withNamespaces (s : StageScope) : StageScope :=
  { s with
    reads := s.namespaces.foldl (fun reads ns => reads.insert (namespacePath ns.1) ns.2) s.reads }

def newStageScope (p : StagePins) : Except String StageScope :=
  match p.action, p.inventory, p.drain with
  | "collect-exact", some i, _ => (collectScope p.systemNamespaceUID i).map withNamespaces
  | "drain-exact", _, some i => (drainScope T p.systemNamespaceUID i).map withNamespaces
  | _, _, _ => .error errInput

/-- The tests `prepareStage` makes of an inventory. -/
def collectPins (p : StagePins) (i : InventoryInput) : Except String StagePins :=
  if p.roots != [] || i.systemNamespaceUID != p.systemNamespaceUID || i.objectLimit < 2 ||
      i.objectLimit > 8192 || i.objectByteLimit < 1 || i.objectByteLimit > 2 * 1024 * 1024 ||
      i.archiveByteLimit < 1 || i.archiveByteLimit > 64 * 1024 * 1024 ||
      !Api.digestSHA256 i.barrierEvidenceDigest || !safeToken i.incidentID then
    .error errInput
  else .ok p

/-- The tests it makes of a drain, which gets the pinned keys as its trust roots. -/
def drainPins (roots : List (String × String × String) →
    Except String (List (String × String × String))) (p : StagePins) (d : Drain.Input) :
    Except String StagePins :=
  if d.maxLiabilities < 1 || d.maxLiabilities > 2048 ||
      (d.expected.receipts.length : Int) > d.maxLiabilities || d.trustRoots != [] then
    .error errInput
  else do
    let r ← roots p.roots
    match verifyDrainPermit T d.permit d.expected r with
    | .error _ => .error errInput
    | .ok _ =>
      if d.intents.length != d.expected.receipts.length ||
          d.intents.any fun i => !i.valid T.ext then
        .error errInput
      else .ok { p with drain := some { d with trustRoots := r } }

/-- What `prepareStage` does for its action. -/
def actionPins (roots : List (String × String × String) →
    Except String (List (String × String × String))) (p : StagePins) (action : String) :
    Except String StagePins :=
  match action, p.inventory, p.drain with
  | "collect-exact", some i, none => collectPins p i
  | "drain-exact", none, some d => drainPins T roots p d
  | _, _, _ => .error errInput

/-- `prepareStage` on decoded pins; `roots` reads the pinned keys. -/
def prepareStage (roots : List (String × String × String) →
    Except String (List (String × String × String))) (p : StagePins) (action : String) :
    Except String StagePins :=
  if p.version != "1" || p.action != action || !p.validConnection || p.maxAPICalls < 14 ||
      p.maxAPICalls > 65536 then
    .error errInput
  else do
    let pins ← actionPins T roots p action
    let _ ← newStageScope T pins
    pure pins

end KovaService.Stage
