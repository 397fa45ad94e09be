import KovaService.Stage.Scope
import KovaService.Lib.Trace

/-!
The transport of a recovery stage: its calls and its wire.

A call is answered from the wire, which may answer anything.  Every failure other than an exact
absence or conflict poisons the transport.  The marks `issued` and `returned` stand around a call;
the first says whether the call passes the allow-list of `Create` and `Update`.
-/

namespace KovaService.Stage

open Lib Lib.Json Lib.Unstructured Drain

/-- An object a caller passes in; `foreign` is any other Go type. -/
inductive Object where
  | namespace_ (n : Namespace)
  | configMap (cm : ConfigMap)
  | pod (p : Pod)
  | kovaBuild (b : KovaBuild)
  | unstructured (v : Value)
  | foreign

/-- The type an answer is read into. -/
inductive OutType where
  | namespace_ | configMap | pod | kovaBuild
  | unstructured (g : GroupVersionKind)
  | foreign

inductive ListType where
  | configMapList
  | unstructuredList (g : GroupVersionKind)
  | foreign

/-- `client.ListOptions`; `other` when a further option is set. -/
structure ListOptions where
  namespaceName : String
  limit : Int
  other : Bool := false

inductive ListResult where
  | configMaps (l : ConfigMapList)
  | unstructured (v : Value)

/-- The calls of a client, with the number of options. -/
inductive Call where
  | get (key : Key) (out : OutType) (options : Nat)
  | list (out : ListType) (o : ListOptions)
  | create (obj : Object) (options : Nat)
  | update (obj : Object) (options : Nat)

def Reply : Call → Type
  | .list .. => ListResult
  | _ => Object

/-- `stopped` is the error of a poisoned transport. -/
inductive StageErr where
  | stopped | notFound | alreadyExists
  deriving DecidableEq

def OutType.resource : OutType → Option Resource
  | .namespace_ => some .namespace_
  | .configMap => some .configMap
  | .pod => some .pod
  | .kovaBuild => some .kovaBuild
  | .unstructured g => Resource.ofGVK g
  | .foreign => none

def Object.outType : Object → OutType
  | .namespace_ _ => .namespace_
  | .configMap _ => .configMap
  | .pod _ => .pod
  | .kovaBuild _ => .kovaBuild
  | .unstructured v => .unstructured (groupVersionKind v)
  | .foreign => .foreign

def trimList (kind : String) : String :=
  if "List".toList.isSuffixOf kind.toList then String.ofList (kind.toList.take (kind.length - 4))
  else kind

def ListType.resource : ListType → Option Resource
  | .configMapList => some .configMap
  | .unstructuredList g => Resource.ofGVK { g with kind := trimList g.kind }
  | .foreign => none

/-- `GetFinalizers`; `none` is the nil slice, for an absent field and for an unreadable one. -/
def finalizerField (v : Value) : Option (List String) :=
  match nestedStringSlice v ["metadata", "finalizers"] with
  | some (some l) => some l
  | _ => none

def getFinalizers (v : Value) : List String := (finalizerField v).getD []

/-- The finalizers of an object, when the field is absent, null or a list of texts. -/
def finalizersOf (v : Value) : Option (List String) :=
  match nestedField v ["metadata", "finalizers"] with
  | none => none
  | some none => some []
  | some (some .null) => some []
  | some (some x) => asStrings x

theorem getFinalizers_of_readable {v : Value} {l : List String} (h : finalizersOf v = some l) :
    getFinalizers v = l := by
  unfold getFinalizers finalizerField nestedStringSlice nested
  unfold finalizersOf at h
  split at h
  · cases h
  · next hf =>
    cases h
    rw [hf]
    rfl
  · next hf =>
    cases h
    rw [hf]
    rfl
  · next x _ hf => simp [hf, h]

namespace Object

def key : Object → Key
  | .namespace_ n => n.metadata.key
  | .configMap cm => cm.metadata.key
  | .pod p => p.metadata.key
  | .kovaBuild b => b.metadata.key
  | .unstructured v => { namespaceName := getNamespace v, name := getName v }
  | .foreign => { name := "" }

def uid : Object → String
  | .namespace_ n => n.metadata.uid
  | .configMap cm => cm.metadata.uid
  | .pod p => p.metadata.uid
  | .kovaBuild b => b.metadata.uid
  | .unstructured v => getUID v
  | .foreign => ""

def resourceVersion : Object → String
  | .namespace_ n => n.metadata.resourceVersion
  | .configMap cm => cm.metadata.resourceVersion
  | .pod p => p.metadata.resourceVersion
  | .kovaBuild b => b.metadata.resourceVersion
  | .unstructured v => getResourceVersion v
  | .foreign => ""

def finalizers : Object → List String
  | .namespace_ n => n.metadata.finalizers
  | .configMap cm => cm.metadata.finalizers
  | .pod p => p.metadata.finalizers
  | .kovaBuild b => b.metadata.finalizers
  | .unstructured v => getFinalizers v
  | .foreign => []

end Object

def stringsValue (l : List String) : Value := .arr (l.map .str)

/-- `SetFinalizers` of an object without a type; an object that cannot take them stays as it is. -/
def setFinalizers (v : Value) (l : List String) : Value :=
  (setNested v "metadata" "finalizers" (stringsValue l)).getD v

def Object.setFinalizers (l : List String) : Object → Object
  | .namespace_ n => .namespace_ { n with metadata := { n.metadata with finalizers := l } }
  | .configMap cm => .configMap { cm with metadata := { cm.metadata with finalizers := l } }
  | .pod p => .pod { p with metadata := { p.metadata with finalizers := l } }
  | .kovaBuild b => .kovaBuild { b with metadata := { b.metadata with finalizers := l } }
  | .unstructured v => .unstructured (Stage.setFinalizers v l)
  | .foreign => .foreign

inductive Method where
  | get | post | patch
  deriving DecidableEq

inductive PatchOp where
  | test (path : String) (value : Value)
  | add (path : String) (value : Value)
  | replace (path : String) (value : Value)
  deriving DecidableEq

inductive Body where
  | empty
  | object (v : Value)
  | patch (ops : List PatchOp)
  deriving DecidableEq

inductive WireOutcome where
  | ok (v : Value)
  | notFound | alreadyExists | unknown
  deriving DecidableEq

/-- What the transport asks of its surroundings, and the marks around a call. -/
inductive Wire where
  | ctxErr
  | journal (method : Method) (path digest : String)
  | http (method : Method) (path contentType : String) (body : Body)
  | issued (call : Call) (passes : Bool)
  | returned (err : Option StageErr)

/-- A context answers whether it is done, the journal whether the record was saved. -/
def WireAnswer : Wire → Type
  | .ctxErr | .journal .. => Bool
  | .http .. => WireOutcome
  | .issued .. | .returned _ => Unit

/-- The metadata of a decoded object are the members of its JSON.  Nothing is said of finalizers that
are no list of texts: a null among them is decoded as an empty text. -/
structure DecodedMeta (v : Value) (m : ObjectMeta) : Prop where
  name : m.name = getName v
  namespaceName : m.namespaceName = getNamespace v
  uid : m.uid = getUID v
  resourceVersion : m.resourceVersion = getResourceVersion v
  finalizers : ∀ l, finalizersOf v = some l → m.finalizers = l

/-- The JSON library: strict decoding into the types of the drain, encoding and digests. -/
structure Codec where
  decodeNamespace : Value → Option Namespace
  decodeConfigMap : Value → Option ConfigMap
  decodeConfigMapList : Value → Option ConfigMapList
  decodePod : Value → Option Pod
  decodeBuild : Value → Option KovaBuild
  encode : Object → Value
  canonical : Object → String
  canonicalValue : Value → String
  bodyDigest : Body → String
  bodyBytes : Body → Nat
  /-- A text that `time.Parse` reads as a time other than the zero time. -/
  timestamp : String → Bool
  decodePod_meta : ∀ v p, decodePod v = some p → DecodedMeta v p.metadata
  decodeBuild_meta : ∀ v b, decodeBuild v = some b → DecodedMeta v b.metadata

structure Transport where
  codec : Codec
  scope : StageScope
  maxCalls : Int

structure State where
  calls : Nat := 0
  failed : Bool := false
  observed : String → Option Value := fun _ => none

abbrev A : Type → Type := Exec Wire WireAnswer State StageErr

variable {α : Type}

def stop : A α := do
  modify fun s => { s with failed := true }
  throw .stopped

def observe (path : String) (v : Value) : A PUnit :=
  modify fun s => { s with observed := Function.update s.observed path (some v) }

def maxResponseBytes : Nat := 16 * 1024 * 1024

def deletionReadable (c : Codec) (u : Value) : Bool :=
  match nestedString u ["metadata", "deletionTimestamp"] with
  | none => false
  | some none => true
  | some (some t) => c.timestamp t

def qualifiedStageObject (c : Codec) (u : Value) (r : Resource) (key : Key) (uid : String) : Bool :=
  Api.isDNS1123Subdomain key.name && groupVersionKind u == r.gvk &&
    getNamespace u == key.namespaceName && getName u == key.name && safeToken (getUID u) &&
    safeToken (getResourceVersion u) && (uid == "" || getUID u == uid) && deletionReadable c u

def copyStageObject (c : Codec) (u : Value) : OutType → Option Object
  | .namespace_ => (c.decodeNamespace u).map .namespace_
  | .configMap => (c.decodeConfigMap u).map .configMap
  | .pod => (c.decodePod u).map .pod
  | .kovaBuild => (c.decodeBuild u).map .kovaBuild
  | .unstructured _ => some (.unstructured u)
  | .foreign => none

def accepted (c : Codec) (u : Value) (r : Resource) (key : Key) (uid : String) (out : OutType) :
    Option Object :=
  if qualifiedStageObject c u r key uid then copyStageObject c u out else none

def recoveryHold : String := "kova.cofy.dev/recovery-hold"

def tombstoneMarker : String := "kova.cofy.dev/recovery-tombstone"

/-- The Pod of a tombstone, as `validCreate` spells it out. -/
def expectedPodSpec : PodSpec where
  restartPolicy := "Never"
  schedulingGates := [recoveryHold]
  nodeSelector := StringMap.ofList [(tombstoneMarker, "never")]
  automountServiceAccountToken := some false
  containers :=
    [{ name := "inert", image := "registry.invalid/kova-recovery-tombstone:never"
       imagePullPolicy := "Never", command := ["/bin/false"] }]

/-- What `validCreate` asks of every object. -/
def proposedMeta (m : ObjectMeta) : Bool :=
  m.uid == "" && m.resourceVersion == "" && m.deletionTimestamp.isNone && m.generateName == "" &&
    m.ownerReferences == [] && m.finalizers == [recoveryHold]

/-- What it asks of a tombstone. -/
def tombstoneMeta (s : StageScope) (path : String) (m : ObjectMeta) : Bool :=
  proposedMeta m && s.targets.contains path &&
    m.labels = StringMap.ofList [(tombstoneMarker, "v1")] &&
    m.annotations = StringMap.ofList
      [(tombstoneMarker, s.incident), ("kova.cofy.dev/recovery-epoch-uid", s.epochUID)]

/-- `validCreate`.  No object of another type passes it. -/
def validCreate (s : StageScope) (path : String) : Object → Bool
  | .configMap cm =>
    proposedMeta cm.metadata && s.attempts.lookup path = some cm.data &&
      cm.immutable == some true && cm.binaryData.size == 0 &&
      cm.metadata.labels =
        StringMap.ofList [("kova.cofy.dev/recovery-occupancy-attempt", "v1")] &&
      cm.metadata.annotations.size == 0
  | .kovaBuild b => tombstoneMeta s path b.metadata && isInertBuildTombstone b
  | .pod p => tombstoneMeta s path p.metadata && p.spec = expectedPodSpec
  | _ => false

mutual

/-- `containsProposal`; a missing member is null. -/
def containsProposal : Value → Value → Bool
  | .obj ms, .obj cs => containsMembers ms cs
  | .arr vs, .arr cs => containsElements vs cs
  | .null, .null => true
  | .bool a, .bool b => a == b
  | .num a, .num b => a == b
  | .str a, .str b => a == b
  | _, _ => false

def containsMembers : List (String × Value) → List (String × Value) → Bool
  | [], _ => true
  | (k, v) :: ms, cs => containsProposal v ((cs.lookup k).getD .null) && containsMembers ms cs

def containsElements : List Value → List Value → Bool
  | [], [] => true
  | v :: vs, c :: cs => containsProposal v c && containsElements vs cs
  | _, _ => false

end

def setGVK (r : Resource) : Value → Value
  | .obj members =>
    .obj (setMember (setMember members "kind" (.str r.gvk.kind)) "apiVersion" (.str r.apiVersion))
  | v => v

/-- The body of a Create: the object without the fields the server assigns. -/
def createBody (c : Codec) (r : Resource) (obj : Object) : Value :=
  let proposed := removeNested (setGVK r (c.encode obj)) "metadata" "creationTimestamp"
  match proposed with
  | .obj members =>
    match members.lookup "status" with
    | some (.obj []) => .obj (removeMember members "status")
    | _ => proposed
  | v => v

/-- The JSON Patch of an Update. -/
def holdPatch (old : Value) (finalizers : List String) : List PatchOp :=
  [.test "/metadata/uid" (.str (getUID old)),
    .test "/metadata/resourceVersion" (.str (getResourceVersion old))] ++
  match finalizerField old with
  | none => [.add "/metadata/finalizers" (stringsValue finalizers)]
  | some l =>
    [.test "/metadata/finalizers" (stringsValue l),
      .replace "/metadata/finalizers" (stringsValue finalizers)]

/-- An object as `Update` compares it before and after. -/
def withoutVersion (v : Value) : Value :=
  removeNested (removeNested v "metadata" "resourceVersion") "metadata" "managedFields"

namespace Transport

variable (x : Transport)

def wire (method : Method) (path contentType : String) (body : Body) : A Value := do
  let s ← get
  if s.failed then stop
  else
    let done : Bool ← Exec.request Wire.ctxErr
    if done || (s.calls : Int) ≥ x.maxCalls || x.codec.bodyBytes body > maxResponseBytes then stop
    else
      let saved : Bool ← Exec.request (Wire.journal method path (x.codec.bodyDigest body))
      if !saved then stop
      else
        modify fun s => { s with calls := s.calls + 1 }
        let r : WireOutcome ← Exec.request (Wire.http method path contentType body)
        match r with
        | .ok v => pure v
        | .notFound => throw .notFound
        | .alreadyExists => throw .alreadyExists
        | .unknown => stop

def readable (key : Key) (out : OutType) (options : Nat) : Option (Resource × String × String) :=
  if options != 0 then none
  else do
    let r ← out.resource
    let path ← stageAddress r key
    let uid ← x.scope.reads.lookup path
    pure (r, path, uid)

def getObject (key : Key) (out : OutType) (options : Nat) : A Object :=
  match x.readable key out options with
  | none => stop
  | some (r, path, uid) => do
    let u ← x.wire .get path "" .empty
    match accepted x.codec u r key uid out with
    | some o => do
      observe path u
      pure o
    | none => stop

def systemActive : Except StageErr Object → Bool
  | .ok (.namespace_ ns) => ns.metadata.deletionTimestamp.isNone && ns.phase == "Active"
  | _ => false

def guardSystem : A PUnit := do
  let r ← (x.getObject { name := "kube-system" } .namespace_ 0).attempt
  if systemActive r then pure ⟨⟩ else stop

def listable (out : ListType) (o : ListOptions) : Option (Resource × String) :=
  if o.limit < 1 || o.limit > 8192 || o.other then none
  else
    match out.resource with
    | none => none
    | some r =>
      if r = .namespace_ || !x.scope.lists.contains (collection r o.namespaceName) then none
      else some (r, collection r o.namespaceName)

/-- The answer of a `List` is one complete page of qualified objects. -/
def listQualified (u : Value) (r : Resource) (o : ListOptions) : Bool :=
  getAPIVersion u == r.apiVersion && getKind u == r.gvk.kind ++ "List" &&
    safeToken (getResourceVersion u) &&
    (match nestedString u ["metadata", "continue"] with
      | none => false
      | some c => c.getD "" == "") &&
    (match nestedInt64 u ["metadata", "remainingItemCount"] with
      | none => false
      | some n => n.getD 0 == 0) &&
    match nestedField u ["items"] with
    | some (some (.arr items)) =>
      (items.length : Int) ≤ o.limit && items.all fun v =>
        (match v with
          | .obj _ => true
          | _ => false) &&
        qualifiedStageObject x.codec v r { namespaceName := o.namespaceName, name := getName v } ""
    | _ => false

def copyList (u : Value) : ListType → Option ListResult
  | .configMapList => (x.codec.decodeConfigMapList u).map .configMaps
  | .unstructuredList _ => some (.unstructured u)
  | .foreign => none

def acceptedList (u : Value) (out : ListType) (r : Resource) (o : ListOptions) :
    Option ListResult :=
  if x.listQualified u r o then x.copyList u out else none

def listObjects (out : ListType) (o : ListOptions) : A ListResult :=
  match x.listable out o with
  | none => stop
  | some (r, path) => do
    let u ← x.wire .get (path ++ "?limit=" ++ toString o.limit) "" .empty
    match x.acceptedList u out r o with
    | some l => pure l
    | none => stop

/-- A Create that passes the allow-list, with its address. -/
def createAdmitted (obj : Object) (options : Nat) : Option (Resource × String) :=
  if options != 0 then none
  else do
    let r ← obj.outType.resource
    let path ← stageAddress r obj.key
    if validCreate x.scope path obj then pure (r, path) else none

/-- The object after a Create, which has every proposed field. -/
def acceptedCreate (observed : Value) (r : Resource) (obj : Object) : Option Object :=
  if containsProposal (createBody x.codec r obj) observed then
    accepted x.codec observed r obj.key "" obj.outType
  else none

def createObject (obj : Object) (options : Nat) : A Object :=
  match x.createAdmitted obj options with
  | none => stop
  | some (r, path) => do
    x.guardSystem
    let observed ← x.wire .post (collection r obj.key.namespaceName) "application/json"
      (.object (createBody x.codec r obj))
    match x.acceptedCreate observed r obj with
    | some o => do
      observe path observed
      pure o
    | none => stop

/-- An Update that passes the allow-list, with its address and the object last observed there. -/
def updateAdmitted (observed : String → Option Value) (obj : Object) (options : Nat) :
    Option (Resource × String × Value) :=
  if options != 0 then none
  else do
    let r ← obj.outType.resource
    let path ← stageAddress r obj.key
    let old ← observed path
    let before ← copyStageObject x.codec old obj.outType
    if x.scope.targets.contains path && getUID old == obj.uid &&
        getResourceVersion old == obj.resourceVersion &&
        !(getFinalizers old).contains recoveryHold &&
        obj.finalizers == getFinalizers old ++ [recoveryHold] &&
        x.codec.canonical (before.setFinalizers obj.finalizers) == x.codec.canonical obj then
      pure (r, path, old)
    else none

/-- The object after an Update, which differs from the old one in its finalizers and version. -/
def acceptedUpdate (observed : Value) (r : Resource) (obj : Object) (old : Value) :
    Option Object :=
  if x.codec.canonicalValue (withoutVersion (setFinalizers old obj.finalizers)) ==
      x.codec.canonicalValue (withoutVersion observed) then
    accepted x.codec observed r obj.key (getUID old) obj.outType
  else none

def updateObject (obj : Object) (options : Nat) : A Object := do
  let s ← get
  match x.updateAdmitted s.observed obj options with
  | none => stop
  | some (r, path, old) =>
    x.guardSystem
    let observed ← x.wire .patch path "application/json-patch+json"
      (.patch (holdPatch old obj.finalizers))
    match x.acceptedUpdate observed r obj old with
    | some o => do
      observe path observed
      pure o
    | none => stop

def serve : (call : Call) → A (Reply call)
  | .get key out options => x.getObject key out options
  | .list out o => x.listObjects out o
  | .create obj options => x.createObject obj options
  | .update obj options => x.updateObject obj options

/-- The call passes the allow-list of `Create` and `Update`. -/
def passes (s : State) : Call → Bool
  | .create obj options => (x.createAdmitted obj options).isSome
  | .update obj options => (x.updateAdmitted s.observed obj options).isSome
  | _ => true

def errorOf : Except StageErr α → Option StageErr
  | .ok _ => none
  | .error e => some e

def handle (s : State) (call : Call) :
    Prog Wire WireAnswer (Except StageErr (Reply call) × State) := do
  Prog.perform (Wire.issued call (x.passes s call))
  let r ← (x.serve call).run.run s
  Prog.perform (Wire.returned (errorOf r.1))
  pure r

/-- A caller over the transport. -/
def interpret : Prog Call (fun call => Except StageErr (Reply call)) α → State →
    Prog Wire WireAnswer (α × State)
  | .ret a, s => pure (a, s)
  | .call c k, s => do
    let r ← x.handle s c
    interpret (k r.1) r.2

end Transport

end KovaService.Stage
