import KovaService.Lib.Text
import KovaService.Lib.Unstructured

/-!
The exact disposal of an old epoch: plans, grants and the projection of an object that its archive
pins.  From `execution_plan.go`, `executor_grant.go`, `preflight.go` and `executor.go`.
-/

namespace KovaService.Disposal

open Lib Lib.Json Lib.Unstructured

abbrev Time : Type := Int

structure ExecutionResource where
  group : String := ""
  version : String
  resource : String
  deriving DecidableEq

structure ExecutionTarget where
  resource : ExecutionResource
  namespaceName : String
  namespaceUID : String
  name : String
  uid : String
  role : String
  dispositionID : String
  archiveResourceVersion : String
  archiveDigest : String
  archiveBytes : Int
  qualificationVersion : String
  qualificationDigest : String
  allowedKovaFinalizers : List String
  deriving DecidableEq

def executionTargetKey (t : ExecutionTarget) : String :=
  "\x00".intercalate
    [t.resource.group, t.resource.version, t.resource.resource, t.namespaceName, t.name]

/-- The parts of `ExecutionPlanPayload` that the executor reads. -/
structure ExecutionPlanPayload where
  systemNamespace : String
  systemNamespaceUID : String
  sourceNamespace : String
  sourceNamespaceUID : String
  receiptNamespace : String
  receiptNamespaceUID : String
  evidenceArchiveBytes : Int
  maxCalls : Int
  maxObjectArchiveBytes : Int
  maxArchiveBytes : Int
  targets : List ExecutionTarget
  deriving DecidableEq

/-- What `validExecutionPlan` says about them: the keys of the targets increase. -/
def ExecutionPlanPayload.sorted (p : ExecutionPlanPayload) : Prop :=
  p.targets.Pairwise fun a b => executionTargetKey a < executionTargetKey b

/-- `VerifiedExecutionPlan`: only a valid payload is marked valid. -/
structure VerifiedExecutionPlan where
  valid : Bool
  planDigest : String
  payload : ExecutionPlanPayload
  checked : valid → payload.sorted

structure VerifiedMutationGrant where
  valid : Bool
  envelopeDigest : String
  notBefore : Time
  expiresAt : Time
  deriving DecidableEq

def VerifiedMutationGrant.current (g : VerifiedMutationGrant) (now : Time) : Bool :=
  g.valid && !(now < g.notBefore) && now < g.expiresAt

/-- The library functions that the executor calls, and the checks of a grant against its plan. -/
structure Tools where
  marshal : Value → Option String
  unmarshalStrict : String → Option Value
  digestBytes : String → String
  /-- A text that `time.Parse` reads as a time other than the zero time. -/
  timestamp : String → Bool
  /-- The digest of the qualification record of a target and a projection digest. -/
  qualificationDigest : ExecutionTarget → String → String
  validMutationGrant : VerifiedMutationGrant → VerifiedExecutionPlan → Bool

def maxIDBytes : Nat := 256

def maxExecutionObjectBytes : Int := 16 * 1024 * 1024

def executionMaxObservedBytes : Int := 64 * 1024 * 1024

def executionMaxTargetArchiveBytes : Int := 64 * 1024 * 1024

def isControl (c : Char) : Bool :=
  c.toNat < 0x20 || (0x7f ≤ c.toNat && c.toNat < 0xa0)

def safeID (value : String) (max : Nat) : Bool :=
  value != "" && value.utf8ByteSize ≤ max &&
    value.toList.all fun c => !(Text.isSpace c || isControl c)

/-- `executionGVK`; the empty kind for a resource outside the list. -/
def executionGVK (r : ExecutionResource) : GroupVersionKind :=
  if r = { version := "v1", resource := "configmaps" } then { version := "v1", kind := "ConfigMap" }
  else if r = { version := "v1", resource := "pods" } then { version := "v1", kind := "Pod" }
  else if r = { group := "kova.cofy.dev", version := "v1alpha1", resource := "kovabuilds" } then
    { group := "kova.cofy.dev", version := "v1alpha1", kind := "KovaBuild" }
  else {}

structure QualifiedArchive where
  projection : String
  generation : Int
  hasGeneration : Bool
  deleting : Bool
  deriving DecidableEq

namespace Tools

variable (T : Tools) (t : ExecutionTarget) (obj : Value)

/-- `executionDeleting`; `none` is an error. -/
def executionDeleting : Option Bool :=
  match nestedString obj ["metadata", "deletionTimestamp"] with
  | none => none
  | some none => some false
  | some (some value) => if T.timestamp value then some true else none

/-- The object is in deletion, where `executionDeleting` makes no error. -/
def deleting : Bool := T.executionDeleting obj == some true

def executionFinalizers : Option (List String) :=
  match nestedStringSlice obj ["metadata", "finalizers"] with
  | none => none
  | some finalizers =>
    let finalizers := finalizers.getD []
    if finalizers.all (safeID · maxIDBytes) && decide finalizers.Nodup then some finalizers
    else none

def foreign (finalizers : List String) : List String :=
  finalizers.filter fun f => !t.allowedKovaFinalizers.contains f

/-- The identity part of `executionProjection`. -/
def identified : Bool :=
  executionGVK t.resource != {} && groupVersionKind obj == executionGVK t.resource &&
    getNamespace obj == t.namespaceName && getName obj == t.name && getUID obj == t.uid &&
    safeID (getResourceVersion obj) maxIDBytes

def executionProjection : Option String :=
  if !identified t obj then none
  else
    match T.executionDeleting obj, executionFinalizers obj with
    | some deleting, some finalizers =>
      if !deleting && (finalizers.contains "orphan" || finalizers.contains "foregroundDeletion") then
        none
      else
        let copy := ["resourceVersion", "managedFields", "deletionTimestamp",
          "deletionGracePeriodSeconds"].foldl (fun v field => removeNested v "metadata" field) obj
        let kept := foreign t finalizers
        let copy := if kept.isEmpty then some (removeNested copy "metadata" "finalizers")
          else setNested copy "metadata" "finalizers" (.arr (kept.map .str))
        copy.bind T.marshal
    | _, _ => none

def executionObservedProjection (archive : QualifiedArchive) :
    Option String :=
  match T.executionDeleting obj with
  | none => none
  | some deleting =>
    if archive.deleting && !deleting then none
    else
      match T.executionProjection t obj with
      | none => none
      | some projection =>
        if projection == archive.projection then some projection
        else
          match nestedInt64 obj ["metadata", "generation"] with
          | some (some generation) =>
            if archive.deleting || !deleting || !archive.hasGeneration || archive.generation ≤ 0 ||
                archive.generation == 9223372036854775807 || generation != archive.generation + 1 then
              none
            else
              (setNested obj "metadata" "generation" (.int archive.generation)).bind
                (T.executionProjection t)
          | _ => none

/-- The object is the archived one, up to the generation step of entering deletion. -/
def qualifies (archive : QualifiedArchive) (obj : Value) : Bool :=
  T.executionObservedProjection t obj archive == some archive.projection

/-- `qualifyArchive`: the archive and its qualification digest. -/
def qualifyArchive (raw : String) : Option (QualifiedArchive × String) :=
  let bytes : Int := raw.utf8ByteSize
  if bytes == 0 || bytes > maxExecutionObjectBytes || bytes != t.archiveBytes ||
      T.digestBytes raw != t.archiveDigest ||
      t.qualificationVersion != "kova-disposal-object-qualification-v1" then none
  else
    match T.unmarshalStrict raw with
    | none => none
    | some obj =>
      if T.marshal obj != some raw || getResourceVersion obj != t.archiveResourceVersion then none
      else
        match T.executionProjection t obj, nestedInt64 obj ["metadata", "generation"],
          T.executionDeleting obj with
        | some projection, some generation, some deleting =>
          if generation.getD 0 < 0 then none
          else some
            ({ projection := projection, generation := generation.getD 0
               hasGeneration := generation.isSome, deleting := deleting },
              T.qualificationDigest t (T.digestBytes projection))
        | _, _, _ => none

end Tools

end KovaService.Disposal
