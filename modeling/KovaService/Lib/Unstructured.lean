import KovaService.Lib.JsonValue

/-!
API objects without a type: decoded JSON, read and changed by field paths.

A read has three outcomes, as in the helpers of apimachinery: the field is there, it is absent, or a
value on the way has the wrong type.  The members of an object have no order; where one is written
anew it comes first.
-/

namespace KovaService.Lib.Unstructured

open Json

variable (v : Value)

/-- `NestedFieldNoCopy`: `none` is an error, `some none` an absent field. -/
def nestedField : Value → List String → Option (Option Value)
  | v, [] => some (some v)
  | .null, _ :: _ => some none
  | .obj members, field :: fields =>
    match members.lookup field with
    | none => some none
    | some v => nestedField v fields
  | _, _ :: _ => none

def nested {α : Type} (read : Value → Option α) (v : Value) (fields : List String) :
    Option (Option α) :=
  match nestedField v fields with
  | none => none
  | some none => some none
  | some (some x) => (read x).map some

def asString : Value → Option String
  | .str s => some s
  | _ => none

def asStrings : Value → Option (List String)
  | .arr vs => vs.mapM asString
  | _ => none

def asInt64 : Value → Option Int
  | .num n => n.toInt?.filter fun v => -2 ^ 63 ≤ v && v < 2 ^ 63
  | _ => none

def nestedString : Value → List String → Option (Option String) := nested asString

def nestedStringSlice : Value → List String → Option (Option (List String)) := nested asStrings

def nestedInt64 : Value → List String → Option (Option Int) := nested asInt64

def getString (fields : List String) : String :=
  match nestedString v fields with
  | some (some s) => s
  | _ => ""

def getAPIVersion : String := getString v ["apiVersion"]

def getKind : String := getString v ["kind"]

def getName : String := getString v ["metadata", "name"]

def getNamespace : String := getString v ["metadata", "namespace"]

def getUID : String := getString v ["metadata", "uid"]

def getResourceVersion : String := getString v ["metadata", "resourceVersion"]

structure GroupVersionKind where
  group : String := ""
  version : String := ""
  kind : String := ""
  deriving DecidableEq

def parseGroupVersion (s : String) : Option (String × String) :=
  if s == "" || s == "/" then some ("", "")
  else
    match s.toList.splitOn '/' with
    | [version] => some ("", String.ofList version)
    | [group, version] => some (String.ofList group, String.ofList version)
    | _ => none

def groupVersionKind : GroupVersionKind :=
  match parseGroupVersion (getAPIVersion v) with
  | none => {}
  | some (group, version) => { group := group, version := version, kind := getKind v }

def removeMember (members : List (String × Value)) (field : String) : List (String × Value) :=
  members.filter fun m => m.1 != field

def setMember (members : List (String × Value)) (field : String) (v : Value) :
    List (String × Value) :=
  (field, v) :: removeMember members field

def removeNested (parent field : String) : Value :=
  match v with
  | .obj members =>
    match members.lookup parent with
    | some (.obj inner) => .obj (setMember members parent (.obj (removeMember inner field)))
    | _ => v
  | _ => v

def setNested (parent field : String) (x : Value) : Option Value :=
  match v with
  | .obj members =>
    match members.lookup parent with
    | some (.obj inner) => some (.obj (setMember members parent (.obj (setMember inner field x))))
    | none => some (.obj (setMember members parent (.obj [(field, x)])))
    | _ => none
  | _ => none

end KovaService.Lib.Unstructured
