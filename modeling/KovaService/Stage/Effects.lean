import KovaService.Drain.Occupancy
import KovaService.Stage.Passage

/-!
The effects of a recovery stage, from both sides: whatever the caller does the transport sends
nothing but the enumerated mutations, and what the drain does is let through.

An object that is read without a type may have finalizers that are no list of texts.  They are taken
for absent, and the hold then replaces them.
-/

namespace KovaService.Stage

open Lib Lib.Json Lib.Unstructured Drain

def samplePins : StagePins where
  version := "1"
  action := "drain-exact"
  validConnection := true
  systemNamespaceUID := "k"
  maxAPICalls := 64
  inventory := none
  drain := some sampleInput
  roots := []

theorem samplePins_accepted :
    prepareStage sampleTools .ok samplePins "drain-exact" = .ok samplePins := by
  decide +kernel

def sampleScope : StageScope :=
  match newStageScope sampleTools samplePins with
  | .ok s => s
  | .error _ =>
    { namespaces := [], reads := ∅, targets := [], attempts := ∅, lists := [], incident := ""
      epochUID := "" }

theorem sampleScope_eq : newStageScope sampleTools samplePins = .ok sampleScope := by
  decide +kernel

def sampleCodec : Codec where
  decodeNamespace := fun v =>
    some { metadata := { name := getName v, uid := getUID v }, phase := "Active" }
  decodeConfigMap := fun _ => none
  decodeConfigMapList := fun _ => none
  decodePod := fun _ => none
  decodeBuild := fun _ => none
  encode := fun _ => .null
  canonical := fun
    | .unstructured v => String.ofList (print v)
    | _ => ""
  canonicalValue := fun v => String.ofList (print v)
  bodyDigest := fun _ => ""
  bodyBytes := fun _ => 0
  timestamp := fun _ => true
  decodePod_meta := by simp
  decodeBuild_meta := by simp

def sampleTransport : Transport := ⟨sampleCodec, sampleScope, samplePins.maxAPICalls⟩

def sampleKey : Key := { namespaceName := "kova", name := "b1" }

def samplePath : String := targetPath sampleEpoch (.kovaBuild, "b1")

def sampleBuild (finalizers : Value) : Value :=
  .obj [("apiVersion", .str "kova.cofy.dev/v1alpha1"), ("kind", .str "KovaBuild"),
    ("metadata", .obj [("namespace", .str "kova"), ("name", .str "b1"), ("uid", .str "u"),
      ("resourceVersion", .str "7"), ("finalizers", finalizers)])]

def sampleSystem : Value :=
  .obj [("apiVersion", .str "v1"), ("kind", .str "Namespace"),
    ("metadata", .obj [("name", .str "kube-system"), ("uid", .str "k"),
      ("resourceVersion", .str "1")])]

def holdCaller (held : Value) : Prog Call CallAnswer Unit := do
  let r ← Prog.perform (Call.get sampleKey (.unstructured Resource.kovaBuild.gvk) 0)
  match (r : Except StageErr Object) with
  | .ok _ => do
    let _ ← Prog.perform (Call.update (.unstructured held) 0)
    pure ()
  | .error _ => pure ()

def sampleAnswer (old : Value) (_ : History) : (q : Wire) → WireAnswer q
  | .ctxErr => false
  | .journal .. => true
  | .http .get path _ _ => WireOutcome.ok (if path == samplePath then old else sampleSystem)
  | .http .. => WireOutcome.ok .null
  | .issued .. | .returned _ => ()

/-- The caller reads the build with these finalizers and holds it. -/
def holdRun (old held : Value) : History :=
  ((sampleTransport.interpret (holdCaller held) {}).play (sampleAnswer old) []).1

def httpOf : Event Wire WireAnswer → Option (Method × String × String × Body × WireOutcome)
  | ⟨.http method path contentType body, r⟩ => some (method, path, contentType, body, r)
  | _ => none

theorem holdRun_plays {old held : Value} {n : Nat} {method : Method} {path contentType : String}
    {body : Body} {r : WireOutcome}
    (h : (holdRun old held)[n]?.bind httpOf = some (method, path, contentType, body, r)) :
    (sampleTransport.interpret (holdCaller held) {}).Plays ((holdRun old held).take n ++
      [⟨.http method path contentType body, r⟩]) := by
  obtain ⟨e, he, hhttp⟩ := Option.bind_eq_some_iff.mp h
  obtain ⟨tr, htr, hend⟩ := Prog.ends_play (sampleAnswer old)
    (sampleTransport.interpret (holdCaller held) {}) []
  have hrun : holdRun old held = tr := htr
  have htake : (holdRun old held).take (n + 1) = (holdRun old held).take n ++ [e] := by
    rw [List.take_add_one, he]
    rfl
  have hplays : (sampleTransport.interpret (holdCaller held) {}).Plays
      ((holdRun old held).take n ++ [e]) := by
    have hfull := hend.plays
    rw [← List.take_append_drop (n + 1) tr] at hfull
    exact htake ▸ hrun ▸ hfull.of_append
  unfold httpOf at hhttp
  split at hhttp <;> cases hhttp
  exact hplays

def oddBuild : Value := sampleBuild (.arr [.str "example.com/other", .bool true])

def plainBuild : Value := sampleBuild (.arr [.str "example.com/other"])

def heldBuild : Value := setFinalizers plainBuild ["example.com/other", recoveryHold]

end KovaService.Stage
