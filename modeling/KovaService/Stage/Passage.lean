import KovaService.Drain.Inventory
import KovaService.Stage.Containment

/-!
The drain over the transport of its stage: every Create and Update it issues passes the allow-list.

The drain updates an object it has read, and reads nothing else at that address in between.
-/

namespace KovaService.Stage

open Lib Lib.Json Lib.Unstructured Drain Exec

variable {t : Kind × String} {o : Occupant} {h : History} {item : Target} {v : Value} {q : Request}

theorem hexText_bytes (k n : Nat) : (String.ofList (hexText k n)).utf8ByteSize = k := by
  induction k generalizing n with
  | zero => rfl
  | succ k ih =>
    rw [hexText, String.ofList_append, String.utf8ByteSize_append, ih, (digitChar_dns n).2.2]

theorem splitDots_single {cs : List Char} (h : '.' ∉ cs) : Api.splitDots cs = [cs] := by
  induction cs with
  | nil => rfl
  | cons c cs ih =>
    simp only [List.mem_cons, not_or] at h
    have hc : (c == '.') = false := by simpa using Ne.symm h.1
    simp [Api.splitDots, ih h.2, hc]

theorem attemptName_subdomain (T : Tools) (e : EpochIdentity) (kind : Kind) (name : String) :
    Api.isDNS1123Subdomain (occupancyAttemptName T e kind name) := by
  have hchars := attemptName_chars T e kind name
  have hdots : '.' ∉ (occupancyAttemptName T e kind name).toList :=
    fun hc => absurd (hchars _ hc) (by decide)
  have hbytes : (occupancyAttemptName T e kind name).utf8ByteSize ≤ 253 := by
    rw [occupancyAttemptName, String.utf8ByteSize_append, hexText_bytes]
    decide
  simp only [Api.isDNS1123Subdomain, splitDots_single hdots, hbytes, decide_true, Bool.true_and,
    List.all_cons, List.all_nil, Bool.and_true, Api.isDNSLabel, Bool.and_eq_true, bne_iff_ne,
    List.all_eq_true]
  refine ⟨⟨⟨?_, hchars⟩, ?_⟩, ?_⟩
  all_goals
    simp only [occupancyAttemptName, String.toList_append, String.toList_ofList]
  · exact List.append_ne_nil_of_left_ne_nil (by decide) _
  · intro h
    rw [List.head?_append_of_ne_nil _ (by decide)] at h
    exact absurd h (by decide)
  · rw [hexText, ← List.append_assoc, List.getLast?_concat]
    exact fun h => (digitChar_dns _).2.1 (Option.some.inj h)

abbrev CallAnswer (call : Call) : Type := Except StageErr (Reply call)

namespace Object

def namespace? : Object → Option Namespace
  | .namespace_ n => some n
  | _ => none

def configMap? : Object → Option ConfigMap
  | .configMap cm => some cm
  | _ => none

def kovaBuild? : Object → Option KovaBuild
  | .kovaBuild b => some b
  | _ => none

def pod? : Object → Option Pod
  | .pod p => some p
  | _ => none

end Object

def ListResult.configMaps? : ListResult → Option ConfigMapList
  | .configMaps l => some l
  | .unstructured _ => none

section

variable (text : StageErr → String)

def apiErr (e : StageErr) : ApiErr := { notFound := e == .notFound, text := text e }

/-- The answer of a call as the drain has it, which passes in a variable of that type. -/
def answerAs {ρ α : Type} (read : ρ → Option α) : Except StageErr ρ → Except ApiErr α
  | .error e => .error (apiErr text e)
  | .ok r =>
    match read r with
    | some a => .ok a
    | none => .error (apiErr text .stopped)

/-- `DirectAPI` served by the transport; `text` are the texts of its errors. -/
def drainCall : (q : Request) → Prog Call CallAnswer (Answer q)
  | .getNamespace name => do
    let r ← Prog.perform (Call.get { name := name } .namespace_ 0)
    pure (answerAs text Object.namespace? r)
  | .getConfigMap key => do
    let r ← Prog.perform (Call.get key .configMap 0)
    pure (answerAs text Object.configMap? r)
  | .listConfigMaps ns limit => do
    let r ← Prog.perform (Call.list .configMapList { namespaceName := ns, limit := limit })
    pure (answerAs text ListResult.configMaps? r)
  | .getBuild key => do
    let r ← Prog.perform (Call.get key .kovaBuild 0)
    pure (answerAs text Object.kovaBuild? r)
  | .getPod key => do
    let r ← Prog.perform (Call.get key .pod 0)
    pure (answerAs text Object.pod? r)
  | .createConfigMap cm => do
    let r ← Prog.perform (Call.create (.configMap cm) 0)
    pure (answerAs text Object.configMap? r)
  | .createBuild b => do
    let r ← Prog.perform (Call.create (.kovaBuild b) 0)
    pure (answerAs text Object.kovaBuild? r)
  | .createPod p => do
    let r ← Prog.perform (Call.create (.pod p) 0)
    pure (answerAs text Object.pod? r)
  | .updateBuild b => do
    let r ← Prog.perform (Call.update (.kovaBuild b) 0)
    pure (answerAs text Object.kovaBuild? r)
  | .updatePod p => do
    let r ← Prog.perform (Call.update (.pod p) 0)
    pure (answerAs text Object.pod? r)
  | .returned .. => pure ()

def overStage {α : Type} : Prog Request Answer α → Prog Call CallAnswer α
  | .ret a => .ret a
  | .call q k => drainCall text q >>= fun r => overStage (k r)

end

variable {options : Nat}

namespace Transport

variable {s : State}

/-- Every object that a GET has answered has finalizers that can be read. -/
def Legible (h : History) : Prop :=
  ∀ path contentType body v,
    (⟨.http .get path contentType body, WireOutcome.ok v⟩ : Event Wire WireAnswer) ∈ h →
    (finalizersOf v).isSome

theorem Legible.front {h' : History} (hl : Legible (h ++ h')) : Legible h :=
  fun path contentType body v hv => hl path contentType body v (List.mem_append_left _ hv)

def Passing (h : History) : Wire → Prop
  | .issued _ b => Legible h → b = true
  | _ => True

/-- Once an object could not be read nothing is asked of the rest. -/
theorem guarded_illegible {α : Type} (p : Prog Wire WireAnswer α) (hl : ¬ Legible h)
    {Post : α → Prop} : Prog.Guarded Passing p h fun h' a => Legible h' → Post a := by
  induction p generalizing h with
  | ret a => exact fun h' => absurd h' hl
  | call q k ih =>
    refine ⟨?_, fun r => ih r fun h' => hl h'.front⟩
    cases q <;> first | trivial | exact fun h' => absurd h' hl

variable {x : Transport}

theorem wire_quiet {method : Method} {path contentType : String} {body : Body} :
    Runs Passing (x.wire method path contentType body) h s fun r h' s' =>
      s'.observed = s.observed ∧
      ∀ v, r = .ok v → method = .get → Legible h' → (finalizersOf v).isSome := by
  unfold wire
  refine runs_get ?_
  split_ifs
  · exact runs_stop ⟨rfl, by simp⟩
  refine runs_request trivial fun (done : Bool) => ?_
  split_ifs
  · exact runs_stop ⟨rfl, by simp⟩
  refine runs_request trivial fun (saved : Bool) => ?_
  split_ifs
  · exact runs_stop ⟨rfl, by simp⟩
  refine runs_modify (runs_request trivial fun (r : WireOutcome) => ?_)
  cases r with
  | ok v =>
    refine runs_pure ⟨rfl, fun v' hv hm hl => ?_⟩
    cases hv
    subst hm
    exact hl path contentType body v (List.mem_append_right _ (List.mem_singleton_self _))
  | notFound => exact runs_throw ⟨rfl, by simp⟩
  | alreadyExists => exact runs_throw ⟨rfl, by simp⟩
  | unknown => exact runs_stop ⟨rfl, by simp⟩

/-- A `Get` changes what is observed at its own address only, to the object it returns. -/
structure Fetched (x : Transport) (key : Key) (out : OutType) (s : State)
    (r : Except StageErr Object) (s' : State) : Prop where
  frame : ∀ path, (∀ res, out.resource = some res → stageAddress res key ≠ some path) →
    s'.observed path = s.observed path
  got : ∀ o, r = .ok o → ∃ res path uid u, out.resource = some res ∧
    stageAddress res key = some path ∧ s'.observed path = some u ∧
    accepted x.codec u res key uid out = some o ∧ (finalizersOf u).isSome

theorem getObject_fetched {key : Key} {out : OutType} :
    Runs Passing (x.getObject key out options) h s fun r h' s' =>
      Legible h' → Fetched x key out s r s' := by
  unfold getObject
  cases hr : x.readable key out options with
  | none => exact runs_stop fun _ => ⟨fun _ _ => rfl, by simp⟩
  | some a =>
    obtain ⟨r, path, uid⟩ := a
    obtain ⟨hres, haddr, -⟩ := readable_lookup hr
    refine runs_bind wire_quiet ?_ fun e h' s' ho _ => ⟨fun p _ => by rw [ho.1], by simp⟩
    rintro u h' s' ⟨ho, hu⟩
    cases ha : accepted x.codec u r key uid out with
    | none => exact runs_stop fun _ => ⟨fun p _ => by rw [← ho], by simp⟩
    | some o =>
      refine runs_modify (runs_pure fun hl => ⟨fun p hp => ?_, fun o' ho' => ?_⟩)
      · rw [← ho]
        refine Function.update_of_ne ?_ _ _
        rintro rfl
        exact hp r hres haddr
      · cases ho'
        exact ⟨r, path, uid, u, hres, haddr, Function.update_self .., ha, hu u rfl rfl hl⟩

theorem guardSystem_quiet : Runs Passing x.guardSystem h s fun _ _ _ => True := by
  refine runs_attempt getObject_fetched fun r h' s' _ => ?_
  split_ifs
  · exact runs_pure trivial
  · exact runs_stop trivial

theorem listObjects_quiet {out : ListType} {o : ListOptions} :
    Runs Passing (x.listObjects out o) h s fun _ _ s' => s'.observed = s.observed := by
  unfold listObjects
  cases x.listable out o with
  | none => exact runs_stop rfl
  | some a =>
    refine runs_bind wire_quiet (fun u h' s' ho => ?_) fun e h' s' ho => ho.1
    cases x.acceptedList u out a.1 o with
    | none => exact runs_stop ho.1
    | some l => exact runs_pure ho.1

theorem createObject_quiet {obj : Object} :
    Runs Passing (x.createObject obj options) h s fun _ _ _ => True := by
  unfold createObject
  cases x.createAdmitted obj options with
  | none => exact runs_stop trivial
  | some a =>
    refine runs_bind guardSystem_quiet (fun _ h' s' _ => ?_) fun _ _ _ _ => trivial
    refine runs_bind wire_quiet (fun u h' s' _ => ?_) fun _ _ _ _ => trivial
    cases x.acceptedCreate u a.1 obj with
    | none => exact runs_stop trivial
    | some o => exact runs_modify (runs_pure trivial)

theorem updateObject_quiet {obj : Object} :
    Runs Passing (x.updateObject obj options) h s fun _ _ _ => True := by
  unfold updateObject
  refine runs_get ?_
  cases x.updateAdmitted s.observed obj options with
  | none => exact runs_stop trivial
  | some a =>
    refine runs_bind guardSystem_quiet (fun _ h' s' _ => ?_) fun _ _ _ _ => trivial
    refine runs_bind wire_quiet (fun u h' s' _ => ?_) fun _ _ _ _ => trivial
    cases x.acceptedUpdate u a.1 obj a.2.2 with
    | none => exact runs_stop trivial
    | some o => exact runs_modify (runs_pure trivial)

/-- What the state after a call and its answer say of the state before. -/
def Effect (x : Transport) (s : State) : (call : Call) → CallAnswer call → State → Prop
  | .get key out _, r, s' => Fetched x key out s r s'
  | .list .., _, s' => s'.observed = s.observed
  | _, _, _ => True

theorem serve_effect (call : Call) :
    Runs Passing (x.serve call) h s fun r h' s' => Legible h' → Effect x s call r s' := by
  cases call with
  | get key out options => exact getObject_fetched
  | list out o => exact listObjects_quiet.mono fun _ _ _ ho _ => ho
  | create obj options => exact createObject_quiet.mono fun _ _ _ _ _ => trivial
  | update obj options => exact updateObject_quiet.mono fun _ _ _ _ _ => trivial

theorem handle_effect {call : Call} (hp : x.passes s call) :
    Prog.Guarded Passing (x.handle s call) h fun h' r =>
      Legible h' → Effect x s call r.1 r.2 := by
  refine Prog.guarded_bind.mpr ⟨fun _ => hp, fun _ => Prog.guarded_bind.mpr ?_⟩
  exact Prog.Guarded.mono (serve_effect call) fun h' r he => ⟨trivial, fun _ hl => he hl.front⟩

theorem interpret_bind {G : History → Wire → Prop} {α β : Type} {p : Prog Call CallAnswer α}
    {f : α → Prog Call CallAnswer β} {Post : History → β × State → Prop}
    (hp : Prog.Guarded G (x.interpret p s) h fun h' r =>
      Prog.Guarded G (x.interpret (f r.1) r.2) h' Post) :
    Prog.Guarded G (x.interpret (p >>= f) s) h Post := by
  induction p generalizing h s with
  | ret a => exact hp
  | call c k ih =>
    exact Prog.guarded_bind.mpr ((Prog.guarded_bind.mp hp).mono fun h' r hr => ih r.1 hr)

end Transport

section

variable (x : Transport) (text : StageErr → String)

/-- From this state every call of the program passes, and it ends with `Post`, as long as what is read
on the way is legible. -/
def Walks {α : Type} : Prog Request Answer α → State → (α → State → Prop) → Prop
  | .ret a, s, Post => Post a s
  | .call q k, s, Post => ∀ h, Prog.Guarded Transport.Passing (x.interpret (drainCall text q) s) h
      fun h' r => Transport.Legible h' → Walks (k r.1) r.2 Post

/-- For a fallible program nothing is said of a failure. -/
def WalksE {α : Type} (p : D α) (s : State) (Post : α → State → Prop) : Prop :=
  Walks x text p.run s fun r s' => ∀ a, r = .ok a → Post a s'

end

variable {x : Transport} {text : StageErr → String} {α β : Type} {s : State}
variable {Post : α → State → Prop} {p : Prog Request Answer α}

theorem Walks.guarded (hp : Walks x text p s Post) (h : History) :
    Prog.Guarded Transport.Passing (x.interpret (overStage text p) s) h fun h' r =>
      Transport.Legible h' → Post r.1 r.2 := by
  induction p generalizing h s with
  | ret a => exact fun _ => hp
  | call q k ih =>
    refine Transport.interpret_bind ((hp h).mono fun h' r hr => ?_)
    by_cases hl : Transport.Legible h'
    · exact ih r.1 (hr hl) h'
    · exact Transport.guarded_illegible _ hl

theorem walks_bind {f : α → Prog Request Answer β} {Post : β → State → Prop}
    (hp : Walks x text p s fun a s' => Walks x text (f a) s' Post) :
    Walks x text (p >>= f) s Post := by
  induction p generalizing s with
  | ret a => exact hp
  | call q k ih => exact fun h => (hp h).mono fun h' r hr hl => ih r.1 (hr hl)

theorem Walks.mono {Post' : α → State → Prop} (hp : Walks x text p s Post)
    (hP : ∀ a s', Post a s' → Post' a s') :
    Walks x text p s Post' := by
  induction p generalizing s with
  | ret a => exact hP a s hp
  | call q k ih => exact fun h => (hp h).mono fun h' r hr hl => ih r.1 (hr hl)

variable {Mid : α → State → Prop}

theorem WalksE.bind {p : D α} {f : α → D β} {Post : β → State → Prop} (hp : WalksE x text p s Mid)
    (hf : ∀ a s', Mid a s' → WalksE x text (f a) s' Post) :
    WalksE x text (p >>= f) s Post := by
  unfold WalksE
  rw [Fallible.run_bind]
  refine walks_bind (Walks.mono hp fun r s' hr => ?_)
  cases r with
  | ok a => exact hf a s' (hr a rfl)
  | error e => exact fun a ha => by cases ha

theorem WalksE.attempt {p : D α} {f : Except String α → D β} {Post : β → State → Prop}
    (hp : WalksE x text p s Mid)
    (hok : ∀ a s', Mid a s' → WalksE x text (f (.ok a)) s' Post)
    (herr : ∀ e s', WalksE x text (f (.error e)) s' Post) :
    WalksE x text (p.attempt >>= f) s Post := by
  unfold WalksE
  rw [Fallible.run_bind, Fallible.run_attempt]
  refine walks_bind (walks_bind (Walks.mono hp fun r s' hr => ?_))
  cases r with
  | ok a => exact hok a s' (hr a rfl)
  | error e => exact herr e s'

theorem walksE_pure {a : α} (hp : Post a s) :
    WalksE x text (pure a) s Post := fun _ ha => Except.ok.inj ha ▸ hp

theorem walksE_throw {e : String} : WalksE x text (throw e) s Post := fun _ ha => by cases ha

theorem walksE_failIf {c : Bool} {e : String} {Post : Unit → State → Prop}
    (hp : c = false → Post () s) : WalksE x text (Fallible.failIf c e) s Post := by
  cases c with
  | true => exact walksE_throw
  | false => exact walksE_pure (hp rfl)

theorem walksE_ofExcept (r : Except String α) :
    WalksE x text (Drain.ofExcept r) s fun _ _ => True := by
  cases r with
  | ok a => exact walksE_pure trivial
  | error e => exact walksE_throw

variable {k : Answer q → Prog Request Answer α} {c : Call}

theorem walks_call {f : CallAnswer c → Answer q}
    (hq : drainCall text q = .call c fun r => .ret (f r)) (hp : x.passes s c)
    (hk : ∀ r s', Transport.Effect x s c r s' → Walks x text (k (f r)) s' Post) :
    Walks x text (.call q k) s Post := by
  intro h
  rw [hq]
  exact Prog.guarded_bind.mpr ((Transport.handle_effect hp).mono fun h' r he hl =>
    hk r.1 r.2 (he hl))

theorem walksE_ask {f : CallAnswer c → Answer q} {Post : Answer q → State → Prop}
    (hq : drainCall text q = .call c fun r => .ret (f r)) (hp : x.passes s c)
    (hk : ∀ r s', Transport.Effect x s c r s' → Post (f r) s') :
    WalksE x text (ask q) s Post :=
  walks_call hq hp fun r s' he _ ha => Except.ok.inj ha ▸ hk r s' he

theorem walksE_passed {f : CallAnswer c → Answer q}
    (hq : drainCall text q = .call c fun r => .ret (f r)) (hp : x.passes s c) :
    WalksE x text (ask q) s fun _ _ => True :=
  walksE_ask hq hp fun _ _ _ => trivial

def asObject : Occupant → Object
  | .build b => .kovaBuild b
  | .pod p => .pod p

theorem asObject_resource (o : Occupant) :
    (asObject o).outType.resource = some (kindResource o.kind) := by
  cases o <;> rfl

theorem asObject_setFinalizers (o : Occupant) (l : List String) :
    asObject (o.setFinalizers l) = (asObject o).setFinalizers l := by
  cases o <;> rfl

theorem copied_meta {c : Codec} (h : copyStageObject c v (asObject o).outType = some (asObject o)) :
    DecodedMeta v o.metadata := by
  cases o with
  | build b =>
    obtain ⟨b', hb, he⟩ := Option.map_eq_some_iff.mp h
    cases he
    exact c.decodeBuild_meta v b hb
  | pod p =>
    obtain ⟨p', hp, he⟩ := Option.map_eq_some_iff.mp h
    cases he
    exact c.decodePod_meta v p hp

/-- The object is the one last observed at this name. -/
structure Seen (x : Transport) (e : EpochIdentity) (t : Kind × String) (o : Occupant) (s : State)
    (v : Value) : Prop where
  kind : o.kind = t.1
  observed : s.observed (targetPath e t) = some v
  copied : copyStageObject x.codec v (asObject o).outType = some (asObject o)
  namespaceName : getNamespace v = e.namespaceName
  name : getName v = t.2
  legible : (finalizersOf v).isSome

variable {e : EpochIdentity}

theorem Seen.key (h : Seen x e t o s v) : (asObject o).key =
    { namespaceName := e.namespaceName, name := t.2 } := by
  have hm := copied_meta h.copied
  have hkey : (asObject o).key = o.metadata.key := by cases o <;> rfl
  rw [hkey, ObjectMeta.key, hm.namespaceName, hm.name, h.namespaceName, h.name]

theorem answerAs_ok {ρ : Type} {read : ρ → Option α} {r : Except StageErr ρ} {a : α}
    (h : answerAs text read r = .ok a) : ∃ o, r = .ok o ∧ read o = some a := by
  unfold answerAs at h
  split at h
  · cases h
  · next o =>
    split at h
    · next a' ha =>
      cases h
      exact ⟨o, rfl, ha⟩
    · cases h

theorem fetched_seen {name : String} {s' : State}
    (h : Transport.Fetched x { namespaceName := e.namespaceName, name := name }
      (asObject o).outType s (.ok (asObject o)) s') :
    ∃ v, Seen x e (o.kind, name) o s' v := by
  obtain ⟨res, path, uid, u, hres, haddr, hobs, hacc, hl⟩ := h.got _ rfl
  obtain ⟨hq, hc⟩ := Transport.accepted_qualified hacc
  obtain ⟨hns, hname⟩ := Transport.qualified_name hq
  cases (asObject_resource o).symm.trans hres
  obtain ⟨-, ⟨hn, -⟩ | ⟨-, -, hpath⟩⟩ := stageAddress_cases haddr
  · cases o <;> cases hn
  · exact ⟨u, rfl, by rw [← hobs, hpath]; rfl, hc, hns, hname, hl⟩

theorem map_answerAs_ok {ρ : Type} {read : ρ → Option α} {f : α → β} {r : Except StageErr ρ} {b : β}
    (h : (answerAs text read r).map f = .ok b) :
    ∃ o a, r = .ok o ∧ read o = some a ∧ f a = b := by
  cases ha : answerAs text read r with
  | error e =>
    rw [ha] at h
    cases h
  | ok a =>
    rw [ha] at h
    obtain ⟨o, ho, hread⟩ := answerAs_ok ha
    exact ⟨o, a, ho, hread, Except.ok.inj h⟩

theorem getTarget_seen :
    WalksE x text (getTarget e.namespaceName item) s fun r s' =>
      ∀ o, r = .ok o → ∃ v, Seen x e (item.kind, item.name) o s' v := by
  unfold getTarget
  cases item.kind with
  | kovaBuild =>
    refine WalksE.bind (walksE_ask rfl rfl fun r s' he => ?_) fun r s' hr => walksE_pure hr
    intro o ho
    obtain ⟨obj, b, rfl, hread, rfl⟩ := map_answerAs_ok ho
    cases obj <;> cases hread
    exact fetched_seen (o := .build b) he
  | pod =>
    refine WalksE.bind (walksE_ask rfl rfl fun r s' he => ?_) fun r s' hr => walksE_pure hr
    intro o ho
    obtain ⟨obj, p, rfl, hread, rfl⟩ := map_answerAs_ok ho
    cases obj <;> cases hread
    exact fetched_seen (o := .pod p) he

theorem verified_nonempty {T : Tools} {raw digest : String} {exp : Expectation}
    {roots : List (String × String × String)}
    (h : verifyDrainPermit T raw exp roots = .ok digest) :
    exp.incidentID ≠ "" ∧ exp.epoch.namespaceUID ≠ "" := by
  unfold verifyDrainPermit at h
  split_ifs at h with hc
  simp only [Bool.or_eq_true, not_or, Bool.not_eq_true', Bool.not_eq_false,
    EpochIdentity.valid, Api.safeEffectID, Bool.and_eq_true, bne_iff_ne] at hc
  exact ⟨by tauto, by tauto⟩

/-- No two enumerated names share the name of their attempt record. -/
def NoCollision (T : Tools) (i : Drain.Input) : Prop :=
  ∀ t ∈ stageTargets i, ∀ t' ∈ stageTargets i,
    occupancyAttemptName T i.expected.epoch t.1 t.2 =
      occupancyAttemptName T i.expected.epoch t'.1 t'.2 → t = t'

section Drain

variable {T : Tools} {i : Drain.Input} (hs : DrainScope T i x.scope)

include hs

theorem target_elsewhere (ht : t ∈ stageTargets i) {res : Resource} {key : Key}
    (hres : res ≠ kindResource t.1) :
    stageAddress res key ≠ some (targetPath i.expected.epoch t) := by
  intro haddr
  have hns := segment_label hs.namespaceName
  have hname := segment_subdomain (hs.enumerates.names t ht)
  obtain ⟨hkey, ⟨-, -, hp⟩ | ⟨-, hkns, hp⟩⟩ := stageAddress_cases haddr
  · exact namespacePath_ne_objectPath hkey hns hname hp.symm
  · exact hres (objectPath_inj hns hkns hname hkey hp).1.symm

/-- What is observed at the targets stays. -/
def Frame (i : Drain.Input) (s s' : State) : Prop :=
  ∀ t ∈ stageTargets i, s'.observed (targetPath i.expected.epoch t) =
    s.observed (targetPath i.expected.epoch t)

theorem distant_frame (hq : distant q) (hk : ∀ r s', Frame i s s' → Walks x text (k r) s' Post) :
    Walks x text (.call q k) s Post := by
  have hfetched : ∀ {key out r s'} {res : Resource}, out.resource = some res →
      (∀ kind, res ≠ kindResource kind) → Transport.Fetched x key out s r s' → Frame i s s' := by
    intro key out r s' res hres hne hf t ht
    refine hf.frame _ fun res' hres' => target_elsewhere hs ht ?_
    rw [Option.some.inj (hres'.symm.trans hres)]
    exact hne t.1
  cases q with
  | getNamespace name =>
    refine walks_call rfl rfl fun r s' he => hk _ s' (hfetched rfl ?_ he)
    exact fun kind => by cases kind <;> decide
  | getConfigMap key =>
    refine walks_call rfl rfl fun r s' he => hk _ s' (hfetched rfl ?_ he)
    exact fun kind => by cases kind <;> decide
  | listConfigMaps ns limit =>
    exact walks_call rfl rfl fun r s' he => hk _ s' fun t _ => congrFun he _
  | _ => cases hq

theorem walks_distant {Post : α → Prop}
    (hp : p.Ensures (fun _ _ => True) (fun q => distant q) Post) :
    Walks x text p s fun a s' => Post a ∧ Frame i s s' := by
  induction p generalizing s with
  | ret a => exact ⟨hp, fun _ _ => rfl⟩
  | call q k ih =>
    refine distant_frame hs hp.1 fun r s' hf => ?_
    refine (ih r (hp.2 r trivial)).mono fun a s'' ha => ⟨ha.1, fun t ht => ?_⟩
    exact (ha.2 t ht).trans (hf t ht)

theorem walksE_distant {p : D α} {Post : α → Prop} (hp : Distant p Post) :
    WalksE x text p s fun a s' => Post a ∧ Frame i s s' :=
  (walks_distant hs hp).mono fun _ _ hr a ha => ⟨hr.1 a ha, hr.2⟩

theorem target_address (ht : t ∈ stageTargets i) :
    stageAddress (kindResource t.1)
      { namespaceName := i.expected.epoch.namespaceName, name := t.2 } =
      some (targetPath i.expected.epoch t) := by
  have hkind : kindResource t.1 ≠ .namespace_ := by cases t.1 <;> decide
  simp [stageAddress, hs.enumerates.names t ht, hs.namespaceName, hkind, targetPath]

theorem hold_passes (ht : t ∈ stageTargets i) (ho : Seen x i.expected.epoch t o s v)
    (hheld : o.metadata.held = false) :
    x.passes s (.update (asObject (o.setFinalizers (o.metadata.finalizers ++ [holdFinalizer]))) 0) =
      true := by
  have hm := copied_meta ho.copied
  have hfinalizers : o.metadata.finalizers = getFinalizers v := by
    obtain ⟨l, hl⟩ := Option.isSome_iff_exists.mp ho.legible
    rw [hm.finalizers l hl, getFinalizers_of_readable hl]
  have hhold : (getFinalizers v).contains recoveryHold = false := by
    rw [← hfinalizers]
    exact hheld
  have htarget : x.scope.targets.contains (targetPath i.expected.epoch t) := by
    simpa using (hs.enumerates.targets _).mpr ⟨t, ht, rfl⟩
  -- the proposed object differs from the one read in its finalizers
  obtain ⟨proposed, hp⟩ : ∃ p, p = asObject
    (o.setFinalizers (o.metadata.finalizers ++ [holdFinalizer])) := ⟨_, rfl⟩
  have hset := (asObject_setFinalizers o (o.metadata.finalizers ++ [holdFinalizer])).symm.trans
    hp.symm
  have htype : proposed.outType = (asObject o).outType := by subst hp; cases o <;> rfl
  have hkey : proposed.key = (asObject o).key := by subst hp; cases o <;> rfl
  have huid : proposed.uid = o.metadata.uid := by subst hp; cases o <;> rfl
  have hrv : proposed.resourceVersion = o.metadata.resourceVersion := by
    subst hp
    cases o <;> rfl
  have hfin : proposed.finalizers = o.metadata.finalizers ++ [holdFinalizer] := by
    subst hp
    cases o <;> rfl
  rw [← hp]
  simp only [Transport.passes, Transport.updateAdmitted, htype, asObject_resource, ho.kind, hkey,
    ho.key, target_address hs ht, ho.observed, ho.copied, htarget, hhold, huid, hrv, hfin, hset,
    bind, Option.bind]
  simp [hm.uid, hm.resourceVersion, hfinalizers, recoveryHold, holdFinalizer]

theorem attempt_data (hn : NoCollision T i) (ht : t ∈ stageTargets i) :
    x.scope.attempts.lookup (attemptPath T i.expected.epoch t) =
      some (attemptData i.expected.epoch t.1 t.2) := by
  obtain ⟨data, hd⟩ := Option.isSome_iff_exists.mp (hs.enumerates.attempted t ht)
  obtain ⟨t', ht', hp, rfl⟩ := hs.enumerates.attempts _ data hd
  rw [hd, hn t ht t' ht' ((String.append_right_inj _).mp hp)]

theorem attempt_passes (hn : NoCollision T i) (ht : t ∈ stageTargets i) :
    x.passes s (.create (.configMap (newAttempt T i.expected.epoch t.1 t.2)) 0) := by
  have haddr : stageAddress .configMap (newAttempt T i.expected.epoch t.1 t.2).metadata.key =
      some (attemptPath T i.expected.epoch t) := by
    simp [stageAddress, newAttempt, ObjectMeta.key, attemptName_subdomain, hs.namespaceName,
      attemptPath]
  have hvalid : validCreate x.scope (attemptPath T i.expected.epoch t)
      (.configMap (newAttempt T i.expected.epoch t.1 t.2)) := by
    simp only [validCreate, attempt_data hs hn ht]
    simp [newAttempt, proposedMeta, recoveryHold, holdFinalizer, attemptLabel, StringMap.size]
  simp [Transport.passes, Transport.createAdmitted, Object.outType, OutType.resource, Object.key,
    haddr, hvalid]

theorem tombstone_passes (hincident : i.expected.incidentID ≠ "")
    (hepoch : i.expected.epoch.namespaceUID ≠ "") (ht : (item.kind, item.name) ∈ stageTargets i) :
    x.passes s (.create (asObject (item.tombstone i.expected)) 0) := by
  have hkind : (item.tombstone i.expected).kind = item.kind := by
    unfold Target.tombstone
    cases item.kind <;> rfl
  have hkey : (asObject (item.tombstone i.expected)).key =
      { namespaceName := i.expected.epoch.namespaceName, name := item.name } := by
    unfold Target.tombstone
    cases item.kind <;> rfl
  have htarget : targetPath i.expected.epoch (item.kind, item.name) ∈ x.scope.targets :=
    (hs.enumerates.targets _).mpr ⟨_, ht, rfl⟩
  have hmeta : tombstoneMeta x.scope (targetPath i.expected.epoch (item.kind, item.name))
      (newMeta i.expected item.name) := by
    simp [tombstoneMeta, proposedMeta, newMeta, htarget, hs.incident, hs.epochUID, recoveryHold,
      holdFinalizer, tombstoneMarker, markerKey, markerValue, epochKey]
  have hvalid : validCreate x.scope (targetPath i.expected.epoch (item.kind, item.name))
      (asObject (item.tombstone i.expected)) := by
    unfold Target.tombstone
    cases hk : item.kind with
    | kovaBuild =>
      rw [hk] at hmeta
      simp only [asObject, validCreate, newBuildTombstone, hmeta, isInertBuildTombstone,
        Bool.true_and]
      have hincident' : (newMeta i.expected item.name).annotations.get markerKey =
        i.expected.incidentID := rfl
      have hepoch' : (newMeta i.expected item.name).annotations.get epochKey =
        i.expected.epoch.namespaceUID := rfl
      rw [hincident', hepoch', bne_iff_ne.mpr hincident, bne_iff_ne.mpr hepoch]
      rfl
    | pod =>
      rw [hk] at hmeta
      simp only [asObject, validCreate, newPodTombstone, hmeta, Bool.true_and]
      rfl
  simp only [Transport.passes, Transport.createAdmitted, asObject_resource, hkind, hkey,
    target_address hs ht, hvalid, bind, Option.bind]
  rfl

omit hs in
theorem updateTarget_walks (hp : x.passes s (.update (asObject o) 0)) :
    WalksE x text (updateTarget o) s fun _ _ => True := by
  cases o with
  | build b =>
    exact (walksE_passed rfl hp).bind fun _ _ _ => walksE_pure trivial
  | pod p =>
    exact (walksE_passed rfl hp).bind fun _ _ _ => walksE_pure trivial

omit hs in
theorem createTarget_walks (hp : x.passes s (.create (asObject o) 0)) :
    WalksE x text (createTarget o) s fun _ _ => True := by
  cases o with
  | build b =>
    exact (walksE_passed rfl hp).bind fun _ _ _ => walksE_pure trivial
  | pod p =>
    exact (walksE_passed rfl hp).bind fun _ _ _ => walksE_pure trivial

omit hs in
theorem Seen.later (ht : t ∈ stageTargets i) {s' : State} (h : Seen x i.expected.epoch t o s v)
    (hf : Frame i s s') :
    Seen x i.expected.epoch t o s' v :=
  { h with observed := (hf t ht).trans h.observed }

theorem hold_walks (ht : t ∈ stageTargets i) (ho : Seen x i.expected.epoch t o s v) :
    WalksE x text (hold T i.expected o) s fun _ _ => True := by
  unfold hold
  split_ifs with hheld
  · exact walksE_pure trivial
  refine WalksE.attempt (walksE_distant hs (qualifyStop_distant T i.expected)) ?_ ?_
  · rintro _ s' ⟨-, hf⟩
    have hp := hold_passes hs ht (ho.later ht hf) (by simpa using hheld)
    refine (updateTarget_walks hp).bind fun r s'' _ => ?_
    cases r with
    | error e => exact walksE_throw
    | ok o => exact walksE_pure trivial
  · exact fun e s' => walksE_throw

omit hs in
theorem readHeld_walks {tombstone : Bool} {uid : String} :
    WalksE x text (readHeld T i.expected item tombstone uid) s fun _ _ => True := by
  refine getTarget_seen.bind fun r s' _ => ?_
  cases r with
  | error e => exact walksE_throw
  | ok readback =>
    refine WalksE.bind (walksE_failIf fun _ => trivial) fun _ _ (_ : True) => ?_
    refine WalksE.bind (walksE_ofExcept _) fun _ _ _ => walksE_pure trivial

theorem retain_walks (ht : (item.kind, item.name) ∈ stageTargets i)
    (ho : Seen x i.expected.epoch (item.kind, item.name) o s v) :
    WalksE x text (retain T i.expected item o) s fun _ _ => True := by
  refine (walksE_distant hs distant_failIf).bind fun _ s₁ h₁ => ?_
  refine (walksE_distant hs (distant_ofExcept _)).bind fun _ s₂ h₂ => ?_
  refine (hold_walks hs ht ((ho.later ht h₁.2).later ht h₂.2)).bind fun o' s₃ _ => ?_
  refine readHeld_walks.bind fun readback s₄ _ => ?_
  refine WalksE.attempt (walksE_distant hs (qualifyStop_distant T i.expected)) ?_ ?_
  · exact fun _ _ _ => walksE_pure trivial
  · exact fun _ _ => walksE_throw

theorem recordAttemptOnce_walks (hn : NoCollision T i)
    (ht : (item.kind, item.name) ∈ stageTargets i) :
    WalksE x text (recordAttemptOnce T i.expected item) s fun _ _ => True := by
  refine (walksE_passed rfl rfl).bind fun existing s₁ _ => ?_
  cases existing with
  | ok existing =>
    exact (walksE_distant hs distant_failIf).bind fun _ _ _ => walksE_pure trivial
  | error e =>
    refine (walksE_distant hs distant_failIf).bind fun _ s₂ _ => ?_
    refine WalksE.attempt (walksE_distant hs (qualifyStop_distant T i.expected)) ?_ ?_
    · intro _ s₃ _
      refine (walksE_passed rfl (attempt_passes hs hn ht)).bind fun created s₄ _ => ?_
      refine (walksE_passed rfl rfl).bind fun observed s₅ _ => ?_
      exact (walksE_distant hs distant_failIf).bind fun _ _ _ => walksE_pure trivial
    · exact fun _ _ => walksE_throw

theorem createTombstone_walks (hincident : i.expected.incidentID ≠ "")
    (hepoch : i.expected.epoch.namespaceUID ≠ "") (ht : (item.kind, item.name) ∈ stageTargets i) :
    WalksE x text (createTombstone T i.expected item) s fun o s' =>
      ∃ v, Seen x i.expected.epoch (item.kind, item.name) o s' v := by
  refine WalksE.attempt (walksE_distant hs (qualifyStop_distant T i.expected)) ?_ ?_
  · intro _ s₁ _
    refine (createTarget_walks (tombstone_passes hs hincident hepoch ht)).bind fun created s₂ _ => ?_
    refine getTarget_seen.bind fun r s₃ hr => ?_
    cases r with
    | error e => exact walksE_throw
    | ok observed =>
      cases created with
      | error e => exact walksE_pure (hr observed rfl)
      | ok proposed =>
        obtain ⟨v, hv⟩ := hr observed rfl
        refine (walksE_distant hs distant_failIf).bind fun _ s₄ h₄ => ?_
        refine (walksE_distant hs distant_failIf).bind fun _ s₅ h₅ => ?_
        exact walksE_pure ⟨v, (hv.later ht h₄.2).later ht h₅.2⟩
  · exact fun _ _ => walksE_throw

theorem occupy_walks (hn : NoCollision T i) (hincident : i.expected.incidentID ≠ "")
    (hepoch : i.expected.epoch.namespaceUID ≠ "") (ht : (item.kind, item.name) ∈ stageTargets i) :
    WalksE x text (occupy T i.expected item) s fun _ _ => True := by
  refine getTarget_seen.bind fun r s₁ hr => ?_
  cases r with
  | ok observed =>
    obtain ⟨v, hv⟩ := hr observed rfl
    exact retain_walks hs ht hv
  | error e =>
    refine (walksE_distant hs distant_failIf).bind fun _ s₂ _ => ?_
    refine (recordAttemptOnce_walks hs hn ht).bind fun created s₃ _ => ?_
    refine (walksE_distant hs distant_failIf).bind fun _ s₄ _ => ?_
    refine (createTombstone_walks hs hincident hepoch ht).bind fun observed s₅ hseen => ?_
    obtain ⟨v, hv⟩ := hseen
    exact retain_walks hs ht hv

theorem occupyAll_walks (hn : NoCollision T i) (hincident : i.expected.incidentID ≠ "")
    (hepoch : i.expected.epoch.namespaceUID ≠ "") {targets : List Target}
    (ht : NamedIn (stageTargets i) targets) (done : List Disposition) :
    Walks x text (occupyAll T i.expected targets done) s fun _ _ => True := by
  induction targets generalizing s done with
  | nil => trivial
  | cons item rest ih =>
    refine walks_bind (Walks.mono
      (occupy_walks hs hn hincident hepoch (ht item List.mem_cons_self)) fun r s' _ => ?_)
    cases r with
    | error e => trivial
    | ok d => exact ih (fun t h => ht t (List.mem_cons_of_mem _ h)) _

/-- Every Create and Update of the drain passes. -/
theorem drain_walks (hn : NoCollision T i) : Walks x text (drain T i) s fun _ _ => True := by
  unfold drain
  split_ifs
  · trivial
  cases hpermit : verifyDrainPermit T i.permit i.expected i.trustRoots with
  | error e => trivial
  | ok digest =>
    obtain ⟨hincident, hepoch⟩ := verified_nonempty hpermit
    refine walks_bind (Walks.mono (walksE_distant hs (preflight_distant T i)) fun r s₁ hr => ?_)
    cases r with
    | error e => trivial
    | ok targets =>
      have ht := linkTargets_named (hr targets rfl).1.linked
      refine walks_bind ((occupyAll_walks hs hn hincident hepoch ht []).mono fun r s₂ _ => ?_)
      obtain ⟨dispositions, err⟩ := r
      cases err with
      | some e => trivial
      | none =>
        refine walks_bind (Walks.mono
          (walksE_distant hs (qualifyStop_distant T i.expected)) fun r _ _ => ?_)
        cases r with
        | error e => trivial
        | ok u => trivial

end Drain

end KovaService.Stage
