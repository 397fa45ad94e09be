import KovaService.Stage.Transport
import KovaService.Stage.Addresses

/-!
A monitor of the wire of a recovery stage.

`View` is what an observer of the wire knows: the call in progress, the object last answered at each
address, the requests sent, and whether an answer was unknown or failed its qualification.  The
state of the transport agrees with it until the transport is poisoned.
-/

namespace KovaService.Stage

open Lib Lib.Json Lib.Unstructured Drain Exec

variable {s : State} {options : Nat} {r : Resource} {obj : Object} {path : String}

abbrev History : Type := List (Lib.Event Wire WireAnswer)

structure View where
  call : Option Call := none
  observed : String → Option Value := fun _ => none
  sent : Nat := 0
  poisoned : Bool := false

variable {key : Key} {out : OutType} {α : Type} {uid : String} {o : ListOptions} {h' : History}

namespace Transport

variable (x : Transport) {h : History}

/-- The answer passes the checks of the call it belongs to. -/
def qualifies (w : View) (method : Method) (path : String) (v : Value) : Bool :=
  match method, w.call with
  | .get, some (.get key out _) =>
    (do
      let r ← out.resource
      let uid ← x.scope.reads.lookup path
      accepted x.codec v r key uid out).isSome
  | .get, some (.list out o) =>
    (do
      let r ← out.resource
      x.acceptedList v out r o).isSome
  -- a Create or an Update first reads the system namespace
  | .get, some _ =>
    match x.scope.reads.lookup path with
    | some uid =>
      match accepted x.codec v .namespace_ { name := "kube-system" } uid .namespace_ with
      | some o => systemActive (.ok o)
      | none => false
    | none => false
  | .post, some (.create obj _) =>
    (do
      let r ← obj.outType.resource
      x.acceptedCreate v r obj).isSome
  | .patch, some (.update obj _) =>
    (do
      let r ← obj.outType.resource
      let old ← w.observed path
      x.acceptedUpdate v r obj old).isSome
  | _, _ => false

def answeredAt (method : Method) (path : String) (v : Value) : String :=
  match method with
  | .post => path ++ "/" ++ getName v
  | _ => path

def see (w : View) : Lib.Event Wire WireAnswer → View
  | ⟨.issued call _, _⟩ => { w with call := some call }
  | ⟨.returned err, _⟩ => { w with poisoned := w.poisoned || err == some .stopped }
  | ⟨.http method path _ _, r⟩ =>
    match (r : WireOutcome) with
    | .ok v =>
      { w with
        sent := w.sent + 1
        poisoned := w.poisoned || !x.qualifies w method path v
        observed := Function.update w.observed (answeredAt method path v) (some v) }
    | .unknown => { w with sent := w.sent + 1, poisoned := true }
    | _ => { w with sent := w.sent + 1 }
  | _ => w

def view (h : History) : View := h.foldl x.see {}

theorem view_concat (h : History) (e : Lib.Event Wire WireAnswer) :
    x.view (h ++ [e]) = x.see (x.view h) e := by
  unfold view
  rw [List.foldl_append]
  rfl

/-- The state agrees with the view, unless the transport is poisoned. -/
structure Agrees (h : History) (s : State) : Prop where
  calls : s.calls = (x.view h).sent
  poisoned : (x.view h).poisoned → s.failed
  observed : s.failed = false → ∀ path, '?' ∉ path.toList →
    s.observed path = (x.view h).observed path

theorem agrees_of_failed (hs : s.failed) (hc : s.calls = (x.view h).sent) : x.Agrees h s :=
  ⟨hc, fun _ => hs, fun hf => absurd (hs.symm.trans hf) (by decide)⟩

theorem Agrees.counted {x : Transport} (hi : x.Agrees h s)
    (hv : x.view h' = { x.view h with sent := (x.view h).sent + 1 }) :
    x.Agrees h' { s with calls := s.calls + 1 } where
  calls := by rw [hv, hi.calls]
  poisoned := by
    rw [hv]
    exact hi.poisoned
  observed := by
    rw [hv]
    exact hi.observed

/-- A qualified answer, once the state has observed it too; nothing is kept of a list. -/
theorem Agrees.answered {x : Transport} {s' : State} (hi : x.Agrees h s) {address : String}
    {v : Value} {q : Bool} (hf : s.failed = false)
    (hc : s'.calls = (x.view h).sent + 1) (hw : x.view h' =
      { x.view h with
        sent := (x.view h).sent + 1
        poisoned := !q
        observed := Function.update (x.view h).observed address (some v) })
    (hq : q)
    (ho : ∀ path, '?' ∉ path.toList →
      s'.observed path = Function.update s.observed address (some v) path) :
    x.Agrees h' s' where
  calls := by rw [hw, hc]
  poisoned := by
    rw [hw, hq]
    exact fun hp => absurd hp (by simp)
  observed := by
    intro _ path hpath
    rw [hw, ho path hpath]
    by_cases hp : path = address
    · simp [hp]
    · simpa [hp] using hi.observed hf path hpath

/-- What a request needs when it is sent; a mutation also needs `Allowed` of the view. -/
def Rule (Allowed : View → Method → String → Body → Prop) (h : History) : Wire → Prop
  | .http method path _ body =>
    h.getLast? = some ⟨.journal method path (x.codec.bodyDigest body), true⟩ ∧
      ((x.view h).sent : Int) < x.maxCalls ∧ (x.view h).poisoned = false ∧
      (method ≠ .get → Allowed (x.view h) method path body)
  | _ => True

variable {x} {Allowed : View → Method → String → Body → Prop}

/-- A part of a call keeps the agreement and the call, and `stopped` is the error of poison. -/
def Kept (x : Transport) (call : Option Call) (r : Except StageErr α) (h : History) (s : State) :
    Prop :=
  x.Agrees h s ∧ (x.view h).call = call ∧ (errorOf r = some .stopped → s.failed)

theorem runs_stop {G : History → Wire → Prop} {Post : Except StageErr α → History → State → Prop}
    (hp : Post (.error .stopped) h { s with failed := true }) :
    Runs G (stop : A α) h s Post := hp

theorem kept_stopped {call : Option Call} (hc : s.calls = (x.view h).sent)
    (hcall : (x.view h).call = call) :
    Kept x call (.error .stopped : Except StageErr α) h { s with failed := true } :=
  ⟨x.agrees_of_failed rfl hc, hcall, fun _ => rfl⟩

/-- After a request: an answered object is in the view and not yet in the state. -/
inductive Wired (x : Transport) (method : Method) (path : String) (w : View) (s : State) :
    Except StageErr Value → History → State → Prop
  | ok {v : Value} {h' : History} {s' : State} (hf : s.failed = false) (hf' : s'.failed = false)
      (hc : s'.calls = w.sent + 1) (ho : s'.observed = s.observed)
      (hw : x.view h' =
        { w with
          sent := w.sent + 1
          poisoned := !x.qualifies w method path v
          observed := Function.update w.observed (answeredAt method path v) (some v) }) :
      Wired x method path w s (.ok v) h' s'
  | error {e : StageErr} {h' : History} {s' : State}
      (hk : Kept x w.call (.error e : Except StageErr Value) h' s') :
      Wired x method path w s (.error e) h' s'

theorem wire_runs {method : Method} {contentType : String} {body : Body} (hi : x.Agrees h s)
    (ha : s.failed = false → method ≠ .get → Allowed (x.view h) method path body) :
    Runs (x.Rule Allowed) (x.wire method path contentType body) h s
      (Wired x method path (x.view h) s) := by
  -- up to the request the view does not change
  have hstop : ∀ h', x.view h' = x.view h →
      Wired x method path (x.view h) s (.error .stopped) h' { s with failed := true } :=
    fun h' hh => .error (kept_stopped (hi.calls.trans (by rw [hh])) (by rw [hh]))
  unfold wire
  refine runs_get ?_
  split_ifs with hf
  · exact runs_stop (hstop h rfl)
  rw [Bool.not_eq_true] at hf
  have hclean : (x.view h).poisoned = false := by
    rw [← Bool.not_eq_true]
    exact fun hp => absurd (hf.symm.trans (hi.poisoned hp)) (by decide)
  refine runs_request trivial fun (done : Bool) => ?_
  have hdone : x.view (h ++ [⟨.ctxErr, done⟩]) = x.view h := x.view_concat h _
  split_ifs with hc
  · exact runs_stop (hstop _ hdone)
  refine runs_request trivial fun (saved : Bool) => ?_
  have hsaved : x.view (h ++ [⟨.ctxErr, done⟩] ++
      [⟨.journal method path (x.codec.bodyDigest body), saved⟩]) = x.view h :=
    (x.view_concat _ _).trans hdone
  split_ifs with hs
  · exact runs_stop (hstop _ hsaved)
  simp only [Bool.or_eq_true, decide_eq_true_eq, not_or, not_le, gt_iff_lt] at hc
  rw [Bool.not_eq_true, Bool.not_eq_false'] at hs
  refine runs_modify (runs_request ⟨?_, ?_, ?_, ?_⟩ fun (r : WireOutcome) => ?_)
  · rw [List.getLast?_concat, hs]
  · rw [hsaved, ← hi.calls]
    exact hc.1.2
  · rw [hsaved, hclean]
  · rw [hsaved]
    exact ha hf
  have hview := (x.view_concat _ ⟨.http method path contentType body, r⟩).trans
    (congrArg (x.see · _) hsaved)
  cases r with
  | ok v =>
    refine runs_pure (.ok hf hf (by rw [hi.calls]) rfl ?_)
    rw [hview]
    simp [see, hclean]
  | notFound =>
    exact runs_throw (.error ⟨hi.counted hview, by rw [hview]; rfl, by simp [errorOf]⟩)
  | alreadyExists =>
    exact runs_throw (.error ⟨hi.counted hview, by rw [hview]; rfl, by simp [errorOf]⟩)
  | unknown =>
    refine runs_stop (.error (kept_stopped ?_ ?_))
    · rw [hview, hi.calls]
      rfl
    · rw [hview]
      rfl

/-- After `Get`: the answer is qualified as an object, and the state has observed it. -/
inductive Got (x : Transport) (key : Key) (out : OutType) (options : Nat) (w : View) (s : State) :
    Except StageErr Object → History → State → Prop
  | ok {r : Resource} {path uid : String} {u : Value} {o : Object} {h' : History} {s' : State}
      (hr : x.readable key out options = some (r, path, uid))
      (ha : accepted x.codec u r key uid out = some o) (hf : s.failed = false)
      (hf' : s'.failed = false) (hc : s'.calls = w.sent + 1)
      (ho : s'.observed = Function.update s.observed path (some u))
      (hw : x.view h' =
        { w with
          sent := w.sent + 1
          poisoned := !x.qualifies w .get path u
          observed := Function.update w.observed path (some u) }) :
      Got x key out options w s (.ok o) h' s'
  | error {e : StageErr} {h' : History} {s' : State}
      (hk : Kept x w.call (.error e : Except StageErr Object) h' s') :
      Got x key out options w s (.error e) h' s'

theorem getObject_got (hi : x.Agrees h s) :
    Runs (x.Rule Allowed) (x.getObject key out options) h s
      (Got x key out options (x.view h) s) := by
  unfold getObject
  cases hr : x.readable key out options with
  | none => exact runs_stop (.error (kept_stopped hi.calls rfl))
  | some a =>
    obtain ⟨r, path, uid⟩ := a
    refine runs_bind (wire_runs hi fun _ hm => absurd rfl hm) ?_ ?_
    · intro u h' s' hwired
      cases hwired with
      | ok hf hf' hc ho hw =>
        cases ha : accepted x.codec u r key uid out with
        | none => exact runs_stop (.error (kept_stopped (by rw [hc, hw]) (by rw [hw])))
        | some o => exact runs_modify (runs_pure (.ok hr ha hf hf' hc (by rw [ho]) hw))
    · intro e h' s' hwired
      cases hwired with
      | error hk => exact .error hk

theorem readable_lookup (h : x.readable key out options = some (r, path, uid)) :
    out.resource = some r ∧ stageAddress r key = some path ∧
      x.scope.reads.lookup path = some uid := by
  unfold readable at h
  split_ifs at h
  simp only [Option.bind_eq_bind, Option.bind_eq_some_iff, pure, Option.some.injEq,
    Prod.mk.injEq] at h
  obtain ⟨r', hr, path', hp, uid', hu, rfl, rfl, rfl⟩ := h
  exact ⟨hr, hp, hu⟩

theorem listable_resource {out : ListType} (h : x.listable out o = some (r, path)) :
    out.resource = some r := by
  unfold listable at h
  split_ifs at h
  split at h
  · cases h
  · next r' hr =>
    split_ifs at h
    cases h
    exact hr

theorem getObject_kept (hi : x.Agrees h s) (hcall : (x.view h).call = some (.get key out options)) :
    Runs (x.Rule Allowed) (x.getObject key out options) h s (Kept x (x.view h).call) := by
  refine (getObject_got hi).mono fun r h' s' hg => ?_
  cases hg with
  | error hk => exact hk
  | ok hr ha hf hf' hc ho hw =>
    obtain ⟨hres, -, hlookup⟩ := readable_lookup hr
    refine ⟨hi.answered hf hc hw ?_ fun _ _ => by rw [ho], by rw [hw], by simp [errorOf]⟩
    simp [qualifies, hcall, hres, hlookup, ha]

theorem listObjects_kept {out : ListType} (hi : x.Agrees h s)
    (hcall : (x.view h).call = some (.list out o)) :
    Runs (x.Rule Allowed) (x.listObjects out o) h s (Kept x (x.view h).call) := by
  unfold listObjects
  cases hl : x.listable out o with
  | none => exact runs_stop (kept_stopped hi.calls rfl)
  | some a =>
    obtain ⟨r, path⟩ := a
    refine runs_bind (wire_runs hi fun _ hm => absurd rfl hm) ?_ ?_
    · intro u h' s' hwired
      cases hwired with
      | ok hf hf' hc ho hw =>
        cases ha : x.acceptedList u out r o with
        | none => exact runs_stop (kept_stopped (by rw [hc, hw]) (by rw [hw]))
        | some l =>
          refine runs_pure ⟨hi.answered hf hc hw ?_ ?_, by rw [hw], by simp [errorOf]⟩
          · simp [qualifies, hcall, listable_resource hl, ha]
          · -- the address of a list has a query
            intro address hquery
            have hne : address ≠ path ++ "?limit=" ++ toString o.limit := by
              rintro rfl
              exact hquery (by simp)
            rw [ho]
            exact (Function.update_of_ne hne _ _).symm
    · intro e h' s' hwired
      cases hwired with
      | error hk => exact hk

def Mutates : Option Call → Prop
  | some (.create ..) | some (.update ..) => True
  | _ => False

/-- `guardSystem` within a Create or an Update changes nothing but its own address. -/
theorem guardSystem_kept (hi : x.Agrees h s) (hcall : Mutates (x.view h).call) :
    Runs (x.Rule Allowed) x.guardSystem h s fun r h' s' =>
      Kept x (x.view h).call r h' s' ∧ (r = .ok ⟨⟩ → ∀ path, path ≠ namespacePath "kube-system" →
        s'.observed path = s.observed path) := by
  refine runs_attempt (getObject_got hi) fun r h' s' hg => ?_
  cases hg with
  | error hk => exact runs_stop ⟨kept_stopped hk.1.calls hk.2.1, by simp⟩
  | ok hr ha hf hf' hc ho hw =>
    split_ifs with hactive
    · obtain ⟨hres, haddr, hlookup⟩ := readable_lookup hr
      cases hres
      refine runs_pure ⟨⟨hi.answered hf hc hw ?_ fun _ _ => by rw [ho], by rw [hw],
        by simp [errorOf]⟩, ?_⟩
      · unfold qualifies
        split <;> simp_all [Mutates]
      · intro _ path hne
        cases haddr
        rw [ho]
        exact Function.update_of_ne hne _ _
    · exact runs_stop ⟨kept_stopped (by rw [hc, hw]) (by rw [hw]), by simp⟩

/-- Every mutation that passes the allow-list is allowed. -/
structure Confined (x : Transport) (Allowed : View → Method → String → Body → Prop) : Prop where
  creates : ∀ w obj options r path, x.createAdmitted obj options = some (r, path) →
    Allowed w .post (collection r obj.key.namespaceName) (.object (createBody x.codec r obj))
  updates : ∀ w observed obj options r path old,
    x.updateAdmitted observed obj options = some (r, path, old) → w.observed path = some old →
    Allowed w .patch path (.patch (holdPatch old obj.finalizers))
  system : namespacePath "kube-system" ∉ x.scope.targets

theorem createAdmitted_cases (h : x.createAdmitted obj options = some (r, path)) :
    obj.outType.resource = some r ∧ stageAddress r obj.key = some path ∧
      validCreate x.scope path obj := by
  unfold createAdmitted at h
  split_ifs at h
  simp only [Option.bind_eq_bind, Option.bind_eq_some_iff] at h
  obtain ⟨r', hr, path', hp, h⟩ := h
  split_ifs at h with hv
  cases h
  exact ⟨hr, hp, hv⟩

theorem createAdmitted_path (h : x.createAdmitted obj options = some (r, path)) :
    path = objectPath r obj.key.namespaceName obj.key.name := by
  obtain ⟨hr, hp, hv⟩ := createAdmitted_cases h
  obtain ⟨-, ⟨hns, -⟩ | ⟨-, -, hpath⟩⟩ := stageAddress_cases hp
  · subst hns
    cases obj <;> simp_all [validCreate, Object.outType, OutType.resource]
  · exact hpath

theorem updateAdmitted_cases {observed : String → Option Value} {old : Value}
    (h : x.updateAdmitted observed obj options = some (r, path, old)) :
    obj.outType.resource = some r ∧ stageAddress r obj.key = some path ∧
      observed path = some old ∧ path ∈ x.scope.targets ∧
      recoveryHold ∉ getFinalizers old ∧ obj.finalizers = getFinalizers old ++ [recoveryHold] := by
  unfold updateAdmitted at h
  split_ifs at h
  simp only [Option.bind_eq_bind, Option.bind_eq_some_iff] at h
  obtain ⟨r', hr, path', hp, old', ho, before, -, h⟩ := h
  split_ifs at h with hv
  cases h
  simp only [Bool.and_eq_true, List.contains_eq_mem, decide_eq_true_eq, beq_iff_eq,
    Bool.not_eq_true', decide_eq_false_iff_not] at hv
  exact ⟨hr, hp, ho, hv.1.1.1.1.1, hv.1.1.2, hv.1.2⟩

theorem accepted_qualified {c : Codec} {u : Value} {o : Object}
    (h : accepted c u r key uid out = some o) :
    qualifiedStageObject c u r key uid ∧ copyStageObject c u out = some o := by
  unfold accepted at h
  split_ifs at h with hq
  exact ⟨hq, h⟩

theorem qualified_name {c : Codec} {u : Value} (h : qualifiedStageObject c u r key uid) :
    getNamespace u = key.namespaceName ∧ getName u = key.name := by
  simp only [qualifiedStageObject, Bool.and_eq_true, beq_iff_eq] at h
  exact ⟨h.1.1.1.1.1.2, h.1.1.1.1.2⟩

theorem createObject_kept (hx : Confined x Allowed) (hi : x.Agrees h s)
    (hcall : (x.view h).call = some (.create obj options)) :
    Runs (x.Rule Allowed) (x.createObject obj options) h s (Kept x (x.view h).call) := by
  unfold createObject
  cases ha : x.createAdmitted obj options with
  | none => exact runs_stop (kept_stopped hi.calls rfl)
  | some a =>
    obtain ⟨r, path⟩ := a
    refine runs_bind (guardSystem_kept hi (by rw [hcall]; trivial)) ?_ fun e h' s' hk => hk.1
    rintro ⟨⟩ h' s' ⟨hk, -⟩
    refine runs_bind (wire_runs hk.1 fun _ _ => hx.creates _ obj options r path ha) ?_ ?_
    · intro u h'' s'' hwired
      cases hwired with
      | ok hf hf' hc ho hw =>
        cases hacc : x.acceptedCreate u r obj with
        | none => exact runs_stop (kept_stopped (by rw [hc, hw]) (by rw [hw]; exact hk.2.1))
        | some o =>
          refine runs_modify (runs_pure
            ⟨hk.1.answered hf hc hw ?_ ?_, by rw [hw]; exact hk.2.1, by simp [errorOf]⟩)
          · simp [qualifies, hk.2.1, hcall, (createAdmitted_cases ha).1, hacc]
          · intro p _
            unfold acceptedCreate at hacc
            split_ifs at hacc
            have hname := (qualified_name (accepted_qualified hacc).1).2
            rw [ho, createAdmitted_path ha]
            simp only [answeredAt, hname]
            rfl
    · intro e h'' s'' hwired
      cases hwired with
      | error hk' => exact ⟨hk'.1, hk'.2.1.trans hk.2.1, hk'.2.2⟩

theorem updateObject_kept (hx : Confined x Allowed) (hi : x.Agrees h s)
    (hcall : (x.view h).call = some (.update obj options)) :
    Runs (x.Rule Allowed) (x.updateObject obj options) h s (Kept x (x.view h).call) := by
  unfold updateObject
  refine runs_get ?_
  cases ha : x.updateAdmitted s.observed obj options with
  | none => exact runs_stop (kept_stopped hi.calls rfl)
  | some a =>
    obtain ⟨r, path, old⟩ := a
    obtain ⟨hr, hp, hold, htarget, -, -⟩ := updateAdmitted_cases ha
    refine runs_bind (guardSystem_kept hi (by rw [hcall]; trivial)) ?_ fun e h' s' hk => hk.1
    rintro ⟨⟩ h' s' ⟨hk, hsame⟩
    -- the guard has read another address
    have hseen : s'.failed = false → (x.view h').observed path = some old := by
      intro hf
      rw [← hk.1.observed hf path (stageAddress_queryless hp), ← hold]
      refine hsame rfl path ?_
      rintro rfl
      exact hx.system htarget
    refine runs_bind (wire_runs hk.1 fun hf _ =>
      hx.updates _ s.observed obj options r path old ha (hseen hf)) ?_ ?_
    · intro u h'' s'' hwired
      cases hwired with
      | ok hf hf' hc ho hw =>
        cases hacc : x.acceptedUpdate u r obj old with
        | none => exact runs_stop (kept_stopped (by rw [hc, hw]) (by rw [hw]; exact hk.2.1))
        | some o =>
          refine runs_modify (runs_pure
            ⟨hk.1.answered hf hc hw ?_ fun _ _ => by rw [ho]; rfl, by rw [hw]; exact hk.2.1,
              by simp [errorOf]⟩)
          simp [qualifies, hk.2.1, hcall, hr, hseen hf, hacc]
    · intro e h'' s'' hwired
      cases hwired with
      | error hk' => exact ⟨hk'.1, hk'.2.1.trans hk.2.1, hk'.2.2⟩

theorem serve_kept (hx : Confined x Allowed) {call : Call} (hi : x.Agrees h s)
    (hcall : (x.view h).call = some call) :
    Runs (x.Rule Allowed) (x.serve call) h s (Kept x (x.view h).call) := by
  cases call with
  | get key out options => exact getObject_kept hi hcall
  | list out o => exact listObjects_kept hi hcall
  | create obj options => exact createObject_kept hx hi hcall
  | update obj options => exact updateObject_kept hx hi hcall

theorem handle_agrees (hx : Confined x Allowed) {call : Call} (hi : x.Agrees h s) :
    Prog.Guarded (x.Rule Allowed) (x.handle s call) h fun h' r => x.Agrees h' r.2 := by
  refine Prog.guarded_bind.mpr ⟨trivial, fun (u : Unit) => Prog.guarded_bind.mpr ?_⟩
  have hissued : x.view (h ++ [⟨.issued call (x.passes s call), u⟩]) =
      { x.view h with call := some call } := x.view_concat h _
  have hi' : x.Agrees (h ++ [⟨.issued call (x.passes s call), u⟩]) s :=
    ⟨by rw [hissued]; exact hi.calls, by rw [hissued]; exact hi.poisoned,
      by rw [hissued]; exact hi.observed⟩
  refine Prog.Guarded.mono (serve_kept hx hi' (by rw [hissued])) fun h' r hk => ?_
  refine ⟨trivial, fun (u : Unit) => ?_⟩
  have hreturned : x.view (h' ++ [⟨.returned (errorOf r.1), u⟩]) =
      { x.view h' with poisoned := (x.view h').poisoned || errorOf r.1 == some .stopped } :=
    x.view_concat h' _
  refine ⟨by rw [hreturned]; exact hk.1.calls, ?_, by rw [hreturned]; exact hk.1.observed⟩
  rw [hreturned]
  intro hp
  rcases Bool.or_eq_true_iff.mp hp with hp | hp
  · exact hk.1.poisoned hp
  · exact hk.2.2 (beq_iff_eq.mp hp)

theorem interpret_follows (hx : Confined x Allowed)
    (caller : Prog Call (fun call => Except StageErr (Reply call)) α) (hi : x.Agrees h s) :
    Prog.Guarded (x.Rule Allowed) (x.interpret caller s) h fun _ _ => True := by
  induction caller generalizing h s with
  | ret a => trivial
  | call c k ih =>
    exact Prog.guarded_bind.mpr (Prog.Guarded.mono (handle_agrees hx hi) fun h' r hr => ih r.1 hr)

end Transport

end KovaService.Stage
