import KovaService.Disposal.Executor

/-!
What the executor does to the API, whatever the API, the clock and the contexts answer.

A call is issued only within the grant and the budget, and only when every call before it went well:
the namespaces were the pinned ones, each object read was the archived one, and it showed what the
mutations before had done to it.  A mutation moreover acts on the object of a target that was read
just before the last look at the three namespaces.
-/

namespace KovaService.Disposal

open Lib Lib.Json Lib.Unstructured Exec

variable {e : Event Request Answer} {archives : List String}

abbrev History : Type := List (Event Request Answer)

def apis (h : History) : History := h.filter fun e => e.1.api

def mutations (h : History) : History := h.filter fun e => e.1.mutates

abbrev readOf (t : ExecutionTarget) : Request :=
  .getTarget (executionGVK t.resource) t.namespaceName t.name

def Deletes (t : ExecutionTarget) : Request → Prop
  | .delete obj _ _ => Tools.identified t obj = true
  | _ => False

def Patches (t : ExecutionTarget) (before : List String) : Request → Prop
  | .patch obj _ => Tools.identified t obj = true ∧ Tools.executionFinalizers obj = some before
  | _ => False

variable (x : Executor)

structure Shows (past : History) (t : ExecutionTarget) (obj : Value) : Prop where
  deleted : ∀ e ∈ past, Deletes t e.1 → x.tools.deleting obj
  patched : ∀ e ∈ past, ∀ before, Patches t before e.1 → x.tools.deleting obj ∧
    Tools.executionFinalizers obj = some (Tools.foreign t before)

/-- The answer of an API call lets the executor go on. -/
def Healthy (past : History) : Event Request Answer → Prop
  | ⟨.getNamespace name, a⟩ => ∃ uid obj, (a : Except ApiErr Value) = .ok obj ∧
      (name, uid) ∈ x.pins ∧ x.namespaceOk (name, uid) obj
  | ⟨.getTarget kind namespaceName name, a⟩ =>
      (a : Except ApiErr Value) = .error .notFound ∨
      ∃ t ref obj, (a : Except ApiErr Value) = .ok obj ∧ (t, ref) ∈ x.plan.targets.zip x.refs ∧
        readOf t = .getTarget kind namespaceName name ∧ x.tools.qualifies t ref obj ∧
        Shows x past t obj
  | ⟨.delete _ _ _, a⟩ => (a : Except ApiErr Unit) = .ok ()
  | ⟨.patch obj _, a⟩ => ∃ t ref before response, (a : Except ApiErr Value) = .ok response ∧
      (t, ref) ∈ x.plan.targets.zip x.refs ∧ Tools.executionFinalizers obj = some before ∧
      x.tools.qualifies t ref response ∧ x.tools.deleting response ∧
      Tools.executionFinalizers response = some (Tools.foreign t before)
  | _ => True

def Sound (calls : History) : Prop :=
  ∀ past e rest, calls = past ++ e :: rest → Healthy x past e

/-- Each API call came back within its own context and the grant: the executor looks at both right
after the answer, and goes on only then. -/
def Prompt : History → Prop
  | [] => True
  | e :: rest => (e.1.api → ∃ now later, rest = ⟨.callErr, false⟩ :: ⟨.now, now⟩ :: later ∧
      x.grant.current now) ∧ Prompt rest

def guards : List Request := x.pins.map fun pin => .getNamespace pin.1

/-- The object of a target was read, found to be the archived one, and only the namespaces have been
looked at since; and all targets have been read. -/
structure Fresh (calls : History) (t : ExecutionTarget) (ref : QualifiedArchive) (obj : Value) :
    Prop where
  target : (t, ref) ∈ x.plan.targets.zip x.refs
  identified : Tools.identified t obj
  qualified : x.tools.qualifies t ref obj
  read : ∃ past looks, calls = past ++ ⟨readOf t, (.ok obj : Except ApiErr Value)⟩ :: looks ∧
    looks.map Sigma.fst = guards x
  preflighted : ∀ t' ∈ x.plan.targets, ∃ e ∈ calls, e.1 = readOf t'

/-- A Patch takes away finalizers that may go, and keeps all others in their order. -/
structure Keeps (t : ExecutionTarget) (before after : List String) : Prop where
  sublist : after.Sublist before
  kept : ∀ f ∈ before, f ∉ t.allowedKovaFinalizers → f ∈ after

theorem foreign_keeps (t : ExecutionTarget) (before : List String) :
    Keeps t before (Tools.foreign t before) :=
  ⟨List.filter_sublist, fun f hf hn => List.mem_filter.mpr ⟨hf, by simpa using hn⟩⟩

def MutationOk (calls : History) : Request → Prop
  | .delete obj uid resourceVersion => ∃ t ref, Fresh x calls t ref obj ∧ uid = getUID obj ∧
      resourceVersion = getResourceVersion obj ∧ x.tools.deleting obj = false ∧
      ∀ e ∈ calls, ¬ Deletes t e.1
  | .patch obj ops => ∃ t ref before, Fresh x calls t ref obj ∧
      Tools.executionFinalizers obj = some before ∧ x.tools.deleting obj ∧
      Tools.foreign t before ≠ before ∧ Keeps t before (Tools.foreign t before) ∧
      ops = Executor.finalizerPatch obj before (Tools.foreign t before) ∧
      ∀ e ∈ calls, ∀ b, ¬ Patches t b e.1
  | _ => True

structure Permitted (h : History) (q : Request) : Prop where
  clock : ∃ h' now, h = h' ++ [⟨.now, now⟩, ⟨.ctxErr, false⟩, ⟨.callErr, false⟩] ∧
    x.grant.current now
  budget : ((apis h).length : Int) < x.plan.maxCalls
  prompt : Prompt x h
  sound : Sound x (apis h)
  mutation : MutationOk x (apis h) q

structure Tally (h : History) (report : ExecutionReport) : Prop where
  calls : report.apiCalls = (apis h).length
  attempts : report.mutationAttempts = (mutations h).length
  bytes : report.observedBytes ≤ executionMaxObservedBytes

def Rule (h : History) (q : Request) : Prop := q.api → Permitted x h q

variable {x} {h : History} {s : ExecutionReport}

theorem Sound.snoc {calls : History} (hs : Sound x calls) (he : Healthy x calls e) :
    Sound x (calls ++ [e]) := by
  intro past e' rest heq
  rcases List.eq_nil_or_concat rest with rfl | ⟨rest, last, rfl⟩
  · obtain ⟨rfl, h⟩ := List.append_inj' heq rfl
    cases h
    exact he
  · refine hs past e' rest ?_
    have : calls ++ [e] = (past ++ e' :: rest) ++ [last] := by simpa using heq
    exact (List.append_inj' this rfl).1

@[simp] theorem apis_append (h h' : History) : apis (h ++ h') = apis h ++ apis h' :=
  List.filter_append ..

@[simp] theorem mutations_append (h h' : History) :
    mutations (h ++ h') = mutations h ++ mutations h' :=
  List.filter_append ..

variable {q : Request}

theorem api_of_mutates (h : q.mutates) : q.api := by
  cases q <;> first | rfl | cases h

theorem apis_quiet (he : e.1.api = false) : apis [e] = [] := by
  simp [apis, he]

theorem mutations_quiet (he : e.1.api = false) : mutations [e] = [] := by
  have : e.1.mutates = false := Bool.eq_false_iff.mpr fun hm => by simp [api_of_mutates hm] at he
  simp [mutations, this]

theorem Tally.quiet (ht : Tally h s) (he : e.1.api = false) : Tally (h ++ [e]) s :=
  ⟨by simpa [apis_quiet he] using ht.calls, by simpa [mutations_quiet he] using ht.attempts,
    ht.bytes⟩

theorem Prompt.append {h' : History} (hp : Prompt x h) (hp' : Prompt x h') :
    Prompt x (h ++ h') := by
  induction h with
  | nil => exact hp'
  | cons e h ih =>
    refine ⟨fun he => ?_, ih hp.2⟩
    obtain ⟨now, later, rfl, hc⟩ := hp.1 he
    exact ⟨now, later ++ h', rfl, hc⟩

theorem Prompt.quiet (hp : Prompt x h) (he : e.1.api = false) : Prompt x (h ++ [e]) :=
  hp.append ⟨fun h => by simp [he] at h, trivial⟩

/-- The report is exact, and every call so far came back in time and went well. -/
structure Going (x : Executor) (h : History) (s : ExecutionReport) : Prop where
  tally : Tally h s
  prompt : Prompt x h
  sound : Sound x (apis h)

theorem guarded_quiet (hq : q.api = false) {Post : Answer q → History → ExecutionReport → Prop}
    {Fail : History → ExecutionReport → Prop}
    (hp : ∀ r, Post r (h ++ [⟨q, r⟩]) s) :
    Guarded (Rule x) (request q : X (Answer q)) h s Post Fail :=
  guarded_request (fun hapi => by simp [hq] at hapi) hp

def counted (q : Request) (s : ExecutionReport) : ExecutionReport :=
  { s with
    apiCalls := s.apiCalls + 1
    mutationAttempts := s.mutationAttempts + (if q.mutates then 1 else 0) }

theorem Tally.counted (hq : q.api) (ht : Tally h s) (a : Answer q) :
    Tally (h ++ [⟨q, a⟩]) (counted q s) where
  calls := by simp [Disposal.counted, ht.calls, apis, hq]
  attempts := by
    cases hm : q.mutates <;> simp [Disposal.counted, ht.attempts, mutations, hm]
  bytes := ht.bytes

theorem guarded_outOfTime {Post : Bool → History → ExecutionReport → Prop} (ht : Tally h s)
    (hp : ∀ late h', Tally h' s → apis h' = apis h → (late = false → ∃ now,
      h' = h ++ [⟨.callErr, false⟩, ⟨.now, now⟩] ∧ x.grant.current now) → Post late h' s) :
    Guarded (Rule x) (outOfTime x.grant) h s Post Tally := by
  unfold outOfTime
  refine guarded_bind (guarded_quiet rfl fun (done : Bool) => ?_)
  have ht₁ := ht.quiet (e := ⟨.callErr, done⟩) rfl
  split
  · exact guarded_pure (hp _ _ ht₁ (by simp; rfl) fun h => by cases h)
  · next hdone =>
    refine guarded_bind (guarded_bind (guarded_quiet rfl fun (now : Time) => ?_))
    refine guarded_pure (hp _ _ (ht₁.quiet rfl) (by simp; rfl) fun hc => ⟨now, ?_, by simpa using hc⟩)
    simp [Bool.eq_false_iff.mpr hdone]

theorem guarded_call {α : Type} {answer : Answer q → Except ApiErr α}
    {Post : Except CallErr α → History → ExecutionReport → Prop} (hq : q.api)
    (hg : Going x h s) (hm : MutationOk x (apis h) q)
    (hok : ∀ a v h' s', answer a = .ok v → Tally h' s' → Prompt x h' →
      apis h' = apis h ++ [⟨q, a⟩] → Post (.ok v) h' s')
    (herr : ∀ e h' s', Tally h' s' → (∀ e', e = .api e' →
      Prompt x h' ∧ ∃ a, answer a = .error e' ∧ apis h' = apis h ++ [⟨q, a⟩]) →
      Post (.error e) h' s') :
    Guarded (Rule x) (x.call q answer) h s Post Tally := by
  have hexec : ∀ e h' s', Tally h' s' → Post (.error (.exec e)) h' s' := fun e h' s' ht =>
    herr _ h' s' ht fun _ he => by cases he
  unfold Executor.call
  refine guarded_bind (guarded_quiet rfl fun (now : Time) => ?_)
  have ht₁ : Tally (h ++ [⟨.now, now⟩]) s := hg.tally.quiet rfl
  refine guarded_bind (guarded_quiet rfl fun (done : Bool) => ?_)
  have ht₂ := ht₁.quiet (e := ⟨.ctxErr, done⟩) rfl
  split
  · exact guarded_pure (hexec _ _ _ ht₂)
  next hnow =>
  refine guarded_bind (guarded_get ?_)
  split
  · exact guarded_pure (hexec _ _ _ ht₂)
  next hbudget =>
  refine guarded_bind (guarded_quiet rfl fun (late : Bool) => ?_)
  have ht₃ := ht₂.quiet (e := ⟨.callErr, late⟩) rfl
  split
  · exact guarded_pure (hexec _ _ _ ht₃)
  next hlate =>
  -- the clock and both contexts were just read, and none of them is an API call
  generalize hh : h ++ [⟨.now, now⟩] ++ [⟨.ctxErr, done⟩] ++ [⟨.callErr, late⟩] = h₃ at ht₃ ⊢
  have hcalls : apis h₃ = apis h := by
    rw [← hh]
    simp [apis, Request.api]
  have hprompt : Prompt x h₃ := hh ▸ ((hg.prompt.quiet rfl).quiet rfl).quiet rfl
  have hpermitted : Permitted x h₃ q := by
    obtain ⟨hdone, hcurrent⟩ : done = false ∧ x.grant.current now = true := by simpa using hnow
    have hlate : late = false := by simpa using hlate
    refine ⟨⟨h, now, by rw [← hh, hdone, hlate]; simp, hcurrent⟩, ?_, hprompt,
      hcalls ▸ hg.sound, hcalls ▸ hm⟩
    rw [hcalls, ← hg.tally.calls]
    exact lt_of_not_ge hbudget
  refine guarded_bind (guarded_modify (guarded_bind
    (guarded_request (fun _ => hpermitted) fun a => ?_)))
  have ht₄ : Tally (h₃ ++ [⟨q, a⟩]) (counted q s) := ht₃.counted hq a
  have hcalls₄ : apis (h₃ ++ [⟨q, a⟩]) = apis h ++ [⟨q, a⟩] := by
    rw [apis_append, hcalls]
    simp [apis, hq]
  refine guarded_bind (guarded_outOfTime ht₄ fun late h' ht' hh' htime => ?_)
  split
  · exact guarded_pure (hexec _ _ _ ht')
  next hintime =>
  have hprompt' : Prompt x h' := by
    obtain ⟨now', rfl, hc⟩ := htime (by simpa using hintime)
    rw [List.append_assoc]
    exact hprompt.append ⟨fun _ => ⟨now', [], rfl, hc⟩, by simp [Prompt, Request.api]⟩
  cases ha : answer a with
  | ok v => exact guarded_pure (hok a v h' _ ha ht' hprompt' (hh'.trans hcalls₄))
  | error e =>
    refine guarded_pure (herr _ h' _ ht' fun e' he => ?_)
    cases he
    exact ⟨hprompt', a, ha, hh'.trans hcalls₄⟩

theorem guarded_account {obj : Value} {Post : Unit → History → ExecutionReport → Prop}
    (ht : Tally h s) (hp : ∀ s', Tally h s' → Post () h s') :
    Guarded (Rule x) (x.account obj) h s Post Tally := by
  unfold Executor.account
  cases x.tools.marshal obj with
  | none => exact guarded_throw ht
  | some raw =>
    refine guarded_bind (guarded_get (guarded_unless ht fun hc => guarded_modify (hp _ ?_)))
    simp only [Bool.or_eq_false_iff, decide_eq_false_iff_not, gt_iff_lt, not_lt] at hc
    exact ⟨ht.calls, ht.attempts, hc.2⟩

structure Looked (x : Executor) (calls : History) (h' : History) (s' : ExecutionReport) : Prop
    extends Going x h' s' where
  looks : ∃ looks, apis h' = calls ++ looks ∧ looks.map Sigma.fst = guards x

theorem guarded_guard (hg : Going x h s) :
    Guarded (Rule x) x.guard h s (fun _ => Looked x (apis h)) Tally := by
  refine (guarded_forM (fun (front : List (String × String)) h' s' => Going x h' s' ∧
    ∃ looks, apis h' = apis h ++ looks ∧ looks.map Sigma.fst = front.map (.getNamespace ·.1)) ?_
    ⟨hg, [], by simp, rfl⟩).mono fun _ h' s' hl => ⟨hl.1, hl.2⟩
  intro front pin rest hpins h₁ s₁ ⟨hg₁, looks, hlooks, hmap⟩
  refine guarded_bind (guarded_call rfl hg₁ trivial ?_ fun _ _ _ ht _ => guarded_throw ht)
  intro a obj h₂ s₂ ha ht₂ hp₂ hcalls
  refine guarded_bind (guarded_account ht₂ fun s₃ ht₃ => ?_)
  refine guarded_failIf (fun _ => ht₃) fun hok => ⟨⟨ht₃, hp₂, ?_⟩, ?_⟩
  · rw [hcalls]
    exact hg₁.sound.snoc ⟨pin.2, obj, ha, hpins ▸ by simp, by simpa using hok⟩
  · exact ⟨looks ++ [⟨.getNamespace pin.1, a⟩], by rw [hcalls, hlooks, List.append_assoc],
      by simp [hmap]⟩

section Target

variable {t : ExecutionTarget} {ref : QualifiedArchive} {obj : Value} {calls rest : History}
  {h' : History} {s' : ExecutionReport}

def Read (x : Executor) (calls : History) (t : ExecutionTarget) (ref : QualifiedArchive)
    (obj : Option Value) (h' : History) (s' : ExecutionReport) : Prop :=
  Tally h' s' ∧ Prompt x h' ∧
    match obj with
    | none => apis h' = calls ++ [⟨readOf t, (.error .notFound : Except ApiErr Value)⟩]
    | some obj => apis h' = calls ++ [⟨readOf t, (.ok obj : Except ApiErr Value)⟩] ∧
        x.tools.qualifies t ref obj

theorem guarded_target (hg : Going x h s) :
    Guarded (Rule x) (x.target t ref) h s (Read x (apis h) t ref) Tally := by
  unfold Executor.target
  refine guarded_bind (guarded_call rfl hg trivial ?_ ?_)
  · intro a obj h₁ s₁ ha ht₁ hp₁ hcalls
    refine guarded_bind (guarded_account ht₁ fun s₂ ht₂ => guarded_unless ht₂ fun hok => ?_)
    have ha : (a : Except ApiErr Value) = .ok obj := ha
    exact guarded_pure ⟨ht₂, hp₁, ha ▸ hcalls, by simpa using hok⟩
  · intro e h₁ s₁ ht₁ hapi
    cases e with
    | exec e => exact guarded_throw ht₁
    | api e =>
      obtain ⟨hp₁, a, ha, hcalls⟩ := hapi e rfl
      have ha : (a : Except ApiErr Value) = .error e := ha
      cases e with
      | notFound => exact guarded_pure ⟨ht₁, hp₁, ha ▸ hcalls⟩
      | other => exact guarded_throw ht₁

def Touches (t : ExecutionTarget) (q : Request) : Prop := Deletes t q ∨ ∃ before, Patches t before q

def Only (t : ExecutionTarget) (calls : History) : Prop :=
  ∀ e ∈ calls, ∀ t', Touches t' e.1 → executionTargetKey t' = executionTargetKey t

theorem executionGVK_inj {r r' : ExecutionResource} (h : executionGVK r ≠ {})
    (heq : executionGVK r = executionGVK r') : r = r' := by
  unfold executionGVK at h heq
  split_ifs at h heq <;> simp_all

theorem identified_key {t' : ExecutionTarget} (h : Tools.identified t obj)
    (h' : Tools.identified t' obj) : executionTargetKey t = executionTargetKey t' := by
  simp only [Tools.identified, Bool.and_eq_true, bne_iff_ne, beq_iff_eq] at h h'
  have hresource : t.resource = t'.resource :=
    executionGVK_inj h.1.1.1.1.1 (h.1.1.1.1.2.symm.trans h'.1.1.1.1.2)
  have hnamespace : t.namespaceName = t'.namespaceName := h.1.1.1.2.symm.trans h'.1.1.1.2
  have hname : t.name = t'.name := h.1.1.2.symm.trans h'.1.1.2
  simp only [executionTargetKey, hresource, hnamespace, hname]

theorem identified_of_qualifies {T : Tools} (h : T.qualifies t ref obj) :
    Tools.identified t obj := by
  simp only [Tools.qualifies, beq_iff_eq] at h
  unfold Tools.executionObservedProjection at h
  cases hd : T.executionDeleting obj with
  | none => simp [hd] at h
  | some deleting =>
    by_contra hid
    have hp : T.executionProjection t obj = none := by simp [Tools.executionProjection, hid]
    simp [hd, hp] at h

def Untouching (calls : History) : Prop := ∀ e ∈ calls, ∀ t, ¬ Touches t e.1

theorem untouching_nil : Untouching [] := fun _ he => by cases he

theorem untouching_looks (hl : calls.map Sigma.fst = guards x) : Untouching calls := by
  intro e he t
  have hmem : e.1 ∈ guards x := hl ▸ List.mem_map_of_mem he
  obtain ⟨pin, -, hpin⟩ := List.mem_map.mp hmem
  rw [← hpin]
  rintro (h | ⟨before, h⟩) <;> exact h

theorem Untouching.read (hr : Untouching rest) {a : Answer (readOf t)} :
    Untouching (rest ++ [⟨readOf t, a⟩]) := by
  refine forall_snoc hr fun t' => ?_
  rintro (h | ⟨before, h⟩) <;> exact h

theorem Untouching.only (hr : Untouching rest) : Only t rest := fun e he t' ht =>
  absurd ht (hr e he t')

theorem Untouching.keeps {P : Request → Prop} (hr : Untouching rest) (hP : ∀ q, P q → Touches t q)
    (hun : ∀ e ∈ calls, ¬ P e.1) : ∀ e ∈ calls ++ rest, ¬ P e.1 :=
  List.forall_mem_append.mpr ⟨hun, fun e he hp => hr e he t (hP _ hp)⟩

theorem only_mutation {a : Answer q} (ht : Touches t q) : Only t [⟨q, a⟩] := by
  intro e he t' ht'
  obtain rfl := List.mem_singleton.mp he
  rcases ht with hd | ⟨before, hp⟩ <;> rcases ht' with hd' | ⟨before', hp'⟩
  all_goals cases q <;> first | exact absurd ‹_› id | skip
  · exact identified_key hd' hd
  · exact identified_key hp'.1 hp.1

/-- What a part of the disposal of a target leaves behind. -/
structure Left (x : Executor) (t : ExecutionTarget) (calls : History) (h' : History)
    (s' : ExecutionReport) : Prop extends Going x h' s' where
  rest : ∃ rest, apis h' = calls ++ rest ∧ Only t rest

theorem Left.trans {h₁ h₂ : History} {s₁ s₂ : ExecutionReport} (hl : Left x t calls h₁ s₁)
    (hl' : Left x t (apis h₁) h₂ s₂) : Left x t calls h₂ s₂ := by
  obtain ⟨rest, hrest, honly⟩ := hl.rest
  obtain ⟨rest', hrest', honly'⟩ := hl'.rest
  exact ⟨hl'.toGoing, rest ++ rest', by rw [hrest', hrest, List.append_assoc],
    List.forall_mem_append.mpr ⟨honly, honly'⟩⟩

theorem Looked.left (hl : Looked x calls h' s') : Left x t calls h' s' := by
  obtain ⟨looks, hlooks, hmap⟩ := hl.looks
  exact ⟨hl.toGoing, looks, hlooks, (untouching_looks hmap).only⟩

theorem Going.left (hg : Going x h s) : Left x t (apis h) h s :=
  ⟨hg, [], by simp, fun _ he => by cases he⟩

theorem shows_of_untouched (hun : ∀ e ∈ calls, ¬ Touches t e.1) : Shows x calls t obj :=
  ⟨fun e he hd => absurd (.inl hd) (hun e he), fun e he b hp => absurd (.inr ⟨b, hp⟩) (hun e he)⟩

theorem Shows.append (hs : Shows x calls t obj) (hr : Untouching rest) :
    Shows x (calls ++ rest) t obj :=
  ⟨List.forall_mem_append.mpr ⟨hs.deleted, fun e he hd => absurd (.inl hd) (hr e he t)⟩,
    List.forall_mem_append.mpr ⟨hs.patched, fun e he b hp => absurd (.inr ⟨b, hp⟩) (hr e he t)⟩⟩

def Preflighted (x : Executor) (calls : History) : Prop :=
  ∀ t ∈ x.plan.targets, ∃ e ∈ calls, e.1 = readOf t

theorem Preflighted.append (hpre : Preflighted x calls) : Preflighted x (calls ++ rest) := by
  intro t ht
  obtain ⟨e, he, hread⟩ := hpre t ht
  exact ⟨e, List.mem_append_left _ he, hread⟩

structure Observed (x : Executor) (t : ExecutionTarget) (ref : QualifiedArchive) (obj : Value)
    (calls : History) (h' : History) (s' : ExecutionReport) : Prop where
  tally : Tally h' s'
  prompt : Prompt x h'
  qualified : x.tools.qualifies t ref obj
  rest : ∃ rest, Untouching rest ∧
    apis h' = calls ++ (rest ++ [⟨readOf t, (.ok obj : Except ApiErr Value)⟩])
  sound : Shows x calls t obj → Sound x (apis h')

structure Held (x : Executor) (t : ExecutionTarget) (ref : QualifiedArchive) (obj : Value)
    (calls : History) : Prop where
  sound : Sound x calls
  target : (t, ref) ∈ x.plan.targets.zip x.refs
  qualified : x.tools.qualifies t ref obj
  read : ∃ past, calls = past ++ [⟨readOf t, (.ok obj : Except ApiErr Value)⟩]
  preflighted : Preflighted x calls

theorem Held.fresh (hh : Held x t ref obj calls) (hl : rest.map Sigma.fst = guards x) :
    Fresh x (calls ++ rest) t ref obj where
  target := hh.target
  identified := identified_of_qualifies hh.qualified
  qualified := hh.qualified
  read := by
    obtain ⟨past, hpast⟩ := hh.read
    exact ⟨past, rest, by simp [hpast], hl⟩
  preflighted := hh.preflighted.append

theorem Observed.left (ho : Observed x t ref obj calls h' s') (hs : Shows x calls t obj) :
    Left x t calls h' s' := by
  obtain ⟨rest, hr, hcalls⟩ := ho.rest
  exact ⟨⟨ho.tally, ho.prompt, ho.sound hs⟩, _, hcalls, hr.read.only⟩

theorem Observed.held (ho : Observed x t ref obj calls h' s') (hs : Shows x calls t obj)
    (htarget : (t, ref) ∈ x.plan.targets.zip x.refs) (hpre : Preflighted x calls) :
    Held x t ref obj (apis h') := by
  obtain ⟨rest, hr, hcalls⟩ := ho.rest
  refine ⟨ho.sound hs, htarget, ho.qualified, ⟨calls ++ rest, by simp [hcalls]⟩, ?_⟩
  rw [hcalls]
  exact hpre.append

theorem Observed.keeps {P : Request → Prop} (ho : Observed x t ref obj calls h' s')
    (hP : ∀ q, P q → Touches t q) (hun : ∀ e ∈ calls, ¬ P e.1) : ∀ e ∈ apis h', ¬ P e.1 := by
  obtain ⟨rest, hr, hcalls⟩ := ho.rest
  rw [hcalls]
  exact hr.read.keeps hP hun

theorem read_none (hs : Sound x calls) (hr : Read x calls t ref none h s) : Left x t calls h s := by
  refine ⟨⟨hr.1, hr.2.1, ?_⟩, _, hr.2.2, untouching_nil.read.only⟩
  rw [hr.2.2]
  exact hs.snoc (.inl rfl)

theorem read_some (hs : Sound x calls) (htarget : (t, ref) ∈ x.plan.targets.zip x.refs)
    (hr : Read x calls t ref (some obj) h s) : Observed x t ref obj calls h s := by
  obtain ⟨ht, hp, hcalls, hq⟩ := hr
  refine ⟨ht, hp, hq, ⟨[], untouching_nil, hcalls⟩, fun hshow => ?_⟩
  rw [hcalls]
  exact hs.snoc (.inr ⟨t, ref, obj, rfl, htarget, rfl, hq, hshow⟩)

theorem guarded_reread {α : Type} {k : Option Value → X α}
    {Post : α → History → ExecutionReport → Prop} (hg : Going x h s)
    (htarget : (t, ref) ∈ x.plan.targets.zip x.refs)
    (hnone : ∀ h' s', Left x t (apis h) h' s' → Guarded (Rule x) (k none) h' s' Post Tally)
    (hsome : ∀ obj h' s', Observed x t ref obj (apis h) h' s' →
      Guarded (Rule x) (k (some obj)) h' s' Post Tally) :
    Guarded (Rule x) (x.guard >>= fun _ => x.target t ref >>= k) h s Post Tally := by
  refine (guarded_guard hg).andThen fun _ h₁ s₁ hl₁ => ?_
  obtain ⟨looks, hlooks, hmap⟩ := hl₁.looks
  refine (guarded_target hl₁.toGoing).andThen fun r h₂ s₂ hr => ?_
  cases r with
  | none => exact hnone h₂ s₂ (hl₁.left.trans (read_none hl₁.sound hr))
  | some obj =>
    have ho := read_some hl₁.sound htarget hr
    refine hsome obj h₂ s₂ ⟨ho.tally, ho.prompt, ho.qualified,
      ⟨looks, untouching_looks hmap, ?_⟩, fun hs => ?_⟩
    · rw [hr.2.2.1, hlooks, List.append_assoc]
    · exact ho.sound (hlooks ▸ hs.append (untouching_looks hmap))

theorem guarded_absent (hl : Left x t calls h s) :
    Guarded (Rule x) x.absentAtDirectRead h s (fun _ => Left x t calls) Tally :=
  (guarded_guard hl.toGoing).andThen fun _ _ _ hl' => guarded_pure (hl.trans hl'.left)

variable {before : List String}

theorem guarded_patchFinalizers (ht : Tally h s) (hp : Prompt x h) (hh : Held x t ref obj (apis h))
    (hfinal : Tools.executionFinalizers obj = some before)
    (hdel : x.tools.deleting obj) (hne : Tools.foreign t before ≠ before)
    (hun : ∀ e ∈ apis h, ∀ b, ¬ Patches t b e.1) :
    Guarded (Rule x) (x.patchFinalizers t ref obj before (Tools.foreign t before)) h s
      (fun _ => Left x t (apis h)) Tally := by
  unfold Executor.patchFinalizers
  refine (guarded_guard ⟨ht, hp, hh.sound⟩).andThen fun _ h₁ s₁ hl₁ => ?_
  obtain ⟨looks, hlooks, hmap⟩ := hl₁.looks
  have hun₁ : ∀ e ∈ apis h₁, ∀ b, ¬ Patches t b e.1 := fun e he b =>
    (untouching_looks hmap).keeps (fun _ hp => .inr ⟨b, hp⟩) (fun e he => hun e he b) e
      (hlooks ▸ he)
  refine guarded_bind (guarded_call rfl hl₁.toGoing
    ⟨t, ref, before, hlooks ▸ hh.fresh hmap, hfinal, hdel, hne,
      foreign_keeps t before, rfl, hun₁⟩ ?_
    fun _ _ _ ht _ => guarded_throw ht)
  intro a response h₂ s₂ ha ht₂ hp₂ hcalls₂
  refine guarded_bind (guarded_account ht₂ fun s₃ ht₃ => guarded_unless ht₃ fun hok => ?_)
  simp only [Bool.not_eq_false', Bool.and_eq_true, beq_iff_eq] at hok
  -- the patch went well, and is the only one of this target
  have hsound₂ : Sound x (apis h₂) := by
    rw [hcalls₂]
    exact hl₁.sound.snoc ⟨t, ref, before, response, ha, hh.target, hfinal, hok.1.1, hok.1.2,
      hok.2⟩
  have hleft₂ : Left x t (apis h) h₂ s₃ := hl₁.left.trans ⟨⟨ht₃, hp₂, hsound₂⟩, _, hcalls₂,
    only_mutation (.inr ⟨before, identified_of_qualifies hh.qualified, hfinal⟩)⟩
  refine guarded_reread hleft₂.toGoing hh.target
    (fun h₃ s₃ hl₃ => guarded_pure (hleft₂.trans hl₃)) fun obj' h₃ s₃ ho => ?_
  refine guarded_unless ho.tally fun hok' => guarded_pure (hleft₂.trans (ho.left ?_))
  simp only [Bool.not_eq_false', Bool.and_eq_true, beq_iff_eq] at hok'
  refine ⟨fun _ _ _ => hok'.1, hcalls₂ ▸ forall_snoc (fun e he b hp => ?_) fun b hp => ?_⟩
  · exact absurd hp (hun₁ e he b)
  · rw [Option.some.inj (hp.2.symm.trans hfinal)]
    exact hok'

theorem foreign_ne (h : ((Tools.foreign t before).length != before.length)) :
    Tools.foreign t before ≠ before := by
  intro heq
  simp [heq] at h

theorem guarded_removeFinalizers (ht : Tally h s) (hp : Prompt x h) (hh : Held x t ref obj (apis h))
    (hdel : x.tools.deleting obj) (hun : ∀ e ∈ apis h, ∀ b, ¬ Patches t b e.1) :
    Guarded (Rule x) (x.removeFinalizers t ref obj) h s (fun _ => Left x t (apis h)) Tally := by
  unfold Executor.removeFinalizers
  cases hf : Tools.executionFinalizers obj with
  | none => exact guarded_throw ht
  | some before =>
    have hpatched : Guarded (Rule x)
        (if (Tools.foreign t before).length != before.length then
          x.patchFinalizers t ref obj before (Tools.foreign t before) else pure false) h s
        (fun _ => Left x t (apis h)) Tally := by
      split
      · next hc => exact guarded_patchFinalizers ht hp hh hf hdel (foreign_ne hc) hun
      · exact guarded_pure (Going.left ⟨ht, hp, hh.sound⟩)
    refine hpatched.andThen fun absent h₁ s₁ hl₁ => ?_
    split
    · exact guarded_absent hl₁
    · exact (guarded_guard hl₁.toGoing).andThen fun _ _ _ hl₂ => guarded_pure (hl₁.trans hl₂.left)

theorem guarded_deleteTarget (ht : Tally h s) (hp : Prompt x h) (hh : Held x t ref obj (apis h))
    (hdel : x.tools.deleting obj = false) (hun : ∀ e ∈ apis h, ¬ Touches t e.1) :
    Guarded (Rule x) (x.deleteTarget t ref obj) h s (fun _ => Left x t (apis h)) Tally := by
  unfold Executor.deleteTarget
  refine (guarded_guard ⟨ht, hp, hh.sound⟩).andThen fun _ h₁ s₁ hl₁ => ?_
  obtain ⟨looks, hlooks, hmap⟩ := hl₁.looks
  have hun₁ : ∀ e ∈ apis h₁, ¬ Touches t e.1 :=
    hlooks ▸ (untouching_looks hmap).keeps (fun _ => id) hun
  refine guarded_bind (guarded_call rfl hl₁.toGoing
    ⟨t, ref, hlooks ▸ hh.fresh hmap, rfl, rfl, hdel, fun e he hd => hun₁ e he (.inl hd)⟩ ?_
    fun _ _ _ ht _ => guarded_throw ht)
  intro a u h₂ s₂ ha ht₂ hp₂ hcalls₂
  have hsound₂ : Sound x (apis h₂) := by
    rw [hcalls₂]
    exact hl₁.sound.snoc ha
  have hleft₂ : Left x t (apis h) h₂ s₂ := hl₁.left.trans ⟨⟨ht₂, hp₂, hsound₂⟩, _, hcalls₂,
    only_mutation (.inl (identified_of_qualifies hh.qualified))⟩
  have hun₂ : ∀ b, ∀ e ∈ apis h₂, ¬ Patches t b e.1 := fun b =>
    hcalls₂ ▸ forall_snoc (fun e he hp => hun₁ e he (.inr ⟨b, hp⟩)) id
  refine guarded_reread hleft₂.toGoing hh.target
    (fun h₃ s₃ hl₃ => guarded_absent (hleft₂.trans hl₃)) fun obj' h₃ s₃ ho => ?_
  refine guarded_unless ho.tally fun hdel' => ?_
  have hdel' : x.tools.deleting obj' := by simpa using hdel'
  have hshow : Shows x (apis h₂) t obj' :=
    ⟨fun _ _ _ => hdel', fun e he b hp => absurd hp (hun₂ b e he)⟩
  obtain ⟨rest, hrest, -⟩ := hleft₂.rest
  have hheld := ho.held hshow hh.target (hrest ▸ hh.preflighted.append)
  exact (guarded_removeFinalizers ho.tally ho.prompt hheld hdel' fun e he b =>
    ho.keeps (fun _ hp => .inr ⟨b, hp⟩) (hun₂ b) e he).mono
    fun _ _ _ hl => (hleft₂.trans (ho.left hshow)).trans hl

theorem guarded_dispose (hg : Going x h s) (htarget : (t, ref) ∈ x.plan.targets.zip x.refs)
    (hpre : Preflighted x (apis h)) (hun : ∀ e ∈ apis h, ¬ Touches t e.1) :
    Guarded (Rule x) (x.dispose t ref) h s (fun _ => Left x t (apis h)) Tally := by
  refine guarded_reread hg htarget (fun _ _ => guarded_absent) fun obj h₁ s₁ ho => ?_
  have hshow : Shows x (apis h) t obj := shows_of_untouched hun
  have hheld := ho.held hshow htarget hpre
  have hun₁ := ho.keeps (fun _ => id) hun
  change Guarded (Rule x) (if x.tools.deleting obj then x.removeFinalizers t ref obj
    else x.deleteTarget t ref obj) h₁ s₁ _ _
  split
  · next hdel =>
    exact (guarded_removeFinalizers ho.tally ho.prompt hheld hdel fun e he b hp =>
      hun₁ e he (.inr ⟨b, hp⟩)).mono fun _ _ _ hl => (ho.left hshow).trans hl
  · next hdel =>
    have hdel : x.tools.deleting obj = false := by simpa using hdel
    exact (guarded_deleteTarget ho.tally ho.prompt hheld hdel hun₁).mono fun _ _ _ hl =>
      (ho.left hshow).trans hl

end Target

theorem Tally.same {s' : ExecutionReport} (ht : Tally h s) (hc : s'.apiCalls = s.apiCalls)
    (hm : s'.mutationAttempts = s.mutationAttempts) (hb : s'.observedBytes = s.observedBytes) :
    Tally h s' :=
  ⟨hc.trans ht.calls, hm.trans ht.attempts, hb.trans_le ht.bytes⟩

structure Preflight (x : Executor) (front : List (ExecutionTarget × QualifiedArchive)) (h : History)
    (s : ExecutionReport) : Prop extends Going x h s where
  untouched : Untouching (apis h)
  read : ∀ p ∈ front, ∃ e ∈ apis h, e.1 = readOf p.1

theorem guarded_preflight (hp : Preflight x [] h s) :
    Guarded (Rule x) ((x.plan.targets.zip x.refs).forM fun p => do
      let _ ← x.target p.1 p.2
      pure ()) h s (fun _ => Preflight x (x.plan.targets.zip x.refs)) Tally := by
  refine guarded_forM (Preflight x) ?_ hp
  intro front p rest hl h₁ s₁ hp₁
  have hmem : (p.1, p.2) ∈ x.plan.targets.zip x.refs := hl ▸ by simp
  refine (guarded_target hp₁.toGoing).andThen fun r h₂ s₂ hr => ?_
  have hread : ∃ a, apis h₂ = apis h₁ ++ [⟨readOf p.1, a⟩] ∧ Left x p.1 (apis h₁) h₂ s₂ := by
    cases r with
    | none => exact ⟨_, hr.2.2, read_none hp₁.sound hr⟩
    | some obj =>
      exact ⟨_, hr.2.2.1, (read_some hp₁.sound hmem hr).left
        (shows_of_untouched fun e he => hp₁.untouched e he p.1)⟩
  obtain ⟨a, hcalls, hleft⟩ := hread
  refine guarded_pure ⟨hleft.toGoing, hcalls ▸ hp₁.untouched.read, forall_snoc (fun p' hp' => ?_) ?_⟩
  · obtain ⟨e, he, hr'⟩ := hp₁.read p' hp'
    exact ⟨e, hcalls ▸ List.mem_append_left _ he, hr'⟩
  · exact ⟨⟨readOf p.1, a⟩, by simp [hcalls], rfl⟩

structure Disposing (x : Executor) (front : List (ExecutionTarget × QualifiedArchive)) (h : History)
    (s : ExecutionReport) : Prop extends Going x h s where
  preflighted : Preflighted x (apis h)
  touched : ∀ e ∈ apis h, ∀ t, Touches t e.1 →
    ∃ p ∈ front, executionTargetKey t = executionTargetKey p.1

theorem guarded_disposing (hplan : x.plan.sorted) (hrefs : x.plan.targets.length ≤ x.refs.length)
    (hd : Disposing x [] h s)
    {f : ExecutionTarget × QualifiedArchive → String → ExecutionReport → ExecutionReport}
    (hf : ∀ p o h s, Tally h s → Tally h (f p o s)) :
    Guarded (Rule x) ((x.plan.targets.zip x.refs).forM fun p => do
      let observation ← x.dispose p.1 p.2
      modify (f p observation)) h s (fun _ => Disposing x (x.plan.targets.zip x.refs)) Tally := by
  refine guarded_forM (Disposing x) ?_ hd
  intro front p rest hl h₁ s₁ hd₁
  have hmem : (p.1, p.2) ∈ x.plan.targets.zip x.refs := hl ▸ by simp
  have hun : ∀ e ∈ apis h₁, ¬ Touches p.1 e.1 := by
    -- the keys of the targets before are smaller
    intro e he ht
    obtain ⟨p', hp', hkey⟩ := hd₁.touched e he p.1 ht
    have hsorted : ((x.plan.targets.zip x.refs).map Prod.fst).Pairwise
        fun a b => executionTargetKey a < executionTargetKey b := by
      rw [List.map_fst_zip hrefs]
      exact hplan
    rw [hl, List.map_append, List.pairwise_append] at hsorted
    have := hsorted.2.2 p'.1 (List.mem_map_of_mem hp') p.1 (by simp)
    rw [hkey] at this
    exact lt_irrefl _ this
  refine (guarded_dispose hd₁.toGoing hmem hd₁.preflighted hun).andThen
    fun o h₂ s₂ hl₂ => guarded_modify ?_
  obtain ⟨after, hafter, honly⟩ := hl₂.rest
  refine ⟨⟨hf _ _ _ _ hl₂.tally, hl₂.prompt, hl₂.sound⟩, hafter ▸ hd₁.preflighted.append, ?_⟩
  rw [hafter]
  refine List.forall_mem_append.mpr ⟨fun e he t ht => ?_, fun e he t ht => ?_⟩
  · obtain ⟨p', hp', hkey⟩ := hd₁.touched e he t ht
    exact ⟨p', List.mem_append_left _ hp', hkey⟩
  · exact ⟨p, by simp, honly e he t ht⟩

theorem guarded_run (hplan : x.plan.sorted) (hrefs : x.plan.targets.length ≤ x.refs.length)
    (ht : Tally h s) (hp : Prompt x h) (hnone : apis h = []) :
    Guarded (Rule x) x.run h s (fun _ => Tally) Tally := by
  unfold Executor.run
  have hsound : Sound x (apis h) := by
    intro past e rest heq
    rw [hnone] at heq
    simp at heq
  have ht₀ : Tally h { s with stage := "unknown" } := ht.same rfl rfl rfl
  refine guarded_bind (guarded_modify ((guarded_guard ⟨ht₀, hp, hsound⟩).andThen fun _ h₁ s₁ hl₁ => ?_))
  obtain ⟨looks₁, hlooks₁, hmap₁⟩ := hl₁.looks
  have hun₁ : Untouching (apis h₁) := by
    rw [hlooks₁, hnone]
    exact untouching_looks hmap₁
  refine (guarded_preflight ⟨hl₁.toGoing, hun₁, by simp⟩).andThen fun _ h₂ s₂ hp₂ => ?_
  refine (guarded_guard hp₂.toGoing).andThen fun _ h₃ s₃ hl₃ => ?_
  obtain ⟨looks₃, hlooks₃, hmap₃⟩ := hl₃.looks
  have hpre : Preflighted x (apis h₂) := by
    intro t ht
    rw [← List.map_fst_zip hrefs] at ht
    obtain ⟨p, hp, rfl⟩ := List.mem_map.mp ht
    exact hp₂.read p hp
  have hun₃ : Untouching (apis h₃) :=
    hlooks₃ ▸ List.forall_mem_append.mpr ⟨hp₂.untouched, untouching_looks hmap₃⟩
  refine (guarded_disposing hplan hrefs ⟨hl₃.toGoing, hlooks₃ ▸ hpre.append,
    fun e he t ht => absurd ht (hun₃ e he t)⟩ ?_).andThen fun _ h₄ s₄ hd₄ => ?_
  · exact fun p o h s ht => ht.same rfl rfl rfl
  · exact (guarded_guard hd₄.toGoing).andThen fun _ h₅ s₅ hl₅ =>
      guarded_modify (hl₅.tally.same rfl rfl rfl)

variable {T : Tools}

/-- The archive of each target, with the qualification the plan asks for. -/
def Archived (T : Tools) :
    List ExecutionTarget → List String → List QualifiedArchive → Prop
  | [], [], [] => True
  | t :: targets, raw :: archives, ref :: refs =>
    T.qualifyArchive t raw = some (ref, t.qualificationDigest) ∧ Archived T targets archives refs
  | _, _, _ => False

variable {targets : List ExecutionTarget}

theorem Archived.length {refs : List QualifiedArchive} (h : Archived T targets archives refs) :
    targets.length = refs.length := by
  induction targets generalizing archives refs with
  | nil => cases archives <;> cases refs <;> first | rfl | exact absurd h id
  | cons t targets ih =>
    cases archives <;> cases refs <;> first | exact absurd h id | exact congrArg (· + 1) (ih h.2)

def Quiet (h : History) : Prop := ∀ e ∈ h, e.1.api = false

theorem Quiet.snoc (hq : Quiet h) (he : e.1.api = false) : Quiet (h ++ [e]) :=
  forall_snoc hq he

theorem Quiet.apis (hq : Quiet h) : apis h = [] := by
  simp only [Disposal.apis, List.filter_eq_nil_iff, Bool.not_eq_true]
  exact hq

theorem Quiet.prompt (hq : Quiet h) : Prompt x h := by
  induction h with
  | nil => trivial
  | cons e h ih =>
    obtain ⟨he, hh⟩ := List.forall_mem_cons.mp hq
    exact ⟨fun ha => by simp [he] at ha, ih hh⟩

theorem Quiet.tally (hq : Quiet h) (hc : s.apiCalls = 0) (hm : s.mutationAttempts = 0)
    (hb : s.observedBytes = 0) : Tally h s where
  calls := by rw [hc, hq.apis]; rfl
  attempts := by
    have : mutations h = [] := by
      simp only [mutations, List.filter_eq_nil_iff, Bool.not_eq_true]
      exact fun e he => Bool.eq_false_iff.mpr fun hmut => by
        simpa [api_of_mutates hmut] using hq e he
    rw [hm, this]
    rfl
  bytes := by rw [hb]; decide

section Archives

variable {G : History → Request → Prop} (hG : ∀ h q, q.api = false → G h q)
  {grant : VerifiedMutationGrant} {Fail : History → ExecutionReport → Prop}
  (hFail : ∀ h, Quiet h → Fail h s)

include hG in
theorem guarded_granted (hq : Quiet h) :
    Guarded G (granted grant) h s (fun _ h' s' => Quiet h' ∧ s' = s) Fail :=
  guarded_bind (guarded_request (hG _ _ rfl) fun _ =>
    guarded_pure ⟨hq.snoc rfl, rfl⟩)

include hG in
theorem guarded_stillQualified (hq : Quiet h) :
    Guarded G (stillQualified grant) h s (fun _ h' s' => Quiet h' ∧ s' = s) Fail := by
  refine guarded_bind (guarded_request (hG _ _ rfl) fun done => ?_)
  split
  · exact guarded_pure ⟨hq.snoc rfl, rfl⟩
  · exact guarded_granted hG (hq.snoc rfl)

include hFail in
theorem guarded_check {p : X Bool} {e : ExecErr} {α : Type} {k : X α}
    {Post : α → History → ExecutionReport → Prop}
    (hp : Guarded G p h s (fun _ h' s' => Quiet h' ∧ s' = s) Fail)
    (hk : ∀ h', Quiet h' → Guarded G k h' s Post Fail) :
    Guarded G (p >>= fun b => failIf (!b) e >>= fun _ => k) h s Post Fail := by
  refine hp.andThen fun b h' s' ⟨hq, hs⟩ => ?_
  subst hs
  exact guarded_unless (hFail h' hq) fun _ => hk h' hq

include hG hFail in
theorem guarded_checkSizes {p : ExecutionPlanPayload} {total : Int} (hq : Quiet h) :
    Guarded G (checkSizes p grant archives total) h s
      (fun _ h' s' => Quiet h' ∧ s' = s) Fail := by
  induction archives generalizing h total with
  | nil => exact guarded_pure ⟨hq, rfl⟩
  | cons raw archives ih =>
    unfold checkSizes
    refine guarded_check hFail (guarded_stillQualified hG hq) fun h₁ hq₁ => ?_
    refine guarded_unless (hFail h₁ hq₁) fun _ => ?_
    refine guarded_unless (hFail h₁ hq₁) fun _ => ?_
    exact guarded_unless (hFail h₁ hq₁) fun _ => ih hq₁

include hG hFail in
theorem guarded_qualifyAll (hlen : archives.length = targets.length) (hq : Quiet h) :
    Guarded G (qualifyAll T grant targets archives) h s
      (fun refs h' s' => Archived T targets archives refs ∧ Quiet h' ∧ s' = s) Fail := by
  induction targets generalizing h archives with
  | nil =>
    obtain rfl := List.length_eq_zero_iff.mp hlen
    exact guarded_pure ⟨trivial, hq, rfl⟩
  | cons t targets ih =>
    cases archives with
    | nil => cases hlen
    | cons raw archives =>
      unfold qualifyAll
      refine guarded_check hFail (guarded_stillQualified hG hq) fun h₁ hq₁ => ?_
      cases hr : T.qualifyArchive t raw with
      | none => exact guarded_throw (hFail h₁ hq₁)
      | some r =>
        refine guarded_unless (hFail h₁ hq₁) fun hd => ?_
        refine guarded_check hFail (guarded_stillQualified hG hq₁) fun h₂ hq₂ => ?_
        refine (ih (Nat.succ.inj hlen) hq₂).andThen fun refs h₃ s₃ hrefs => ?_
        have hdigest : r.2 = t.qualificationDigest := by simpa using hd
        exact guarded_pure ⟨⟨hdigest ▸ hr, hrefs.1⟩, hrefs.2⟩

include hG hFail in
theorem guarded_preflightArchives {plan : VerifiedExecutionPlan}
    (hlen : archives.length = plan.payload.targets.length) (hq : Quiet h) :
    Guarded G (preflightArchives T plan grant archives) h s
      (fun refs h' s' => Archived T plan.payload.targets archives refs ∧ Quiet h' ∧ s' = s)
      Fail := by
  unfold preflightArchives
  refine guarded_unless (hFail h hq) fun _ => ?_
  refine guarded_check hFail (guarded_stillQualified hG hq) fun h₁ hq₁ => ?_
  refine guarded_unless (hFail h₁ hq₁) fun _ => ?_
  refine guarded_unless (hFail h₁ hq₁) fun _ => ?_
  refine (guarded_checkSizes hG hFail hq₁).andThen fun _ h₂ s₂ ⟨hq₂, hs₂⟩ => ?_
  subst hs₂
  exact guarded_qualifyAll hG hFail hlen hq₂

end Archives

/-- The condition on an API call of `execute`: it is permitted for the archives that were
qualified. -/
def ExecuteRule (T : Tools) (plan : VerifiedExecutionPlan) (grant : VerifiedMutationGrant)
    (archives : List String) (h : History) (q : Request) : Prop :=
  q.api → ∃ refs, Archived T plan.payload.targets archives refs ∧
    Permitted { tools := T, plan := plan.payload, grant := grant, refs := refs } h q

theorem guarded_executeBody (T : Tools) (plan : VerifiedExecutionPlan)
    (grant : VerifiedMutationGrant) (archives : List String) :
    Guarded (ExecuteRule T plan grant archives) (executeBody T plan grant archives) []
      (emptyReport plan grant) (fun _ => Tally) Tally := by
  have hG : ∀ h q, Request.api q = false → ExecuteRule T plan grant archives h q := by
    intro h q hq hapi
    rw [hq] at hapi
    cases hapi
  have hFail : ∀ h, Quiet h → Tally h (emptyReport plan grant) := fun h hq => hq.tally rfl rfl rfl
  have hnil : Quiet [] := fun _ he => by cases he
  refine guarded_unless (hFail _ hnil) fun hvalid => ?_
  refine guarded_check hFail (guarded_granted hG hnil) fun h₁ hq₁ => ?_
  refine guarded_bind (guarded_request (hG _ _ rfl) fun (done : Bool) => ?_)
  have hq₂ := hq₁.snoc (e := ⟨.callerErr, done⟩) rfl
  refine guarded_unless (hFail _ hq₂) fun _ => ?_
  refine guarded_unless (hFail _ hq₂) fun hlen => ?_
  have hlen : archives.length = plan.payload.targets.length := by simpa using hlen
  refine (guarded_preflightArchives hG hFail hlen hq₂).andThen
    fun refs h₃ s₃ ⟨hrefs, hq₃, hs₃⟩ => ?_
  subst hs₃
  refine guarded_check hFail (guarded_granted hG hq₃) fun h₄ hq₄ => ?_
  -- from here on the archives are fixed
  have hsorted : plan.payload.sorted := by
    refine plan.checked ?_
    simp only [Bool.or_eq_false_iff, Bool.not_eq_false'] at hvalid
    exact hvalid.1.1
  have hrun := guarded_run (h := h₄) (s := emptyReport plan grant)
    (x := { tools := T, plan := plan.payload, grant := grant, refs := refs })
    hsorted hrefs.length.le (hFail _ hq₄) hq₄.prompt hq₄.apis
  exact Prog.Guarded.weaken hrun fun h q hrule hapi => ⟨refs, hrefs, hrule hapi⟩

theorem guarded_execute (T : Tools) (plan : VerifiedExecutionPlan) (grant : VerifiedMutationGrant)
    (archives : List String) :
    (execute T plan grant archives).Guarded (ExecuteRule T plan grant archives) []
      fun h r => Tally h r.2 := by
  refine Prog.Guarded.mono (guarded_executeBody T plan grant archives) fun h r hr => ?_
  obtain ⟨r, s⟩ := r
  cases r with
  | ok u => exact hr
  | error e => exact hr

/-- Whatever the API, the clock and the contexts answer, every API call of the executor is permitted;
nothing follows one that came back late; and the report counts the calls and mutations that were
issued. -/
theorem execute_disciplined (T : Tools) (plan : VerifiedExecutionPlan)
    (grant : VerifiedMutationGrant) (archives : List String) :
    (∀ tr e, (execute T plan grant archives).Plays (tr ++ [e]) → e.1.api →
      ∃ refs, Archived T plan.payload.targets archives refs ∧
        Permitted { tools := T, plan := plan.payload, grant := grant, refs := refs } tr e.1) ∧
    ∀ tr result report, (execute T plan grant archives).Ends tr (result, report) →
      report.apiCalls = (apis tr).length ∧ report.mutationAttempts = (mutations tr).length ∧
        report.observedBytes ≤ executionMaxObservedBytes := by
  have hg := guarded_execute T plan grant archives
  constructor
  · intro tr e hplay hapi
    exact hg.issued hplay hapi
  · intro tr result report hend
    have ht := hg.ended hend
    exact ⟨ht.calls, ht.attempts, ht.bytes⟩

def heldPod (resourceVersion : String) (rest : List (String × Value)) : Value :=
  .obj [("apiVersion", .str "v1"), ("kind", .str "Pod"),
    ("metadata", .obj ([("name", .str "p"), ("namespace", .str "n"), ("uid", .str "u"),
      ("resourceVersion", .str resourceVersion)] ++ rest))]

def holdFinalizer : String × Value := ("finalizers", .arr [.str "kova.cofy.dev/recovery-hold"])

def deletionTimestamp : String × Value := ("deletionTimestamp", .str "2026-01-01T00:00:00Z")

def plainTools : Tools where
  marshal v := some (String.ofList (print v))
  unmarshalStrict _ := some (heldPod "1" [holdFinalizer])
  digestBytes := id
  timestamp _ := true
  qualificationDigest _ _ := "q"
  validMutationGrant _ _ := true

def archivedPod : String := String.ofList (print (heldPod "1" [holdFinalizer]))

def onePodPlan : VerifiedExecutionPlan where
  valid := true
  planDigest := "d"
  payload :=
    { systemNamespace := "kube-system", systemNamespaceUID := "k"
      sourceNamespace := "n", sourceNamespaceUID := "nu"
      receiptNamespace := "r", receiptNamespaceUID := "ru"
      evidenceArchiveBytes := 1000, maxCalls := 33, maxObjectArchiveBytes := 1000
      maxArchiveBytes := 1000
      targets := [
        { resource := { version := "v1", resource := "pods" }, namespaceName := "n"
          namespaceUID := "nu", name := "p", uid := "u", role := "original-pod"
          dispositionID := "", archiveResourceVersion := "1", archiveDigest := archivedPod
          archiveBytes := archivedPod.utf8ByteSize
          qualificationVersion := "kova-disposal-object-qualification-v1"
          qualificationDigest := "q"
          allowedKovaFinalizers := ["kova.cofy.dev/recovery-hold"] }] }
  checked _ := List.pairwise_singleton _ _

def openGrant : VerifiedMutationGrant where
  valid := true
  envelopeDigest := "g"
  notBefore := 0
  expiresAt := 10

def namespaceObject (name : String) : Value :=
  .obj [("apiVersion", .str "v1"), ("kind", .str "Namespace"),
    ("metadata", .obj ([("name", .str name), ("resourceVersion", .str "1"),
      ("uid", .str (if name == "kube-system" then "k" else name ++ "u"))] ++
        if name == "kube-system" then [] else [deletionTimestamp])),
    ("status", .obj [("phase", .str (if name == "kube-system" then "Active" else "Terminating"))])]

def obedient (h : History) : (q : Request) → Answer q
  | .now => (1 : Int)
  | .callerErr | .ctxErr | .callErr => false
  | .getNamespace name => (.ok (namespaceObject name) : Except ApiErr Value)
  | .getTarget .. => (.ok (match (mutations h).length with
      | 0 => heldPod "1" [holdFinalizer]
      | 1 => heldPod "2" [holdFinalizer, deletionTimestamp]
      | _ => heldPod "3" [deletionTimestamp]) : Except ApiErr Value)
  | .delete .. => (.ok () : Except ApiErr Unit)
  | .patch .. => (.ok (heldPod "3" [deletionTimestamp]) : Except ApiErr Value)

def onePodRun : History × Except ExecErr Unit × ExecutionReport :=
  (execute plainTools onePodPlan openGrant [archivedPod]).play obedient []

theorem onePodRun_report : onePodRun.2.2.mutationAttempts = 2 := by
  decide +kernel

theorem execute_disciplined_onePod : (mutations onePodRun.1).length = 2 := by
  have hcount : ∀ run : History × Except ExecErr Unit × ExecutionReport,
      (∃ tr, run.1 = [] ++ tr ∧
        (execute plainTools onePodPlan openGrant [archivedPod]).Ends tr run.2) →
      (mutations run.1).length = run.2.2.mutationAttempts := by
    rintro ⟨h, result, report⟩ ⟨tr, htr, hend⟩
    obtain rfl : h = tr := htr
    exact ((execute_disciplined plainTools onePodPlan openGrant [archivedPod]).2 h result report
      hend).2.1.symm
  exact (hcount onePodRun (Prog.ends_play obedient _ [])).trans onePodRun_report

end KovaService.Disposal
