import KovaService.Batch.Build

/-!
A call of `RunBuild` that returns nil has built everything, as long as no interrupt arrives before all
jobs have been started.

The loop stops early only when the context is done or a failure was raised, and each way to get there
is seen by one of the checks at the end, except the handler of the interrupt signal: it cancels the
context of the batch, and the last check asks the context of the operation.
-/

namespace KovaService.Batch

open Lib Api

variable {o : Outcome} {spec : Spec}

namespace State

def Built (s : State) (spec : Spec) : Prop :=
  ∃ digest, (spec, .ok digest) ∈ s.executed ∧ executeBuild spec (.ok digest) ∈ s.stored

def started (s : State) : List BuildJob := s.tasks.map Task.job

structure Grows (s s' : State) : Prop where
  executed : s.executed ⊆ s'.executed
  stored : s.stored ⊆ s'.stored
  failed : s.failed → s'.failed
  opCtxErr : s.opCtxErr.isSome → s'.opCtxErr.isSome

variable {s : State}

theorem Grows.built {s' : State} (h : Grows s s') (hb : s.Built spec) : s'.Built spec := by
  obtain ⟨digest, he, hs⟩ := hb
  exact ⟨digest, h.executed he, h.stored hs⟩

end State

/-- Where the goroutine of a job stands: what it has left behind is built, and it does not end
without a failure otherwise. -/
def TaskPc.Ok (s : State) (specs : List Spec) : TaskPc → Prop
  | .build rest => ∃ front, specs = front ++ rest ∧ ∀ spec ∈ front, s.Built spec
  | .persist spec outcome rest => ∃ front, specs = front ++ spec :: rest ∧
      (∀ spec ∈ front, s.Built spec) ∧ (spec, outcome) ∈ s.executed
  | .recordFatal _ | .raiseFatal | .finish false | .raiseFailed => True
  | .cancelFatal | .cancelFailed => s.failed = true
  | .finish true => ∀ spec ∈ specs, s.Built spec
  | .done => s.failed = true ∨ ∀ spec ∈ specs, s.Built spec

variable {pc : TaskPc} {specs : List Spec}

theorem TaskPc.Ok.mono {s' : State} (h : s.Grows s') (hpc : pc.Ok s specs) : pc.Ok s' specs := by
  cases pc with
  | build rest =>
    obtain ⟨front, hf, hb⟩ := hpc
    exact ⟨front, hf, fun spec hs => h.built (hb spec hs)⟩
  | persist spec outcome rest =>
    obtain ⟨front, hf, hb, he⟩ := hpc
    exact ⟨front, hf, fun spec hs => h.built (hb spec hs), h.executed he⟩
  | finish success =>
    cases success with
    | false => trivial
    | true => exact fun spec hs => h.built (hpc spec hs)
  | done => exact hpc.imp h.failed fun hb spec hs => h.built (hb spec hs)
  | cancelFatal => exact h.failed hpc
  | cancelFailed => exact h.failed hpc
  | recordFatal e => trivial
  | raiseFatal => trivial
  | raiseFailed => trivial

structure Moves (s s' : State) (i : Nat) (specs : List Spec) (pc : TaskPc) : Prop where
  tasks : s'.tasks = (s.goto i pc).tasks
  main : s'.main = s.main
  grows : s.Grows s'
  cancels : s'.ctxDone → s.ctxDone ∨ s'.failed
  ok : pc.Ok s' specs

theorem Moves.of_goto {i : Nat} (h : pc.Ok s specs) :
    Moves s (s.goto i pc) i specs pc where
  tasks := rfl
  main := rfl
  grows := ⟨fun _ h => h, fun _ h => h, id, id⟩
  cancels := .inl
  ok := h.mono ⟨fun _ h => h, fun _ h => h, id, id⟩

section Tasks

variable {opts : Options} {s s' : State} {i : Nat} {specs : List Spec} {rest : List Spec}

theorem build_moves (h : (TaskPc.build rest).Ok s specs)
    (hs : s.taskStep opts i (.build rest) o = some s') : ∃ pc, Moves s s' i specs pc := by
  obtain ⟨front, hf, hb⟩ := h
  have hexec : ∀ spec outcome, s.Grows
      { s.goto i (.persist spec outcome rest.tail) with
        executed := s.executed ++ [(spec, outcome)] } := fun spec outcome =>
    ⟨List.subset_append_left _ _, fun _ h => h, id, id⟩
  cases rest with
  | nil =>
    cases o <;> cases hs
    refine ⟨.finish true, .of_goto fun spec hspec => hb spec ?_⟩
    simpa [hf] using hspec
  | cons spec rest =>
    cases o <;> cases hs
    all_goals
      exact ⟨_, rfl, rfl, hexec _ _, .inl, front, hf,
        fun spec hspec => (hexec _ _).built (hb spec hspec), by simp⟩

theorem persist_moves {outcome : Except String String}
    (h : (TaskPc.persist spec outcome rest).Ok s specs)
    (hs : s.taskStep opts i (.persist spec outcome rest) o = some s') :
    ∃ pc, Moves s s' i specs pc := by
  obtain ⟨front, hf, hb, he⟩ := h
  cases o with
  | ok =>
    cases hs
    refine ⟨_, rfl, rfl, ⟨fun _ h => h, List.subset_append_left _ _, id, id⟩, .inl, ?_⟩
    cases outcome with
    | error e => trivial
    | ok digest =>
      refine ⟨front ++ [spec], by simp [hf], fun spec' hspec => ?_⟩
      rcases List.mem_append.mp hspec with hold | hnew
      · obtain ⟨d, hd, hstored⟩ := hb spec' hold
        exact ⟨d, hd, List.mem_append_left _ hstored⟩
      · obtain rfl := List.mem_singleton.mp hnew
        exact ⟨digest, he, List.mem_append_right _ (List.mem_singleton_self _)⟩
  | fail e =>
    cases hs
    exact ⟨_, .of_goto trivial⟩
  | digest d => cases hs
  | ctxDone => cases hs

theorem task_moves (h : pc.Ok s specs) (hs : s.taskStep opts i pc o = some s') :
    ∃ pc', Moves s s' i specs pc' := by
  cases pc with
  | build rest => exact build_moves h hs
  | persist spec outcome rest => exact persist_moves h hs
  | recordFatal e =>
    cases o <;> cases hs
    exact ⟨.raiseFatal, rfl, rfl, ⟨fun _ h => h, fun _ h => h, id, id⟩, .inl, trivial⟩
  | raiseFatal =>
    cases o <;> cases hs
    exact ⟨.cancelFatal, rfl, rfl, ⟨fun _ h => h, fun _ h => h, fun _ => rfl, id⟩,
      fun _ => .inr rfl, rfl⟩
  | cancelFatal =>
    cases o <;> cases hs
    exact ⟨.done, rfl, rfl, ⟨fun _ h => h, fun _ h => h, id, id⟩, fun _ => .inr h, .inl h⟩
  | finish success =>
    cases o <;> cases hs
    cases success with
    | false => exact ⟨_, .of_goto trivial⟩
    | true => exact ⟨.done, .of_goto (.inr h)⟩
  | raiseFailed =>
    cases o <;> cases hs
    refine ⟨_, rfl, rfl, ⟨fun _ h => h, fun _ h => h, fun _ => rfl, id⟩, fun _ => .inr rfl, ?_⟩
    cases opts.failfast with
    | false => exact .inl rfl
    | true => rfl
  | cancelFailed =>
    cases o <;> cases hs
    exact ⟨.done, rfl, rfl, ⟨fun _ h => h, fun _ h => h, id, id⟩, fun _ => .inr h, .inl h⟩
  | done => cases o <;> cases hs

end Tasks

namespace State

/-- All jobs have been started, or one of the checks at the end will see why not. -/
def Accounted (s : State) (jobs : List BuildJob) : Prop :=
  s.started = jobs ∨ s.failed ∨ s.opCtxErr.isSome

def Joined (s : State) : Prop := ∀ t ∈ s.tasks, t.pc = .done

end State

def MainPc.Ok (s : State) (jobs : List BuildJob) : MainPc → Prop
  | .schedule rest => s.started ++ rest = jobs
  | .guardCtx job rest | .route job rest | .poll job rest | .pick job rest | .pause job rest
  | .acquire job rest => s.started ++ job :: rest = jobs
  | .raiseFatal | .returned (some _) | .panicked => True
  | .wait => s.Accounted jobs
  | .checkFatal | .checkCtx => s.Accounted jobs ∧ s.Joined
  | .checkFailed => (s.started = jobs ∨ s.failed = true) ∧ s.Joined
  | .returned none => ∀ job ∈ jobs, ∀ spec ∈ job.specs, s.Built spec

variable {jobs : List BuildJob}

theorem MainPc.Ok.mono {s' : State} {pc : MainPc} (h : s.Grows s')
    (hstarted : s'.started = s.started) (hjoined : s.Joined → s'.Joined) (hpc : pc.Ok s jobs) :
    pc.Ok s' jobs := by
  have haccounted : s.Accounted jobs → s'.Accounted jobs :=
    .imp hstarted.trans (.imp h.failed h.opCtxErr)
  cases pc with
  | wait => exact haccounted hpc
  | checkFatal => exact hpc.imp haccounted hjoined
  | checkCtx => exact hpc.imp haccounted hjoined
  | checkFailed => exact hpc.imp (.imp hstarted.trans h.failed) hjoined
  | returned err =>
    cases err with
    | none => exact fun job hj spec hs => h.built (hpc job hj spec hs)
    | some e => trivial
  | raiseFatal => trivial
  | panicked => trivial
  | _ => exact (congrArg (· ++ _) hstarted).trans hpc

structure Sound (jobs : List BuildJob) (s : State) : Prop where
  tasks : ∀ t ∈ s.tasks, t.pc.Ok s t.job.specs
  main : s.main.Ok s jobs
  cancelled : s.ctxDone → s.Accounted jobs

namespace Sound

variable {opts : Options} {jobs : List BuildJob} {s s' : State}

theorem goto (h : Sound jobs s) {pc : MainPc} (hpc : pc.Ok s jobs) :
    Sound jobs { s with main := pc } := by
  have hgrows : s.Grows { s with main := pc } := ⟨fun _ h => h, fun _ h => h, id, id⟩
  exact ⟨fun t ht => (h.tasks t ht).mono hgrows, hpc.mono hgrows rfl id, h.cancelled⟩

theorem goto_ite (h : Sound jobs s) {c : Prop} [Decidable c] {pc pc' : MainPc}
    (hpc : c → pc.Ok s jobs) (hpc' : ¬ c → pc'.Ok s jobs) :
    Sound jobs { s with main := if c then pc else pc' } := by
  refine h.goto ?_
  split
  · next hc => exact hpc hc
  · next hc => exact hpc' hc

theorem started_goto (s : State) (i : Nat) (pc : TaskPc) : (s.goto i pc).started = s.started := by
  apply List.ext_getElem?
  intro j
  simp only [State.started, State.goto, List.getElem?_map, List.getElem?_modify]
  cases s.tasks[j]? with
  | none => rfl
  | some t =>
    by_cases hij : i = j
    · simp [hij]
    · simp [hij]

theorem mem_goto {i : Nat} {t : Task} (h : t ∈ (s.goto i pc).tasks) :
    t ∈ s.tasks ∨ ∃ t₀, s.tasks[i]? = some t₀ ∧ t = { t₀ with pc := pc } := by
  obtain ⟨j, hj⟩ := List.mem_iff_getElem?.mp h
  simp only [State.goto, List.getElem?_modify] at hj
  split at hj
  · next hij =>
    obtain ⟨t₀, ht₀, rfl⟩ := Option.map_eq_some_iff.mp hj
    exact .inr ⟨t₀, hij ▸ ht₀, rfl⟩
  · exact .inl (List.mem_of_getElem? (by simpa using hj))

theorem task {i : Nat} {t : Task} (h : Sound jobs s) (ht : s.tasks[i]? = some t)
    (hs : s.taskStep opts i t.pc o = some s') : Sound jobs s' := by
  have hmem := List.mem_of_getElem? ht
  obtain ⟨pc, hm⟩ := task_moves (h.tasks t hmem) hs
  have hstarted : s'.started = s.started := by
    rw [← started_goto s i pc]
    exact congrArg (List.map Task.job) hm.tasks
  have hjoined : s.Joined → s'.Joined := by
    intro hj
    rw [hj t hmem] at hs
    cases o <;> cases hs
  refine ⟨fun t' ht' => ?_, hm.main ▸ h.main.mono hm.grows hstarted hjoined, fun hc => ?_⟩
  · rw [hm.tasks] at ht'
    rcases mem_goto ht' with hold | ⟨t₀, ht₀, rfl⟩
    · exact (h.tasks t' hold).mono hm.grows
    · cases ht.symm.trans ht₀
      exact hm.ok
  · rcases hm.cancels hc with hc | hfailed
    · exact (h.cancelled hc).imp hstarted.trans (.imp hm.grows.failed hm.grows.opCtxErr)
    · exact .inr (.inl hfailed)

theorem acquire {job : BuildJob} {rest : List BuildJob} (h : Sound jobs s)
    (hpc : s.started ++ job :: rest = jobs) :
    Sound jobs { s with
      tasks := s.tasks ++ [⟨job, .build job.specs⟩], main := .schedule rest } := by
  refine ⟨fun t ht => ?_, ?_, fun hc => ?_⟩
  · rcases List.mem_append.mp ht with hold | hnew
    · exact (h.tasks t hold).mono ⟨fun _ h => h, fun _ h => h, id, id⟩
    · obtain rfl := List.mem_singleton.mp hnew
      exact ⟨[], rfl, by simp⟩
  · simpa [MainPc.Ok, State.started] using hpc
  · rcases h.cancelled hc with hall | hflag
    · have := congrArg List.length (hall.trans hpc.symm)
      simp at this
    · exact .inr hflag

theorem built (h : Sound jobs s) (hj : s.Joined) (hstarted : s.started = jobs)
    (hf : s.failed = false) : ∀ job ∈ jobs, ∀ spec ∈ job.specs, s.Built spec := by
  intro job hjob
  rw [← hstarted] at hjob
  obtain ⟨t, ht, rfl⟩ := List.mem_map.mp hjob
  have hok := h.tasks t ht
  rw [hj t ht] at hok
  exact hok.resolve_left (by simp [hf])

theorem joined_of_running (h : s.running = 0) : s.Joined := by
  intro t ht
  have := List.length_eq_zero_iff.mp h
  simpa using List.filter_eq_nil_iff.mp this t ht

theorem mainStep (h : Sound jobs s) (hs : s.mainStep opts s.main o = some s') : Sound jobs s' := by
  have hmain := h.main
  revert hmain hs
  cases s.main with
  | schedule rest =>
    cases rest with
    | nil =>
      cases o <;> rintro ⟨⟩ hpc
      exact h.goto (.inl (by simpa [MainPc.Ok] using hpc))
    | cons job rest =>
      cases o <;> rintro ⟨⟩ hpc
      exact h.goto_ite (fun hc => .inr (.inl (by simp_all))) fun _ => hpc
  | guardCtx job rest =>
    cases o <;> rintro ⟨⟩ hpc
    exact h.goto_ite h.cancelled fun _ => hpc
  | route job rest =>
    cases o <;> rintro ⟨⟩ hpc
    split
    · exact h.goto hpc
    · exact ⟨fun t ht => (h.tasks t ht).mono ⟨fun _ h => h, fun _ h => h, id, id⟩, trivial,
        h.cancelled⟩
  | raiseFatal =>
    cases o <;> rintro ⟨⟩ hpc
    have hgrows : s.Grows { s with failed := true, main := .wait } :=
      ⟨fun _ h => h, fun _ h => h, fun _ => rfl, id⟩
    exact ⟨fun t ht => (h.tasks t ht).mono hgrows, .inr (.inl rfl), fun _ => .inr (.inl rfl)⟩
  | poll job rest =>
    cases o <;> rintro ⟨⟩ hpc
    exact h.goto_ite h.cancelled fun _ => hpc
  | pick job rest =>
    cases o <;> rintro ⟨⟩ hpc
    all_goals exact h.goto hpc
  | pause job rest =>
    cases o with
    | ok =>
      rintro ⟨⟩ hpc
      exact h.goto hpc
    | ctxDone =>
      intro hs _
      simp only [State.mainStep] at hs
      split at hs
      · next hc =>
        cases hs
        exact h.goto (h.cancelled hc)
      · cases hs
    | digest d => rintro ⟨⟩
    | fail e => rintro ⟨⟩
  | acquire job rest =>
    cases o with
    | ok =>
      intro hs hpc
      simp only [State.mainStep] at hs
      split at hs
      · cases hs
        exact h.acquire hpc
      · cases hs
    | ctxDone =>
      intro hs _
      simp only [State.mainStep] at hs
      split at hs
      · next hc =>
        cases hs
        exact h.goto (h.cancelled hc)
      · cases hs
    | digest d => rintro ⟨⟩
    | fail e => rintro ⟨⟩
  | wait =>
    cases o with
    | ok =>
      intro hs hpc
      simp only [State.mainStep] at hs
      split at hs
      · next hrun =>
        cases hs
        exact h.goto ⟨hpc, joined_of_running hrun⟩
      · cases hs
    | _ => rintro ⟨⟩
  | checkFatal =>
    cases o <;> rintro ⟨⟩ hpc
    refine h.goto_ite (fun hc => ?_) fun _ => hpc
    obtain ⟨e, he⟩ := Option.isSome_iff_exists.mp hc
    rw [he]
    trivial
  | checkCtx =>
    cases o <;> rintro ⟨⟩ hpc
    refine h.goto_ite (fun hc => ?_) fun hc => ?_
    · obtain ⟨e, he⟩ := Option.isSome_iff_exists.mp hc
      rw [he]
      trivial
    · exact ⟨hpc.1.imp_right fun hflag => hflag.resolve_right hc, hpc.2⟩
  | checkFailed =>
    cases o <;> rintro ⟨⟩ hpc
    refine h.goto ?_
    cases hf : s.failed with
    | true => trivial
    | false => exact h.built hpc.2 (hpc.1.resolve_right (by simp [hf])) hf
  | returned err => cases o <;> rintro ⟨⟩
  | panicked => cases o <;> rintro ⟨⟩

theorem callerDone (h : Sound jobs s) (e : String) :
    Sound jobs { s with opCtxErr := s.opCtxErr.or (some e) } := by
  have hgrows : s.Grows { s with opCtxErr := s.opCtxErr.or (some e) } :=
    ⟨fun _ h => h, fun _ h => h, id, fun _ => by simp⟩
  exact ⟨fun t ht => (h.tasks t ht).mono hgrows, h.main.mono hgrows rfl id,
    fun hc => .inr (.inr (by simp))⟩

theorem cancel (h : Sound jobs s) (ha : s.Accounted jobs) :
    Sound jobs { s with ctxDone := true } := by
  have hgrows : s.Grows { s with ctxDone := true } := ⟨fun _ h => h, fun _ h => h, id, id⟩
  exact ⟨fun t ht => (h.tasks t ht).mono hgrows, h.main.mono hgrows rfl id, fun _ => ha⟩

end Sound

/-- An interrupt may arrive when all jobs have been started, or when it is not listened to. -/
def Uninterrupted (opts : Options) (jobs : List BuildJob) (s : State) (a : Action) : Prop :=
  a = .interrupt → opts.callerCtx ∨ s.started = jobs

def jobsOf (opts : Options) (x : Outside) : List BuildJob :=
  match loaded opts x with
  | .ok specs => groupBuildSpecs specs
  | .error _ => []

theorem sound_step {opts : Options} {s' : State} {a : Action} (h : Sound jobs s)
    (ha : Uninterrupted opts jobs s a) (hs : s.step opts a = some s') :
    Sound jobs s' := by
  cases a with
  | main o => exact h.mainStep hs
  | task i o =>
    obtain ⟨t, ht, hstep⟩ := Option.bind_eq_some_iff.mp hs
    exact h.task ht hstep
  | callerDone e =>
    simp only [State.step] at hs
    split at hs <;> cases hs
    exact h.callerDone e
  | inherit =>
    simp only [State.step] at hs
    split at hs
    · next hc =>
      cases hs
      exact h.cancel (.inr (.inr hc))
    · cases hs
  | interrupt =>
    simp only [State.step] at hs
    split at hs
    · cases hs
    · next hc =>
      cases hs
      exact h.cancel (.inl ((ha rfl).resolve_left hc))

theorem sound_start (opts : Options) (x : Outside) :
    Sound (jobsOf opts x) (State.start opts x) := by
  refine ⟨by simp [State.start], ?_, by simp [State.start]⟩
  unfold State.start jobsOf
  cases loaded opts x with
  | error e => trivial
  | ok specs =>
    simp only
    cases x.newStore <;> split_ifs with hempty htarget hjobs
    all_goals first
      | trivial
      | rfl
      | simp [List.isEmpty_iff.mp ‹_›, MainPc.Ok, groupBuildSpecs_nil]

/-- A call that returns nil has built every spec that was loaded and stored its success, if no
interrupt arrives before all jobs have been started. -/
theorem nil_means_built (opts : Options) (x : Outside)
    (h : (runBuild opts x).Reachable (Uninterrupted opts (jobsOf opts x)) s)
    (hnil : s.main = .returned none) (hl : loaded opts x = .ok specs) :
    ∀ spec ∈ specs, s.Built spec := by
  have hsound : Sound (jobsOf opts x) s := by
    refine h.invariant (sound_start opts x) fun s a s' r hs ha hstep => ?_
    obtain ⟨s₁, hs₁, heq⟩ := Option.map_eq_some_iff.mp hstep
    cases heq
    exact sound_step hs ha hs₁
  intro spec hspec
  obtain ⟨job, hjob, hmem⟩ := exists_job hspec
  have hmain := hsound.main
  rw [hnil] at hmain
  exact hmain job (by simpa [jobsOf, hl] using hjob) spec hmem

def oneSpec : Options where
  addrs := ["tcp://b"]

def oneLoaded : Outside where
  toLibrary := plainLibrary
  prepareSingleImageDir := .ok
  loadSpecs _ _ _ := .ok [⟨"", "t_nydus_v3", "linux/amd64", .nydus⟩]
  newStore := .ok ()

def oneBuilt : List Action :=
  [.main .ok, .main .ok, .main .ok, .main .ok, .main .ok, .main .ok, .task 0 (.digest "d"),
    .task 0 .ok, .task 0 .ok, .task 0 .ok, .main .ok, .main .ok, .main .ok, .main .ok, .main .ok]

theorem nil_means_built_one : ∃ s, (runBuild oneSpec oneLoaded).Reachable
    (Uninterrupted oneSpec (jobsOf oneSpec oneLoaded)) s ∧
      s.main = .returned none ∧ s.Built ⟨"", "t_nydus_v3", "linux/amd64", .nydus⟩ := by
  have hrun : ((runBuild oneSpec oneLoaded).after (fun _ a => a != .interrupt)
      (State.start oneSpec oneLoaded) oneBuilt).map State.main = some (.returned none) := by
    decide +kernel
  obtain ⟨s, hs, hnil⟩ := Option.map_eq_some_iff.mp hrun
  have hreach : (runBuild oneSpec oneLoaded).Reachable
      (Uninterrupted oneSpec (jobsOf oneSpec oneLoaded)) s :=
    Automaton.steps_of_after hs fun _ a ha he => absurd he (by simpa using ha)
  exact ⟨s, hreach, hnil, nil_means_built oneSpec oneLoaded hreach hnil rfl _ (by simp)⟩

/-- Without a caller's context an interrupt before the first job makes the call return nil with
nothing built. -/
theorem interrupted_returns_nil :
    ∃ (opts : Options) (x : Outside) (specs : List Spec) (s : State),
      loaded opts x = .ok specs ∧ specs ≠ [] ∧
        (runBuild opts x).Reachable (fun _ _ => True) s ∧ s.main = .returned none ∧
          s.executed = [] ∧ s.stored = [] := by
  have hrun : ((runBuild oneSpec oneLoaded).after (fun _ _ => true)
      (State.start oneSpec oneLoaded)
      [.interrupt, .main .ok, .main .ok, .main .ok, .main .ok, .main .ok, .main .ok]).map
        (fun s => (s.main, s.executed, s.stored)) = some (.returned none, [], []) := by
    decide +kernel
  obtain ⟨s, hs, heq⟩ := Option.map_eq_some_iff.mp hrun
  simp only [Prod.mk.injEq] at heq
  exact ⟨oneSpec, oneLoaded, _, s, rfl, by simp,
    Automaton.steps_of_after hs fun _ _ _ => trivial, heq⟩

end KovaService.Batch
