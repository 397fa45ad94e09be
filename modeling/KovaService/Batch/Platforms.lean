import KovaService.Batch.Complete

/-!
The platform of a job and the addresses its specs are sent to.

A job holds the specs of one image and has one platform, that of its first spec.  `Dispatch` follows a
call of `RunBuild` together with its address pools: which slot every job got, and which spec was sent
where.  Every spec goes to the pool of its own platform exactly when no image is declared for two
platforms.
-/

namespace KovaService.Batch

open Lib Api

section Jobs

variable {specs : List Spec}

structure Grouped (specs : List Spec) (jobs : List BuildJob) : Prop where
  once : (jobs.flatMap BuildJob.specs).Perm specs
  keys : (jobs.map BuildJob.key).Nodup
  nydusFirst : ∀ job ∈ jobs, job.specs.Pairwise fun a b => b.format = .nydus → a.format = .nydus
  platform : ∀ job ∈ jobs, ∀ spec ∈ job.specs, spec.platform = job.platform

def OnePlatform (specs : List Spec) : Prop :=
  ∀ a ∈ specs, ∀ b ∈ specs, stripNydusV3Suffix a.target = stripNydusV3Suffix b.target →
    a.platform = b.platform

theorem mem_groupBuildSpecs {job : BuildJob} :
    job ∈ groupBuildSpecs specs ↔
      ∃ spec ∈ specs, job = jobOf specs (stripNydusV3Suffix spec.target) := by
  simp only [groupBuildSpecs, List.mem_map, List.mem_insertionSort, List.mem_dedup]
  constructor
  · rintro ⟨key, ⟨spec, hspec, rfl⟩, rfl⟩
    exact ⟨spec, hspec, rfl⟩
  · rintro ⟨spec, hspec, rfl⟩
    exact ⟨_, ⟨spec, hspec, rfl⟩, rfl⟩

theorem keys_groupBuildSpecs (specs : List Spec) : ((groupBuildSpecs specs).map BuildJob.key) =
    (specs.map fun spec => stripNydusV3Suffix spec.target).dedup.insertionSort (· ≤ ·) := by
  rw [groupBuildSpecs, List.map_map]
  exact List.map_id'' (fun _ => rfl) _

abbrev SpecLE (a b : Spec) : Prop := specLess b a = false

theorem specLE_iff {a b : Spec} : SpecLE a b ↔
    (a.format = .nydus ∧ b.format = .oci) ∨ (a.format = b.format ∧ a.target ≤ b.target) := by
  have hlt : decide (b.target < a.target) = false ↔ a.target ≤ b.target := by
    rw [decide_eq_false_iff_not, not_lt]
  unfold SpecLE specLess formatIsOCI
  cases a.format <;> cases b.format
  · simpa using hlt
  · simp
  · simp
  · simpa using hlt

instance : Std.Total SpecLE where
  total a b := by
    rw [specLE_iff, specLE_iff]
    have := le_total a.target b.target
    cases a.format <;> cases b.format <;> simp [this]

instance : IsTrans Spec SpecLE where
  trans a b c := by
    rw [specLE_iff, specLE_iff, specLE_iff]
    rintro (⟨ha, hb⟩ | ⟨hab, hle⟩) (⟨hb', hc⟩ | ⟨hbc, hle'⟩)
    · exact absurd (hb.symm.trans hb') (by decide)
    · exact .inl ⟨ha, hbc ▸ hb⟩
    · exact .inl ⟨hab.trans hb', hc⟩
    · exact .inr ⟨hab.trans hbc, hle.trans hle'⟩

theorem jobOf_nydusFirst (specs : List Spec) (key : String) :
    (jobOf specs key).specs.Pairwise fun a b => b.format = .nydus → a.format = .nydus := by
  refine (List.pairwise_insertionSort SpecLE _).imp fun hle hb => ?_
  rcases specLE_iff.mp hle with ⟨ha, -⟩ | ⟨hab, -⟩
  · exact ha
  · exact hab.trans hb

theorem flatMap_filter_perm {f : Spec → String} {keys : List String} (hkeys : keys.Nodup)
    (hall : ∀ spec ∈ specs, f spec ∈ keys) :
    (keys.flatMap fun key => specs.filter fun spec => f spec == key).Perm specs := by
  induction keys generalizing specs with
  | nil =>
    obtain rfl := List.eq_nil_iff_forall_not_mem.mpr fun spec h => by simpa using hall spec h
    exact .refl _
  | cons key keys ih =>
    obtain ⟨hkey, hkeys⟩ := List.nodup_cons.mp hkeys
    -- the other keys see only the specs without this one
    have hrest : keys.flatMap (fun k => specs.filter fun spec => f spec == k) =
        keys.flatMap fun k => (specs.filter fun spec => !(f spec == key)).filter
          fun spec => f spec == k := by
      refine List.flatMap_congr fun k hk => ?_
      rw [List.filter_filter]
      refine List.filter_congr fun spec _ => ?_
      by_cases hs : f spec = k
      · have : k ≠ key := fun h => hkey (h ▸ hk)
        simp [hs, this]
      · simp [hs]
    rw [List.flatMap_cons, hrest]
    refine ((ih hkeys fun spec hspec => ?_).append_left _).trans (List.filter_append_perm _ _)
    have := hall spec (List.mem_of_mem_filter hspec)
    simpa [(by simpa using (List.mem_filter.mp hspec).2 : f spec ≠ key)] using this

theorem flatMap_jobOf_perm (specs : List Spec) :
    ((groupBuildSpecs specs).flatMap BuildJob.specs).Perm specs := by
  have hsorted := List.perm_insertionSort (· ≤ ·)
    (specs.map fun spec => stripNydusV3Suffix spec.target).dedup
  rw [groupBuildSpecs, List.flatMap_map]
  refine (List.Perm.flatMap_left _ fun key _ => List.perm_insertionSort _ _).trans ?_
  refine flatMap_filter_perm (hsorted.nodup_iff.mpr (List.nodup_dedup _)) fun spec hspec => ?_
  rw [hsorted.mem_iff, List.mem_dedup]
  exact List.mem_map_of_mem hspec

theorem grouped_iff (specs : List Spec) :
    Grouped specs (groupBuildSpecs specs) ↔ OnePlatform specs := by
  constructor
  · intro h a ha b hb hab
    have hjob : jobOf specs (stripNydusV3Suffix a.target) ∈ groupBuildSpecs specs :=
      mem_groupBuildSpecs.mpr ⟨a, ha, rfl⟩
    rw [h.platform _ hjob a (mem_jobOf.mpr ⟨ha, rfl⟩),
      h.platform _ hjob b (mem_jobOf.mpr ⟨hb, hab.symm⟩)]
  · intro h
    refine ⟨flatMap_jobOf_perm specs, ?_, ?_, ?_⟩
    · rw [keys_groupBuildSpecs]
      exact (List.perm_insertionSort _ _).nodup_iff.mpr (List.nodup_dedup _)
    · intro job hjob
      obtain ⟨spec, -, rfl⟩ := mem_groupBuildSpecs.mp hjob
      exact jobOf_nydusFirst ..
    · intro job hjob spec hspec
      obtain ⟨first, -, rfl⟩ := mem_groupBuildSpecs.mp hjob
      obtain ⟨hmem, hkey⟩ := mem_jobOf.mp hspec
      obtain ⟨head, hhead⟩ : ∃ head, (jobOf specs (stripNydusV3Suffix first.target)).specs.head? =
          some head := Option.isSome_iff_exists.mp (by
        rw [List.isSome_head?]
        exact List.ne_nil_of_mem hspec)
      have hplatform : (jobOf specs (stripNydusV3Suffix first.target)).platform = head.platform := by
        change (Option.map Spec.platform (jobOf _ _).specs.head?).getD "" = _
        rw [hhead]
        rfl
      obtain ⟨hmem', hkey'⟩ := mem_jobOf.mp (List.mem_of_head? hhead)
      rw [hplatform]
      exact h _ hmem _ hmem' (hkey.trans hkey'.symm)

end Jobs

inductive PoolName where
  | platform (name : String)
  | default
  deriving DecidableEq

def poolOf (opts : Options) (platform : String) : PoolName :=
  if (opts.platformAddrs.lookup platform).isSome then .platform platform else .default

structure Slot where
  pool : PoolName
  addr : String
  deriving DecidableEq

/-- A call of `RunBuild` with the addresses of its pools, the slot picked last, the slots of the jobs
started so far and the specs sent so far. -/
structure Dispatch where
  state : State
  pools : PoolName → List String
  picked : Option Slot := none
  slots : List Slot := []
  sent : List (Spec × Slot) := []

inductive Move where
  | refresh (pool : PoolName) (addrs : List String)
  | pick (addr : String)
  | act (a : Action)

namespace Dispatch

variable (opts : Options)

/-- The spec that the goroutine of a task hands to `executeBuild`, with the slot of the task. -/
def sends (d : Dispatch) : Action → List (Spec × Slot)
  | .task i _ =>
    match d.state.tasks[i]?, d.slots[i]? with
    | some ⟨_, .build (spec :: _)⟩, some slot => [(spec, slot)]
    | _, _ => []
  | _ => []

def step (d : Dispatch) : Move → Option Dispatch
  | .refresh pool addrs => some { d with pools := Function.update d.pools pool addrs }
  | .pick addr =>
    match d.state.main with
    | .pick job rest =>
      let pool := poolOf opts job.platform
      if addr ∈ d.pools pool then
        some { d with state := { d.state with main := .acquire job rest }, picked := some ⟨pool, addr⟩ }
      else none
    | _ => none
  | .act a =>
    match d.state.main, a with
    | .pick _ _, .main .ok => none
    | .acquire _ _, .main .ok => (d.state.step opts a).map fun s =>
        { d with state := s, slots := d.slots ++ d.picked.toList }
    | _, _ => (d.state.step opts a).map fun s => { d with state := s, sent := d.sent ++ d.sends a }

end Dispatch

def runDispatch (opts : Options) (x : Outside) : Automaton Dispatch Move Unit where
  init := {
    state := State.start opts x
    pools := fun
      | .platform name => (opts.platformAddrs.lookup name).getD []
      | .default => opts.addrs }
  step d m := (d.step opts m).map fun d' => (d', ())

def TaskPc.ahead : TaskPc → List Spec
  | .build rest | .persist _ _ rest => rest
  | _ => []

def MainPc.ahead : MainPc → List BuildJob
  | .schedule rest => rest
  | .guardCtx job rest | .route job rest | .poll job rest | .pick job rest | .pause job rest
  | .acquire job rest => job :: rest
  | _ => []

variable {o : Outcome}

section Steps

variable {opts : Options} {s s' : State}

theorem taskStep_ahead {i : Nat} {pc : TaskPc} (hs : s.taskStep opts i pc o = some s') :
    s'.main = s.main ∧ ∃ pc', s'.tasks = (s.goto i pc').tasks ∧ pc'.ahead ⊆ pc.ahead := by
  cases pc with
  | build rest =>
    cases rest with
    | nil =>
      cases o <;> cases hs
      exact ⟨rfl, _, rfl, List.Subset.refl _⟩
    | cons spec rest =>
      cases o <;> cases hs
      all_goals exact ⟨rfl, _, rfl, List.subset_cons_self ..⟩
  | persist spec outcome rest =>
    cases o <;> cases hs
    · refine ⟨rfl, _, rfl, ?_⟩
      split
      · exact List.Subset.refl _
      · exact List.nil_subset _
    · exact ⟨rfl, _, rfl, List.nil_subset _⟩
  | finish success =>
    cases o <;> cases hs
    cases success <;> exact ⟨rfl, _, rfl, List.nil_subset _⟩
  | raiseFailed =>
    cases o <;> cases hs
    refine ⟨rfl, _, rfl, ?_⟩
    split <;> exact List.nil_subset _
  | _ =>
    cases o <;> cases hs
    all_goals exact ⟨rfl, _, rfl, List.nil_subset _⟩

/-- A statement of the main goroutine that starts no job. -/
structure Schedules (s s' : State) (o : Outcome) : Prop where
  tasks : s'.tasks = s.tasks
  ahead : s'.main.ahead ⊆ s.main.ahead
  acquire : ∀ job rest, s'.main = .acquire job rest → s.main = .pick job rest ∧ o = .ok

theorem mainStep_ahead (hs : s.mainStep opts s.main o = some s') :
    Schedules s s' o ∨ ∃ job rest, s.main = .acquire job rest ∧ o = .ok ∧
      s' = { s with tasks := s.tasks ++ [⟨job, .build job.specs⟩], main := .schedule rest } := by
  cases hmain : s.main with
  | schedule rest =>
    rw [hmain] at hs
    cases rest with
    | nil =>
      cases o <;> cases hs
      exact .inl ⟨rfl, List.nil_subset _, nofun⟩
    | cons job rest =>
      cases o <;> cases hs
      refine .inl ⟨rfl, ?_, ?_⟩
      all_goals
        dsimp only
        split <;> simp [hmain, MainPc.ahead]
  | acquire job rest =>
    rw [hmain] at hs
    cases o with
    | ok =>
      simp only [State.mainStep] at hs
      split at hs <;> cases hs
      exact .inr ⟨job, rest, rfl, rfl, rfl⟩
    | ctxDone =>
      simp only [State.mainStep] at hs
      split at hs <;> cases hs
      exact .inl ⟨rfl, List.nil_subset _, nofun⟩
    | digest d => cases hs
    | fail e => cases hs
  | _ =>
    rw [hmain] at hs
    cases o <;> simp only [State.mainStep] at hs <;> try split at hs
    all_goals cases hs
    all_goals
      refine .inl ⟨rfl, ?_, ?_⟩
      all_goals
        dsimp only
        try split
        all_goals simp [hmain, MainPc.ahead]

end Steps

/-- What a call keeps: every task has a slot of the pool of its job, and every spec went to the pool
of a job it belongs to. -/
structure Routed (opts : Options) (jobs : List BuildJob) (d : Dispatch) : Prop where
  slots : d.slots.map Slot.pool = d.state.started.map fun job => poolOf opts job.platform
  picked : ∀ job rest, d.state.main = .acquire job rest →
    d.picked.map Slot.pool = some (poolOf opts job.platform)
  tasks : ∀ t ∈ d.state.tasks, t.job ∈ jobs ∧ t.pc.ahead ⊆ t.job.specs
  ahead : d.state.main.ahead ⊆ jobs
  sent : ∀ e ∈ d.sent, ∃ job ∈ jobs, e.1 ∈ job.specs ∧ e.2.pool = poolOf opts job.platform

namespace Routed

variable {opts : Options} {jobs : List BuildJob} {d d' : Dispatch} {s' : State}

theorem sends (h : Routed opts jobs d) (a : Action) :
    ∀ e ∈ d.sends a, ∃ job ∈ jobs, e.1 ∈ job.specs ∧ e.2.pool = poolOf opts job.platform := by
  intro e he
  unfold Dispatch.sends at he
  split at he
  · next i o =>
    split at he
    · next job spec rest slot ht hslot =>
      obtain rfl := List.mem_singleton.mp he
      obtain ⟨hjob, hsub⟩ := h.tasks _ (List.mem_of_getElem? ht)
      refine ⟨job, hjob, hsub (List.mem_cons_self ..), ?_⟩
      have hpool := congrArg (·[i]?) h.slots
      simpa [State.started, ht, hslot] using hpool
    · cases he
  · cases he

theorem send (h : Routed opts jobs d) (a : Action) :
    Routed opts jobs { d with sent := d.sent ++ d.sends a } where
  slots := h.slots
  picked := h.picked
  tasks := h.tasks
  ahead := h.ahead
  sent e he := (List.mem_append.mp he).elim (h.sent e) (h.sends a e)

theorem keeps (h : Routed opts jobs d) (hstarted : s'.started = d.state.started)
    (htasks : ∀ t ∈ s'.tasks, t.job ∈ jobs ∧ t.pc.ahead ⊆ t.job.specs)
    (hahead : s'.main.ahead ⊆ d.state.main.ahead)
    (hpicked : ∀ job rest, s'.main = .acquire job rest → d.state.main = .acquire job rest) :
    Routed opts jobs { d with state := s' } where
  slots := h.slots.trans (congrArg _ hstarted.symm)
  picked job rest hm := h.picked job rest (hpicked job rest hm)
  tasks := htasks
  ahead := List.Subset.trans hahead h.ahead
  sent := h.sent

theorem taskStep {i : Nat} {t : Task} (h : Routed opts jobs d) (ht : d.state.tasks[i]? = some t)
    (hs : d.state.taskStep opts i t.pc o = some s') :
    Routed opts jobs { d with state := s' } := by
  obtain ⟨hmain, pc, htasks, hsub⟩ := taskStep_ahead hs
  have hstarted : s'.started = d.state.started := by
    rw [← Sound.started_goto d.state i pc]
    exact congrArg (List.map Task.job) htasks
  refine h.keeps hstarted (fun t' ht' => ?_) (hmain ▸ List.Subset.refl _) fun job rest hm => hmain ▸ hm
  rw [htasks] at ht'
  rcases Sound.mem_goto ht' with hold | ⟨t₀, ht₀, rfl⟩
  · exact h.tasks t' hold
  · cases ht.symm.trans ht₀
    obtain ⟨hjob, hspecs⟩ := h.tasks t (List.mem_of_getElem? ht)
    exact ⟨hjob, List.Subset.trans hsub hspecs⟩

theorem act {a : Action} (h : Routed opts jobs d) (hs : d.state.step opts a = some s')
    (hpick : ∀ job rest, d.state.main = .pick job rest → a ≠ .main .ok)
    (hacquire : ∀ job rest, d.state.main = .acquire job rest → a ≠ .main .ok) :
    Routed opts jobs { d with state := s' } := by
  cases a with
  | main o =>
    rcases mainStep_ahead hs with hm | ⟨job, rest, hmain, rfl, -⟩
    · refine h.keeps (congrArg (List.map Task.job) hm.tasks) (hm.tasks ▸ h.tasks) hm.ahead ?_
      intro job rest hacq
      obtain ⟨hmain, rfl⟩ := hm.acquire job rest hacq
      exact absurd rfl (hpick job rest hmain)
    · exact absurd rfl (hacquire job rest hmain)
  | task i o =>
    obtain ⟨t, ht, hstep⟩ := Option.bind_eq_some_iff.mp hs
    exact h.taskStep ht hstep
  | _ =>
    simp only [State.step] at hs
    split at hs <;> cases hs
    exact h.keeps rfl h.tasks (List.Subset.refl _) fun _ _ hm => hm

theorem start {job : BuildJob} {rest : List BuildJob} (h : Routed opts jobs d)
    (hmain : d.state.main = .acquire job rest)
    (hs : d.state.step opts (.main .ok) = some s') :
    Routed opts jobs { d with state := s', slots := d.slots ++ d.picked.toList } := by
  have hahead : job :: rest ⊆ jobs := by
    have := h.ahead
    rwa [hmain] at this
  simp only [State.step, hmain, State.mainStep] at hs
  split at hs <;> cases hs
  refine ⟨?_, ?_, fun t ht => ?_, fun j hj => hahead (List.mem_cons_of_mem _ hj), h.sent⟩
  · obtain ⟨slot, hslot, hpool⟩ := Option.map_eq_some_iff.mp (h.picked job rest hmain)
    simpa [State.started, hslot, hpool] using h.slots
  · rintro _ _ ⟨⟩
  · rcases List.mem_append.mp ht with hold | hnew
    · exact h.tasks t hold
    · obtain rfl := List.mem_singleton.mp hnew
      exact ⟨hahead (List.mem_cons_self ..), List.Subset.refl _⟩

theorem step {m : Move} (h : Routed opts jobs d) (hs : d.step opts m = some d') :
    Routed opts jobs d' := by
  cases m with
  | refresh pool addrs =>
    cases hs
    exact ⟨h.slots, h.picked, h.tasks, h.ahead, h.sent⟩
  | pick addr =>
    simp only [Dispatch.step] at hs
    split at hs
    · next job rest hmain =>
      have hahead := h.ahead
      rw [hmain] at hahead
      split at hs <;> cases hs
      refine ⟨h.slots, ?_, h.tasks, hahead, h.sent⟩
      rintro _ _ ⟨⟩
      rfl
    · cases hs
  | act a =>
    simp only [Dispatch.step] at hs
    split at hs
    · cases hs
    · next job rest hmain =>
      obtain ⟨s', hs', rfl⟩ := Option.map_eq_some_iff.mp hs
      exact h.start hmain hs'
    · next hpick hacquire =>
      obtain ⟨s', hs', rfl⟩ := Option.map_eq_some_iff.mp hs
      exact (h.send _).act hs' hpick hacquire

end Routed

section Picked

variable {opts : Options} {x : Outside} {d d' : Dispatch} {slot : Slot}

/-- The address was picked earlier in the run, when it was one of the pool. -/
def PickedFrom (opts : Options) (x : Outside) (d : Dispatch) (pool : PoolName) (addr : String) :
    Prop :=
  ∃ d₀ d₁, (runDispatch opts x).Reachable (fun _ _ => True) d₀ ∧ addr ∈ d₀.pools pool ∧
    d₀.step opts (.pick addr) = some d₁ ∧ (runDispatch opts x).Steps (fun _ _ => True) d₁ d

structure AllPicked (opts : Options) (x : Outside) (d : Dispatch) : Prop where
  picked : ∀ slot ∈ d.picked, PickedFrom opts x d slot.pool slot.addr
  slots : ∀ slot ∈ d.slots, PickedFrom opts x d slot.pool slot.addr
  sent : ∀ e ∈ d.sent, PickedFrom opts x d e.2.pool e.2.addr

theorem next_of_step {m : Move} (hs : d.step opts m = some d') :
    (runDispatch opts x).Next (fun _ _ => True) d d' :=
  ⟨m, (), trivial, by simp [runDispatch, hs]⟩

theorem sends_slots {a : Action} {e : Spec × Slot} (he : e ∈ d.sends a) : e.2 ∈ d.slots := by
  unfold Dispatch.sends at he
  split at he
  · split at he
    · next hslot =>
      obtain rfl := List.mem_singleton.mp he
      exact List.mem_of_getElem? hslot
    · cases he
  · cases he

theorem AllPicked.step {m : Move} (h : AllPicked opts x d)
    (hd : (runDispatch opts x).Reachable (fun _ _ => True) d) (hs : d.step opts m = some d') :
    AllPicked opts x d' := by
  have keep : ∀ {slot : Slot}, PickedFrom opts x d slot.pool slot.addr →
      PickedFrom opts x d' slot.pool slot.addr := by
    rintro slot ⟨d₀, d₁, hd₀, hmem, hpick, hsteps⟩
    exact ⟨d₀, d₁, hd₀, hmem, hpick, hsteps.tail (next_of_step hs)⟩
  have hpicked := fun slot hslot => keep (h.picked slot hslot)
  have hslots := fun slot hslot => keep (h.slots slot hslot)
  have hsent := fun e he => keep (h.sent e he)
  have hstep := hs
  cases m with
  | refresh pool addrs =>
    cases hs
    exact ⟨hpicked, hslots, hsent⟩
  | pick addr =>
    simp only [Dispatch.step] at hs
    split at hs
    · split at hs <;> cases hs
      next hmem =>
      refine ⟨?_, hslots, hsent⟩
      rintro slot ⟨⟩
      exact ⟨d, _, hd, hmem, hstep, .refl⟩
    · cases hs
  | act a =>
    simp only [Dispatch.step] at hs
    split at hs
    · cases hs
    · obtain ⟨s', hs', rfl⟩ := Option.map_eq_some_iff.mp hs
      refine ⟨hpicked, fun slot hslot => ?_, hsent⟩
      exact (List.mem_append.mp hslot).elim (hslots slot) fun h => hpicked slot (by simpa using h)
    · obtain ⟨s', hs', rfl⟩ := Option.map_eq_some_iff.mp hs
      refine ⟨hpicked, hslots, fun e he => ?_⟩
      exact (List.mem_append.mp he).elim (hsent e) fun h => hslots e.2 (sends_slots h)

end Picked

theorem start_main (opts : Options) (x : Outside) :
    (State.start opts x).main = .schedule (jobsOf opts x) ∨ (State.start opts x).main = .panicked ∨
      ∃ err, (State.start opts x).main = .returned err := by
  unfold State.start jobsOf
  cases loaded opts x with
  | error e => exact .inr (.inr ⟨_, rfl⟩)
  | ok specs =>
    dsimp only
    cases x.newStore <;> split_ifs
    all_goals simp

theorem routed_start (opts : Options) (x : Outside) :
    Routed opts (jobsOf opts x) (runDispatch opts x).init := by
  have hmain : (runDispatch opts x).init.state.main = (State.start opts x).main := rfl
  refine ⟨rfl, ?_, nofun, ?_, nofun⟩
  all_goals
    rw [hmain]
    rcases start_main opts x with h | h | ⟨err, h⟩ <;> simp [h, MainPc.ahead]

theorem routed_of_reachable {opts : Options} {x : Outside} {d : Dispatch}
    (hd : (runDispatch opts x).Reachable (fun _ _ => True) d) :
    Routed opts (jobsOf opts x) d ∧ AllPicked opts x d := by
  induction hd with
  | refl => exact ⟨routed_start opts x, nofun, nofun, nofun⟩
  | tail hd hnext ih =>
    obtain ⟨m, r, -, hs⟩ := hnext
    obtain ⟨d₁, hd₁, heq⟩ := Option.map_eq_some_iff.mp hs
    cases heq
    exact ⟨ih.1.step hd₁, ih.2.step hd hd₁⟩

/-- Every spec is in exactly one job, built after the Nydus specs before it, has the platform of its
job and is sent only to an address picked from the pool of its own platform, exactly when no image is
declared for two platforms. -/
theorem groupBuildSpecs_platforms_iff (specs : List Spec) :
    (Grouped specs (groupBuildSpecs specs) ∧
      ∀ (opts : Options) (x : Outside), loaded opts x = .ok specs →
        ∀ d, (runDispatch opts x).Reachable (fun _ _ => True) d →
          ∀ spec slot, (spec, slot) ∈ d.sent →
            PickedFrom opts x d (poolOf opts spec.platform) slot.addr) ↔
      ∀ a ∈ specs, ∀ b ∈ specs, stripNydusV3Suffix a.target = stripNydusV3Suffix b.target →
        a.platform = b.platform := by
  constructor
  · exact fun h => (grouped_iff specs).mp h.1
  · intro one
    have hgrouped := (grouped_iff specs).mpr one
    refine ⟨hgrouped, fun opts x hl d hd spec slot hsent => ?_⟩
    obtain ⟨hrouted, hpicked⟩ := routed_of_reachable hd
    obtain ⟨job, hjob, hspec, hpool⟩ := hrouted.sent _ hsent
    rw [jobsOf, hl] at hjob
    rw [hgrouped.platform job hjob spec hspec, ← hpool]
    exact hpicked.sent _ hsent

def twoPlatforms : Outside where
  toLibrary := plainLibrary
  prepareSingleImageDir := .ok
  loadSpecs _ _ _ := .ok [⟨"a", "r/t:v", "linux/amd64", .oci⟩, ⟨"b", "r/t:v", "linux/arm64", .oci⟩]
  newStore := .ok ()

def twoPools : Options where
  buildFormat := "oci"
  platformAddrs := [("linux/amd64", ["tcp://amd"]), ("linux/arm64", ["tcp://arm"])]

def Move.fixed : Move → Bool
  | .refresh .. => false
  | _ => true

/-- The pools stay as they were configured. -/
theorem sent_to_foreign_pool : ∃ (opts : Options) (x : Outside) (specs : List Spec) (d : Dispatch)
    (spec : Spec) (slot : Slot), loaded opts x = .ok specs ∧ ¬ Grouped specs (groupBuildSpecs specs) ∧
      (runDispatch opts x).Reachable (fun _ m => m.fixed) d ∧ (spec, slot) ∈ d.sent ∧
        slot.addr ∉ (runDispatch opts x).init.pools (poolOf opts spec.platform) := by
  have hrun : ((runDispatch twoPools twoPlatforms).after (fun _ m => m.fixed)
      (runDispatch twoPools twoPlatforms).init
      [.act (.main .ok), .act (.main .ok), .act (.main .ok), .act (.main .ok), .pick "tcp://amd",
        .act (.main .ok), .act (.task 0 (.digest "d")), .act (.task 0 .ok),
        .act (.task 0 (.digest "d"))]).map (fun d => d.sent.getLast?) =
      some (some (⟨"b", "r/t:v", "linux/arm64", .oci⟩, ⟨.platform "linux/amd64", "tcp://amd"⟩)) := by
    decide +kernel
  obtain ⟨d, hd, hsent⟩ := Option.map_eq_some_iff.mp hrun
  refine ⟨twoPools, twoPlatforms, _, d, _, _, rfl, ?_,
    Automaton.steps_of_after hd fun _ _ => id, List.mem_of_getLast? hsent, by decide +kernel⟩
  intro h
  exact absurd ((grouped_iff _).mp h _ (List.mem_cons_self ..) _
    (List.mem_cons_of_mem _ (List.mem_cons_self ..)) rfl) (by decide)

end KovaService.Batch
