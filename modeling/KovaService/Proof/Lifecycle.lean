import KovaService.Proof.Start

/-!
The rest of the lifecycle, and `Reconcile` as a whole: every handler of the controller meets the
demands of the protocol.
-/

namespace KovaService.Proof

open Lib Api Ledger Protocol KovaService.System Controller

variable {w : World} {ρ : w.Execution} {t i j : Nat} {cfg : Config} {coord : Bool}

variable {build : KovaBuild}

theorem retryStatusObservation_does {e : Err} (hb : Handling ρ t i build) :
    Complies ρ t ((w.reconciler cfg coord).retryStatusObservation build e) i := by
  unfold Reconciler.retryStatusObservation Reconciler.getRunnerPod
  refine .check fun _ => .check fun _ => .decoded fun _ _ => ?_
  refine (getPod_does _).attempt (fun pod j hj hp => ?_) fun e j hj _ => ?_
  · obtain ⟨m, -, hm, hl⟩ := hp
    have hseen : SeenPod ρ j pod := ⟨m, _, hm, hl⟩
    refine .check fun _ => ?_
    refine .ite (fun _ => failBuild_does (hb.mono hj).writable) fun _ => ?_
    refine quiet_timeNow.does.andThen fun now k hk _ => ?_
    refine quiet_timeNow.does.andThen fun later l hl _ => ?_
    have hw : ∀ since, Writable ρ t l { build with status := { build.status with
        pollFailureSince := since } } := by
      intro since
      refine (hb.mono (hj.trans (hk.trans hl))).writable.withStatus ?_
      rfl
    refine .ite (fun _ => .check fun _ => ?_) fun _ => ?_
    · refine (deleteOwnedRunnerPodAndConfirm_does (hw _).known (hseen.mono (hk.trans hl))).andThen
        fun _ q hq _ => ?_
      exact failBuild_does ((hw _).mono hq)
    · refine Does.andThen (writable_does (hw _) ?_) fun _ _ _ _ => .pure trivial
      rfl
  · refine .ite (fun _ => failBuild_does (hb.mono hj).writable) fun _ => .throw trivial

theorem expireActiveBuild_does (hb : Handling ρ t i build) :
    Complies ρ t ((w.reconciler cfg coord).expireActiveBuild build) i := by
  unfold Reconciler.expireActiveBuild
  refine quiet_timeNow.does.andThen fun now j hj _ => ?_
  split
  · exact .pure trivial
  · refine .check fun _ => ?_
    have hstop : (build.status.runnerPodName != "") = true → Complies ρ t (do
        ofAns ((w.reconciler cfg coord).validateRunnerPodStatusName build)
        let _ ← attempt (cancelRunner build)
        (w.reconciler cfg coord).deleteRunnerAndConfirm build) j := by
      refine fun _ => .decoded fun _ _ => ?_
      refine (free_attempt (free_cancelRunner build)).does.andThen fun _ k hk _ => ?_
      exact deleteRunnerAndConfirm_does (hb.mono (hj.trans hk)).writable.known
    refine .onlyIf hstop (fun _ => trivial) fun k hk _ => ?_
    exact (failBuild_does (hb.mono (hj.trans hk)).writable).andThen
      fun _ _ _ _ => .pure trivial

theorem expireGenesisBuild_does {state : BuildState} (hb : Handling ρ t i build) :
    Complies ρ t ((w.reconciler cfg coord).expireGenesisBuild build state) i := by
  unfold Reconciler.expireGenesisBuild
  split
  · exact .check fun _ => stopGenesisRunner_does build _
  · refine .decoded fun ⟨done, _⟩ _ => ?_
    exact .ite (fun _ => finishObservedBuild_does hb) fun _ => stopGenesisRunner_does build _

theorem reconcileExpiredBuild_does (hb : Handling ρ t i build) :
    Complies ρ t ((w.reconciler cfg coord).reconcileExpiredBuild build) i := by
  unfold Reconciler.reconcileExpiredBuild
  refine quiet_timeNow.does.andThen fun now j hj _ => ?_
  split
  · exact .pure trivial
  · refine (quiet_attempt (quiet_observeBuildStatus _ build)).does.andThen fun answer k hk _ => ?_
    have hbk := hb.mono (hj.trans hk)
    split
    · refine .decoded fun state _ => ?_
      exact (expireGenesisBuild_does hbk).andThen fun _ _ _ _ => .pure trivial
    · cases answer with
      | ok state =>
        refine .ite (fun _ => ?_) fun _ => expireActiveBuild_does hbk
        exact (finishObservedBuild_does hbk).andThen fun _ _ _ _ => .pure trivial
      | error e => exact expireActiveBuild_does hbk

/-- What the submission of this build may rest on: in Genesis mode, direct reads under its witness. -/
structure MaySubmit (ρ : w.Execution) (t j : Nat) (build : KovaBuild) : Prop where
  handling : Handling ρ t j build
  witnessed : w.genesis.isSome → ∃ p k, k < j ∧ p.uid ≠ "" ∧
    expectedPodUID build = p.uid ∧ p.ownedByBuild build ∧
    (ρ.store k).pods.lookup (buildPodName build.name) = some p

theorem observeExistingGenesisSubmission_does {e : Err} (hg : w.genesis.isSome)
    (hd : Dispatched ρ t i build.name) :
    Complies ρ t ((w.reconciler cfg coord).observeExistingGenesisSubmission build e) i := by
  unfold Reconciler.observeExistingGenesisSubmission
  refine quiet_genesisCheck.does.attempt (fun _ _ _ _ => .throw trivial) fun e' j hj _ => ?_
  refine .check fun _ => ?_
  refine (directGenesisWitness_does build).attempt (fun ⟨current, pod⟩ k hk h => ?_)
    fun _ _ _ _ => .throw trivial
  have hh : Handling ρ t k current := h.handling hg (hd.mono hj)
  refine (quiet_observeBuildStatus _ current).does.attempt (fun state l hl _ => ?_)
    fun _ _ _ _ => .throw trivial
  exact .check fun _ => markSubmitted_does (hh.mono hl)

variable {pod : Option Pod}

theorem withGrant_does {next : KovaBuild → Option Pod → K Unit} (hb : Handling ρ t i build)
    (hnext : ∀ b o j, i ≤ j → MaySubmit ρ t j b → Complies ρ t (next b o) j) :
    Complies ρ t ((w.reconciler cfg coord).withGrant build pod next) i := by
  unfold Reconciler.withGrant
  split
  · next hg =>
    refine (directGenesisGrant_does build).attempt (fun ⟨current, p⟩ j hj h => ?_) fun e j hj _ => ?_
    · refine hnext current (some p) j hj ⟨h.handling hg hb.dispatched, fun _ => ?_⟩
      have hname : current.name = build.name := h.name
      obtain ⟨m, k, -, -, hk, -, hl⟩ := h.reads
      exact ⟨p, k, hk, h.present, h.expected, h.owned, hname ▸ hl⟩
    · exact observeExistingGenesisSubmission_does hg (hb.dispatched.mono hj)
  · next hg => exact hnext build pod i le_rfl ⟨hb, fun h => absurd h hg⟩

theorem submitBuild_does (h : MaySubmit ρ t i build) :
    Complies ρ t (submitBuild (w.reconciler cfg coord) build) i := by
  unfold submitBuild
  have hsend : ∀ n, i ≤ n → ∃ b, RunnerSubmission ρ n (expectedPodUID build)
      ((w.reconciler cfg coord).requestID build) b := by
    intro n hn
    have hknown := h.handling.writable.known
    have hid : (w.reconciler cfg coord).requestID build = build.uid := hknown.requestID
    obtain ⟨base, hbase, hbe⟩ := hknown.mono hn
    have hbu : base.uid = build.uid := by rw [hbe]
    have hbn : base.name = build.name := by rw [hbe]
    refine ⟨base, hbase, hid.trans hbu.symm, fun hg => ?_⟩
    obtain ⟨p, k, hk, hne, hex, how, hl⟩ := h.witnessed hg
    exact ⟨hex ▸ hne, k, p, by omega, hbn ▸ hl, hex.symm, hbu ▸ ownedByBuild_controlledBy how⟩
  have hexec : Complies ρ t (execSubmit build.status.runnerPodName (expectedPodUID build)
      ((w.reconciler cfg coord).requestID build)) i :=
    Does.request rfl (fun n hn _ => hsend n hn) (fun _ _ _ _ _ _ => trivial)
      fun _ _ _ _ _ _ => trivial
  exact hexec.andThen fun state _ _ _ => .lastCheck fun _ => trivial

theorem withState_does {next : BuildState → K Unit} (hb : Handling ρ t i build)
    (hnext : ∀ state j, Handling ρ t j build → Complies ρ t (next state) j) :
    Complies ρ t ((w.reconciler cfg coord).withState build next) i := by
  unfold Reconciler.withState
  refine (quiet_observeBuildStatus _ build).does.attempt
    (fun state j hj _ => hnext state j (hb.mono hj)) fun e j hj _ => ?_
  exact .ite (fun _ => failBuild_does (hb.mono hj).writable)
    fun _ => retryStatusObservation_does (hb.mono hj)

theorem afterSubmit_does {answer : Except Err Unit} (hb : Handling ρ t i build) :
    Complies ρ t ((w.reconciler cfg coord).afterSubmit build pod answer) i := by
  unfold Reconciler.afterSubmit
  refine .ite (fun hg => ?_) fun _ => ?_
  · refine (directGenesisWitness_does build).andThen fun ⟨current, after⟩ j _ h => ?_
    have hh : Handling ρ t j current := h.handling hg hb.dispatched
    refine .check fun _ => ?_
    refine (quiet_observeBuildStatus _ current).does.attempt (fun state k hk _ => ?_) fun e k hk _ => ?_
    · exact .ite (fun _ => .pure trivial) fun _ => markSubmitted_does (hh.mono hk)
    · exact retryStatusObservation_does (hh.mono hk)
  · cases answer with
    | ok _ => exact markSubmitted_does hb
    | error _ =>
      exact withState_does hb fun state k hb =>
        .ite (fun _ => .pure trivial) fun _ => markSubmitted_does hb

theorem submitIdle_does (hb : Handling ρ t i build) :
    Complies ρ t ((w.reconciler cfg coord).submitIdle build pod) i := by
  unfold Reconciler.submitIdle
  refine (quiet_execInspect _ _).does.attempt (fun targets j hj _ => ?_) fun e j hj _ => ?_
  · refine .ite (fun _ => failBuild_does (hb.mono hj).writable) fun _ => ?_
    refine withGrant_does (hb.mono hj) fun b o k _ hs => ?_
    refine (reconcileExpiredBuild_does hs.handling).andThen fun expired l hl _ => ?_
    refine .ite (fun _ => .pure trivial) fun _ => ?_
    refine withGrant_does (hs.handling.mono hl) fun b' o' q _ hs' => ?_
    refine (submitBuild_does hs').attempt (fun _ z hz _ => ?_) fun e z hz _ => ?_
    · exact afterSubmit_does (hs'.handling.mono hz)
    · exact afterSubmit_does (hs'.handling.mono hz)
  · dsimp only
    split
    · exact failBuild_does (hb.mono hj).writable
    · exact retryStatusObservation_does (hb.mono hj)

theorem awaitReady_does {pod : Pod} (hb : Handling ρ t i build) :
    Complies ρ t ((w.reconciler cfg coord).awaitReady build pod) i := by
  unfold Reconciler.awaitReady
  split
  · exact failBuild_does hb.writable
  · refine .ite (fun _ => failBuild_does hb.writable) fun _ => ?_
    refine quiet_timeNow.does.andThen fun now j hj _ => ?_
    exact .ite (fun _ => failBuild_does (hb.mono hj).writable) fun _ => .pure trivial

theorem submitToPod_does {pod : Pod} (hb : Handling ρ t i build) :
    Complies ρ t ((w.reconciler cfg coord).submitToPod build pod) i := by
  unfold Reconciler.submitToPod
  refine .ite (fun _ => awaitReady_does hb) fun _ => ?_
  refine withState_does hb fun state j hb => ?_
  refine .ite (fun _ => markSubmitted_does hb) fun _ => ?_
  refine .ite (fun _ => failBuild_does hb.writable) fun _ => ?_
  refine (clearPollFailure_does hb.writable).andThen fun b k hk ⟨hw, hname⟩ => ?_
  have hh : Handling ρ t k b := ⟨hw, hname ▸ hb.dispatched.mono hk⟩
  exact withGrant_does hh fun b' o l _ hs => submitIdle_does hs.handling

theorem submitWhenReady_does (hb : Handling ρ t i build) :
    Complies ρ t ((w.reconciler cfg coord).submitWhenReady build) i := by
  unfold Reconciler.submitWhenReady Reconciler.getRunnerPod
  refine withGrant_does hb fun b o j _ hs => ?_
  refine (reconcileExpiredBuild_does hs.handling).andThen fun expired k hk _ => ?_
  have hb := hs.handling.mono hk
  refine .ite (fun _ => .pure trivial) fun _ => ?_
  cases o with
  | some pod => exact submitToPod_does hb
  | none =>
    refine (getPod_does _).attempt (fun pod l hl _ => submitToPod_does (hb.mono hl)) fun e l hl _ => ?_
    exact .ite (fun _ => failBuild_does (hb.mono hl).writable) fun _ => .throw trivial

theorem pollBuild_does (hb : Handling ρ t i build) :
    Complies ρ t ((w.reconciler cfg coord).pollBuild build) i := by
  unfold Reconciler.pollBuild
  refine (witnessed_does hb).andThen fun b j _ hb => ?_
  refine (reconcileExpiredBuild_does hb).andThen fun expired k hk _ => ?_
  refine .ite (fun _ => .pure trivial) fun _ => ?_
  refine withState_does (hb.mono hk) fun state l hb => followState_does hb ?_
  exact (clearPollFailure_does hb.writable).andThen fun _ _ _ _ => .pure trivial

theorem reconcileGenesisCancellation_does (hg : w.genesis.isSome)
    (hd : Dispatched ρ t i build.name) :
    Complies ρ t ((w.reconciler cfg coord).reconcileGenesisCancellation build) i := by
  unfold Reconciler.reconcileGenesisCancellation
  refine (quiet_attempt quiet_genesisCheck).does.andThen fun pair j hj _ => .decoded fun _ _ => ?_
  refine (directGenesisWitness_does build).andThen fun ⟨current, _⟩ k hk h => ?_
  have hh : Handling ρ t k current := h.handling hg (hd.mono hj)
  have hcharge : Quiet (onlyIf pair.isOk do
      let _ ← (w.reconciler cfg coord).directGenesisCharge current) :=
    quiet_onlyIf (quiet_bind (quiet_directGenesisCharge _ current) fun _ => quiet_pure _)
  refine hcharge.does.andThen fun _ l hl _ => ?_
  refine .ite (fun _ => reconcileVerifying_does (hh.mono hl)) fun _ => .check fun _ => ?_
  refine (quiet_observeBuildStatus _ current).does.andThen fun state q hq _ => ?_
  refine .ite (fun _ => .check fun _ => stopGenesisRunner_does current _) fun _ => ?_
  refine .decoded fun ⟨done, _⟩ _ => .ite (fun _ => ?_) fun _ => ?_
  · exact finishObservedBuild_does (hh.mono (hl.trans hq))
  · exact .decoded fun _ _ => stopGenesisRunner_does current _

theorem cancelBuild_does (hw : Writable ρ t i build) :
    Complies ρ t ((w.reconciler cfg coord).cancelBuild build) i := by
  unfold Reconciler.cancelBuild
  refine .check fun _ => ?_
  refine (fenceReservation_does hw.known).andThen fun _ j hj _ => .decoded fun _ _ => ?_
  have hcancel : ∀ c : Bool, Free (onlyIf c do let _ ← attempt (cancelRunner build)) :=
    fun _ => free_onlyIf (free_bind (free_attempt (free_cancelRunner build))
      fun _ => (quiet_pure _).free)
  refine (hcancel _).does.andThen fun _ k hk _ => ?_
  have hw := hw.mono (hj.trans hk)
  refine (deleteRunnerAndConfirm_does hw.known).andThen fun _ l hl _ => ?_
  exact finished_does (hw.mono hl) rfl fun _ => .pure trivial

theorem releaseCapacity_does (hb : build ∈ (ρ.store i).versions) (hend : build.terminalOrDeleting)
    (hf : Fenced ρ i build.uid) :
    Complies ρ t ((w.reconciler cfg coord).releaseCapacity build) i := by
  unfold Reconciler.releaseCapacity
  refine (releaseReservation_does (.of_mem hb) ⟨build, hb, rfl, hend⟩ hf).attempt
    (fun _ j hj hgone => ?_) fun e j hj _ => ?_
  · exact releaseQueueIntent_does (versions_mono ρ hj hb) (fun _ => .inl hend) fun _ => hgone
  · exact (reportRecovery_does (versions_mono ρ hj hb)).andThen fun _ _ _ _ => .throw trivial

theorem reconcileTerminal_does (hb : build ∈ (ρ.store i).versions)
    (hend : build.status.phase.isTerminal) :
    Complies ρ t ((w.reconciler cfg coord).reconcileTerminal build) i := by
  unfold Reconciler.reconcileTerminal
  have hend : build.terminalOrDeleting := by simp [KovaBuild.terminalOrDeleting, hend]
  refine (fenceReservation_does (.of_mem hb)).andThen fun _ j hj hf => ?_
  have hf := hf ⟨build, hb, rfl, hend⟩
  have hbj := versions_mono ρ hj hb
  refine (deleteRunnerAndConfirm_does (.of_mem hbj)).andThen fun _ k hk _ => ?_
  have hbk := versions_mono ρ hk hbj
  refine (releaseCapacity_does hbk hend (hf.mono hk)).andThen fun _ l hl _ => ?_
  refine (clearAdmissionRecovery_does (versions_mono ρ hl hbk)).andThen fun build q _ _ => Free.does ?_
  repeat' first | with_reducible refine free_bind ?_ fun _ => ?_ | refine free_ite ?_ ?_ | split
  all_goals simp

theorem updateFinalizers_does {finalizers : List String} (hb : build ∈ (ρ.store i).versions) :
    Complies ρ t (updateBuild { build with finalizers := finalizers }) i :=
  updateBuild_does fun _ hn => ⟨build, versions_mono ρ hn hb, rfl,
    ⟨rfl, rfl, rfl, fun _ => rfl, fun _ => rfl⟩, .inl rfl⟩

theorem reconcileDelete_does (hb : build ∈ (ρ.store i).versions)
    (hdel : build.deletionTimestamp.isSome) :
    Complies ρ t ((w.reconciler cfg coord).reconcileDelete build) i := by
  unfold Reconciler.reconcileDelete
  split
  · split
    · exact resumeGenesisStop_does build
    · exact stopGenesisRunner_does build _
  · refine (fenceReservation_does (.of_mem hb)).andThen fun _ j hj hf => ?_
    have hf := hf ⟨build, hb, rfl, by simp [KovaBuild.terminalOrDeleting, hdel]⟩
    have hbj := versions_mono ρ hj hb
    refine (deleteRunnerAndConfirm_does (.of_mem hbj)).andThen fun _ k hk _ => ?_
    have hbk := versions_mono ρ hk hbj
    have hfin : Does ρ t (if !build.status.phase.isTerminal
        then (w.reconciler cfg coord).finish build .cancelled "Deleted" "build was deleted"
        else pure build) k
        (fun b l => b ∈ (ρ.store l).versions ∧ b.uid = build.uid ∧
          b.deletionTimestamp.isSome) := by
      refine .ite (fun hp => ?_) fun _ => .pure ⟨hbk, rfl, hdel⟩
      have hw : Writable ρ t k build := .of_mem hbk (by simpa using hp)
      exact (finish_does hw rfl).imp fun b l _ h => ⟨h.1, h.2.1, by rw [h.2.2, hdel]⟩
    refine hfin.andThen fun b l hl ⟨hbl, huid, hdel⟩ => ?_
    have hend : b.terminalOrDeleting := by simp [KovaBuild.terminalOrDeleting, hdel]
    have hf : Fenced ρ l b.uid := huid ▸ hf.mono (hk.trans hl)
    refine (releaseCapacity_does hbl hend hf).andThen fun _ q hq _ => ?_
    split
    · refine (updateFinalizers_does (versions_mono ρ hq hbl)).attempt
        (fun _ _ _ _ => .pure trivial) fun e _ _ _ => .lastCheck fun _ => trivial
    · exact .pure trivial

theorem reconcileQueued_does (hw : Writable ρ t i build) (hC : w.genesis.isSome → Confirmed ρ t i) :
    Complies ρ t ((w.reconciler cfg coord).reconcileQueued build) i := by
  unfold Reconciler.reconcileQueued
  refine (quiet_onlyIf quiet_genesisCheck).does.andThen fun _ j hj hc => ?_
  have hw := hw.mono hj
  split
  · exact failBuild_does hw
  · split
    · exact failBuild_does hw
    · split
      · exact failBuild_does hw
      · exact startBuild_does hw fun hg => (hC hg).calm hc

theorem reconcilePhase_does (hb : build ∈ (ρ.store i).versions)
    (hd : build.status.phase.isTerminal = false → Dispatched ρ t i build.name)
    (hC : w.genesis.isSome → Confirmed ρ t i) :
    Complies ρ t ((w.reconciler cfg coord).reconcilePhase build) i := by
  have hh : build.status.phase.isTerminal = false → Handling ρ t i build :=
    fun hp => ⟨.of_mem hb hp, hd hp⟩
  unfold Reconciler.reconcilePhase
  split
  case h_1 h | h_2 h | h_3 h => exact reconcileTerminal_does hb (by rw [h]; rfl)
  case h_4 h | h_5 h => exact reconcileQueued_does (hh (by rw [h]; rfl)).writable hC
  case h_6 h => exact submitWhenReady_does (hh (by rw [h]; rfl))
  case h_7 h => exact pollBuild_does (hh (by rw [h]; rfl))
  case h_8 h => exact reconcileVerifying_does (hh (by rw [h]; rfl))
  case h_9 h => exact reconcileFailedVerifying_does (hh (by rw [h]; rfl))

theorem dispatch_does (hb : build ∈ (ρ.store i).versions)
    (hd : build.terminalOrDeleting = false → Dispatched ρ t i build.name)
    (hC : w.genesis.isSome → Confirmed ρ t i) :
    Complies ρ t ((w.reconciler cfg coord).dispatch build) i := by
  unfold Reconciler.dispatch
  refine .ite (fun _ => .pure trivial) fun _ => ?_
  refine .ite (fun hdel => reconcileDelete_does hb hdel) fun hdel => ?_
  have hd : build.status.phase.isTerminal = false → Dispatched ρ t i build.name :=
    fun hp => hd (by simp [KovaBuild.terminalOrDeleting, hp, hdel])
  refine .ite (fun _ => ?_) fun _ => ?_
  · refine (quiet_onlyIf quiet_genesisCheck).does.andThen fun _ j hj _ => ?_
    exact (updateFinalizers_does (versions_mono ρ hj hb)).andThen fun _ _ _ _ => .pure trivial
  refine .ite (fun _ => resumeGenesisStop_does build) fun _ => .ite (fun hc => ?_) fun _ => ?_
  · have hp : build.status.phase.isTerminal = false := by
      simp only [Bool.and_eq_true, Bool.not_eq_true'] at hc
      exact hc.1.2
    refine .ite (fun hx => ?_) fun _ => cancelBuild_does (.of_mem hb hp)
    simp only [Bool.and_eq_true] at hx
    exact reconcileGenesisCancellation_does hx.1.1 (hd hp)
  · exact reconcilePhase_does hb hd hC

theorem reconcile_does (name : String) (hC : w.genesis.isSome → Confirmed ρ t i) :
    Complies ρ t ((w.reconciler cfg coord).reconcile name) i := by
  unfold Reconciler.reconcile
  have hcached : Does ρ t (cachedBuild name) i (fun b j => b ∈ (ρ.store j).versions ∧
      (b.terminalOrDeleting = false → Dispatched ρ t j b.name)) := by
    refine Does.request rfl (fun _ _ _ => trivial) ?_ fun _ _ _ _ _ _ => trivial
    rintro m _ b hm hg rfl
    obtain ⟨hv, hn⟩ := cachedBuild_answer hg
    exact ⟨versions_succ ρ m hv, fun hl => ⟨m, b, by omega, hn ▸ hg, hl⟩⟩
  refine (hcached.quietly (quiet_cachedBuild name)).attempt (fun b j _ ⟨⟨hb, hd⟩, hc⟩ => ?_)
    fun e j _ _ => ?_
  · exact dispatch_does hb hd fun hg => (hC hg).calm hc
  · exact .lastCheck fun _ => trivial

end KovaService.Proof
