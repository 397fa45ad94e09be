import KovaService.Runner.Barrier

/-!
The daemon process, and the daemon that the runs of the cluster use.

Every step of the process is a move of the `Daemon` or none, and a call of `backend.runBuild` is its
event `run`.  The stage of the daemon is no function of the process: an invocation that is about to
publish its result does not say whether it got as far as the build.
-/

namespace KovaService.Runner

open Lib Api

variable {s s' s₁ : Server} {stage stage' : Stage} {i : Nat} {o : Outcome} {v : Invocation}
variable {status : RunnerStatus} {f : Invocation → Invocation}

def Server.daemon (s : Server) (stage : Stage) : Daemon :=
  { requestID := s.buildRequestID, retiredRequestID := s.retiredRequestID
    build := s.build, stage := stage }

/-- The stage fits the newest invocation, and the status says so when its context is cancelled. -/
def Fits (status : RunnerStatus) (v : Invocation) (stage : Stage) : Prop :=
  match v.pc with
  | .published .. | .removed | .closed | .finished => stage = .over
  | .run => stage = .building ∧ (v.ctxCancelled → status = .cancelling)
  | .settling _ final _ => (stage = .building ∨ stage = .accepted ∧ final ≠ .completed) ∧
      (v.ctxCancelled ∨ final = .cancelled → status = .cancelling)
  | _ => stage = .accepted ∧ (v.ctxCancelled → status = .cancelling)

def Staged (s : Server) (stage : Stage) : Prop :=
  ∀ i v, s.last i → s.invocations[i]? = some v → Fits s.build.status v stage

def Server.calls (s : Server) (i : Nat) : Bool :=
  (s.invocations[i]?).any fun v => v.pc == .start && !v.ctxCancelled

/-- What the daemon does when the process takes a step. -/
def Mirrors (d : Daemon) (calls : Nat → Bool) (resp : Response) (d' : Daemon) :
    Server.Action → Prop
  | .build ids =>
    if ids.length > 1 then d' = d
    else d' = (d.handleBuildPost (ids.headD "")).1 ∧
      (resp = .accepted ∨ ∃ code, resp = .state code (d.handleBuildPost (ids.headD "")).2)
  | .status => d' = d ∧ resp = .state 200 d.handleBuildStatus
  | .cancel => d' = d.cancelActiveBuild "cancel requested" ∧ ∃ code, resp = .state code d'.build
  | .retire ids =>
    match Server.firstRetireRequestID ids with
    | none => d' = d
    | some id => d' = d.handleBuildRetirePost id
  | .retireStatus _ => d' = d
  | .advance i _ =>
    if calls i then d.advance .run = some d'
    else d' = d ∨ ∃ status error, d.advance (.abort status error) = some d' ∨
      d.advance (.finish status error) = some d'

theorem Fits.cancelling (h : Fits status v stage) (c : Bool) :
    Fits .cancelling { v with ctxCancelled := c } stage := by
  obtain ⟨id, pc, cancelled, closed⟩ := v
  cases pc <;> simp_all [Fits]

/-- Up to the call of `runBuild` and to the publication no statement shows in the daemon. -/
theorem Fits.next (h : Fits status v stage)
    (hs : ∀ async status error, v.pc ≠ .settling async status error)
    (hc : v.pc = .start → v.ctxCancelled) : Fits status (v.next o) stage := by
  obtain ⟨id, pc, cancelled, closed⟩ := v
  cases pc with
  | settling async status error => exact absurd rfl (hs async status error)
  | published async status => cases async <;> simp_all [Fits, Invocation.next, Pc.next]
  | _ => cases o <;> cases cancelled <;> simp_all [Fits, Invocation.next, Pc.next]

theorem Staged.cancelled (h : Staged s stage) (reason : String) :
    Staged (s.cancelled reason) stage ∧
      (s.cancelled reason).daemon stage = (s.daemon stage).setBuildState .cancelling reason := by
  unfold Server.cancelled Server.cancelContext
  cases s.buildCancel with
  | none => exact ⟨fun i v hl hv => (h i v hl hv).cancelling v.ctxCancelled, rfl⟩
  | some k =>
    refine ⟨fun i v hl hv => ?_, rfl⟩
    obtain ⟨u, hu, rfl⟩ := getElem?_invocation hv
    have hfits := h i u (last_invocation.mp hl) hu
    by_cases hi : i = k
    · rw [if_pos hi]
      exact hfits.cancelling true
    · rw [if_neg hi]
      exact hfits.cancelling u.ctxCancelled

theorem Coherent.buildCancel_isSome (h : Coherent s) (ha : buildActive s.build.status) :
    s.buildCancel.isSome := by
  obtain ⟨i, v, hd, -⟩ := h.active_done ha
  rw [h.cancel, hd]
  rfl

theorem Staged.stopRunning (h : Coherent s) (hst : Staged s stage) : Staged s.stopRunning stage ∧
    s.stopRunning.daemon stage = if s.build.status == .running then
      (s.daemon stage).setBuildState .cancelling "retire requested" else s.daemon stage := by
  unfold Server.stopRunning
  cases hs : s.build.status == .running with
  | false => exact ⟨hst, rfl⟩
  | true =>
    rw [h.buildCancel_isSome (by simp [beq_iff_eq.mp hs, buildActive])]
    exact hst.cancelled _

theorem handleBuildPost_mirrored {ids : List String} {resp : Response} (hst : Staged s stage)
    (he : s.handleBuildPost ids = (s', resp)) : ∃ stage', Staged s' stage' ∧
      Mirrors (s.daemon stage) s.calls resp (s'.daemon stage') (.build ids) := by
  unfold Server.handleBuildPost at he
  dsimp only at he
  split_ifs at he with h₁ h₂ h₃ h₄ h₅ h₆ <;> cases he
  · exact ⟨stage, hst, by rw [Mirrors, if_pos h₁]⟩
  iterate 5
    refine ⟨stage, hst, ?_⟩
    simp only [Mirrors, Daemon.handleBuildPost, Server.daemon, *, if_true, if_false]
    simp [Server.refuse]
  refine ⟨.accepted, fun i v hl hv => ?_, ?_⟩
  · have hi : i = s.invocations.length := by simpa [Server.last, Server.admitBuild] using hl
    simp only [Server.admitBuild, hi, List.getElem?_concat_length] at hv
    cases hv
    simp [Fits]
  · simp only [Mirrors, Daemon.handleBuildPost, Server.daemon, *, if_false]
    simp [Server.admitBuild]

theorem handleBuildCancel_mirrored {resp : Response} (h : Coherent s) (hst : Staged s stage)
    (he : s.handleBuildCancel = (s', resp)) :
    Staged s' stage ∧ Mirrors (s.daemon stage) s.calls resp (s'.daemon stage) .cancel := by
  unfold Server.handleBuildCancel at he
  cases ha : buildActive s.build.status with
  | false =>
    rw [ha] at he
    cases he
    exact ⟨hst, by simp [Mirrors, Daemon.cancelActiveBuild, Server.daemon, ha]⟩
  | true =>
    rw [ha, h.buildCancel_isSome ha] at he
    cases he
    obtain ⟨hst', heq⟩ := hst.cancelled "cancel requested"
    refine ⟨hst', heq.trans ?_, _, rfl⟩
    simp [Daemon.cancelActiveBuild, Server.daemon, ha]

theorem handleBuildRetirePost_mirrored {ids : List String} {resp : Response} (h : Coherent s)
    (hst : Staged s stage) (he : s.handleBuildRetirePost ids = (s', resp)) :
    Staged s' stage ∧ Mirrors (s.daemon stage) s.calls resp (s'.daemon stage) (.retire ids) := by
  unfold Server.handleBuildRetirePost at he
  simp only [Mirrors]
  cases hf : Server.firstRetireRequestID ids with
  | none =>
    rw [hf] at he
    cases he
    exact ⟨hst, rfl⟩
  | some id =>
    rw [hf] at he
    obtain ⟨-, hid, hsize⟩ := firstRetireRequestID_eq hf
    have hshort : (id == "" || decide (id.utf8ByteSize > 128)) = false := by simp [hid, hsize]
    simp only [Daemon.handleBuildRetirePost, hshort, Bool.false_eq_true, if_false]
    dsimp only at he
    split_ifs at he with h₁ h₂ h₃ <;> cases he
    · exact ⟨hst, by simp_all [Server.daemon]⟩
    · exact ⟨hst, by simp_all [Server.daemon, Server.foreign]⟩
    · obtain ⟨hst', heq⟩ := Staged.stopRunning (s := s.installBarrier id) h.installBarrier hst
      refine ⟨hst', heq.trans ?_⟩
      simp_all [Server.daemon, Server.foreign, Server.installBarrier]
    · obtain ⟨hst', heq⟩ := hst.stopRunning h
      refine ⟨hst', heq.trans ?_⟩
      simp_all [Server.daemon, Server.foreign]

/-- A statement of one invocation; only the newest one can change what is published. -/
theorem Staged.invocation (hinv : s₁.invocations = s.invocations)
    (hf : ∀ v, s.last i → s.invocations[i]? = some v → Fits s₁.build.status (f v) stage')
    (hkeep : s.last i ∨ s₁.build = s.build ∧ Staged s stage') :
    Staged (s₁.invocation i f) stage' := by
  intro j u hl hu
  obtain ⟨u, hmem, rfl⟩ := getElem?_invocation hu
  rw [last_invocation, Server.last, hinv] at hl
  rw [hinv] at hmem
  by_cases hj : j = i
  · subst hj
    rw [if_pos rfl]
    exact hf u hl hmem
  · rw [if_neg hj]
    rcases hkeep with hi | ⟨hb, hst⟩
    · exact absurd (Nat.succ.inj (hl.trans hi.symm)) hj
    · exact (congrArg BuildState.status hb) ▸ hst j u hl hmem

theorem settling_mirrored {async : Bool} {error : String} (h : Coherent s) (hst : Staged s stage)
    (hv : s.invocations[i]? = some v) (hpc : v.pc = .settling async status error) :
    Staged ((s.setBuildState status error).invocation i fun v => v.next o) .over ∧
      ((s.daemon stage).advance (.abort status error) =
          some ((s.setBuildState status error).daemon .over) ∨
        (s.daemon stage).advance (.finish status error) =
          some ((s.setBuildState status error).daemon .over)) := by
  have hl := ((h.placed i v hv).unpublished (by rw [hpc]; rfl)).1
  have hfinal := (h.placed i v hv).final async status error hpc
  have hfits := hst i v hl hv
  rw [Fits, hpc] at hfits
  obtain ⟨hstage, hcancel⟩ := hfits
  refine ⟨Staged.invocation rfl (fun u _ hu => ?_) (.inl hl), ?_⟩
  · cases hv.symm.trans hu
    simp [Fits, Invocation.next, hpc, Pc.next]
  · -- the invocation has called `runBuild` or not, and the stage of the daemon knows
    refine hstage.symm.imp ?_ ?_
    · rintro ⟨rfl, hne⟩
      cases status <;> simp_all [Daemon.advance, Daemon.endsWith, finalStatus, Server.daemon,
        Daemon.setBuildState, Server.setBuildState]
    · rintro rfl
      cases status <;> simp_all [Daemon.advance, Daemon.endsWith, finalStatus, Server.daemon,
        Daemon.setBuildState, Server.setBuildState]

theorem perform_daemon (hs : ∀ async status error, v.pc ≠ .settling async status error) :
    (s.perform i v.pc o).build = s.build ∧ (s.perform i v.pc o).invocations = s.invocations ∧
      (s.perform i v.pc o).daemon stage = s.daemon stage := by
  cases hpc : v.pc with
  | settling async status error => exact absurd hpc (hs async status error)
  | closed =>
    simp only [Server.perform, Server.clearBuildExecution]
    split <;> exact ⟨rfl, rfl, rfl⟩
  | published async status => cases async <;> cases o <;> exact ⟨rfl, rfl, rfl⟩
  | _ => cases o <;> exact ⟨rfl, rfl, rfl⟩

theorem advance_mirrored {resp : Response} (h : Coherent s) (hst : Staged s stage)
    (he : s.advance i o = some s') : ∃ stage', Staged s' stage' ∧
      Mirrors (s.daemon stage) s.calls resp (s'.daemon stage') (.advance i o) := by
  unfold Server.advance at he
  split at he
  · cases he
  next v hv =>
  split at he
  · cases he
  cases he
  by_cases hs : ∃ async status error, v.pc = .settling async status error
  · obtain ⟨async, status, error, hpc⟩ := hs
    obtain ⟨hst', hadvance⟩ := settling_mirrored (o := o) h hst hv hpc
    have hcalls : s.calls i = false := by simp [Server.calls, hv, hpc]
    rw [hpc]
    refine ⟨.over, hst', ?_⟩
    rw [Mirrors, hcalls]
    exact .inr ⟨status, error, hadvance⟩
  simp only [not_exists] at hs
  obtain ⟨hb, hinv, hd⟩ : _ ∧ _ ∧ (s.perform i v.pc o).daemon stage = s.daemon stage :=
    perform_daemon hs
  by_cases hrun : v.pc = .start ∧ v.ctxCancelled = false
  · obtain ⟨hpc, hc⟩ := hrun
    have hl := ((h.placed i v hv).unpublished (by rw [hpc]; rfl)).1
    have ha : stage = .accepted := by simpa [Fits, hpc, hc] using hst i v hl hv
    refine ⟨.building, Staged.invocation hinv (fun u _ hu => ?_) (.inl hl), ?_⟩
    · cases hv.symm.trans hu
      simp [Fits, Invocation.next, hpc, hc, Pc.next]
    · rw [hpc]
      simp [Mirrors, Server.calls, hv, hpc, hc, Daemon.advance, Server.daemon, ha, Server.perform,
        Server.invocation]
  · have hcalls : s.calls i = false := by simp_all [Server.calls]
    refine ⟨stage, Staged.invocation hinv (fun u hl hu => ?_) (.inr ⟨hb, hst⟩), ?_⟩
    · cases hv.symm.trans hu
      rw [hb]
      exact (hst i v hl hv).next hs fun hpc => by simpa [hpc] using hrun
    · rw [Mirrors, hcalls]
      exact .inl hd

theorem step_mirrored {a : Server.Action} {resp : Response} (h : Coherent s) (hst : Staged s stage)
    (he : s.step a = some (s', resp)) : ∃ stage', Staged s' stage' ∧
      Mirrors (s.daemon stage) s.calls resp (s'.daemon stage') a := by
  cases a with
  | build ids => exact handleBuildPost_mirrored hst (Option.some.inj he)
  | status =>
    cases he
    exact ⟨stage, hst, rfl, rfl⟩
  | cancel => exact ⟨stage, handleBuildCancel_mirrored h hst (Option.some.inj he)⟩
  | retire ids => exact ⟨stage, handleBuildRetirePost_mirrored h hst (Option.some.inj he)⟩
  | retireStatus ids =>
    cases he
    exact ⟨stage, hst, rfl⟩
  | advance i o =>
    obtain ⟨s₁, hs, he⟩ := Option.map_eq_some_iff.mp he
    cases he
    exact advance_mirrored h hst hs

/-- Every run of the daemon process is one of the daemon that the runs of the cluster use: with the
right stage the handlers of both do and answer the same, and the daemon starts a build exactly when
the process calls `backend.runBuild`. -/
theorem process_refines_daemon (r : Server.process.Run) : ∃ stage : Nat → Stage, stage 0 = .vacant ∧
    ∀ n, Mirrors ((r.state n).daemon (stage n)) (r.state n).calls (r.answer n)
      ((r.state (n + 1)).daemon (stage (n + 1))) (r.action n) := by
  have hc : ∀ n, Coherent (r.state n) :=
    r.invariant Coherent.initial fun _ _ _ _ hc he => hc.step he
  choose next hnext hmirrors using fun (n : Nat) (stage : Stage) (hst : Staged (r.state n) stage) =>
    step_mirrored (hc n) hst (r.step n)
  let stage : (n : Nat) → { stage : Stage // Staged (r.state n) stage } := fun n =>
    n.rec ⟨.vacant, r.zero ▸ fun _ _ _ hv => by cases hv⟩ fun n st =>
      ⟨next n st.1 st.2, hnext n st.1 st.2⟩
  exact ⟨fun n => (stage n).1, rfl, fun n => hmirrors n (stage n).1 (stage n).2⟩

end KovaService.Runner
