import KovaService.Proof.Runner

/-!
Verification: its handlers write the status of the object they were given, or of the one they have
read directly under its witness.
-/

namespace KovaService.Proof

open Lib Api Ledger Protocol KovaService.System Controller

variable {w : World} {ρ : w.Execution} {t i j : Nat} {cfg : Config} {coord : Bool}
variable {build : KovaBuild} {st : KovaBuildStatus}

theorem persistVerificationStatus_does (hb : Writable ρ t i build)
    (hq : pastQueue build.status.phase → pastQueue st.phase) :
    Does ρ t ((w.reconciler cfg coord).persistVerificationStatus { build with status := st }) i
      (fun stored j => stored ∈ (ρ.store j).versions ∧
        stored = { build with status := st, resourceVersion := stored.resourceVersion }) := by
  unfold Reconciler.persistVerificationStatus
  have hquiet : Quiet (onlyIf (w.reconciler cfg coord).genesis.isSome do
      let _ ← (w.reconciler cfg coord).directGenesisWitness { build with status := st }) :=
    quiet_onlyIf (quiet_bind (quiet_directGenesisWitness _ _) fun _ => quiet_pure _)
  refine hquiet.does.andThen fun _ j hj _ => ?_
  exact updateStatus_does ((hb.mono hj).write hq)

theorem persist_does (hb : Handling ρ t i build) (hp : st.phase = build.status.phase) :
    Does ρ t ((w.reconciler cfg coord).persistVerificationStatus { build with status := st }) i
      (fun stored j => Handling ρ t j stored) := by
  refine (persistVerificationStatus_does hb.writable fun h => hp ▸ h).imp
    fun stored j hij ⟨hs, he⟩ => ⟨hb.writable.stored hij hs he hp, ?_⟩
  have hname : stored.name = build.name := by rw [he]
  exact hname ▸ hb.dispatched.mono hij

variable {message : String}

theorem beginVerificationPhase_does {phase : Phase} {reason : String} {window : Duration}
    (hb : Handling ρ t i build) (hp : pastQueue phase) :
    Complies ρ t ((w.reconciler cfg coord).beginVerificationPhase build phase reason message window)
      i := by
  unfold Reconciler.beginVerificationPhase
  refine (witnessed_does hb).andThen fun b j _ hb => ?_
  generalize pendingOutputs (w.reconciler cfg coord).ext b.spec = pending
  refine .ite (fun _ => .ite (fun _ => ?_) fun _ => ?_) fun _ => ?_
  · exact finished_does hb.writable rfl fun _ => .pure trivial
  · exact finished_does hb.writable rfl fun _ => .pure trivial
  · refine quiet_timeNow.does.andThen fun now k hk _ => ?_
    have hw := (hb.writable.mono hk)
    exact (persistVerificationStatus_does hw fun _ => hp).andThen fun _ _ _ _ => .pure trivial

theorem beginVerification_does (hb : Handling ρ t i build) :
    Complies ρ t ((w.reconciler cfg coord).beginVerification build) i :=
  beginVerificationPhase_does hb ⟨by decide, by decide⟩

theorem beginFailedVerification_does (hb : Handling ρ t i build) :
    Complies ρ t ((w.reconciler cfg coord).beginFailedVerification build message) i :=
  beginVerificationPhase_does hb ⟨by decide, by decide⟩

theorem failVerification_does (hb : Handling ρ t i build) :
    Complies ρ t ((w.reconciler cfg coord).failVerification build message) i := by
  unfold Reconciler.failVerification
  refine Does.andThen (persist_does hb ?_) fun stored j _ hs => ?_
  · rfl
  · exact finished_does hs.writable rfl fun _ => .pure trivial

theorem finishFailedVerification_does (hb : Handling ρ t i build) :
    Complies ρ t ((w.reconciler cfg coord).finishFailedVerification build) i := by
  unfold Reconciler.finishFailedVerification
  refine Does.andThen (persist_does hb ?_) fun stored j _ hs => ?_
  · rfl
  · exact finished_does hs.writable rfl fun _ => .pure trivial

theorem expireFailedVerification_does (hb : Handling ρ t i build) :
    Complies ρ t ((w.reconciler cfg coord).expireFailedVerification build) i := by
  unfold Reconciler.expireFailedVerification
  refine finishFailedVerification_does (hb.withStatus ?_)
  rfl

/-- One attempt stores the receipts it has collected and goes on with the stored object. -/
theorem verificationAttempt_does {hardStop : Bool} (hb : Handling ρ t i build) :
    Does ρ t ((w.reconciler cfg coord).verificationAttempt build hardStop) i
      (fun x j => Handling ρ t j x.1) := by
  unfold Reconciler.verificationAttempt
  refine Does.andThen (quiet_collectReceipts (quiet_exporter _ _) _).does
    fun ⟨collected, transient, collectFailed⟩ j hj _ => ?_
  have hb : Handling ρ t j { build with status := { build.status with
      verificationAttempts := build.status.verificationAttempts + 1 } } := by
    refine (hb.mono hj).withStatus ?_
    rfl
  refine Does.andThen (persist_does hb ?_) fun stored k _ hs => ?_
  · rfl
  refine (quiet_attempt quiet_ctxErr).does.andThen fun ctx l hl _ => ?_
  have hquiet : ∀ c : Bool, Quiet (if c then
      Reconciler.registryAttempt stored.status.verificationResults transient
      else pure (stored.status.verificationResults, transient, collectFailed)) :=
    fun c => quiet_ite (quiet_registryAttempt _ _) (quiet_pure _)
  refine (hquiet _).does.andThen fun ⟨results, transient', failed⟩ q hq _ => ?_
  refine (quiet_attempt quiet_ctxErr).does.andThen fun ctx' z hz _ => .pure ?_
  refine (hs.mono (by omega)).withStatus ?_
  rfl

theorem pendingStatus_handling {transient : String} (hb : Handling ρ t i build) :
    Handling ρ t i (Reconciler.pendingStatus build transient) := by
  unfold Reconciler.pendingStatus
  exact hb.withStatus rfl

theorem reconcileVerifying_does (hb : Handling ρ t i build) :
    Complies ρ t ((w.reconciler cfg coord).reconcileVerifying build) i := by
  unfold Reconciler.reconcileVerifying
  refine (witnessed_does hb).andThen fun b j _ hb => ?_
  split
  · exact failVerification_does hb
  refine .ite (fun _ => failVerification_does hb) fun _ => ?_
  refine .ite (fun _ => failVerification_does hb) fun _ => .ite (fun _ => ?_) fun _ => ?_
  · refine finished_does (hb.writable.withStatus ?_) rfl fun _ => .pure trivial
    rfl
  refine quiet_timeNow.does.andThen fun now k hk _ => ?_
  have hb := hb.mono hk
  refine .ite (fun _ => failVerification_does hb) fun _ => ?_
  refine (quiet_attemptDue b).does.andThen fun due l hl _ => ?_
  refine .ite (fun _ => .pure trivial) fun _ => ?_
  refine (verificationAttempt_does (hb.mono hl)).andThen fun ⟨b', transient, hardFailure⟩ q _ hb => ?_
  refine .ite (fun _ => failVerification_does hb) fun _ => .ite (fun _ => ?_) fun _ => ?_
  · refine Does.andThen (persist_does hb ?_) fun stored z _ hs => ?_
    · rfl
    · exact finished_does hs.writable rfl fun _ => .pure trivial
  · refine quiet_timeNow.does.andThen fun later z hz _ => ?_
    refine Does.andThen (persist_does (pendingStatus_handling (hb.mono hz)) ?_)
      fun _ _ _ _ => .pure trivial
    rfl

theorem reconcileFailedVerifying_does (hb : Handling ρ t i build) :
    Complies ρ t ((w.reconciler cfg coord).reconcileFailedVerifying build) i := by
  unfold Reconciler.reconcileFailedVerifying
  refine (witnessed_does hb).andThen fun b j _ hb => ?_
  have hmalformed : ∀ st : KovaBuildStatus, st.phase = b.status.phase →
      Complies ρ t ((w.reconciler cfg coord).finishFailedVerification { b with status := st }) j :=
    fun st hp => finishFailedVerification_does (hb.withStatus hp)
  dsimp only
  split
  · exact hmalformed _ rfl
  refine .ite (fun _ => hmalformed _ rfl) fun _ => .ite (fun _ => hmalformed _ rfl) fun _ => ?_
  refine quiet_timeNow.does.andThen fun now k hk _ => ?_
  have hb := hb.mono hk
  refine .ite (fun _ => expireFailedVerification_does hb) fun _ => ?_
  refine (quiet_attemptDue b).does.andThen fun due l hl _ => ?_
  refine .ite (fun _ => .pure trivial) fun _ => ?_
  refine (verificationAttempt_does (hb.mono hl)).andThen fun ⟨b', transient, _⟩ q _ hb => ?_
  refine .ite (fun _ => ?_) fun _ => ?_
  · refine finishFailedVerification_does (hb.withStatus ?_)
    rfl
  refine quiet_timeNow.does.andThen fun later z hz _ => ?_
  have hpending : Handling ρ t z (Reconciler.pendingStatus b' transient) :=
    pendingStatus_handling (hb.mono hz)
  refine .ite (fun _ => expireFailedVerification_does hpending) fun _ => ?_
  refine Does.andThen (persist_does hpending ?_) fun _ _ _ _ => .pure trivial
  rfl

variable {state : BuildState}

theorem finishObservedBuild_does (hb : Handling ρ t i build) :
    Complies ρ t ((w.reconciler cfg coord).finishObservedBuild build state) i := by
  unfold Reconciler.finishObservedBuild
  have hb' : Handling ρ t i { build with status := { build.status with
      pollFailureSince := none, pollFailureCount := 0 } } := by
    refine hb.withStatus ?_
    rfl
  refine .ite (fun _ => beginVerification_does hb') fun _ => .ite (fun _ => ?_) fun _ => ?_
  · exact finished_does hb'.writable rfl fun _ => .pure trivial
  · exact beginFailedVerification_does hb'

theorem followState_does {working : K Unit} (hb : Handling ρ t i build)
    (h : Complies ρ t working i) :
    Complies ρ t ((w.reconciler cfg coord).followState build state working) i := by
  unfold Reconciler.followState
  refine .ite (fun _ => failBuild_does hb.writable) fun _ => ?_
  split
  · exact failBuild_does hb.writable
  · exact finishObservedBuild_does hb
  · exact h

theorem markSubmitted_does (hb : Handling ρ t i build) :
    Complies ρ t ((w.reconciler cfg coord).markSubmitted build state) i := by
  have hw : ∃ base, StatusWrite ρ i t
      { build with status := Reconciler.runningStatus build } base :=
    hb.writable.write fun _ => ⟨by simp [Reconciler.runningStatus, KovaBuildStatus.setPhaseCondition],
      by simp [Reconciler.runningStatus, KovaBuildStatus.setPhaseCondition]⟩
  refine .check fun _ => followState_does hb ?_
  exact (updateStatus_does hw).andThen fun _ _ _ _ => .pure trivial

end KovaService.Proof
