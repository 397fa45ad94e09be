import KovaService.Proof.Admission
import KovaService.Proof.Verification

/-!
`startBuild`: one Pod Create for each recorded attempt, and the release of the queue intent.
-/

namespace KovaService.Proof

open Lib Api Ledger Protocol KovaService.System Controller

variable {w : World} {ρ : w.Execution} {t i j : Nat} {cfg : Config} {coord : Bool}

variable {build : KovaBuild} {b : KovaBuild}

theorem Released.mono (h : Released ρ i b) (hij : i ≤ j) : Released ρ j b where
  intent := by
    obtain ⟨k, hk, hn⟩ := h.intent
    exact ⟨k, by omega, hn⟩
  receipt hg := by
    obtain ⟨k, hk, hn⟩ := h.receipt hg
    exact ⟨k, by omega, hn⟩
  settled hg := by
    obtain ⟨k, c, hk, hn⟩ := h.settled hg
    exact ⟨k, c, by omega, hn⟩

theorem mark_does {m : Mark} (hd : ∀ n, i ≤ n → ρ.rests t i n → Marked ρ n t m) :
    Complies ρ t (mark m) i :=
  Does.request rfl hd (fun _ _ _ _ _ _ => trivial) fun _ _ _ _ _ _ => trivial

theorem serves_reconciler : Serves w (w.reconciler cfg coord).queueStore := ⟨rfl, rfl⟩

theorem releaseQueueIntent_does (hb : build ∈ (ρ.store i).versions)
    (hlegacy : w.genesis = none → build.terminalOrDeleting ∨
      ∃ k, k ≤ i ∧ ∃ r, (ρ.store k).ledger.data.active.lookup build.uid = some r)
    (hgone : w.genesis.isSome → EntryGone ρ i build.uid) :
    Complies ρ t ((w.reconciler cfg coord).releaseQueueIntent build) i := by
  unfold Reconciler.releaseQueueIntent
  refine (releaseForBuild_does serves_reconciler hb hlegacy hgone).attempt (fun _ j _ h => ?_)
    fun e j hj _ => ?_
  · exact mark_does fun n hn _ => h.imp_right fun h => Released.mono h hn
  · exact (reportDrift_does (versions_mono ρ hj hb)).andThen fun _ _ _ _ => .throw trivial

theorem createPod_does {p : Pod} (hd : ∀ n, i ≤ n → ρ.rests t i n → ∃ b, PodCreation ρ n t p b) :
    Does ρ t (createPod p) i (fun _ j => Settled ρ j p.annotations.createAttempt)
      (fun e j => unknownOutcome e = false → Settled ρ j p.annotations.createAttempt) := by
  refine Does.request rfl hd ?_ ?_
  · rintro m r _ hm hg rfl
    exact ⟨m, p, by omega, createPod_arrived hg fun e he => (by cases he), rfl⟩
  · rintro m r e hm hg rfl hu
    refine ⟨m, p, by omega, createPod_arrived hg fun e' he => ?_, rfl⟩
    cases he
    exact hu

theorem known_of_alreadyExists {e : Err} (h : e.isAlreadyExists) : unknownOutcome e = false := by
  have hr : e.reason = some .alreadyExists := by simpa [Err.isAlreadyExists] using h
  simp [unknownOutcome, hr]

theorem known_of_definitiveRejection {e : Err} (h : e.isDefinitiveRejection) :
    unknownOutcome e = false := by
  simp only [Err.isDefinitiveRejection, Bool.or_eq_true, beq_iff_eq] at h
  rcases h with ((hr | hr) | hr) | hr <;> simp [unknownOutcome, hr]

theorem acceptPod_does (build : KovaBuild) (pod : Pod) :
    Complies ρ t ((w.reconciler cfg coord).acceptPod build pod) i := by
  unfold Reconciler.acceptPod
  split
  · refine (quiet_qualifyGenesisPod _ build (some pod) false).does.andThen fun _ _ _ _ => ?_
    exact .decoded fun _ _ => .pure trivial
  · exact .pure trivial

theorem settleCreate_does {attempted : String} {answer : Except Err Pod} (hw : Writable ρ t i build)
    (hs : (∀ e, answer = .error e → unknownOutcome e = false) → Settled ρ i attempted) :
    Complies ρ t ((w.reconciler cfg coord).settleCreate build attempted answer) i := by
  unfold Reconciler.settleCreate
  have hb := hw.known
  cases answer with
  | ok p =>
    have hs : Settled ρ i attempted := hs fun e h => (by cases h)
    have hquiet : Quiet (onlyIf (w.reconciler cfg coord).genesis.isSome do
        let observed ← (w.reconciler cfg coord).getOwnedPod build
        (w.reconciler cfg coord).qualifyGenesisPod build observed false) :=
      quiet_onlyIf (quiet_bind (quiet_getOwnedPod _ build)
        fun observed => quiet_qualifyGenesisPod _ build observed false)
    refine hquiet.does.andThen fun _ j hj _ => ?_
    exact (completePodCreate_does (hb.mono hj) (hs.mono hj)).andThen
      fun _ _ _ _ => .pure trivial
  | error e =>
    have hs : unknownOutcome e = false → Settled ρ i attempted := by
      refine fun hu => hs fun e' he => ?_
      cases he
      exact hu
    dsimp only
    split
    · next ha =>
      have hs := hs (known_of_alreadyExists ha)
      refine (getOwnedPod_does build).andThen fun o j hj ho => ?_
      cases o with
      | none => exact .throw trivial
      | some owned =>
        refine (acceptPod_does build owned).andThen fun _ k hk _ => .check fun _ => ?_
        have hbk := hb.mono (hj.trans hk)
        refine (completePodCreate_does hbk (hs.mono (hj.trans hk))).andThen fun _ l hl _ => ?_
        refine (settleStamp_does (hbk.mono hl) (ho.seen.mono (hk.trans hl))).andThen fun _ _ _ _ => ?_
        exact .pure trivial
    · split
      · next hd =>
        have hs := hs (known_of_definitiveRejection hd)
        refine (completePodCreate_does hb hs).andThen fun _ j hj _ => ?_
        exact finished_does (hw.mono hj) rfl fun _ => .pure trivial
      · exact finished_does hw rfl fun _ => .pure trivial

theorem stampGenesisPod_does (build : KovaBuild) (attempted a : String) :
    Does ρ t ((w.reconciler cfg coord).stampGenesisPod build { (w.reconciler cfg coord).preparePod
        build with annotations := { createAttempt := a } } attempted) i
      (fun p j => (p.name = buildPodName build.name ∧
        p.ownerReferences = [Reconciler.controllerReference build] ∧
        (w.genesis.isSome → p.annotations.createAttempt = attempted ∧
          ∀ uid, Runner.runnerPodUID { p with uid := uid } = some uid) ∧
        (w.genesis = none → p.annotations.createAttempt = a)) ∧ Calm ρ t i j) := by
  refine Does.calmly ?_ (quiet_stampGenesisPod ..)
  unfold Reconciler.stampGenesisPod
  split
  · next hg =>
    have hg : w.genesis = none := hg
    refine .pure ⟨rfl, rfl, fun h => ?_, fun _ => rfl⟩
    simp [hg] at h
  next g hg =>
  have hg : w.genesis = some g := hg
  refine quiet_genesisCheck.does.andThen fun _ j _ _ => .check fun _ => ?_
  refine .decoded fun runner _ => .check fun _ => .pure ⟨rfl, rfl, ?_, fun h => ?_⟩
  · refine fun _ => ⟨rfl, fun uid => ?_⟩
    simp [Reconciler.preparePod, Runner.runnerPodUID]
  · simp [hg] at h

theorem live_phase (h : b.live) :
    b.status.phase.isTerminal = false ∧ ¬ pastQueue b.status.phase := by
  simp only [KovaBuild.live, Bool.and_eq_true, Bool.or_eq_true, beq_iff_eq] at h
  rcases h.2 with hp | hp <;> rw [hp] <;> exact ⟨rfl, fun hq => by simp [pastQueue] at hq⟩

theorem ensureRunner_does (hv : build ∈ (ρ.store i).versions) (hlive : build.live)
    (hC : w.genesis.isSome → Confirmed ρ t i) :
    Complies ρ t ((w.reconciler cfg coord).ensureRunner build) i := by
  unfold Reconciler.ensureRunner
  have hb : Known ρ i build := .of_mem hv
  have hw : Writable ρ t i build := .of_mem hv (live_phase hlive).1
  refine ((getOwnedPod_does build).calmly (quiet_getOwnedPod _ build)).andThen
    fun o j hj ⟨ho, hc₁⟩ => ?_
  cases o with
  | some owned =>
    refine (acceptPod_does build owned).andThen fun _ k hk _ => ?_
    refine (settleStamp_does (hb.mono (hj.trans hk)) (ho.seen.mono hk)).andThen fun _ _ _ _ => ?_
    exact .pure trivial
  | none =>
    refine (beginPodCreate_does (hb.mono hj)).attempt (fun attempted k hk h => ?_) fun e k hk _ => ?_
    · obtain ⟨hun, hst, hiss⟩ := h
      have hC : w.genesis.isSome = true → Confirmed ρ t k :=
        fun hg => hst.confirmed ((hC hg).calm hc₁)
      refine (stampGenesisPod_does build attempted attempted).andThen
        fun pod l hl ⟨⟨hname, howner, hgen, hleg⟩, hc₂⟩ => ?_
      have hbl : Known ρ l build := hb.mono (by omega)
      have hfinal : Does ρ t (if (w.reconciler cfg coord).genesis.isSome
          then (w.reconciler cfg coord).finishFreshPodAttempt build pod attempted else pure pod) l
          (fun p q => p.name = pod.name ∧ p.ownerReferences = pod.ownerReferences ∧
            p.annotations.createAttempt = attempted ∧ Issued ρ q build.uid attempted ∧
            Unspent ρ t q attempted isCreatePod ∧ (w.genesis.isSome → Confirmed ρ t q ∧
              ∀ uid, Runner.runnerPodUID { p with uid := uid } = some uid)) := by
        split
        · next hg =>
          have hf : Fresh ρ t l attempted :=
            ⟨hun.calm hl hc₂, (hC hg).calm hc₂⟩
          refine (finishFreshPodAttempt_does hbl hf).imp fun p q _ ⟨hm, digest, hp⟩ => ?_
          subst hp
          exact ⟨rfl, rfl, (hgen hg).1, hm.issued, hm.unspent,
            fun _ => ⟨hm.confirmed, (hgen hg).2⟩⟩
        · next hg =>
          have hg : w.genesis = none := Option.not_isSome_iff_eq_none.mp hg
          refine .pure ⟨rfl, rfl, hleg hg, (hiss hg).mono hl, (hun.calm hl hc₂).createPod, ?_⟩
          intro h
          simp [hg] at h
      refine hfinal.andThen fun p q hq ⟨hpn, hpo, hpa, hissued, hunspent, hconf⟩ => ?_
      have hcreate : ∀ n, q ≤ n → ρ.rests t q n → ∃ b, PodCreation ρ n t p b := by
        intro n hn hrest
        obtain ⟨base, hbase, hbe⟩ := hbl.mono (hq.trans hn)
        have hbn : base.name = build.name := by rw [hbe]
        have hbu : base.uid = build.uid := by rw [hbe]
        refine ⟨base, hbase, ?_, ?_, ?_, ?_, ?_, ?_⟩
        · rw [hpn, hname, hbn]
        · rw [hpo, howner, Reconciler.controllerReference, Reconciler.controllerReference, hbn, hbu]
        · obtain ⟨e, ⟨m, hm, hlook⟩, ha⟩ := hissued
          exact ⟨m, e, by omega, hbu ▸ hlook, hpa ▸ ha⟩
        · exact hpa ▸ hunspent.silent hn hrest.silent
        · exact fun hg => (hconf hg).1.silent hrest.silent
        · exact fun hg => (hconf hg).2
      refine (createPod_does hcreate).attempt (fun a z hz hs => ?_) fun e z hz hs => ?_
      · exact settleCreate_does (hw.mono (by omega)) fun _ => hpa ▸ hs
      · exact settleCreate_does (hw.mono (by omega)) fun h => hpa ▸ hs (h e rfl)
    · show Does ρ t (if _ then _ else _) k _ _
      split
      · exact .pure trivial
      · exact (reportRecovery_does (versions_mono ρ (hj.trans hk) hv)).andThen
          fun _ _ _ _ => .throw trivial

theorem markStarting_does {allocation : Int} (hw : Writable ρ t i build) :
    Complies ρ t ((w.reconciler cfg coord).markStarting build allocation) i := by
  unfold Reconciler.markStarting
  refine quiet_timeNow.does.andThen fun now j hj _ => ?_
  have hwitness : Quiet (if (w.reconciler cfg coord).genesis.isSome
      then (w.reconciler cfg coord).podWitness build
      else pure build.status.admissionGenesisWitness) := by
    unfold Reconciler.podWitness
    repeat' first | with_reducible refine quiet_bind ?_ fun _ => ?_ | refine quiet_ite ?_ ?_
    all_goals simp
  refine hwitness.does.andThen fun witness k hk _ => ?_
  refine (quiet_onlyIf quiet_genesisCheck).does.andThen fun _ l hl _ => ?_
  have hst : ∃ base, StatusWrite ρ l t { build with
      status := Reconciler.startingStatus build allocation witness now } base := by
    refine (hw.mono (by omega)).write fun _ => ?_
    simp [Reconciler.startingStatus, KovaBuildStatus.setPhaseCondition, pastQueue]
  exact (updateStatus_does hst).andThen fun _ _ _ _ => .pure trivial

theorem startDecided_does {decision : AdmissionDecision} (hb : build ∈ (ρ.store i).versions)
    (hlive : build.live)
    (ha : decision.admitted → ∃ e, HadEntry ρ i build.uid e)
    (hC : w.genesis.isSome → Confirmed ρ t i) :
    Complies ρ t ((w.reconciler cfg coord).startDecided build decision) i := by
  unfold Reconciler.startDecided
  split
  · exact .pure trivial
  split
  · have hst : ∃ base, StatusWrite ρ i t { build with
        status := Reconciler.waitingStatus build decision.message } base :=
      (Writable.of_mem hb (live_phase hlive).1).write fun h => absurd h (live_phase hlive).2
    refine .ite (fun _ => ?_) fun _ => .pure trivial
    exact (updateStatus_does hst).andThen fun _ _ _ _ => .pure trivial
  next hadm =>
  have hadm : decision.admitted := by simpa using hadm
  have hrel : (w.reconciler cfg coord).genesis.isNone = true →
      Does ρ t ((w.reconciler cfg coord).releaseQueueIntent build) i
        (fun _ j => w.genesis.isSome → Confirmed ρ t j) := by
    intro hg
    have hg : w.genesis = none := Option.isNone_iff_eq_none.mp hg
    obtain ⟨e, m, hm, hlook⟩ := ha hadm
    have hgone : w.genesis.isSome = true → EntryGone ρ i build.uid := by simp [hg]
    refine (releaseQueueIntent_does hb (fun _ => .inr ⟨m, hm, e, hlook⟩) hgone).imp
      fun _ _ _ _ h => ?_
    simp [hg] at h
  refine .onlyIf hrel (fun _ => hC) fun j hj hC => ?_
  refine (ensureRunner_does (versions_mono ρ hj hb) hlive hC).andThen fun go k hk _ => ?_
  refine .ite (fun _ => markStarting_does ?_) fun _ => .pure trivial
  exact (Writable.of_mem hb (live_phase hlive).1).mono (hj.trans hk)

theorem startBuild_does (hw : Writable ρ t i build) (hC : w.genesis.isSome → Confirmed ρ t i) :
    Complies ρ t ((w.reconciler cfg coord).startBuild build) i := by
  unfold Reconciler.startBuild
  split
  · exact finished_does hw rfl fun _ => .pure trivial
  · refine ((getBuild_does build.name).calmly (quiet_getBuild _)).andThen
      fun current j hj ⟨hr, hc⟩ => ?_
    split
    · exact .pure trivial
    next hx =>
    have hlive : current.live := by
      simp only [Bool.or_eq_true, not_or, Bool.not_eq_true, Bool.not_eq_false'] at hx
      exact hx.2
    have hC : w.genesis.isSome = true → Confirmed ρ t j := fun hg => (hC hg).calm hc
    refine (admission_does (.of_mem hr.known) hC).attempt (fun decision k hk h => ?_)
      fun e k hk _ => ?_
    · exact startDecided_does (versions_mono ρ hk hr.known) hlive h.1 h.2
    · refine .ite (fun _ => .pure trivial) fun _ => ?_
      exact (reportDrift_does (versions_mono ρ hk hr.known)).andThen
        fun _ _ _ _ => .throw trivial

end KovaService.Proof
