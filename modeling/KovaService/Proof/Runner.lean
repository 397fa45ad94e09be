import KovaService.Proof.Free
import KovaService.Proof.Queue

/-!
The runner Pod: what its reads tell, how its stamp is settled, and how it is deleted.
-/

namespace KovaService.Proof

open Lib Api Ledger Protocol KovaService.System Controller

variable {w : World} {ρ : w.Execution} {t i j : Nat} {cfg : Config} {coord : Bool}
variable (build : KovaBuild) {phase : Phase} {α : Type}

abbrev Complies (ρ : w.Execution) (t : Nat) (p : K α) (i : Nat) : Prop :=
  Does ρ t p i (fun _ _ => True)

theorem Does.complies {p : K α} {Post : α → Nat → Prop} {Fail : Err → Nat → Prop}
    (h : Does ρ t p i Post Fail) : Complies ρ t p i :=
  h.imp fun _ _ _ _ => trivial

def SeenPod (ρ : w.Execution) (j : Nat) (p : Pod) : Prop :=
  ∃ m name, m < j ∧ (ρ.store m).pods.lookup name = some p

variable {p : Pod}

theorem SeenPod.mono (h : SeenPod ρ i p) (hij : i ≤ j) : SeenPod ρ j p := by
  obtain ⟨m, name, hm, hl⟩ := h
  exact ⟨m, name, by omega, hl⟩

theorem SeenPod.settled (h : SeenPod ρ j p) : Settled ρ j p.annotations.createAttempt := by
  obtain ⟨m, name, hm, hl⟩ := h
  obtain ⟨-, k, p₀, hk, hb⟩ := pod_born ρ hl
  exact ⟨k, p₀, by omega, hb.acts, congrArg _ hb.same.annotations.symm⟩

theorem PodRead.seen {build : KovaBuild} (h : PodRead ρ i j build (some p)) : SeenPod ρ j p := by
  obtain ⟨-, m, -, hm, hl⟩ := h
  exact ⟨m, _, hm, hl⟩

variable {b : KovaBuild}

theorem ownedByBuild_controlledBy (h : p.ownedByBuild b) : controlledBy p b.uid := by
  obtain ⟨o, ho, hb⟩ := List.any_eq_true.mp h
  simp only [Bool.and_eq_true, beq_iff_eq] at hb
  exact ⟨o, ho, hb.2⟩

/-- A direct read of the build, followed by one of its runner Pod. -/
structure Witnessed (ρ : w.Execution) (t i j : Nat) (build current : KovaBuild) (pod : Pod) :
    Prop where
  reads : ∃ m k, i < m ∧ m < k ∧ k < j ∧ ρ.gets m t (.getBuild build.name) (.ok current) ∧
    (ρ.store k).pods.lookup (buildPodName build.name) = some pod
  uid : current.uid = build.uid
  alive : current.deletionTimestamp = none
  witness : current.status.admissionGenesisWitness = build.status.admissionGenesisWitness
  owned : pod.ownedByBuild current
  expected : expectedPodUID current = pod.uid
  present : pod.uid ≠ ""

namespace Witnessed

variable {build current : KovaBuild} {pod : Pod}

theorem mono {k : Nat} (h : Witnessed ρ t i j build current pod) (hjk : j ≤ k) :
    Witnessed ρ t i k build current pod := by
  obtain ⟨m, l, h1, h2, h3, hg, hl⟩ := h.reads
  exact { h with reads := ⟨m, l, h1, h2, by omega, hg, hl⟩ }

theorem read (h : Witnessed ρ t i j build current pod) : ReadBuild ρ t i j build.name current := by
  obtain ⟨m, k, h1, h2, h3, hg, -⟩ := h.reads
  exact ⟨m, h1, by omega, hg⟩

theorem name (h : Witnessed ρ t i j build current pod) : current.name = build.name := by
  obtain ⟨-, -, -, -, hn, -⟩ := h.read.stored
  exact hn

end Witnessed

theorem witnessFromPodMode_ok {build : KovaBuild} {o : Option Pod} {allow : Bool} {r : Reconciler}
    {x : AdmissionGenesisWitness}
    (h : r.witnessFromPodMode build o allow = .ok x) :
    ∃ p, o = some p ∧ x.podUID = p.uid ∧ p.uid ≠ "" := by
  unfold Reconciler.witnessFromPodMode at h
  split at h
  · next g p _ =>
    split at h
    · cases h
    next hx =>
    simp only [Bool.or_eq_true, not_or, beq_iff_eq] at hx
    have hne : p.uid ≠ "" := hx.1.1.1.1.1.2
    dsimp only at h
    split at h
    · cases h
    · split at h
      · cases h
      · split at h
        · cases h
        · split at h
          · cases h
          · split at h
            · cases h
            · cases h
              exact ⟨p, rfl, rfl, hne⟩
  · cases h

theorem directGenesisWitnessWith_does (observed : Bool) (build : KovaBuild) :
    Does ρ t ((w.reconciler cfg coord).directGenesisWitnessWith observed build) i
      (fun x j => Witnessed ρ t i j build x.1 x.2) := by
  unfold Reconciler.directGenesisWitnessWith
  refine .check fun _ => ?_
  have hread : ∀ k, i ≤ k → Does ρ t (getBuild build.name) k
      (fun b j => ReadBuild ρ t i j build.name b) := by
    intro k hk
    refine (getBuild_does _).imp fun b j _ ⟨m, h1, h2, hg⟩ => ⟨m, by omega, h2, hg⟩
  refine (observedRead_does hread).andThen fun current k hk hcur => ?_
  refine .check fun hx => ?_
  simp only [Bool.or_eq_false_iff, bne_eq_false_iff_eq, Option.isSome_eq_false_iff,
    Option.isNone_iff_eq_none] at hx
  have hpod : ∀ l, k ≤ l → Does ρ t ((w.reconciler cfg coord).getOwnedPod current) l
      (fun o j => PodRead ρ k j current o) := by
    intro l hl
    refine (getOwnedPod_does current).imp fun o j _ h => ?_
    cases o with
    | none =>
      obtain ⟨m, h1, h2, hn⟩ := h
      exact ⟨m, by omega, h2, hn⟩
    | some p =>
      obtain ⟨ho, m, h1, h2, hn⟩ := h
      exact ⟨ho, m, by omega, h2, hn⟩
  refine (observedRead_does hpod).andThen fun o l hl ho => ?_
  refine .decoded fun witness hw => .check fun hy => ?_
  obtain ⟨p, rfl, huid, hne⟩ := witnessFromPodMode_ok hw
  have hwit : some witness = current.status.admissionGenesisWitness := by simpa using hy
  obtain ⟨m, h1, h2, hlook, hname, -⟩ := hcur.stored
  obtain ⟨howned, n, h3, h4, hpl⟩ := ho
  obtain ⟨m', h1', h2', hg⟩ := hcur
  refine .pure ⟨⟨m', n, h1', by omega, h4, hg, hname ▸ hpl⟩, hx.1.1.1.1.1, hx.1.1.1.1.2,
    hx.1.1.2, howned, ?_, hne⟩
  rw [expectedPodUID, ← hwit, ← huid]

theorem directGenesisWitness_does :
    Does ρ t ((w.reconciler cfg coord).directGenesisWitness build) i
      (fun x j => Witnessed ρ t i j build x.1 x.2) :=
  directGenesisWitnessWith_does false build

theorem directGenesisGrant_does :
    Does ρ t ((w.reconciler cfg coord).directGenesisGrant build) i
      (fun x j => Witnessed ρ t i j build x.1 x.2) := by
  unfold Reconciler.directGenesisGrant
  refine .check fun _ => observe_does (fun x _ _ hkj h => h.mono hkj) fun j hj => ?_
  refine (directGenesisWitnessWith_does true build).andThen fun ⟨current, pod⟩ k _ h => ?_
  have h : Witnessed ρ t i k build current pod := by
    obtain ⟨m, l, h1, h2⟩ := h.reads
    exact { h with reads := ⟨m, l, by omega, h2⟩ }
  refine .check fun _ => ?_
  refine (quiet_directGenesisChargeWith _ true current).does.andThen fun entry l hl _ => ?_
  refine .check fun _ => ?_
  refine (quiet_verifyPinnedGrantWith _ current entry).does.andThen fun _ q hq _ => ?_
  refine (quiet_qualifyGenesisPodWith _ true current (some pod) false).does.andThen fun _ z hz _ => ?_
  exact .pure (h.mono (by omega))

theorem directGenesisStopState_does :
    Does ρ t ((w.reconciler cfg coord).directGenesisStopState build) i
      (fun x j => x.1 ∈ (ρ.store j).versions ∧ ∀ p, x.2 = some p → SeenPod ρ j p) := by
  unfold Reconciler.directGenesisStopState
  refine .check fun _ => ?_
  refine (getBuild_does _).andThen fun current j _ hcur => .check fun _ => ?_
  have hk := hcur.known
  refine (getPod_does _).attempt (fun p k hjk hp => ?_) fun e k hjk _ => ?_
  · refine .decoded fun _ _ => .check fun _ => .pure ⟨versions_mono ρ hjk hk, ?_⟩
    rintro _ ⟨⟩
    obtain ⟨m, -, h2, hl⟩ := hp
    exact ⟨m, _, h2, hl⟩
  · refine .ite (fun _ => ?_) fun _ => .throw trivial
    exact .pure ⟨versions_mono ρ hjk hk, fun p h => (by cases h)⟩

theorem DirectBase.mono (h : DirectBase ρ t i b) (hij : i ≤ j) : DirectBase ρ t j b := by
  obtain ⟨k₀, k₁, k₂, b', c, p, h0, h1, h2, h⟩ := h
  exact ⟨k₀, k₁, k₂, b', c, p, h0, h1, by omega, h⟩

/-- What a direct read established for one object it established for all that differ from it in
other parts of the status only. -/
theorem DirectBase.congr {b' : KovaBuild} (h : DirectBase ρ t i b) (hn : b'.name = b.name)
    (hu : b'.uid = b.uid) (ha : b'.annotations = b.annotations)
    (hp : b'.status.phase = b.status.phase) : DirectBase ρ t i b' := by
  unfold DirectBase
  rw [hn, hu, ha, hp]
  exact h

def Dispatched (ρ : w.Execution) (t j : Nat) (name : String) : Prop :=
  ∃ k b, k < j ∧ ρ.gets k t (.cachedBuild name) (.ok b) ∧ b.terminalOrDeleting = false

theorem Dispatched.mono {name : String} (h : Dispatched ρ t i name) (hij : i ≤ j) :
    Dispatched ρ t j name := by
  obtain ⟨k, b, hk, hb⟩ := h
  exact ⟨k, b, by omega, hb⟩

/-- An object in memory whose status thread `t` may replace: a stored version in the same phase,
which is not terminal or goes back to a direct read. -/
structure Writable (ρ : w.Execution) (t i : Nat) (b : KovaBuild) : Prop where
  base : ∃ base ∈ (ρ.store i).versions, b = { base with status := b.status } ∧
    b.status.phase = base.status.phase
  unsettled : b.status.phase.isTerminal = false ∨ w.genesis.isSome ∧ DirectBase ρ t i b

namespace Writable

variable {b : KovaBuild} {st : KovaBuildStatus}

theorem of_mem (h : b ∈ (ρ.store i).versions) (hp : b.status.phase.isTerminal = false) :
    Writable ρ t i b :=
  ⟨⟨b, h, rfl, rfl⟩, .inl hp⟩

theorem mono (h : Writable ρ t i b) (hij : i ≤ j) : Writable ρ t j b := by
  obtain ⟨base, hb, he⟩ := h.base
  exact ⟨⟨base, versions_mono ρ hij hb, he⟩,
    h.unsettled.imp_right fun hd => ⟨hd.1, DirectBase.mono hd.2 hij⟩⟩

theorem known (h : Writable ρ t i b) : Known ρ i b := by
  obtain ⟨base, hb, he, -⟩ := h.base
  exact ⟨base, hb, he⟩

theorem withStatus (h : Writable ρ t i b) (hp : st.phase = b.status.phase) :
    Writable ρ t i { b with status := st } := by
  obtain ⟨base, hb, he, hbp⟩ := h.base
  refine ⟨⟨base, hb, by rw [he], hp.trans hbp⟩, h.unsettled.imp (fun hn => ?_) fun hd => ⟨hd.1, ?_⟩⟩
  · exact (congrArg Phase.isTerminal hp).trans hn
  · exact DirectBase.congr hd.2 rfl rfl rfl hp

theorem write (h : Writable ρ t i b) (hq : pastQueue b.status.phase → pastQueue st.phase) :
    ∃ base, StatusWrite ρ i t { b with status := st } base := by
  obtain ⟨base, hb, he, hp⟩ := h.base
  refine ⟨base, hb, by rw [he], fun hpast => hq (hp ▸ hpast), fun hterm => .inr ?_⟩
  rcases h.unsettled with hn | ⟨hg, hd⟩
  · rw [hp, hterm] at hn
    cases hn
  · refine ⟨hg, DirectBase.congr hd ?_ ?_ ?_ hp.symm⟩ <;> rw [he]

theorem stored {s : KovaBuild} (h : Writable ρ t i b) (hij : i ≤ j) (hs : s ∈ (ρ.store j).versions)
    (he : s = { b with status := st, resourceVersion := s.resourceVersion })
    (hp : st.phase = b.status.phase) : Writable ρ t j s := by
  have hsp : s.status.phase = b.status.phase := by rw [he, ← hp]
  refine ⟨⟨s, hs, rfl, rfl⟩, h.unsettled.imp (fun hn => ?_) fun hd => ⟨hd.1, ?_⟩⟩
  · rw [hsp, hn]
  · refine DirectBase.congr (DirectBase.mono hd.2 hij) ?_ ?_ ?_ hsp <;> rw [he]

end Writable

theorem StatusWrite.mono {base : KovaBuild} (h : StatusWrite ρ i t b base) (hij : i ≤ j) :
    StatusWrite ρ j t b base where
  stored := versions_mono ρ hij h.stored
  status := h.status
  queue := h.queue
  terminal ht := (h.terminal ht).imp_right fun hd => ⟨hd.1, DirectBase.mono hd.2 hij⟩

theorem updateStatus_does (hw : ∃ base, StatusWrite ρ i t b base) :
    Does ρ t (updateStatus b) i (fun stored j => stored ∈ (ρ.store j).versions ∧
      stored = { b with resourceVersion := stored.resourceVersion }) := by
  obtain ⟨base, hw⟩ := hw
  refine Does.request rfl (fun n hn _ => ⟨base, StatusWrite.mono hw hn⟩) ?_ fun _ _ _ _ _ _ => trivial
  rintro m _ stored hm hg rfl
  obtain ⟨current, hl, -, hr, hs, he⟩ := updateStatus_ok hg
  have hcur := ((versions_ok ρ m).current _ _ hl).1
  have hrv : base.resourceVersion = current.resourceVersion := by rw [← hr, hw.status]
  have hsame : base = current :=
    (versions_ok ρ m).version_inj base (versions_mono ρ (by omega) hw.stored) current hcur hrv
  refine ⟨hs, ?_⟩
  rw [he, hw.status, hsame]

variable {st : KovaBuildStatus}

theorem writable_does (hb : Writable ρ t i b) (hp : st.phase = b.status.phase) :
    Does ρ t (updateStatus { b with status := st }) i (fun stored j => Writable ρ t j stored ∧
      stored = { b with status := st, resourceVersion := stored.resourceVersion }) := by
  refine (updateStatus_does (hb.write fun h => hp ▸ h)).imp fun stored j hij ⟨hs, he⟩ => ⟨?_, he⟩
  exact hb.stored hij hs he hp

/-- A write that keeps the final parts of the status is free at any time. -/
theorem keepStatus_does (hb : b ∈ (ρ.store i).versions) (hk : Kept b.status st) :
    Complies ρ t (updateStatus { b with status := st }) i :=
  (updateStatus_does ⟨b, hb, rfl, fun h => hk.phase ▸ h, fun _ => .inl hk⟩).complies

variable {reason : String} {message : String}

theorem markAdmissionRecoveryReason_does {build : KovaBuild} (hb : build ∈ (ρ.store i).versions) :
    Complies ρ t (Reconciler.markAdmissionRecoveryReason build reason message) i := by
  unfold Reconciler.markAdmissionRecoveryReason
  refine .ite (fun _ => .pure trivial) fun _ => keepStatus_does hb ⟨rfl, rfl, rfl, rfl⟩

theorem clearAdmissionRecovery_does {build : KovaBuild} (hb : build ∈ (ρ.store i).versions) :
    Complies ρ t (Reconciler.clearAdmissionRecovery build) i := by
  unfold Reconciler.clearAdmissionRecovery
  exact .ite (fun _ => keepStatus_does hb ⟨rfl, rfl, rfl, rfl⟩) fun _ => .pure trivial

theorem reportDrift_does {build : KovaBuild} {e : Err} {blocked : String}
    (hb : build ∈ (ρ.store i).versions) :
    Complies ρ t (Reconciler.reportDrift build e blocked) i := by
  unfold Reconciler.reportDrift
  refine .ite (fun _ => ?_) fun _ => .pure trivial
  exact (markAdmissionRecoveryReason_does hb).andThen fun _ _ _ _ => .pure trivial

theorem reportRecovery_does {build : KovaBuild} {e : Err} (hb : build ∈ (ρ.store i).versions) :
    Complies ρ t (Reconciler.reportRecovery build e) i := by
  unfold Reconciler.reportRecovery
  split
  · exact (markAdmissionRecoveryReason_does hb).andThen fun _ _ _ _ => .pure trivial
  · exact .pure trivial

theorem pastQueue_terminal (h : phase.isTerminal) : pastQueue phase := by
  constructor
  all_goals
    rintro rfl
    cases h

theorem writeTerminalStatus_does {build : KovaBuild} (hb : Writable ρ t i build)
    (hp : phase.isTerminal) :
    Does ρ t (Reconciler.writeTerminalStatus build phase reason message) i
      (fun stored j => stored ∈ (ρ.store j).versions ∧ stored.uid = build.uid ∧
        stored.deletionTimestamp = build.deletionTimestamp) := by
  unfold Reconciler.writeTerminalStatus
  refine quiet_timeNow.does.andThen fun now j hj _ => ?_
  have hw : ∃ base, StatusWrite ρ j t
      { build with status := terminalStatus build phase reason message now } base :=
    (hb.mono hj).write fun _ => pastQueue_terminal hp
  refine (updateStatus_does hw).imp fun stored k _ ⟨hs, he⟩ => ⟨hs, ?_⟩
  rw [he]
  exact ⟨rfl, rfl⟩

theorem finish_does {build : KovaBuild} (hb : Writable ρ t i build) (hp : phase.isTerminal) :
    Does ρ t ((w.reconciler cfg coord).finish build phase reason message) i
      (fun stored j => stored ∈ (ρ.store j).versions ∧ stored.uid = build.uid ∧
        stored.deletionTimestamp = build.deletionTimestamp) := by
  unfold Reconciler.finish
  refine (quiet_onlyIf (quiet_finishEffective _ build phase)).does.andThen fun _ j hj _ => ?_
  exact writeTerminalStatus_does (hb.mono hj) hp

theorem finished_does {build : KovaBuild} {next : K α} (hb : Writable ρ t i build)
    (hp : phase.isTerminal)
    (hn : ∀ j, Complies ρ t next j) :
    Complies ρ t (do
      let _ ← (w.reconciler cfg coord).finish build phase reason message
      next) i :=
  (finish_does hb hp).andThen fun _ j _ _ => hn j

theorem failBuild_does {build : KovaBuild} (hb : Writable ρ t i build) :
    Complies ρ t ((w.reconciler cfg coord).failBuild build reason message) i :=
  finished_does hb rfl fun _ => .pure trivial

theorem clearPollFailure_does {build : KovaBuild} (hb : Writable ρ t i build) :
    Does ρ t (Reconciler.clearPollFailure build) i
      (fun b j => Writable ρ t j b ∧ b.name = build.name) := by
  unfold Reconciler.clearPollFailure
  refine .ite (fun _ => .pure ⟨hb, rfl⟩) fun _ => ?_
  refine (writable_does hb ?_).imp fun stored j _ h => ⟨h.1, by rw [h.2]⟩
  rfl

/-- A handler works on this object: it may write its status, and was dispatched on a live version. -/
structure Handling (ρ : w.Execution) (t i : Nat) (b : KovaBuild) : Prop where
  writable : Writable ρ t i b
  dispatched : Dispatched ρ t i b.name

theorem Handling.mono (h : Handling ρ t i b) (hij : i ≤ j) : Handling ρ t j b :=
  ⟨h.writable.mono hij, h.dispatched.mono hij⟩

theorem Handling.withStatus (h : Handling ρ t i b) (hp : st.phase = b.status.phase) :
    Handling ρ t i { b with status := st } :=
  ⟨h.writable.withStatus hp, h.dispatched⟩

variable {pod : Pod}

/-- The direct read under a witness lets the handler go on, whatever phase it has found. -/
theorem Witnessed.handling {build current : KovaBuild} (h : Witnessed ρ t i j build current pod)
    (hg : w.genesis.isSome)
    (hd : Dispatched ρ t i build.name) : Handling ρ t j current := by
  have hname : current.name = build.name := h.name
  obtain ⟨m, k, h1, h2, h3, hget, hpod⟩ := h.reads
  have hd' : Dispatched ρ t j current.name := hname ▸ hd.mono (by omega)
  obtain ⟨k₀, b, hk₀, hb, hlive⟩ := hd
  refine ⟨⟨⟨current, h.read.known, rfl, rfl⟩, .inr ⟨hg, ?_⟩⟩, hd'⟩
  refine ⟨k₀, m, k, b, current, pod, by omega, h2, h3, hname ▸ hb, hlive, hname ▸ hget, rfl, rfl, rfl,
    hname ▸ hpod, ownedByBuild_controlledBy h.owned⟩

theorem witnessed_does {build : KovaBuild} (hb : Handling ρ t i build) :
    Does ρ t ((w.reconciler cfg coord).witnessed build) i (fun b j => Handling ρ t j b) := by
  unfold Reconciler.witnessed
  refine .ite (fun hg => ?_) fun _ => .pure hb
  refine (directGenesisWitness_does build).andThen fun ⟨current, pod⟩ k _ h => .pure ?_
  exact h.handling hg hb.dispatched

theorem settleStamp_does {build : KovaBuild} (hb : Known ρ i build) (hp : SeenPod ρ i pod) :
    Complies ρ t ((w.reconciler cfg coord).settleStamp build pod) i := by
  unfold Reconciler.settleStamp onlyIf
  split
  · exact completePodCreate_does hb hp.settled
  · exact .pure trivial

theorem genesisDeleteState_does (pod : Pod) :
    Does ρ t ((w.reconciler cfg coord).genesisDeleteState build pod) i
      (fun x j => Known ρ j x.1 ∧ SeenPod ρ j x.2) := by
  unfold Reconciler.genesisDeleteState
  refine quiet_genesisCheck.does.andThen fun _ j _ _ => ?_
  refine (directGenesisStopState_does build).andThen fun ⟨current, observed⟩ k _ ⟨hc, hp⟩ => ?_
  cases observed with
  | none => exact .throw trivial
  | some observed =>
    refine .check fun _ => ?_
    refine (quiet_directGenesisCharge _ current).does.andThen fun entry l hl _ => ?_
    refine .check fun _ => ?_
    refine (quiet_qualifyGenesisPod _ current (some observed) true).does.andThen fun _ q hq _ => ?_
    exact .pure ⟨(Known.of_mem hc).mono (by omega), (hp observed rfl).mono (by omega)⟩

theorem deleteOwnedRunnerPodAndConfirm_does {build : KovaBuild} (hb : Known ρ i build)
    (hp : SeenPod ρ i pod) :
    Complies ρ t ((w.reconciler cfg coord).deleteOwnedRunnerPodAndConfirm build pod) i := by
  unfold Reconciler.deleteOwnedRunnerPodAndConfirm
  refine .check fun _ => .check fun _ => ?_
  have hstate : Does ρ t (if (w.reconciler cfg coord).genesis.isSome
      then (w.reconciler cfg coord).genesisDeleteState build pod else pure (build, pod)) i
      (fun x j => Known ρ j x.1 ∧ SeenPod ρ j x.2) := by
    split
    · exact genesisDeleteState_does build pod
    · exact .pure ⟨hb, hp⟩
  refine hstate.andThen fun ⟨build, pod⟩ j _ ⟨hb, hp⟩ => ?_
  refine (settleStamp_does hb hp).andThen fun _ k _ _ => ?_
  refine (free_deletePodWithUID _ _ _).does.andThen fun _ l _ _ => ?_
  refine (getPod_does _).attempt (fun present q _ _ => ?_) fun e q _ _ => ?_
  · show Does ρ t (if _ then _ else _) q _ _
    split <;> exact .throw trivial
  · exact .lastCheck fun _ => trivial

theorem deleteFound_does {build : KovaBuild} {o : Option Pod} (hb : Known ρ i build)
    (hp : ∀ p, o = some p → SeenPod ρ i p) :
    Complies ρ t ((w.reconciler cfg coord).deleteFound build o) i := by
  cases o with
  | none => exact .pure trivial
  | some pod => exact deleteOwnedRunnerPodAndConfirm_does hb (hp pod rfl)

theorem deleteRunnerAndConfirm_does {build : KovaBuild} (hb : Known ρ i build) :
    Complies ρ t ((w.reconciler cfg coord).deleteRunnerAndConfirm build) i := by
  unfold Reconciler.deleteRunnerAndConfirm
  refine .decoded fun _ _ => ?_
  split
  · refine quiet_genesisCheck.does.andThen fun _ j _ _ => ?_
    split
    · exact (getOwnedPod_does build).andThen fun pod k _ _ => .lastCheck fun _ => trivial
    · refine (directGenesisStopState_does build).andThen fun ⟨current, pod⟩ k _ ⟨hc, hp⟩ => ?_
      cases pod with
      | none => exact .lastCheck fun _ => trivial
      | some pod =>
        exact .check fun _ => deleteOwnedRunnerPodAndConfirm_does (.of_mem hc) (hp pod rfl)
  · refine (getOwnedPod_does build).andThen fun o k hk ho => ?_
    refine deleteFound_does (hb.mono hk) fun p hp => ?_
    subst hp
    exact ho.seen

theorem genesisStopOutcome_terminal (h : genesisStopOutcome reason = .ok (phase, message)) :
    phase.isTerminal := by
  unfold genesisStopOutcome at h
  split_ifs at h <;> cases h <;> rfl

theorem finishGenesisStopped_does :
    Complies ρ t ((w.reconciler cfg coord).finishGenesisStopped build) i := by
  unfold Reconciler.finishGenesisStopped
  refine quiet_genesisCheck.does.andThen fun _ j _ _ => ?_
  refine (directGenesisStopState_does build).andThen fun ⟨current, pod⟩ k _ ⟨hc, _⟩ => ?_
  refine .check fun hx => ?_
  simp only [Bool.or_eq_false_iff] at hx
  refine (quiet_directGenesisCharge _ current).does.andThen fun entry l hl _ => .check fun _ => ?_
  split
  · exact .throw trivial
  · refine .decoded fun ⟨phase, message⟩ hout => ?_
    have hw : Writable ρ t l current := (Writable.of_mem hc hx.2).mono hl
    exact (writeTerminalStatus_does hw (genesisStopOutcome_terminal hout)).andThen
      fun _ _ _ _ => .pure trivial

theorem resumeGenesisStop_does :
    Complies ρ t ((w.reconciler cfg coord).resumeGenesisStop build) i := by
  unfold Reconciler.resumeGenesisStop
  refine quiet_genesisCheck.does.andThen fun _ j _ _ => ?_
  refine (directGenesisStopState_does build).andThen fun ⟨current, pod⟩ k _ ⟨hc, hp⟩ => ?_
  refine .check fun _ => ?_
  refine (quiet_directGenesisCharge _ current).does.andThen fun entry l hl _ => .check fun _ => ?_
  have hk : Known ρ l current := (Known.of_mem hc).mono hl
  refine (deleteFound_does hk fun p h => (hp p h).mono hl).andThen fun _ _ _ _ => ?_
  exact finishGenesisStopped_does current

theorem recordStop_does {build current : KovaBuild} {pod : Option Pod}
    (hc : current ∈ (ρ.store i).versions) :
    Complies ρ t ((w.reconciler cfg coord).recordStop build current pod reason) i := by
  unfold Reconciler.recordStop
  refine .check fun _ => .check fun _ => ?_
  refine (quiet_stopEffective _ current reason).does.andThen fun _ j hj _ => ?_
  refine (quiet_directGenesisCharge _ current).does.andThen fun _ k hk _ => ?_
  refine (fenceReservation_does ((Known.of_mem hc).mono (hj.trans hk))).andThen fun _ l hl _ => ?_
  refine (quiet_directGenesisCharge _ current).does.andThen fun _ q hq _ => .check fun _ => ?_
  exact keepStatus_does (versions_mono ρ (by omega) hc) ⟨rfl, rfl, rfl, rfl⟩

theorem stopGenesisRunner_does (reason : String) :
    Complies ρ t ((w.reconciler cfg coord).stopGenesisRunner build reason) i := by
  unfold Reconciler.stopGenesisRunner
  refine .decoded fun _ _ => ?_
  refine quiet_genesisCheck.does.andThen fun _ j _ _ => ?_
  refine (directGenesisStopState_does build).andThen fun ⟨current, pod⟩ k _ ⟨hc, _⟩ => ?_
  have hrec : Complies ρ t (if current.status.admissionGenesisStopIntent.isSome then pure current
      else (w.reconciler cfg coord).recordStop build current pod reason) k := by
    split
    · exact .pure trivial
    · exact recordStop_does hc
  refine hrec.andThen fun stopped l _ _ => .check fun _ => ?_
  exact resumeGenesisStop_does stopped

end KovaService.Proof
