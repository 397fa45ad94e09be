import KovaService.Proof.PodReceipt

/-!
The fence, the release and the in-flight bracket.
-/

namespace KovaService.Proof

open Lib Api Ledger Protocol KovaService.System Controller

variable {w : World} {ρ : w.Execution} {t i j : Nat} {cfg : Config} {coord : Bool}
variable {build : KovaBuild}

theorem fenced_ne (s : ReservationState) (key : String) : Reconciler.fenced s key ≠ s := by
  intro h
  have hf : (Reconciler.fenced s key).fence = s.fence + 1 := by
    unfold Reconciler.fenced
    dsimp only
    split <;> rfl
  rw [h] at hf
  simp at hf

theorem ledger_written {m n : Nat} (hmn : m ≤ n)
    (hne : (ρ.store n).ledger.data ≠ (ρ.store m).ledger.data) :
    ∃ k, m ≤ k ∧ k < n ∧
      (ρ.store k).ledger.resourceVersion < (ρ.store (k + 1)).ledger.resourceVersion := by
  obtain ⟨k, hk, hkn, he, hne'⟩ := exists_last_instant
    (P := fun k => (ρ.store k).ledger.data = (ρ.store m).ledger.data) hmn rfl hne
  refine ⟨k, hk, hkn, ((ledger_versioned ρ).step k).resolve_left fun h => hne' ?_⟩
  rw [h.1, he]

/-- The fence of a build that has ended is a write made after its end. -/
theorem fenceReservation_does (hb : Known ρ i build) :
    Does ρ t ((w.reconciler cfg coord).fenceReservation build) i
      (fun _ j => Ended ρ i build.uid → Fenced ρ j build.uid) := by
  unfold Reconciler.fenceReservation
  refine .retry (fun _ _ => True) trivial fun n _ i₁ hi₁ _ => ?_
  refine readReservations_does.andThen fun cm j hj ⟨m, him, hmj, hcm⟩ => ?_
  rw [(hb.mono hi₁).key]
  refine .decoded fun _ _ => ?_
  refine (writeReservations_does hmj hcm .fence).attempt (fun _ l _ hw => .pure fun hend => ?_)
    fun e k _ _ => ?_
  · obtain ⟨q, hjq, hql, hq⟩ := hw.stored
    have hne : (ρ.store q).ledger.data ≠ (ρ.store m).ledger.data := by
      rw [hq, hcm]
      exact fenced_ne _ _
    obtain ⟨k, hmk, hkq, hv⟩ := ledger_written (by omega) hne
    exact ⟨k, by omega, hv, hend.mono (by omega)⟩
  · exact onConflict_does (fun _ _ _ _ => trivial) (Does.throw trivial)

def EntryGone (ρ : w.Execution) (j : Nat) (uid : UID) : Prop :=
  ∃ m, m ≤ j ∧ (ρ.store m).ledger.data.active.lookup uid = none ∧ Fenced ρ m uid

theorem EntryGone.mono {uid : UID} (h : EntryGone ρ i uid) (hij : i ≤ j) : EntryGone ρ j uid := by
  obtain ⟨m, hm, hn⟩ := h
  exact ⟨m, by omega, hn⟩

theorem endedBuild_does (hb : Known ρ i build) :
    Does ρ t ((w.reconciler cfg coord).endedBuild build) i
      (fun b j => Known ρ j b ∧ b.uid = build.uid ∧ b.name = build.name) := by
  unfold Reconciler.endedBuild
  split
  · refine (getBuild_does _).andThen fun current j _ hr => ?_
    refine .check fun hx => ?_
    simp only [Bool.or_eq_false_iff, bne_eq_false_iff_eq] at hx
    obtain ⟨m, -, -, -, hn, -⟩ := hr.stored
    exact .pure ⟨.of_mem hr.known, hx.1, hn⟩
  · exact .pure ⟨hb, rfl, rfl⟩

theorem releaseReceipts_does {cm : LedgerMap} {m : Nat} {entry : ActiveReservation}
    (hb : Known ρ i build) (hm : m < i) (hcm : cm = (ρ.store m).ledger)
    (he : cm.data.active.lookup build.uid = some entry) :
    Does ρ t ((w.reconciler cfg coord).releaseReceipts build cm entry) i
      (fun done j => done → w.genesis.isSome → ReceiptsGone ρ m j entry) := by
  unfold Reconciler.releaseReceipts
  split
  · refine (releaseGenesisPodReceipt_does hb hm hcm he).andThen fun done j hj hpod => ?_
    split
    · next hd =>
      refine (releaseGenesisGrantReceipt_does (hb.mono hj) (by omega) hcm he).imp
        fun done' k hk hgrant h _ => ?_
      exact ⟨(hpod hd).imp_right fun h => ⟨h.1, h.2.1, h.2.2.mono hk⟩, hgrant h⟩
    · exact .pure fun h => by cases h
  · next hg => exact .pure fun _ hg' => absurd hg' hg

theorem releaseReservation_does (hb : Known ρ i build) (hend : Ended ρ i build.uid)
    (hf : Fenced ρ i build.uid) :
    Does ρ t ((w.reconciler cfg coord).releaseReservation build) i
      (fun _ j => EntryGone ρ j build.uid) := by
  unfold Reconciler.releaseReservation
  refine .retry (fun b j => Known ρ j b ∧ b.uid = build.uid) ⟨hb, rfl⟩
    fun n b i₁ hi₁ ⟨hb, hu⟩ => ?_
  refine quiet_ctxErr.does.andThen fun _ i₂ hi₂ _ => ?_
  refine readReservations_does.andThen fun cm j hj ⟨m, him, hmj, hcm⟩ => ?_
  rw [hb.key, hu]
  split
  · next hn => exact .pure ⟨m, hmj.le, hcm ▸ hn, hf.mono (by omega)⟩
  next entry he =>
  refine .check fun hname => .check fun hcl => ?_
  refine (endedBuild_does (hb.mono (by omega))).andThen fun current k hk ⟨hbc, huc, hnc⟩ => ?_
  refine .check fun hin => ?_
  rw [hbc.key, huc, hu]
  refine (getOwnedPod_does current).andThen fun o l hl hpod => ?_
  split
  · exact .throw trivial
  · have hbl : Known ρ l current := hbc.mono hl
    have hsaw : SawNoPod ρ m l (buildPodName entry.buildName) := by
      obtain ⟨k', h1, h2, hp⟩ := hpod
      have hnm : entry.buildName = b.name := by simpa using hname
      exact ⟨k', by omega, h2, by rw [hnm, ← hnc]; exact hp⟩
    refine (releaseReceipts_does hbl (by omega) hcm (by rw [huc, hu]; exact he)).attempt
      (fun done o ho hgone => ?_) fun e o ho _ => ?_
    · cases done with
      | false => exact .pure ⟨hbl.mono ho, huc.trans hu⟩
      | true =>
        have hmove : LedgerChange ρ t m o build.uid cm.data .releaseReservation
            (cm.data.remove build.uid) :=
          .release he (by simpa using hcl) (by simpa using hin) (hsaw.mono ho)
            (hend.mono (by omega)) fun hg => hgone rfl hg
        refine (writeReservations_does (by omega) hcm hmove).attempt (fun _ q hq hw => ?_)
          fun e q hq _ => ?_
        · obtain ⟨k', hok, h2, hd⟩ := hw.stored
          exact .pure ⟨k', h2, by rw [hd]; exact ReservationState.lookup_remove_self,
            hf.mono (by omega)⟩
        · exact onConflict_does (fun _ s hs _ => ⟨hbl.mono (by omega), huc.trans hu⟩)
            (Does.throw trivial)
    · exact onConflict_does (fun _ s hs _ => ⟨hbl.mono (by omega), huc.trans hu⟩)
        (Does.throw trivial)

variable {attempted : String}

theorem podCreateAttemptRecorded_does (hb : Known ρ i build) :
    Does ρ t ((w.reconciler cfg coord).podCreateAttemptRecorded build attempted) i
      (fun found j => (found → w.genesis = none → Issued ρ j build.uid attempted) ∧
        Calm ρ t i j) := by
  refine Does.calmly ?_ (quiet_podCreateAttemptRecorded _ build attempted)
  unfold Reconciler.podCreateAttemptRecorded
  refine readReservations_does.andThen fun cm j _ hread => ?_
  rw [hb.key]
  split
  · exact .throw trivial
  · next entry he =>
    refine .check fun _ => ?_
    split
    · next hg => exact .pure fun _ hn => by simp [World.reconciler, hn] at hg
    · exact .pure fun hf _ => ⟨entry, hread.entry he, by simpa using hf⟩

theorem beginPodCreate_does (hb : Known ρ i build) :
    Does ρ t ((w.reconciler cfg coord).beginPodCreate build) i
      (fun a j => Unspent ρ t j a isEffect ∧ Steady ρ t i j ∧
        (w.genesis = none → Issued ρ j build.uid a)) := by
  unfold Reconciler.beginPodCreate
  refine newNonce_does.andThen fun a i₀ hi₀ ⟨hun, hc₀⟩ => ?_
  refine .retry (fun _ j => Unspent ρ t j a isEffect ∧ Steady ρ t i j)
    ⟨hun.imp fun _ => isEffect.writes, .of_calm hc₀⟩ fun n _ i₁ hi₁ ⟨hun, hst⟩ => ?_
  refine quiet_ctxErr.does.andThen fun _ i₂ hi₂ hc₁ => ?_
  refine (readReservations_does.calmly (quiet_readReservations _)).andThen
    fun cm j hj ⟨⟨m, _, hmj, hcm⟩, hc₂⟩ => ?_
  refine ((ensureLiveAdmissionBuild_does build).calmly
    (quiet_ensureLiveAdmissionBuild _ _)).andThen fun _ k hk ⟨hl, hc₃⟩ => ?_
  have hbk : Known ρ k build := hb.mono (by omega)
  rw [hbk.key]
  split
  · exact .throw trivial
  next entry he =>
  refine .check fun _ => .check fun hcl => ?_
  have hgate : (w.reconciler cfg coord).genesis.isSome = true → Does ρ t (do
      (w.reconciler cfg coord).verifyPinnedGrant build entry
      failIf (entry.podAttemptNonce != "") (.recovery build.name 1)) k
      (fun _ l => (w.genesis.isSome → entry.podAttemptNonce = "") ∧ Calm ρ t k l) := by
    intro _
    refine (quiet_verifyPinnedGrant _ build entry).does.andThen fun _ l _ hc => ?_
    exact .lastCheck fun h => ⟨fun _ => by simpa using h, hc⟩
  refine .onlyIf hgate (fun hg => ⟨fun hg' => absurd hg' (Bool.eq_false_iff.mp hg), calm_refl k⟩) ?_
  intro l hl' ⟨hpn, hc₄⟩
  refine .check fun hin => ?_
  have hin : entry.inFlight = [] := by simpa using hin
  have hcalm : Calm ρ t i₁ l :=
    Run.silent_trans hc₁ (Run.silent_trans hc₂ (Run.silent_trans hc₃ hc₄))
  have hun := hun.calm (by omega) hcalm
  have hst := hst.calm hcalm
  have hmove : LedgerChange ρ t m l build.uid cm.data .beginPodCreate (cm.data.set build.uid
      (if (w.reconciler cfg coord).genesis.isSome then { entry with podAttemptNonce := a }
        else { entry with inFlight := entry.inFlight ++ [a] })) := by
    have hlive := (hl.since hmj.le).mono hl'
    refine .update he ?_
    split
    · next hg => exact .begin hcl hin hlive hun.minted hg (hpn hg)
    · next hg =>
      rw [hin]
      exact .beginLegacy hcl hin hlive hun.minted (Bool.eq_false_iff.mpr hg)
  refine (writeReservations_does (by omega) hcm hmove).attempt (fun _ o ho hw => ?_)
    fun e o ho hw => ?_
  · refine .pure ⟨hun.silent ho hw.steady.silent, hst.trans hw.steady, fun hg => ?_⟩
    obtain ⟨k', _, h2, hd⟩ := hw.stored
    refine ⟨_, ⟨k', h2, by rw [hd]; exact ReservationState.lookup_set_self⟩, ?_⟩
    simp [World.reconciler, hg]
  · have hsteady := hw (.inr id)
    have hun := hun.silent ho hsteady.silent
    have hst := hst.trans hsteady
    refine onConflict_does (fun _ q hq hc => ⟨hun.calm hq hc, hst.calm hc⟩) ?_
    refine (podCreateAttemptRecorded_does (hb.mono (by omega))).attempt
      (fun found q hq ⟨hf, hc⟩ => ?_) fun _ _ _ _ => .throw trivial
    cases found with
    | false => exact .throw trivial
    | true => exact .pure ⟨hun.calm hq hc, hst.calm hc, hf rfl⟩

theorem completePodCreate_does (hb : Known ρ i build) (hs : Settled ρ i attempted) :
    Does ρ t ((w.reconciler cfg coord).completePodCreate build attempted) i (fun _ _ => True) := by
  unfold Reconciler.completePodCreate
  split
  · exact completeGenesisPodCreate_does hb hs
  refine .retry (fun _ _ => True) trivial fun n _ i₁ hi₁ _ => ?_
  refine quiet_ctxErr.does.andThen fun _ i₂ hi₂ _ => ?_
  refine readReservations_does.andThen fun cm j hj ⟨m, _, hmj, hcm⟩ => ?_
  rw [(hb.mono hi₁).key]
  split
  · exact .throw trivial
  next entry he =>
  refine .check fun _ => ?_
  split
  · exact .pure trivial
  · refine (writeReservations_does hmj hcm (.update he (.complete (hs.mono (by omega))))).attempt
      (fun _ _ _ _ => .pure trivial) fun e k _ _ => ?_
    refine onConflict_does (fun _ _ _ _ => trivial) ?_
    refine (podCreateAttemptRecorded_does (hb.mono (by omega))).attempt
      (fun found l _ _ => ?_) fun _ _ _ _ => .throw trivial
    cases found with
    | false => exact .pure trivial
    | true => exact .throw trivial

end KovaService.Proof
