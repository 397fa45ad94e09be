import KovaService.Proof.Grant

/-!
The Pod receipt: the stages between spending the attempt nonce and the Pod Create it authorizes.
-/

namespace KovaService.Proof

open Lib Api Ledger Protocol KovaService.System Controller

variable {w : World} {ρ : w.Execution} {t i j : Nat} {cfg : Config} {coord : Bool}
variable {build : KovaBuild} {attempted : String}

theorem samePodAttempt_nonce {a b : ActiveReservation} (h : samePodAttempt a b) :
    a.podAttemptNonce = b.podAttemptNonce := by
  simp only [samePodAttempt, Bool.and_eq_true, beq_iff_eq] at h
  exact h.2

theorem digestSHA256_ne {digest : String} (h : digestSHA256 digest) : digest ≠ "" := by
  rintro rfl
  simp [digestSHA256] at h

theorem podIntentWith_does (observed : Bool) (build : KovaBuild) (entry : ActiveReservation) :
    Does ρ t ((w.reconciler cfg coord).podIntentWith observed build entry) i
      (fun intent _ => intent.build.buildUID = build.uid ∧
        intent.podAttemptNonce = entry.podAttemptNonce) := by
  unfold Reconciler.podIntentWith
  refine .check fun _ => ?_
  refine (grantIntentWith_does observed build entry).andThen fun grant j _ ⟨⟨hu, _⟩, _⟩ => ?_
  refine .decoded fun grantCM _ => ?_
  split
  · exact .throw trivial
  · refine .check fun _ => ?_
    split
    · exact .throw trivial
    · exact .check fun _ => .pure ⟨hu, rfl⟩

theorem podSlot_data_does (observed : Bool) (entry : ActiveReservation) :
    Does ρ t (Reconciler.podSlot.data (w.reconciler cfg coord) observed build entry) i
      (fun d _ => podCreateOf build.uid entry.podAttemptNonce d) :=
  (podIntentWith_does observed build entry).andThen fun _ _ _ h => .pure h

theorem observePodReceipt_does (build : KovaBuild) (entry : ActiveReservation) :
    Does ρ t ((w.reconciler cfg coord).observePodReceipt build entry) i
      (fun witness j => SawReceipt ρ j witness.receiptUID witness.dataDigest
        (podCreateOf build.uid entry.podAttemptNonce)) :=
  observeReceiptWith_does fun _ => podSlot_data_does true entry

def ObservedEntry (ρ : w.Execution) (j : Nat) (uid : UID) (cm : LedgerMap) (e : ActiveReservation) :
    Prop :=
  ∃ m, m < j ∧ cm = (ρ.store m).ledger ∧ cm.data.active.lookup uid = some e ∧ SawLive ρ m j uid

variable {uid : UID} {cm : LedgerMap}

theorem ObservedEntry.mono {e : ActiveReservation} (h : ObservedEntry ρ i uid cm e) (hij : i ≤ j) :
    ObservedEntry ρ j uid cm e := by
  obtain ⟨m, hm, hcm, he, hl⟩ := h
  exact ⟨m, by omega, hcm, he, hl.mono hij⟩

theorem readAttempt_does {lost : String} {changed : ActiveReservation → Bool}
    {verify : ActiveReservation → K Unit} (hb : Known ρ i build) (hv : ∀ e, Quiet (verify e)) :
    Does ρ t (observe ((w.reconciler cfg coord).readAttempt build lost changed verify)) i
      (fun x j => (ObservedEntry ρ j build.uid x.1 x.2 ∧ changed x.2 = false) ∧ Calm ρ t i j) := by
  refine Does.calmly ?_ (quiet_observe (quiet_readAttempt _ build hv))
  refine observe_does (fun _ k j hk h => ⟨h.1.mono hk, h.2⟩) fun j hj => ?_
  unfold Reconciler.readAttempt
  refine (readReservationsWith_does true).andThen fun cm k hk ⟨m, h1, h2, hcm⟩ => ?_
  rw [(hb.mono hj).key]
  split
  · exact .throw trivial
  next entry he =>
  refine .check fun hx => ?_
  have hlive : ∀ l, k ≤ l →
      Does ρ t ((w.reconciler cfg coord).ensureLiveAdmissionBuild build) l
        (fun _ n => SawLive ρ m n build.uid) :=
    fun l hl => (ensureLiveAdmissionBuild_does build).imp fun _ _ _ h => h.since (by omega)
  refine (observedRead_does hlive).andThen fun _ l hl hlive => ?_
  refine (quiet_verifyPinnedGrantWith _ build entry).does.andThen fun _ n hn _ => ?_
  refine (hv entry).does.andThen fun _ o ho _ => ?_
  exact .pure ⟨⟨m, by omega, hcm, he, hlive.mono (by omega)⟩, hx⟩

theorem armFreshPodAttempt_does {digest : String} (hb : Known ρ i build)
    (hf : Fresh ρ t i attempted) :
    Does ρ t ((w.reconciler cfg coord).armFreshPodAttempt build attempted digest) i
      (fun e j => HadEntry ρ j build.uid e ∧ e.podAttemptNonce = attempted ∧
        e.podTemplateDigest ≠ "" ∧ Fresh ρ t j attempted) := by
  unfold Reconciler.armFreshPodAttempt
  refine .check fun hdig => ?_
  simp only [Bool.or_eq_false_iff, Bool.not_eq_false'] at hdig
  have hdig : digest ≠ "" := digestSHA256_ne hdig.2
  refine .retry (fun _ j => Fresh ρ t j attempted) hf fun n _ i₁ hi₁ hf => ?_
  refine (readAttempt_does (hb.mono hi₁) fun _ => quiet_pure _).andThen
    fun x j hj ⟨⟨hx, hsame⟩, hc₁⟩ => ?_
  obtain ⟨cm, entry⟩ := x
  obtain ⟨m, hm, hcm, he, hl⟩ := hx
  simp only [Bool.or_eq_false_iff, bne_eq_false_iff_eq] at hsame
  obtain ⟨⟨⟨⟨⟨-, hnonce⟩, hun⟩, -⟩, hcl⟩, -⟩ := hsame
  have hf : Fresh ρ t j attempted := hf.steady hj (.of_calm hc₁)
  have hmove : LedgerChange ρ t m j build.uid cm.data .armFreshPodAttempt
      (cm.data.set build.uid { entry with podTemplateDigest := digest }) :=
    .update he (.armPod hcl hl hun hdig (hnonce ▸ hf.unspent))
  dsimp only
  rw [(hb.mono hi₁).key]
  refine (writeReservations_does hm hcm hmove).attempt (fun _ l hl hw => ?_) fun e l hl hw => ?_
  · have hf := hf.steady hl hw.steady
    refine (readReservations_does.calmly (quiet_readReservations _)).andThen
      fun observed o ho ⟨hread, hc₃⟩ => ?_
    split
    · exact .throw trivial
    · next armed harm =>
      refine .check fun hy => ?_
      simp only [Bool.or_eq_false_iff, Bool.not_eq_false', bne_eq_false_iff_eq] at hy
      exact .pure ⟨hread.entry harm, (samePodAttempt_nonce hy.1.1.1.1).trans hnonce,
        hy.1.1.1.2 ▸ hdig, hf.steady ho (.of_calm hc₃)⟩
  · exact onConflict_does (fun hcf o ho hc => hf.steady (hl.trans ho) ((hw (.inl hcf)).calm hc))
      (Does.throw trivial)

theorem pinPodReceipt_does {armed : ActiveReservation} {witness : Witness} (hb : Known ρ i build)
    (ho : armed.podTemplateDigest ≠ "")
    (hs : SawReceipt ρ i witness.receiptUID witness.dataDigest
      (podCreateOf build.uid armed.podAttemptNonce)) :
    Does ρ t ((w.reconciler cfg coord).pinPodReceipt build armed witness) i
      (fun e j => samePodAttempt e armed ∧ Steady ρ t i j) :=
  pinEntryReceipt_does (x := Reconciler.podSlot) hb id hs fun he hx ha hu hs =>
    .update he (.pinPod (ne_of_eq_of_ne ha ho) hu (samePodAttempt_nonce hx ▸ hs))

def Issued (ρ : w.Execution) (j : Nat) (uid : UID) (attempted : String) : Prop :=
  ∃ e, HadEntry ρ j uid e ∧ attempted ∈ e.inFlight

theorem Issued.mono (h : Issued ρ i uid attempted) (hij : i ≤ j) : Issued ρ j uid attempted := by
  obtain ⟨e, he, ha⟩ := h
  exact ⟨e, he.mono hij, ha⟩

variable {pinned : ActiveReservation}

theorem freshIssueRecorded_does {issued : ActiveReservation} (hb : Known ρ i build) :
    Does ρ t ((w.reconciler cfg coord).freshIssueRecorded build issued) i
      (fun _ j => Issued ρ j build.uid issued.podAttemptNonce ∧ Calm ρ t i j) := by
  refine Does.calmly ?_ (quiet_freshIssueRecorded _ build issued)
  unfold Reconciler.freshIssueRecorded
  refine readReservations_does.andThen fun cm j _ hread => ?_
  rw [hb.key]
  split
  · exact .throw trivial
  · next entry he =>
    refine .lastCheck fun hx => ⟨entry, hread.entry he, ?_⟩
    simp only [Bool.or_eq_false_iff, bne_eq_false_iff_eq] at hx
    rw [hx.2]
    exact List.mem_singleton_self _

theorem authorizeFreshPodCreate_does (hb : Known ρ i build)
    (hun : Unspent ρ t i pinned.podAttemptNonce isCreatePod) :
    Does ρ t ((w.reconciler cfg coord).authorizeFreshPodCreate build pinned) i
      (fun _ j => Issued ρ j build.uid pinned.podAttemptNonce ∧ Steady ρ t i j) := by
  unfold Reconciler.authorizeFreshPodCreate
  refine .retry (fun _ j => Steady ρ t i j) (.of_calm (calm_refl i)) fun n _ i₁ hi₁ hst => ?_
  refine (readAttempt_does (hb.mono hi₁) fun e =>
    quiet_verifyPinnedPodReceiptWith _ build e false).andThen fun x j hj ⟨⟨hx, hsame⟩, hc₁⟩ => ?_
  obtain ⟨cm, entry⟩ := x
  obtain ⟨m, hm, hcm, he, hl⟩ := hx
  simp only [Bool.or_eq_false_iff, Bool.not_eq_false', bne_eq_false_iff_eq] at hsame
  obtain ⟨⟨⟨⟨-, hcl⟩, -⟩, hin⟩, hnonce⟩ := And.intro hsame (samePodAttempt_nonce hsame.1.1.1.1.1.1)
  dsimp only
  have hst := hst.calm hc₁
  have hmove : LedgerChange ρ t m j build.uid cm.data .authorizeFreshPodCreate
      (cm.data.set build.uid { entry with inFlight := [pinned.podAttemptNonce] }) := by
    rw [← hnonce]
    refine .update he (.issue hcl hin hl (hnonce ▸ hun.silent (hi₁.trans hj) ?_))
    exact silent_of_imp hst.silent fun _ => isCreatePod.effect
  rw [(hb.mono hi₁).key]
  refine (writeReservations_does hm hcm hmove).attempt (fun _ l hl hw => ?_) fun e l hl hw => ?_
  · refine (freshIssueRecorded_does (hb.mono (by omega))).andThen fun _ o _ ⟨hi, hc⟩ => ?_
    exact .pure ⟨hnonce ▸ hi, (hst.trans hw.steady).calm hc⟩
  · have hst := hst.trans (hw (.inr id))
    refine onConflict_does (fun _ o _ hc => hst.calm hc) ?_
    refine (freshIssueRecorded_does (hb.mono (by omega))).attempt (fun _ o _ ⟨hi, hc⟩ => ?_)
      fun _ _ _ _ => .throw trivial
    exact .pure ⟨hnonce ▸ hi, hst.calm hc⟩

/-- A Pod that may be created under this attempt. -/
structure MayCreate (ρ : w.Execution) (t j : Nat) (uid : UID) (attempted : String) : Prop where
  issued : Issued ρ j uid attempted
  unspent : Unspent ρ t j attempted isCreatePod
  confirmed : Confirmed ρ t j

theorem finishFreshPodAttempt_does {pod : Pod} (hb : Known ρ i build) (hf : Fresh ρ t i attempted) :
    Does ρ t ((w.reconciler cfg coord).finishFreshPodAttempt build pod attempted) i
      (fun p j => MayCreate ρ t j build.uid attempted ∧ ∃ digest,
        p = { pod with annotations := { pod.annotations with podTemplateDigest := digest } }) := by
  unfold Reconciler.finishFreshPodAttempt
  refine .check fun _ => .decoded fun _ _ => .decoded fun digest _ => ?_
  refine (armFreshPodAttempt_does hb hf).andThen fun armed j hj ⟨hentry, hnonce, hdig, hf⟩ => ?_
  have hd : ∀ n r, j ≤ n → Fresh ρ t n attempted → r.name = r.data.receiptName →
      podCreateOf build.uid armed.podAttemptNonce r.data → ReceiptCreation ρ n t r := by
    intro n r hn hf hname hdata
    refine ⟨hname, ?_⟩
    obtain ⟨m, hm, he⟩ := hentry
    cases hr : r.data with
    | podCreate intent =>
      rw [hr] at hdata
      obtain ⟨hbuild, hnonce'⟩ := hdata
      exact ⟨⟨m, armed, by omega, hbuild ▸ he, hnonce'.symm, hdig⟩,
        hnonce'.trans hnonce ▸ hf.unspent, hf.confirmed⟩
    | _ => simp [hr, podCreateOf] at hdata
  refine (recordAndPin_does (quiet_podSlot_data _ build armed true)
    (fun _ => podSlot_data_does true armed) hf hd fun _ _ hk hs =>
      pinPodReceipt_does (hb.mono (hj.trans hk)) hdig hs).andThen
    fun pinned o ho ⟨hsame, hconf, hun⟩ => ?_
  have hpinned : pinned.podAttemptNonce = attempted := (samePodAttempt_nonce hsame).trans hnonce
  refine (authorizeFreshPodCreate_does (hb.mono (by omega)) (hpinned ▸ hun)).andThen
    fun _ o' ho' ⟨hissued, hst⟩ => ?_
  refine .pure ⟨⟨hpinned ▸ hissued, ?_, hst.confirmed hconf⟩, digest, rfl⟩
  exact hun.silent ho' (silent_of_imp hst.silent fun _ => isCreatePod.effect)

theorem completeGenesisPodCreate_does (hb : Known ρ i build) (hs : Settled ρ i attempted) :
    Does ρ t ((w.reconciler cfg coord).completeGenesisPodCreate build attempted) i
      (fun _ _ => True) := by
  unfold Reconciler.completeGenesisPodCreate
  refine .retry (fun _ _ => True) trivial fun n _ i₁ hi₁ _ => ?_
  refine readReservations_does.andThen fun cm j hj ⟨m, _, hmj, hcm⟩ => ?_
  rw [(hb.mono hi₁).key]
  split
  · exact .throw trivial
  next entry he =>
  refine .check fun _ => ?_
  split
  · exact .pure trivial
  · refine .check fun hin => ?_
    refine (quiet_verifyPinnedPodReceipt _ build entry true).does.andThen fun _ k hk _ => ?_
    have hmove : LedgerChange ρ t m k build.uid cm.data .completeGenesisPodCreate
        (cm.data.set build.uid { entry with inFlight := [] }) :=
      .update he (.completeGenesis (by simpa using hin) (hs.mono (by omega)))
    refine (writeReservations_does (by omega) hcm hmove).attempt
      (fun _ _ _ _ => .pure trivial) fun e l _ _ => ?_
    refine onConflict_does (fun _ _ _ _ => trivial) ?_
    refine (quiet_readReservations _).does.attempt (fun observed o _ _ => ?_)
      fun _ _ _ _ => .throw trivial
    dsimp only
    split
    · exact .throw trivial
    · exact .check fun _ => .pure trivial

theorem releaseGenesisPodReceipt_does {entry : ActiveReservation} {m : Nat} (hb : Known ρ i build)
    (hm : m < i) (hcm : cm = (ρ.store m).ledger)
    (he : cm.data.active.lookup build.uid = some entry) :
    Does ρ t ((w.reconciler cfg coord).releaseGenesisPodReceipt build cm entry) i
      (fun done j => done → entry.podTemplateDigest = "" ∨ entry.podReceiptUID ≠ "" ∧
        entry.podCleanupReady ∧
        SawNoReceipt ρ m j (podReceiptPrefix ++ entry.podAttemptNonce)) := by
  refine releaseReceipt_does hb hm hcm (observePodReceipt_does build entry)
    (fun _ _ hj ha hs => pinPodReceipt_does (hb.mono hj) ha hs)
    (quiet_verifyPinnedPodReceipt _ build entry true) (fun _ hu => .update he (.markPod hu)) ?_
  refine deletePinned_does (fun _ => (podIntentWith_does false build entry).andThen
    fun _ _ _ h => .pure (h.2 ▸ rfl)) fun hr n hn => ?_
  exact .inr ⟨m, build.uid, entry, by omega, hcm ▸ he, .inr ⟨rfl, hr, rfl⟩⟩

end KovaService.Proof
