import KovaService.Proof.Reservation

/-!
Admission: the grant and, in Genesis mode, its receipt.
-/

namespace KovaService.Proof

open Lib Api Ledger Protocol KovaService.System Controller

variable {w : World} {ρ : w.Execution} {t i j : Nat} {cfg : Config} {coord : Bool}
variable {build : KovaBuild} {s : ReservationState} {allocation : Int} {nonce : String}

theorem grantEntry_nonce (hg : w.genesis.isSome) :
    ((w.reconciler cfg coord).grantEntry build s allocation nonce).grantNonce = nonce := by
  simp [Reconciler.grantEntry, World.reconciler, hg]

theorem granted_change {m : Nat} (hb : Known ρ i build) (hn : s.active.lookup build.uid = none)
    (hl : SawLive ρ m i build.uid) (ha : w.genesis.isSome → Minted ρ t i nonce) :
    LedgerChange ρ t m i build.uid s .admission ((w.reconciler cfg coord).granted build s
      ((w.reconciler cfg coord).grantEntry build s allocation nonce)) := by
  have hkey := hb.key
  obtain ⟨base, hbase, he⟩ := hb
  have hname : build.name = base.name := by rw [he]
  have hreq : build.requesterKey = base.requesterKey := by rw [he]; rfl
  have huid : base.uid = build.uid := by rw [he]
  unfold Reconciler.granted Reconciler.grantEntry
  rw [hkey, hname, hreq]
  split
  · exact .admission hbase huid hn hl ha
  · next hg => exact .admission hbase huid hn hl fun hg' => absurd hg' hg

theorem saturatedAdmission_waits {maxJobs maxRequesterJobs slots : Int} {d : AdmissionDecision}
    (h : saturatedAdmission build s maxJobs maxRequesterJobs slots = some d) :
    d.admitted = false := by
  unfold saturatedAdmission at h
  split_ifs at h <;> cases h <;> rfl

theorem admitFresh_does (build : KovaBuild) (s : ReservationState) (permit : Bool) :
    Does ρ t ((w.reconciler cfg coord).admitFresh build s permit) i
      (fun o j => (∀ d, o = some d → d.admitted = false) ∧ Calm ρ t i j) := by
  refine Does.calmly ?_ (quiet_admitFresh _ build s permit)
  unfold Reconciler.admitFresh
  split
  · next blocked hs =>
    refine (quiet_verifyForBuild _ build).does.andThen fun _ j _ _ => .pure ?_
    rintro d ⟨⟩
    exact saturatedAdmission_waits hs
  · refine Quiet.does (quiet_ite quiet_tryBegin (quiet_pure _)) |>.andThen fun free j _ _ => ?_
    split
    · refine .pure ?_
      rintro d ⟨⟩
      rfl
    · refine (quiet_verifyForBuild _ build).does.andThen fun _ k _ _ => .pure ?_
      rintro d ⟨⟩

theorem admission_does (hb : Known ρ i build) (hC : w.genesis.isSome → Confirmed ρ t i) :
    Does ρ t ((w.reconciler cfg coord).admission build) i
      (fun decision j => (decision.admitted → ∃ e, HadEntry ρ j build.uid e) ∧
        (w.genesis.isSome → Confirmed ρ t j)) := by
  unfold Reconciler.admission
  have hnonce : Does ρ t (if (w.reconciler cfg coord).genesis.isSome then newNonce else pure "") i
      (fun a j => w.genesis.isSome → Fresh ρ t j a) := by
    split
    · exact newNonce_does.imp fun a j _ h hg =>
        ⟨h.1.imp fun _ => isEffect.writes, (hC hg).calm h.2⟩
    · next hg => exact .pure fun hg' => absurd hg' hg
  refine hnonce.andThen fun nonce i₀ hi₀ hf => ?_
  refine .retry (fun _ j => w.genesis.isSome = true → Fresh ρ t j nonce) hf
    fun n permit i₁ hi₁ hf => ?_
  refine quiet_ctxErr.does.andThen fun _ i₂ hi₂ hc₁ => ?_
  refine (readReservations_does.calmly (quiet_readReservations _)).andThen
    fun cm j hj ⟨hread, hc₂⟩ => ?_
  refine ((ensureLiveAdmissionBuild_does build).calmly
    (quiet_ensureLiveAdmissionBuild _ _)).andThen fun _ k hk ⟨hl, hc₃⟩ => ?_
  have hended : Does ρ t (if (cm.data.active.lookup build.reservationKey).isNone
      then (w.reconciler cfg coord).admitFresh build cm.data permit else pure none) k
      (fun o j => (∀ d, o = some d → d.admitted = false) ∧ Calm ρ t k j) := by
    split
    · exact admitFresh_does build cm.data permit
    · exact .pure ⟨fun d h => (by cases h), calm_refl k⟩
  refine hended.andThen fun ended l hl' ⟨hwait, hc₄⟩ => ?_
  have hcalm : Calm ρ t i₁ l :=
    Run.silent_trans hc₁ (Run.silent_trans hc₂ (Run.silent_trans hc₃ hc₄))
  have hf : w.genesis.isSome = true → Fresh ρ t l nonce :=
    fun hg => (hf hg).steady (by omega) (.of_calm hcalm)
  cases ended with
  | some decision =>
    refine .pure ⟨fun ha => ?_, fun hg => (hf hg).confirmed⟩
    rw [hwait decision rfl] at ha
    cases ha
  | none =>
  refine quiet_listBuilds.does.andThen fun builds o ho hc₅ => ?_
  refine (quiet_ensureNoUnreservedRunner _ cm.data builds).does.andThen fun _ q hq hc₆ => ?_
  have hf : w.genesis.isSome = true → Fresh ρ t q nonce :=
    fun hg => (hf hg).steady (by omega) ((Steady.of_calm hc₅).calm hc₆)
  have hbq : Known ρ q build := hb.mono (by omega)
  rw [hbq.key]
  split
  · next entry he =>
    -- the entry exists already, under whichever grant
    refine .check fun _ => .check fun _ => ?_
    refine (quiet_onlyIf (quiet_verifyPinnedGrant _ build entry)).does.andThen fun _ z hz hc₇ => ?_
    exact .pure ⟨fun _ => ⟨entry, (hread.entry he).mono (by omega)⟩,
      fun hg => (hf hg).confirmed.calm hc₇⟩
  next he =>
  show Does ρ t (if _ then _ else _) q _ _
  split
  · next ha => exact .pure ⟨fun h => by simp [h] at ha, fun hg => (hf hg).confirmed⟩
  obtain ⟨m, _, hmj, hcm⟩ := hread
  have hmove : ∀ allocation, LedgerChange ρ t m q build.uid cm.data .admission
      ((w.reconciler cfg coord).granted build cm.data
        ((w.reconciler cfg coord).grantEntry build cm.data allocation nonce)) :=
    fun allocation => granted_change hbq he ((hl.since hmj.le).mono (by omega))
      fun hg => (hf hg).unspent.minted
  refine (writeReservations_does (by omega) hcm (hmove _)).attempt (fun _ z hz hw => ?_)
    fun e z hz hw => ?_
  · have hentry : ∃ e, HadEntry ρ z build.uid e := by
      obtain ⟨k', _, h2, hd⟩ := hw.stored
      rw [Reconciler.granted, hbq.key] at hd
      have hlook := congrArg (fun s => s.active.lookup build.uid) hd
      exact ⟨_, k', h2, hlook.trans ReservationState.lookup_set_self⟩
    have hfresh : ∀ allocation, (w.reconciler cfg coord).genesis.isSome = true →
        Does ρ t ((w.reconciler cfg coord).finishFreshGrant build
          ((w.reconciler cfg coord).grantEntry build cm.data allocation nonce)) z
          (fun _ z' => w.genesis.isSome → Confirmed ρ t z') := by
      intro allocation hg
      refine (finishFreshGrant_does (hbq.mono hz) ?_).imp fun _ _ _ h _ => h
      rw [grantEntry_nonce hg]
      exact (hf hg).steady hz hw.steady
    refine .onlyIf (hfresh _) (fun hg hg' => absurd hg' (Bool.eq_false_iff.mp hg)) ?_
    intro z' hz' hconf
    obtain ⟨e, he⟩ := hentry
    exact .pure ⟨fun _ => ⟨e, he.mono hz'⟩, hconf⟩
  · have hst := hw (.inr id)
    show Does ρ t (if _ then _ else _) z _ _
    split
    · refine (quiet_waitCAS n).does.andThen fun _ z' hz' hc => .pure fun hg => ?_
      exact (hf hg).steady (hz.trans hz') (hst.calm hc)
    · exact .throw trivial

end KovaService.Proof
