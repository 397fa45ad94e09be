import KovaService.Proof.Writes

/-!
The grant receipt: arming, recording, pinning and cleaning up.
-/

namespace KovaService.Proof

open Lib Api Ledger Protocol KovaService.System Controller

variable {w : World} {ρ : w.Execution} {t i j : Nat} {cfg : Config} {coord : Bool}
variable {build : KovaBuild} {data : ReceiptData} {uid : UID}

def HadEntry (ρ : w.Execution) (j : Nat) (uid : UID) (e : ActiveReservation) : Prop :=
  ∃ m, m ≤ j ∧ (ρ.store m).ledger.data.active.lookup uid = some e

variable {e : ActiveReservation}

theorem HadEntry.mono (h : HadEntry ρ i uid e) (hij : i ≤ j) : HadEntry ρ j uid e := by
  obtain ⟨m, hm, he⟩ := h
  exact ⟨m, by omega, he⟩

theorem LedgerRead.entry {cm : LedgerMap} (h : LedgerRead ρ i j cm)
    (he : cm.data.active.lookup uid = some e) : HadEntry ρ j uid e := by
  obtain ⟨m, -, hj, rfl⟩ := h
  exact ⟨m, hj.le, he⟩

theorem sameGrant_nonce {a b : ActiveReservation} (h : sameGrant a b) :
    a.grantNonce = b.grantNonce := by
  simp only [sameGrant, Bool.and_eq_true, beq_iff_eq] at h
  exact h.1.2

theorem validGrantObservedRV_ne {rv : String} (h : validGrantObservedRV rv) : rv ≠ "" := by
  simp only [validGrantObservedRV, safeEffectID, Bool.and_eq_true, bne_iff_ne] at h
  exact h.1.1

theorem grantIntentWith_does (observed : Bool) (build : KovaBuild) (grant : ActiveReservation) :
    Does ρ t ((w.reconciler cfg coord).grantIntentWith observed build grant) i
      (fun intent j => (intent.build.buildUID = build.uid ∧ intent.grantNonce = grant.grantNonce) ∧
        Calm ρ t i j) := by
  refine Does.calmly ?_ (quiet_grantIntentWith _ observed build grant)
  unfold Reconciler.grantIntentWith
  split
  · exact .throw trivial
  · refine .check fun _ => ?_
    refine (quiet_onlyIf quiet_genesisCheck).does.andThen fun _ j _ _ => ?_
    refine .check fun _ => ?_
    refine (quiet_verifyForBuildWith _ observed build).does.andThen fun verified k _ _ => ?_
    refine (quiet_lookupWith _ observed build.name).does.andThen fun queueEntry l _ _ => ?_
    refine .check fun _ => .decoded fun mode _ => ?_
    exact .pure ⟨rfl, rfl⟩

def Recorded (ρ : w.Execution) (j : Nat) (data : ReceiptData) (witness : Witness) : Prop :=
  SawReceipt ρ j witness.receiptUID witness.dataDigest fun d => d = data

variable {witness : Witness}

theorem Recorded.mono (h : Recorded ρ i data witness) (hij : i ≤ j) : Recorded ρ j data witness :=
  SawReceipt.mono h hij

theorem recorded_of_qualify {expected r : Receipt} {m : Nat}
    (hn : newReceipt w.ext data = .ok expected)
    (hg : ρ.gets m t (.getReceipt expected.name) (.ok r))
    (hq : qualify w.ext expected r = .ok witness) (hm : m < j) : Recorded ρ j data witness := by
  obtain ⟨hname, hdata⟩ := newReceipt_data hn
  obtain ⟨-, hd, -, hu, hdig⟩ := qualify_ok hq
  refine ⟨m, r, hm, ?_, hu.symm, hdig.symm, hd.trans hdata⟩
  rw [hd, hdata, ← hname]
  exact getReceipt_answer hg

theorem observeEffect_does (data : ReceiptData) :
    Does ρ t ((w.reconciler cfg coord).observeEffect data) i
      (fun witness j => Recorded ρ j data witness) := by
  unfold Reconciler.observeEffect
  refine .decoded fun expected hn => ?_
  refine (getReceipt_does _).attempt (fun r j _ hr => ?_) fun e j _ _ => .throw trivial
  obtain ⟨m, -, hj, hg⟩ := hr
  exact .answer fun witness hq => recorded_of_qualify hn hg hq hj

theorem createReceipt_does {r : Receipt}
    (hd : ∀ n, i ≤ n → ρ.rests t i n → ReceiptCreation ρ n t r) :
    Does ρ t (createReceipt r) i (fun _ _ => True) :=
  Does.request rfl hd (fun _ _ _ _ _ _ => trivial) fun _ _ _ _ _ _ => trivial

theorem recordOnce_does
    (hd : ∀ n r, i ≤ n → Calm ρ t i n → r.name = r.data.receiptName → r.data = data →
      ReceiptCreation ρ n t r) :
    Does ρ t (recordOnce w.ext data) i (fun witness j => Recorded ρ j data witness) := by
  unfold recordOnce
  refine .decoded fun expected hn => ?_
  obtain ⟨hname, hdata⟩ := newReceipt_data hn
  refine (createReceipt_does fun n h1 h2 => hd n expected h1 h2.silent ?_ hdata).andThen
    fun created j _ _ => ?_
  · rw [hname, hdata]
  refine (getReceipt_does _).attempt (fun r k _ hr => ?_) fun e k _ _ => .throw trivial
  obtain ⟨m, -, hk, hg⟩ := hr
  refine .decoded fun observed hq => ?_
  have hrec := recorded_of_qualify hn hg hq hk
  have hquiet : Quiet (checkCreated w.ext expected observed created.1 created.2) := by
    unfold checkCreated
    split
    · split <;> simp
    · simp
  refine hquiet.does.andThen fun _ l hl _ => ?_
  exact .check fun _ => .pure (hrec.mono hl)

section Slot

variable {x : Reconciler.ReceiptSlot} {P : ReceiptData → Prop} {entry : ActiveReservation}

theorem observeReceiptWith_does
    (hx : ∀ i, Does ρ t (x.data (w.reconciler cfg coord) true build entry) i (fun d _ => P d)) :
    Does ρ t (observe ((w.reconciler cfg coord).observeReceiptWith build entry x)) i
      (fun witness j => SawReceipt ρ j witness.receiptUID witness.dataDigest P) := by
  refine observe_does (fun _ k j hk h => h.mono hk) fun j _ => ?_
  unfold Reconciler.observeReceiptWith
  refine (quiet_checkGrantReceiptNamespaceWith _ true).does.andThen fun _ k _ _ => ?_
  refine (hx k).andThen fun data l _ hp => ?_
  refine (observedRead_does fun n _ => observeEffect_does data).andThen fun witness n _ hw => ?_
  refine (quiet_checkGrantReceiptNamespaceWith _ true).does.andThen fun _ o ho _ => .pure ?_
  obtain ⟨m, r, hm, hl, hu, hdig, hd⟩ := hw.mono ho
  exact ⟨m, r, hm, hl, hu, hdig, hd ▸ hp⟩

end Slot

theorem grantSlot_data_does (observed : Bool) (entry : ActiveReservation) :
    Does ρ t (Reconciler.grantSlot.data (w.reconciler cfg coord) observed build entry) i
      (fun d _ => grantOf build.uid entry.grantNonce d) :=
  (grantIntentWith_does observed build entry).andThen fun _ _ _ h => .pure h.1

theorem observeGrantReceipt_does (build : KovaBuild) (entry : ActiveReservation) :
    Does ρ t ((w.reconciler cfg coord).observeGrantReceipt build entry) i
      (fun witness j => SawReceipt ρ j witness.receiptUID witness.dataDigest
        (grantOf build.uid entry.grantNonce)) :=
  observeReceiptWith_does fun _ => grantSlot_data_does true entry

variable {original : ActiveReservation}

theorem armFreshGrant_does (hb : Known ρ i build) (hf : Fresh ρ t i original.grantNonce) :
    Does ρ t ((w.reconciler cfg coord).armFreshGrant build original) i
      (fun e j => HadEntry ρ j build.uid e ∧ e.grantNonce = original.grantNonce ∧
        e.grantObservedRV ≠ "" ∧ Fresh ρ t j original.grantNonce) := by
  unfold Reconciler.armFreshGrant
  refine .retry (fun _ j => Fresh ρ t j original.grantNonce) hf fun n _ i₁ hi₁ hf => ?_
  refine (readReservations_does.calmly (quiet_readReservations _)).andThen
    fun cm j hj ⟨⟨m, _, hmj, hcm⟩, hc₁⟩ => ?_
  rw [(hb.mono hi₁).key]
  split
  · exact .throw trivial
  next entry he =>
  refine .check fun hx => ?_
  simp only [Bool.or_eq_false_iff, Bool.not_eq_false', bne_eq_false_iff_eq] at hx
  refine ((ensureLiveAdmissionBuild_does build).calmly
    (quiet_ensureLiveAdmissionBuild _ _)).andThen fun _ k hk ⟨hl, hc₂⟩ => ?_
  refine .check fun hrv => ?_
  have hrv : rvString cm.resourceVersion ≠ "" :=
    validGrantObservedRV_ne (by simpa using hrv)
  have hf : Fresh ρ t k original.grantNonce :=
    hf.steady (hj.trans hk) ((Steady.of_calm hc₁).calm hc₂)
  have hl : SawLive ρ m k build.uid := hl.since hmj.le
  have hmove : LedgerChange ρ t m k build.uid cm.data .armFreshGrant
      (cm.data.set build.uid { entry with grantObservedRV := rvString cm.resourceVersion }) :=
    .update he (.armGrant hx.1.1.2 hl hx.1.2 hrv (sameGrant_nonce hx.1.1.1 ▸ hf.unspent))
  refine (writeReservations_does (by omega) hcm hmove).attempt (fun _ l hl hw => ?_)
    fun e l hl hw => ?_
  · have hf := hf.steady hl hw.steady
    refine (readReservations_does.calmly (quiet_readReservations _)).andThen
      fun confirmed o ho ⟨hread, hc₃⟩ => ?_
    split
    · exact .throw trivial
    · next observed hobs =>
      refine .check fun hy => ?_
      simp only [Bool.or_eq_false_iff, Bool.not_eq_false', bne_eq_false_iff_eq] at hy
      exact .pure ⟨hread.entry hobs, sameGrant_nonce hy.1.1.1, hy.1.1.2 ▸ hrv,
        hf.steady ho (.of_calm hc₃)⟩
  · exact onConflict_does (fun hcf o ho hc => hf.steady (hl.trans ho) ((hw (.inl hcf)).calm hc))
      (Does.throw trivial)

variable {armed : ActiveReservation}

/-- Beyond the identity of the entry, what `pinnedTo` compares does not matter to the protocol; that the
receipt was seen does. -/
theorem pinEntryReceipt_does {x : Reconciler.ReceiptSlot} {busy : Err} {P : ReceiptData → Prop}
    (hb : Known ρ i build) (hx : ¬isArming x.pinner)
    (hs : SawReceipt ρ i witness.receiptUID witness.dataDigest P)
    (hmove : ∀ {m j s e}, s.active.lookup build.uid = some e → x.same e armed →
      x.armedBy e = x.armedBy armed → x.uid e = "" →
      SawReceipt ρ j witness.receiptUID witness.dataDigest P →
      LedgerChange ρ t m j build.uid s x.pinner (s.set build.uid (x.pin e witness))) :
    Does ρ t ((w.reconciler cfg coord).pinEntryReceipt x busy build armed witness) i
      (fun e j => x.same e armed ∧ Steady ρ t i j) := by
  unfold Reconciler.pinEntryReceipt
  refine .check fun _ => ?_
  refine .retry (fun _ j => Steady ρ t i j) (.of_calm (calm_refl i)) fun n _ i₁ hi₁ hst => ?_
  refine (readReservations_does.calmly (quiet_readReservations _)).andThen
    fun cm j hj ⟨⟨m, _, hmj, hcm⟩, hc₁⟩ => ?_
  rw [(hb.mono hi₁).key]
  have hst := hst.calm hc₁
  split
  · exact .throw trivial
  next entry he =>
  refine .check fun hsame => ?_
  simp only [Bool.or_eq_false_iff, Bool.not_eq_false', bne_eq_false_iff_eq] at hsame
  split
  · exact .check fun _ => .pure ⟨hsame.1.1, hst⟩
  next hu =>
  have hmove := hmove (m := m) he hsame.1.1 hsame.1.2 (by simpa using hu) (hs.mono (hi₁.trans hj))
  refine (writeReservations_does hmj hcm hmove).attempt (fun _ l hl hw => ?_) fun e l hl hw => ?_
  · refine (quiet_readReservations _).does.andThen fun observed o _ hc => ?_
    split
    · exact .throw trivial
    · refine .check fun hy => .pure ⟨?_, (hst.trans hw.steady).calm hc⟩
      simp only [Bool.not_eq_false', Bool.and_eq_true] at hy
      exact hy.1.1.1
  · have hst := hst.trans (hw (.inr hx))
    refine onConflict_does (fun _ o _ hc => hst.calm hc) ?_
    refine (quiet_readReservations _).does.attempt (fun observed o _ hc => ?_)
      fun _ _ _ _ => .throw trivial
    dsimp only
    split
    · exact .throw trivial
    · refine .check fun hy => .pure ⟨?_, hst.calm hc⟩
      simp only [Bool.not_eq_false', Bool.and_eq_true] at hy
      exact hy.1.1.1

theorem pinGrantReceipt_does (hb : Known ρ i build) (ho : armed.grantObservedRV ≠ "")
    (hs : SawReceipt ρ i witness.receiptUID witness.dataDigest
      (grantOf build.uid armed.grantNonce)) :
    Does ρ t ((w.reconciler cfg coord).pinGrantReceipt build armed witness) i
      (fun e j => sameGrant e armed ∧ Steady ρ t i j) :=
  pinEntryReceipt_does (x := Reconciler.grantSlot) hb id hs fun he hx ha hu hs =>
    .update he (.pinGrant (ne_of_eq_of_ne ha ho) hu (sameGrant_nonce hx ▸ hs))

theorem recordAndPin_does {x : Reconciler.ReceiptSlot} {P : ReceiptData → Prop} {a : String}
    {pin : Witness → K ActiveReservation}
    (hq : Quiet (x.data (w.reconciler cfg coord) true build armed))
    (hx : ∀ i, Does ρ t (x.data (w.reconciler cfg coord) true build armed) i (fun d _ => P d))
    (hf : Fresh ρ t i a)
    (hd : ∀ n r, i ≤ n → Fresh ρ t n a → r.name = r.data.receiptName → P r.data →
      ReceiptCreation ρ n t r)
    (hpin : ∀ witness j, i ≤ j → SawReceipt ρ j witness.receiptUID witness.dataDigest P →
      Does ρ t (pin witness) j (fun e k => x.same e armed ∧ Steady ρ t j k)) :
    Does ρ t ((w.reconciler cfg coord).recordAndPin build armed x pin) i
      (fun e j => x.same e armed ∧ Confirmed ρ t j ∧ Unspent ρ t j a isCreatePod) := by
  have hread : Does ρ t (observe ((w.reconciler cfg coord).freshReceipt build armed x)) i
      (fun d j => P d ∧ Calm ρ t i j) := by
    refine Does.calmly ?_ (quiet_observe (quiet_freshReceipt _ build armed hq))
    refine observe_does (fun _ _ _ _ h => h) fun j _ => ?_
    unfold Reconciler.freshReceipt
    refine (quiet_observedRead (quiet_ensureLiveAdmissionBuild _ build)).does.andThen
      fun _ k _ _ => ?_
    exact (quiet_checkGrantReceiptNamespaceWith _ true).does.andThen fun _ l _ _ => hx l
  unfold Reconciler.recordAndPin
  refine hread.andThen fun data k hk ⟨hdata, hc⟩ => ?_
  have hf : Fresh ρ t k a := hf.steady hk (.of_calm hc)
  have hnever : (recordOnce w.ext data).run.Never fun q => isArmingWrite q ∨ isCreatePod q :=
    never_recordOnce (fun _ hq => hq.elim isArmingWrite.writes fun h => h.effect.writes)
      (fun _ => by simp [isArmingWrite, isCreatePod]) w.ext _
  refine ((recordOnce_does fun n r hn hcn hname hr => hd n r (hk.trans hn)
    (hf.steady hn (.of_calm hcn)) hname (hr ▸ hdata)).avoiding hnever).andThen
    fun witness l hl ⟨hrec, hsil⟩ => ?_
  refine (quiet_checkGrantReceiptNamespace _).does.andThen fun _ n hn hc₂ => ?_
  obtain ⟨m, r, hm, hlk, hu, hdig, hr⟩ := hrec.mono hn
  refine (hpin witness n (by omega) ⟨m, r, hm, hlk, hu, hdig, hr ▸ hdata⟩).imp
    fun e o ho ⟨hsame, hst⟩ => ?_
  have hst : Steady ρ t l o := (Steady.of_calm hc₂).trans hst
  have hconf : Confirmed ρ t l := hf.confirmed.silent (silent_of_imp hsil fun _ => .inl)
  have hun : Unspent ρ t l a isCreatePod :=
    hf.unspent.createPod.silent hl (silent_of_imp hsil fun _ => .inr)
  exact ⟨hsame, hst.confirmed hconf,
    hun.silent (by omega) (silent_of_imp hst.silent fun _ => isCreatePod.effect)⟩

theorem finishFreshGrant_does (hb : Known ρ i build) (hf : Fresh ρ t i original.grantNonce) :
    Does ρ t ((w.reconciler cfg coord).finishFreshGrant build original) i
      (fun _ j => Confirmed ρ t j) := by
  unfold Reconciler.finishFreshGrant
  refine (armFreshGrant_does hb hf).andThen fun armed j hj ⟨hentry, hnonce, hrv, hf⟩ => ?_
  have hd : ∀ n r, j ≤ n → Fresh ρ t n original.grantNonce → r.name = r.data.receiptName →
      grantOf build.uid armed.grantNonce r.data → ReceiptCreation ρ n t r := by
    intro n r hn hf hname hdata
    refine ⟨hname, ?_⟩
    obtain ⟨m, hm, he⟩ := hentry
    cases hr : r.data with
    | grant intent =>
      rw [hr] at hdata
      obtain ⟨hbuild, hnonce'⟩ := hdata
      exact ⟨⟨m, armed, by omega, hbuild ▸ he, hnonce'.symm, hrv⟩,
        hnonce'.trans hnonce ▸ hf.unspent, hf.confirmed⟩
    | _ => simp [hr, grantOf] at hdata
  refine (recordAndPin_does (quiet_grantSlot_data _ build armed true)
    (fun _ => grantSlot_data_does true armed) hf hd fun _ _ hk hs =>
      pinGrantReceipt_does (hb.mono (hj.trans hk)) hrv hs).andThen fun pinned o _ ⟨_, hconf, _⟩ => ?_
  refine (quiet_ensureLiveAdmissionBuild _ build).does.andThen fun _ o' _ hc₃ => ?_
  exact (quiet_verifyPinnedGrant _ build pinned).does.imp
    fun _ _ _ hc₄ => (hconf.calm hc₃).calm hc₄

theorem deleteReceipt_does {name : String} (hd : ∀ n, i ≤ n → ReceiptDeletion ρ n name uid) :
    Does ρ t (deleteReceipt name uid) i (fun _ _ => True) :=
  Does.request rfl (fun n hn _ => hd n hn) (fun _ _ _ _ _ _ => trivial) fun _ _ _ _ _ _ => trivial

theorem deleteQualified_does {expected : Receipt} {digest : String}
    (hd : ∀ n, i ≤ n → ReceiptDeletion ρ n expected.name uid) :
    Does ρ t ((w.reconciler cfg coord).deleteQualified expected uid digest) i (fun _ _ => True) := by
  unfold Reconciler.deleteQualified
  refine (getReceipt_does _).attempt (fun r j hj _ => ?_) fun e j _ _ =>
    Does.lastCheck fun _ => trivial
  dsimp only
  split
  · exact .throw trivial
  · refine .check fun _ => ?_
    refine (deleteReceipt_does fun n hn => hd n (hj.trans hn)).attempt
      (fun _ _ _ _ => .pure trivial) fun e k _ _ => .lastCheck fun _ => trivial

/-- Delete a receipt the ledger has marked for cleanup, and see that it is gone. -/
theorem deletePinnedEffect_does {digest what : String}
    (hd : ∀ n, i ≤ n → ReceiptDeletion ρ n data.receiptName uid) :
    Does ρ t ((w.reconciler cfg coord).deletePinnedEffect data uid digest what) i
      (fun _ j => SawNoReceipt ρ i j data.receiptName) := by
  unfold Reconciler.deletePinnedEffect
  refine .decoded fun expected hn => ?_
  have hname : expected.name = data.receiptName := (newReceipt_data hn).1
  refine (deleteQualified_does fun n hn => hname ▸ hd n hn).andThen fun _ j hj _ => ?_
  refine (getReceipt_does _).attempt (fun _ _ _ _ => .throw trivial) fun e k _ he => ?_
  refine .check fun hnf => ?_
  obtain ⟨m, h1, h2, hl⟩ := he (by simpa using hnf)
  refine (quiet_checkGrantReceiptNamespace _).does.andThen fun _ l hl' _ => ?_
  refine quiet_genesisCheck.does.imp fun _ n hn' _ => ?_
  exact ⟨m, by omega, by omega, hname ▸ hl⟩

section Slot

variable {x : Reconciler.ReceiptSlot} {P : ReceiptData → Prop} {entry : ActiveReservation}
variable {name : String} {observe : K Witness} {pin : Witness → K ActiveReservation}
variable {verify delete : K Unit} {Q : Nat → ActiveReservation → Nat → Prop}
variable {cm : LedgerMap} {m : Nat}

theorem deletePinned_does
    (hx : ∀ i, Does ρ t (x.data (w.reconciler cfg coord) false build entry) i
      (fun d _ => d.receiptName = name))
    (hd : x.cleanupReady entry → ∀ n, i ≤ n → ReceiptDeletion ρ n name (x.uid entry)) :
    Does ρ t ((w.reconciler cfg coord).deletePinned build entry x) i
      (fun _ j => SawNoReceipt ρ i j name) := by
  unfold Reconciler.deletePinned
  refine .check fun hready => ?_
  simp only [Bool.or_eq_false_iff, Bool.not_eq_false'] at hready
  refine (quiet_checkGrantReceiptNamespace _).does.andThen fun _ j hj _ => ?_
  refine (hx j).andThen fun data k hk hname => ?_
  refine (deletePinnedEffect_does fun n hn => hname ▸ hd hready.1.1 n (by omega)).imp
    fun _ l _ h => ?_
  obtain ⟨m, h1, h2, hl⟩ := hname ▸ h
  exact ⟨m, by omega, h2, hl⟩

/-- Both halves of a release are steps on the ledger that was read at `m`. -/
theorem releaseReceipt_does (hb : Known ρ i build) (hm : m < i) (hcm : cm = (ρ.store m).ledger)
    (hobserve : Does ρ t observe i
      (fun witness j => SawReceipt ρ j witness.receiptUID witness.dataDigest P))
    (hpin : ∀ witness j, i ≤ j → x.armedBy entry ≠ "" →
      SawReceipt ρ j witness.receiptUID witness.dataDigest P →
      Does ρ t (pin witness) j (Q j))
    (hverify : Quiet verify)
    (hmark : ∀ j, x.uid entry ≠ "" → LedgerChange ρ t m j build.uid cm.data x.marker
      (cm.data.set build.uid (x.mark entry)))
    (hdelete : Does ρ t delete i (fun _ j => SawNoReceipt ρ i j name)) :
    Does ρ t ((w.reconciler cfg coord).releaseReceipt build entry x observe pin verify delete cm) i
      (fun done j => done → x.armedBy entry = "" ∨ x.uid entry ≠ "" ∧ x.cleanupReady entry ∧
        SawNoReceipt ρ m j name) := by
  unfold Reconciler.releaseReceipt
  rw [hb.key]
  split
  · next ha => exact .pure fun _ => .inl (by simpa using ha)
  next ha =>
  split
  · refine hobserve.attempt (fun witness j hj hs => ?_) fun _ _ _ _ => .throw trivial
    refine (hpin witness j hj (by simpa using ha) hs).andThen fun _ k _ _ => ?_
    exact .pure fun h => by cases h
  next hu =>
  split
  · refine hverify.does.andThen fun _ j hj _ => ?_
    refine (writeReservations_does (by omega) hcm (hmark j (by simpa using hu))).andThen
      fun _ k _ _ => ?_
    exact .pure fun h => by cases h
  next hr =>
  refine hdelete.andThen fun _ j _ hs => .pure fun _ => .inr ?_
  obtain ⟨k, h1, h2, hl⟩ := hs
  exact ⟨by simpa using hu, by simpa using hr, k, by omega, h2, hl⟩

theorem releaseGenesisGrantReceipt_does (hb : Known ρ i build) (hm : m < i)
    (hcm : cm = (ρ.store m).ledger) (he : cm.data.active.lookup build.uid = some entry) :
    Does ρ t ((w.reconciler cfg coord).releaseGenesisGrantReceipt build cm entry) i
      (fun done j => done → entry.grantObservedRV = "" ∨ entry.grantReceiptUID ≠ "" ∧
        entry.grantCleanupReady ∧
        SawNoReceipt ρ m j (grantReceiptPrefix ++ entry.grantNonce)) := by
  refine releaseReceipt_does hb hm hcm (observeGrantReceipt_does build entry)
    (fun _ _ hj ha hs => pinGrantReceipt_does (hb.mono hj) ha hs)
    (quiet_verifyPinnedGrantForCleanup _ build entry) (fun _ hu => .update he (.markGrant hu)) ?_
  refine deletePinned_does (fun _ => (grantIntentWith_does false build entry).andThen
    fun _ _ _ h => .pure (h.1.2 ▸ rfl)) fun hr n hn => ?_
  exact .inr ⟨m, build.uid, entry, by omega, hcm ▸ he, .inl ⟨rfl, hr, rfl⟩⟩

end Slot

end KovaService.Proof
