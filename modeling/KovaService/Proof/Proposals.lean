import KovaService.Ledger.Moves
import KovaService.Proof.Quiet

/-!
The states that the functions of Genesis mode propose for the active ledger.

Each function is looked at alone, with any answers from its surroundings, except that a nonce is 32
hex digits.  What it knows of the ledger is that the state it read was accepted, and every state it
then calls `writeReservations` with is accepted again.
-/

namespace KovaService.Proof

open Lib Api Ledger Controller

variable {α β τ : Type}

def legal : (q : Request) → Answer q → Prop
  | .nonce, r => ∀ a : String, (r : Ans String) = .ok a → validReservationHex a 32 = true
  | _, _ => True

def accepted : Request → Prop
  | .mark (.proposed next) => next.validate = .ok ()
  | _ => True

def Disciplined (p : K α) (Post : α → Prop) : Prop :=
  Fallible.Ensures legal accepted p Post

def Unmarked (p : K α) : Prop := p.run.Never fun q => ∃ m, q = .mark m

section Rules

variable {p : K α} {f : α → K β} {M : α → Prop} {Post : β → Prop}

theorem Quiet.unmarked (h : Quiet p) : Unmarked p := Prog.Never.mono h fun _ => .inr

theorem unmarked_bind (hp : Unmarked p) (hf : ∀ a, Unmarked (f a)) : Unmarked (p >>= f) :=
  Fallible.never_bind hp hf

theorem unmarked_request {q : Request} {g : Answer q → Except Err α}
    (hp : p.run = invoke q >>= fun r => .ret (g r)) (hq : ¬ ∃ m, q = .mark m) : Unmarked p := by
  unfold Unmarked
  rw [hp]
  exact Prog.never_bind (Prog.never_perform hq) fun _ => trivial

theorem accepted_of_not_mark {q : Request} (h : ¬ ∃ m, q = .mark m) : accepted q := by
  cases q <;> first | trivial | exact absurd ⟨_, rfl⟩ h

theorem Unmarked.disciplined (h : Unmarked p) : Disciplined p fun _ => True :=
  Fallible.ensures_of_never h fun _ => accepted_of_not_mark

theorem Quiet.disciplined (h : Quiet p) : Disciplined p fun _ => True := h.unmarked.disciplined

namespace Disciplined

theorem imp {Post Post' : α → Prop} (h : Disciplined p Post) (hP : ∀ a, Post a → Post' a) :
    Disciplined p Post' :=
  Fallible.Ensures.mono h hP

theorem bind (h : Disciplined p M) (hf : ∀ a, M a → Disciplined (f a) Post) :
    Disciplined (p >>= f) Post :=
  Fallible.Ensures.bind h hf

theorem skip (h : Unmarked p) (hf : ∀ a, Disciplined (f a) Post) : Disciplined (p >>= f) Post :=
  h.disciplined.bind fun a _ => hf a

theorem quiet (h : Quiet p) (hf : ∀ a, Disciplined (f a) Post) : Disciplined (p >>= f) Post :=
  skip h.unmarked hf

theorem attempt {f : Except Err α → K β} (h : Disciplined p M)
    (hok : ∀ a, M a → Disciplined (f (.ok a)) Post)
    (herr : ∀ e, Disciplined (f (.error e)) Post) : Disciplined (Api.attempt p >>= f) Post :=
  Fallible.Ensures.attempt h hok herr

theorem pure {Post : α → Prop} {a : α} (h : Post a) : Disciplined (Pure.pure a : K α) Post :=
  Fallible.ensures_pure h

theorem throw {Post : α → Prop} (e : Err) : Disciplined (MonadExcept.throw e : K α) Post :=
  Fallible.ensures_throw e

theorem check {c : Bool} {e : Err} {f : Unit → K β} (h : c = false → Disciplined (f ()) Post) :
    Disciplined (Api.failIf c e >>= f) Post :=
  (Fallible.ensures_failIf (P := fun _ => c = false) fun hc => hc).bind fun _ hc => h hc

theorem ofAns {r : Except Err α} (h : ∀ a, r = .ok a → Disciplined (f a) Post) :
    Disciplined (Api.ofAns r >>= f) Post := by
  cases r with
  | ok a => exact bind (M := fun b => b = a) (pure rfl) fun b hb => hb ▸ h a rfl
  | error e => exact bind (M := fun _ => False) (throw e) fun _ hb => hb.elim

theorem ite {Post : α → Prop} {c : Prop} [Decidable c] {p q : K α} (hp : c → Disciplined p Post)
    (hq : ¬ c → Disciplined q Post) : Disciplined (if c then p else q) Post := by
  split
  · next h => exact hp h
  · next h => exact hq h

theorem entry {Post : α → Prop} {o : Option ActiveReservation} {e : Err}
    {f : ActiveReservation → K α} (h : ∀ x, o = some x → Disciplined (f x) Post) :
    Disciplined (match o with
      | none => MonadExcept.throw e
      | some x => f x) Post := by
  cases o with
  | none => exact throw e
  | some x => exact h x rfl

theorem retry {busy : Err} {body : Nat → τ → K (Round τ α)} {Post : α → Prop} {fuel n : Nat} {s : τ}
    (I : τ → Prop) (hs : I s)
    (hbody : ∀ n s, I s → Disciplined (body n s) fun
      | .done a => Post a
      | .again s' => I s') : Disciplined (Api.retry busy body fuel n s) Post :=
  Fallible.ensures_retry I hbody fuel n hs

theorem onConflict {n : Nat} {s : τ} {e : Err} {p : K (Round τ α)} {Post : Round τ α → Prop}
    (hs : Post (.again s)) (hp : Disciplined p Post) : Disciplined (Api.onConflict n s e p) Post :=
  ite (fun _ => quiet (quiet_waitCAS n) fun _ => pure hs) fun _ => hp

theorem joined {Post : α → Prop} {result : Except Err α} {live check : Except Err Unit}
    (hr : ∀ a, result = .ok a → Post a) :
    Disciplined (match joinErrors (errorOf result ++ errorOf live ++ errorOf check) with
      | some e => MonadExcept.throw e
      | none => Api.ofAns result : K α) Post := by
  split
  · exact throw _
  · cases result with
    | ok a => exact pure (hr a rfl)
    | error e => exact throw e

theorem observe {Post : α → Prop} (h : Disciplined p Post) : Disciplined (Api.observe p) Post := by
  refine quiet quiet_genesisCheck fun _ => ?_
  refine h.attempt (fun a ha => ?_) fun e => ?_
  · refine quiet (quiet_attempt quiet_ctxErr) fun live => ?_
    refine quiet (quiet_attempt quiet_genesisCheck) fun check => ?_
    exact joined fun b hb => Except.ok.inj hb ▸ ha
  · refine quiet (quiet_attempt quiet_ctxErr) fun live => ?_
    refine quiet (quiet_attempt quiet_genesisCheck) fun check => ?_
    exact joined fun b (hb : Except.error e = .ok b) => by cases hb

end Disciplined

end Rules

variable {r : Reconciler} {build : KovaBuild} {armed entry : ActiveReservation} {cm : LedgerMap}
variable {s : ReservationState}

structure Admissible (r : Reconciler) (s : ReservationState) : Prop where
  accepted : s.Accepted
  jobs : s.maxJobs = r.cfg.maxActiveJobs
  perRequester : s.maxPerRequester = r.cfg.maxActiveJobsPerRequester
  slots : s.workerSlots = r.cfg.workerSlots

theorem unmarked_storeReservations (writer : LedgerWriter) (key : String) (cm : LedgerMap)
    (next : ReservationState) : Unmarked (r.storeReservations writer key cm next) := by
  have hput : ∀ patch rv, Unmarked (putLedger writer key patch rv next) := fun patch rv =>
    unmarked_request (q := .putLedger writer key patch rv next) rfl (by simp)
  have hclassify : ∀ role : Role ReservationState, ∀ e,
      Unmarked (role.classifyLedgerPatchError genesisCheck getLedger cm e) := fun _ e =>
    (quiet_classifyLedgerPatchError quiet_getLedger cm e).unmarked
  unfold Reconciler.storeReservations
  refine unmarked_bind (quiet_ofAns _).unmarked fun _ => ?_
  split
  · unfold Role.patchLedgerData
    refine unmarked_bind (quiet_ofAns _).unmarked fun _ =>
      unmarked_bind (quiet_failIf _ _).unmarked fun _ => ?_
    split
    · exact (quiet_throw _).unmarked
    · refine unmarked_bind quiet_genesisCheck.unmarked fun _ =>
        unmarked_bind (Fallible.never_attempt (hput _ _)) fun answer => ?_
      cases answer with
      | error e => exact hclassify _ e
      | ok updated =>
        refine Quiet.unmarked ?_
        repeat' with_reducible refine quiet_bind ?_ fun _ => ?_
        all_goals simp
  · exact unmarked_bind (hput _ _) fun _ => (quiet_pure _).unmarked

theorem writeReservations_disciplined {writer : LedgerWriter} {key : String} {cm : LedgerMap}
    {next : ReservationState} (h : next.Accepted) :
    Disciplined (r.writeReservations writer key cm next) fun _ => True :=
  Disciplined.bind (M := fun _ => True) ⟨h.validate, fun _ _ _ _ => trivial⟩ fun _ _ =>
    (unmarked_storeReservations writer key cm next).disciplined

/-- An entry of a ledger that was read may get another value at the same charge. -/
theorem Admissible.update {key : String} {e d : ActiveReservation} (h : Admissible r s)
    (he : s.active.lookup key = some e) (hr : d.requester = e.requester)
    (hs : d.slots = e.slots) (hok : ReservationState.EntryOk s.workerSlots key e →
      ReservationState.EntryOk s.workerSlots key d) : (s.set key d).Accepted :=
  h.accepted.update he hr hs (hok (h.accepted.entry key e he))

theorem verifyPinnedReceiptWith_disciplined {x : Reconciler.ReceiptSlot} {allowClosing : Bool}
    (hx : Quiet (x.data r true build entry)) :
    Disciplined (r.verifyPinnedReceiptWith build entry x allowClosing) fun _ =>
      x.uid entry ≠ "" := by
  have hobserve := quiet_observeReceiptWith r build entry hx
  unfold Reconciler.verifyPinnedReceiptWith
  refine .check fun _ => .ite (fun _ => ?_) fun hpin => ?_
  · exact .quiet (quiet_onlyIf (quiet_dropped hobserve)) fun _ => .throw _
  · have hne : x.uid entry ≠ "" := by
      intro h
      simp [h] at hpin
    exact .quiet hobserve fun _ => (quiet_failIf _ _).disciplined.imp fun _ _ => hne

theorem unmarked_deletePinnedEffect (data : ReceiptData) (uid : UID) (digest what : String) :
    Unmarked (r.deletePinnedEffect data uid digest what) := by
  unfold Reconciler.deletePinnedEffect
  refine unmarked_bind (quiet_ofAns _).unmarked fun expected => unmarked_bind ?_ fun _ => ?_
  · unfold Reconciler.deleteQualified
    refine unmarked_bind (quiet_attempt (quiet_getReceipt _)).unmarked fun answer => ?_
    cases answer with
    | error e => exact (quiet_failIf _ _).unmarked
    | ok observed =>
      dsimp only
      split
      · exact (quiet_throw _).unmarked
      · refine unmarked_bind (quiet_failIf _ _).unmarked fun _ => ?_
        refine unmarked_bind (Fallible.never_attempt
          (unmarked_request (q := .deleteReceipt expected.name uid) rfl (by simp))) fun answer => ?_
        cases answer with
        | ok _ => exact (quiet_pure _).unmarked
        | error e => exact (quiet_failIf _ _).unmarked
  · refine Quiet.unmarked (quiet_bind (quiet_attempt (quiet_getReceipt _)) fun answer => ?_)
    cases answer with
    | ok _ => exact quiet_throw _
    | error e =>
      exact quiet_bind (quiet_failIf _ _) fun _ =>
        quiet_bind (quiet_checkGrantReceiptNamespace r) fun _ => quiet_genesisCheck

theorem recordAndPin_disciplined {x : Reconciler.ReceiptSlot} {Post : ActiveReservation → Prop}
    {pin : Witness → K ActiveReservation} (hx : Quiet (x.data r true build entry))
    (hpin : ∀ witness, Disciplined (pin witness) Post) :
    Disciplined (r.recordAndPin build entry x pin) Post := by
  refine .quiet (quiet_observe (quiet_freshReceipt r build entry hx)) fun data => ?_
  refine .skip (never_recordOnce (fun _ => .inr) (by simp) r.ext data) fun witness => ?_
  exact .quiet (quiet_checkGrantReceiptNamespace r) fun _ => hpin witness

theorem releaseReceipt_disciplined {x : Reconciler.ReceiptSlot} {observe : K Witness}
    {pin : Witness → K ActiveReservation} {verify : K Unit} (hobserve : Quiet observe)
    (hpin : x.armedBy entry ≠ "" → ∀ witness, Disciplined (pin witness) fun _ => True)
    (hverify : Quiet verify) (hx : Quiet (x.data r false build entry))
    (hmark : x.uid entry ≠ "" → (cm.data.set build.reservationKey (x.mark entry)).Accepted) :
    Disciplined (r.releaseReceipt build entry x observe pin verify
      (r.deletePinned build entry x) cm) fun gone =>
      gone → x.armedBy entry ≠ "" → x.cleanupReady entry := by
  refine .ite (fun ha => .pure fun _ hne => absurd (by simpa using ha) hne) fun ha => ?_
  refine .ite (fun _ => ?_) fun hr => .ite (fun _ => ?_) fun hm => ?_
  · refine .attempt hobserve.disciplined (fun witness _ => ?_) fun _ => .throw _
    exact (hpin (by simpa using ha) witness).bind fun _ _ => .pure fun h => by cases h
  · refine .quiet hverify fun _ => ?_
    refine (writeReservations_disciplined (hmark (by simpa using hr))).bind fun _ _ => ?_
    exact .pure fun h => by cases h
  · have hdelete : Unmarked (r.deletePinned build entry x) := by
      refine unmarked_bind (quiet_failIf _ _).unmarked fun _ => ?_
      refine unmarked_bind (quiet_checkGrantReceiptNamespace r).unmarked fun _ => ?_
      exact unmarked_bind hx.unmarked fun _ => unmarked_deletePinnedEffect _ _ _ _
    exact .skip hdelete fun _ => .pure fun _ _ => by simpa using hm

theorem fenced_accepted {s : ReservationState} (h : s.Accepted) (key : String) :
    (Reconciler.fenced s key).Accepted := by
  unfold Reconciler.fenced
  cases he : s.active.lookup key with
  | none => exact h.refence _
  | some entry =>
    exact (h.refence (s.fence + 1)).update he rfl rfl (h.entry key entry he).close

theorem reservationKey_of_uid {b b' : KovaBuild} (hu : b'.uid = b.uid) (hne : b.uid ≠ "") :
    b'.reservationKey = b.reservationKey := by
  simp [KovaBuild.reservationKey, hu, hne]

/-- What the API server ensures of a stored build: its UID, its name, and the CRD's bounds on the
requester. -/
structure CRDValid (build : KovaBuild) : Prop where
  uid : opaqueUID build.uid
  name : build.name ≠ "" ∧ isDNS1123Subdomain build.name
  requester : build.spec.requester.username ≠ "" ∧
    build.spec.requester.username.length ≤ maxRequesterRunes

theorem CRDValid.uid_ne (h : CRDValid build) : build.uid ≠ "" := by
  have hu := h.uid
  simp only [opaqueUID, Bool.and_eq_true, bne_iff_ne] at hu
  exact hu.1

theorem CRDValid.reservationKey (h : CRDValid build) : build.reservationKey = build.uid := by
  simp [KovaBuild.reservationKey, h.uid_ne]

theorem CRDValid.requesterKey (h : CRDValid build) :
    build.requesterKey = build.spec.requester.username := by
  simp [KovaBuild.requesterKey, h.requester.1]

variable {slots : Int}

theorem allocate_slots {maxJobs jobs : Int} {candidates : List KovaBuild} {active : String → Nat}
    (h : (allocate build maxJobs true candidates active jobs slots).admitted) :
    1 ≤ (allocate build maxJobs true candidates active jobs slots).allocation ∧
      (allocate build maxJobs true candidates active jobs slots).allocation ≤ slots := by
  induction candidates generalizing active jobs slots with
  | nil => cases h
  | cons c cs ih =>
    unfold allocate at h ⊢
    by_cases hfull : (maxJobs > 0 && (active c.requesterKey : Int) ≥ maxJobs) = true
    · rw [if_pos hfull] at h ⊢
      exact ih h
    rw [if_neg hfull] at h ⊢
    set allocation := if true && c.requestedConcurrency > slots then slots
      else c.requestedConcurrency with hall
    have hle : allocation ≤ slots := by
      rw [hall]
      split
      · exact le_rfl
      · next hgt => simpa using hgt
    dsimp only at h ⊢
    by_cases hnone : (decide (allocation ≤ 0) || decide (jobs ≤ 0)) = true
    · rw [if_pos hnone] at h
      cases h
    rw [if_neg hnone] at h ⊢
    simp only [Bool.or_eq_true, decide_eq_true_eq, not_or, not_le] at hnone
    by_cases hkey : (c.reservationKey == build.reservationKey) = true
    · rw [if_pos hkey]
      exact ⟨hnone.1, hle⟩
    · rw [if_neg hkey, if_pos rfl] at h ⊢
      have := ih h
      omega

theorem decideAdmission_slots {x : Ext} {builds : List KovaBuild} {maxJobs perRequester : Int}
    (hs : 0 < slots)
    (h : (decideAdmission x build builds s maxJobs perRequester slots).admitted) :
    1 ≤ (decideAdmission x build builds s maxJobs perRequester slots).allocation ∧
      s.usedSlots + (decideAdmission x build builds s maxJobs perRequester slots).allocation
        ≤ slots := by
  unfold decideAdmission at h ⊢
  dsimp only at h ⊢
  generalize (if maxJobs > 0 then maxJobs - (s.active.keys.card : Int)
    else ((queuedAdmissionCandidates builds s).length : Int)) = jobs at h ⊢
  by_cases hjobs : (decide (maxJobs > 0) && decide (jobs ≤ 0)) = true
  · rw [if_pos hjobs] at h
    cases h
  rw [if_neg hjobs] at h ⊢
  by_cases hfull : (decide (slots > 0) && decide (slots - s.usedSlots ≤ 0)) = true
  · rw [if_pos hfull] at h
    cases h
  rw [if_neg hfull, if_pos hs, decide_eq_true hs] at h ⊢
  have := allocate_slots h
  omega

theorem saturatedAdmission_none {maxJobs perRequester : Int} (hj : 0 < maxJobs)
    (hr : 0 < perRequester)
    (h : saturatedAdmission build s maxJobs perRequester slots = none) :
    (s.active.keys.card : Int) < maxJobs ∧
      (s.byRequester build.requesterKey : Int) < perRequester := by
  unfold saturatedAdmission at h
  split_ifs at h with h1 h2 h3
  simp only [Bool.and_eq_true, decide_eq_true_eq, not_and, not_le, ge_iff_le] at h1 h3
  exact ⟨h1 hj, h3 hr⟩

theorem admitFresh_disciplined (permit : Bool) :
    Disciplined (r.admitFresh build s permit) fun ended => ended = none →
      saturatedAdmission build s r.cfg.maxActiveJobs r.cfg.maxActiveJobsPerRequester
        r.cfg.workerSlots = none := by
  unfold Reconciler.admitFresh
  split
  · refine .quiet (quiet_verifyForBuild r.queueStore build) fun _ => ?_
    exact .pure fun h => by cases h
  · next hnone =>
    have hfree : Unmarked (if r.genesis.isSome && r.coordinator && !permit then tryBegin
        else pure true : K Bool) :=
      (quiet_ite quiet_tryBegin (quiet_pure _)).unmarked
    refine .skip hfree fun free => .ite (fun _ => .pure fun h => by cases h) fun _ => ?_
    exact .quiet (quiet_verifyForBuild r.queueStore build) fun _ => .pure fun _ => hnone

section Genesis

variable (hg : r.genesis.isSome)

include hg

theorem checkRead_admissible (h : r.checkRead s = .ok ()) : Admissible r s := by
  unfold Reconciler.checkRead at h
  split at h
  · cases h
  next hd =>
  split at h
  · cases h
  next hl =>
  split at h
  · cases h
  next hv =>
  have hvalid : s.validate = .ok () := by
    unfold Reconciler.decodeReservations at hd
    split at hd
    · assumption
    · cases hd
  have hversion : s.version = 2 := by simpa [hg, Option.isSome_iff_ne_none.mp hg] using hv
  unfold ReservationState.validateLimits at hl
  split at hl
  · cases hl
  · split at hl
    · cases hl
    · next hne =>
      simp only [Bool.or_eq_true, bne_iff_ne, not_or, not_not] at hne
      exact ⟨ReservationState.accepted_of_validate hvalid hversion, hne.1.1, hne.1.2, hne.2⟩

theorem readReservationsWith_disciplined (observed : Bool) :
    Disciplined (r.readReservationsWith observed) fun cm => Admissible r cm.data := by
  unfold Reconciler.readReservationsWith
  refine .quiet (quiet_onlyIf quiet_genesisCheck) fun _ => ?_
  refine .check fun _ => .quiet (quiet_observedRead (quiet_readLedger r)) fun cm => ?_
  exact .ofAns fun _ h => .pure (checkRead_admissible hg h)

theorem readReservations_disciplined :
    Disciplined r.readReservations fun cm => Admissible r cm.data :=
  readReservationsWith_disciplined hg false

theorem armFreshGrant_disciplined (build : KovaBuild) (original : ActiveReservation) :
    Disciplined (r.armFreshGrant build original) fun armed => armed.grantObservedRV ≠ "" := by
  unfold Reconciler.armFreshGrant
  refine .retry (fun _ => True) trivial fun n _ _ => ?_
  refine (readReservations_disciplined hg).bind fun cm hcm => ?_
  refine .entry fun entry he => ?_
  refine .check fun _ => .quiet (quiet_ensureLiveAdmissionBuild r build) fun _ => ?_
  refine .check fun hrv => ?_
  have hrv : validGrantObservedRV (rvString cm.resourceVersion) := by simpa using hrv
  have hnext := hcm.update he (d := { entry with grantObservedRV := rvString cm.resourceVersion })
    rfl rfl fun h => h.armGrant hrv
  refine (writeReservations_disciplined hnext).attempt (fun _ _ => ?_) fun e => ?_
  · refine (readReservations_disciplined hg).bind fun confirmed _ => ?_
    refine .entry fun observed _ => ?_
    refine .check fun hsame => ?_
    simp only [Bool.or_eq_false_iff, bne_eq_false_iff_eq] at hsame
    have hne : observed.grantObservedRV ≠ "" :=
      hsame.1.1.2 ▸ ReservationState.validGrantObservedRV_ne hrv
    exact .pure hne
  · exact .onConflict trivial (.throw e)

theorem pinEntryReceipt_disciplined {x : Reconciler.ReceiptSlot} {busy : Err} {witness : Witness}
    (hpin : ∀ e, (x.pin e witness).requester = e.requester ∧ (x.pin e witness).slots = e.slots)
    (hok : ∀ {n key e}, x.armedBy e = x.armedBy armed → validReceiptUID witness.receiptUID →
      digestSHA256 witness.dataDigest → ReservationState.EntryOk n key e →
      ReservationState.EntryOk n key (x.pin e witness)) (build : KovaBuild) :
    Disciplined (r.pinEntryReceipt x busy build armed witness) fun _ => True := by
  unfold Reconciler.pinEntryReceipt
  refine .check fun hw => .retry (fun _ => True) trivial fun n _ _ => ?_
  simp only [Bool.or_eq_false_iff, Bool.not_eq_false'] at hw
  refine (readReservations_disciplined hg).bind fun cm hcm => ?_
  refine .entry fun entry he => ?_
  refine .check fun hsame => .ite (fun _ => ?_) fun _ => ?_
  · exact .check fun _ => .pure trivial
  · simp only [Bool.or_eq_false_iff, bne_eq_false_iff_eq] at hsame
    have hnext := hcm.update he (hpin entry).1 (hpin entry).2 (hok hsame.1.2 hw.1 hw.2)
    refine (writeReservations_disciplined hnext).attempt (fun _ _ => ?_) fun e => ?_
    · refine (readReservations_disciplined hg).bind fun observed _ => ?_
      exact .entry fun _ _ => .check fun _ => .pure trivial
    · refine .onConflict trivial ?_
      refine (readReservations_disciplined hg).attempt (fun observed _ => ?_) fun _ => .throw e
      dsimp only
      exact .entry fun _ _ => .check fun _ => .pure trivial

theorem pinGrantReceipt_disciplined (ho : armed.grantObservedRV ≠ "") (build : KovaBuild)
    (witness : Witness) : Disciplined (r.pinGrantReceipt build armed witness) fun _ => True :=
  pinEntryReceipt_disciplined hg (fun _ => ⟨rfl, rfl⟩)
    (fun ha hu hd h => h.pinGrant (ne_of_eq_of_ne ha ho) hu hd) build

theorem finishFreshGrant_disciplined (build : KovaBuild) (original : ActiveReservation) :
    Disciplined (r.finishFreshGrant build original) fun _ => True := by
  unfold Reconciler.finishFreshGrant
  refine (armFreshGrant_disciplined hg build original).bind fun armed ho => ?_
  refine (recordAndPin_disciplined (quiet_grantSlot_data r build armed true)
    (pinGrantReceipt_disciplined hg ho build)).bind fun pinned _ => ?_
  refine .quiet (quiet_ensureLiveAdmissionBuild r build) fun _ => ?_
  exact (quiet_verifyPinnedGrant r build pinned).disciplined

theorem beginPodCreate_disciplined (build : KovaBuild) :
    Disciplined (r.beginPodCreate build) fun _ => True := by
  unfold Reconciler.beginPodCreate
  refine Disciplined.bind (M := fun a => validReservationHex a 32 = true)
    ⟨trivial, fun _ ha => ha⟩ fun attempted ha => ?_
  refine .retry (fun _ => True) trivial fun n _ _ => .quiet quiet_ctxErr fun _ => ?_
  refine (readReservations_disciplined hg).bind fun cm hcm => ?_
  refine .quiet (quiet_ensureLiveAdmissionBuild r build) fun _ => ?_
  refine .entry fun entry he => ?_
  refine .check fun _ => .check fun _ => ?_
  have hspent : Disciplined (onlyIf r.genesis.isSome do
      r.verifyPinnedGrant build entry
      failIf (entry.podAttemptNonce != "") (.recovery build.name 1))
      fun _ => entry.podAttemptNonce = "" := by
    rw [hg]
    refine .quiet (quiet_verifyPinnedGrant r build entry) fun _ => ?_
    exact Fallible.ensures_failIf fun h => by simpa using h
  refine hspent.bind fun _ hn => .check fun _ => ?_
  rw [if_pos hg]
  have hnext := hcm.update he (d := { entry with podAttemptNonce := attempted }) rfl rfl
    fun h => h.begin hn ha
  refine (writeReservations_disciplined hnext).attempt (fun _ _ => .pure trivial) fun e => ?_
  refine .onConflict trivial (.quiet (quiet_attempt
    (quiet_podCreateAttemptRecorded r build attempted)) fun found => ?_)
  split
  · exact .pure trivial
  · exact .throw e

theorem readAttempt_disciplined {lost : String} {changed : ActiveReservation → Bool}
    {verify : ActiveReservation → K Unit} {M : ActiveReservation → Prop}
    (hv : ∀ e, Disciplined (verify e) fun _ => M e) :
    Disciplined (r.readAttempt build lost changed verify) fun x => Admissible r x.1.data ∧
      x.1.data.active.lookup build.reservationKey = some x.2 ∧ changed x.2 = false ∧
      x.2.grantReceiptUID ≠ "" ∧ M x.2 := by
  unfold Reconciler.readAttempt
  refine (readReservationsWith_disciplined hg true).bind fun cm hcm => .entry fun entry he => ?_
  refine .check fun hc => ?_
  refine .quiet (quiet_observedRead (quiet_ensureLiveAdmissionBuild r build)) fun _ => ?_
  refine (verifyPinnedReceiptWith_disciplined (quiet_grantSlot_data r build entry true)).bind
    fun _ hgrant => ?_
  exact (hv entry).bind fun _ hm => .pure ⟨hcm, he, hc, hgrant, hm⟩

theorem armFreshPodAttempt_disciplined (build : KovaBuild) (attempted digest : String) :
    Disciplined (r.armFreshPodAttempt build attempted digest) fun armed =>
      armed.podTemplateDigest ≠ "" := by
  unfold Reconciler.armFreshPodAttempt
  refine .check fun hv => .retry (fun _ => True) trivial fun n _ _ => ?_
  simp only [Bool.or_eq_false_iff, Bool.not_eq_false'] at hv
  refine (readAttempt_disciplined hg fun _ => (quiet_pure _).disciplined).observe.bind
    fun (cm, entry) ⟨hcm, he, hc, hgrant, _⟩ => ?_
  simp only [Bool.or_eq_false_iff, bne_eq_false_iff_eq] at hc
  have hne : entry.podAttemptNonce ≠ "" :=
    hc.1.1.1.1.2 ▸ ReservationState.validReservationHex_ne hv.1
  have hnext := hcm.update he (d := { entry with podTemplateDigest := digest }) rfl rfl
    fun h => h.armPod hne hc.1.2 hgrant hv.2
  refine (writeReservations_disciplined hnext).attempt (fun _ _ => ?_) fun e =>
    .onConflict trivial (.throw e)
  refine (readReservations_disciplined hg).bind fun observed _ => ?_
  refine .entry fun armed _ => ?_
  refine .check fun hsame => ?_
  simp only [Bool.or_eq_false_iff, bne_eq_false_iff_eq] at hsame
  have hne : armed.podTemplateDigest ≠ "" := hsame.1.1.1.2 ▸ ReservationState.digestSHA256_ne hv.2
  exact .pure hne

theorem pinPodReceipt_disciplined (ht : armed.podTemplateDigest ≠ "") (build : KovaBuild)
    (witness : Witness) : Disciplined (r.pinPodReceipt build armed witness) fun _ => True :=
  pinEntryReceipt_disciplined hg (fun _ => ⟨rfl, rfl⟩)
    (fun ha hu hd h => h.pinPod (ne_of_eq_of_ne ha ht) hu hd) build

theorem authorizeFreshPodCreate_disciplined (build : KovaBuild) (pinned : ActiveReservation) :
    Disciplined (r.authorizeFreshPodCreate build pinned) fun _ => True := by
  unfold Reconciler.authorizeFreshPodCreate
  refine .retry (fun _ => True) trivial fun n _ _ => ?_
  refine (readAttempt_disciplined hg fun e => verifyPinnedReceiptWith_disciplined
    (quiet_podSlot_data r build e true)).observe.bind fun (cm, entry) ⟨hcm, he, hc, _, hr⟩ => ?_
  simp only [Bool.or_eq_false_iff, bne_eq_false_iff_eq, Bool.not_eq_false', samePodAttempt,
    Bool.and_eq_true, beq_iff_eq] at hc
  have hnext := hcm.update he (d := { entry with inFlight := [pinned.podAttemptNonce] }) rfl rfl
    fun h => hc.1.1.1.1.1.1.2 ▸ h.issue hr hc.1.1.2
  refine (writeReservations_disciplined hnext).attempt (fun _ _ => ?_) fun e => ?_
  · exact .quiet (quiet_freshIssueRecorded r build _) fun _ => .pure trivial
  · refine .onConflict trivial (.quiet (quiet_attempt
      (quiet_freshIssueRecorded r build _)) fun found => ?_)
    split
    · exact .pure trivial
    · exact .throw e

theorem finishFreshPodAttempt_disciplined (build : KovaBuild) (pod : Pod) (attempted : String) :
    Disciplined (r.finishFreshPodAttempt build pod attempted) fun _ => True := by
  unfold Reconciler.finishFreshPodAttempt
  refine .check fun _ => .quiet (quiet_ofAns _) fun _ => ?_
  refine .quiet (quiet_ofAns _) fun digest => ?_
  refine (armFreshPodAttempt_disciplined hg build attempted digest).bind fun armed ht => ?_
  refine (recordAndPin_disciplined (quiet_podSlot_data r build armed true)
    (pinPodReceipt_disciplined hg ht build)).bind fun pinned _ => ?_
  exact (authorizeFreshPodCreate_disciplined hg build pinned).bind fun _ _ => .pure trivial

theorem completeGenesisPodCreate_disciplined (build : KovaBuild) (attempted : String) :
    Disciplined (r.completeGenesisPodCreate build attempted) fun _ => True := by
  unfold Reconciler.completeGenesisPodCreate
  refine .retry (fun _ => True) trivial fun n _ _ => ?_
  refine (readReservations_disciplined hg).bind fun cm hcm => ?_
  refine .entry fun entry he => ?_
  refine .check fun _ => .ite (fun _ => .pure trivial) fun _ => .check fun _ => ?_
  refine .quiet (quiet_verifyPinnedPodReceipt r build entry true) fun _ => ?_
  have hnext := hcm.update he (d := { entry with inFlight := [] }) rfl rfl fun h => h.complete
  refine (writeReservations_disciplined hnext).attempt (fun _ _ => .pure trivial) fun e => ?_
  refine .onConflict trivial ?_
  refine (readReservations_disciplined hg).attempt (fun observed _ => ?_) fun _ => .throw e
  dsimp only
  exact .entry fun _ _ => .check fun _ => .pure trivial

theorem fenceReservation_disciplined (build : KovaBuild) :
    Disciplined (r.fenceReservation build) fun _ => True := by
  unfold Reconciler.fenceReservation
  refine .retry (fun _ => True) trivial fun n _ _ => ?_
  refine (readReservations_disciplined hg).bind fun cm hcm => ?_
  refine .quiet (quiet_ofAns _) fun _ => ?_
  refine (writeReservations_disciplined (fenced_accepted hcm.accepted _)).attempt
    (fun _ _ => .pure trivial) fun e => .onConflict trivial (.throw e)

/-- After a Pod receipt is settled the grant receipt may be marked. -/
theorem releaseGenesisPodReceipt_disciplined (hcm : Admissible r cm.data)
    (he : cm.data.active.lookup build.reservationKey = some entry)
    (hc : entry.closing) (hi : entry.inFlight = []) :
    Disciplined (r.releaseGenesisPodReceipt build cm entry) fun gone =>
      gone → entry.podTemplateDigest ≠ "" → entry.podCleanupReady :=
  releaseReceipt_disciplined (quiet_observePodReceipt r build entry)
    (fun ht => pinPodReceipt_disciplined hg ht build)
    (quiet_verifyPinnedPodReceipt r build entry true) (quiet_podSlot_data r build entry false)
    fun hr => hcm.update he rfl rfl fun h => h.markPod hc hi hr

theorem releaseGenesisGrantReceipt_disciplined (hcm : Admissible r cm.data)
    (he : cm.data.active.lookup build.reservationKey = some entry)
    (hc : entry.closing) (hi : entry.inFlight = [])
    (hp : entry.podTemplateDigest ≠ "" → entry.podCleanupReady) :
    Disciplined (r.releaseGenesisGrantReceipt build cm entry) fun _ => True :=
  (releaseReceipt_disciplined (quiet_observeGrantReceipt r build entry)
    (fun ho => pinGrantReceipt_disciplined hg ho build)
    (quiet_verifyPinnedGrantForCleanup r build entry) (quiet_grantSlot_data r build entry false)
    fun hr => hcm.update he rfl rfl fun h => h.markGrant hc hi hr hp).imp fun _ _ => trivial

theorem endedBuild_disciplined (build : KovaBuild) :
    Disciplined (r.endedBuild build) fun current => current.uid = build.uid := by
  unfold Reconciler.endedBuild
  rw [if_pos hg]
  refine .quiet (quiet_getBuild _) fun current => .check fun hc => .pure ?_
  simp only [Bool.or_eq_false_iff, bne_eq_false_iff_eq] at hc
  exact hc.1

theorem releaseReservation_disciplined {build : KovaBuild} (hu : build.uid ≠ "") :
    Disciplined (r.releaseReservation build) fun _ => True := by
  unfold Reconciler.releaseReservation
  -- every round goes on with a version of the same build
  refine .retry (fun b => b.uid ≠ "") hu fun n build hu => ?_
  refine .quiet quiet_ctxErr fun _ => ?_
  refine (readReservations_disciplined hg).bind fun cm hcm => ?_
  cases he : cm.data.active.lookup build.reservationKey with
  | none => exact .pure trivial
  | some entry =>
    refine .check fun _ => .check fun hc => ?_
    refine (endedBuild_disciplined hg build).bind fun current hcur => .check fun hi => ?_
    have hc : entry.closing := by simpa using hc
    have hi : entry.inFlight = [] := by simpa using hi
    have hu' : current.uid ≠ "" := hcur ▸ hu
    rw [← reservationKey_of_uid hcur hu] at he
    refine .quiet (quiet_getOwnedPod r current) fun pod => ?_
    cases pod with
    | some pod => exact .throw _
    | none =>
      have hreceipts : Disciplined (r.releaseReceipts current cm entry) fun _ => True := by
        unfold Reconciler.releaseReceipts
        rw [if_pos hg]
        refine (releaseGenesisPodReceipt_disciplined hg hcm he hc hi).bind fun gone hgone => ?_
        refine .ite (fun h => ?_) fun _ => .pure trivial
        exact releaseGenesisGrantReceipt_disciplined hg hcm he hc hi (hgone h)
      refine hreceipts.attempt (fun gone _ => ?_) fun e => .onConflict hu' (.throw e)
      cases gone with
      | false => exact .pure hu'
      | true =>
        refine (writeReservations_disciplined (hcm.accepted.remove _)).attempt
          (fun _ _ => .pure trivial) fun e => .onConflict hu' (.throw e)

theorem granted_accepted (hx : ∀ text, validReservationHex (r.ext.sha256Hex text) 64)
    (hb : CRDValid build)
    (hs : Admissible r s) (hn : s.active.lookup build.reservationKey = none)
    {nonce : String} (ha : validReservationHex nonce 32)
    (hsat : saturatedAdmission build s r.cfg.maxActiveJobs r.cfg.maxActiveJobsPerRequester
      r.cfg.workerSlots = none)
    (hslots : 1 ≤ slots ∧ s.usedSlots + slots ≤ r.cfg.workerSlots) :
    (r.granted build s (r.grantEntry build s slots nonce)).Accepted := by
  have hcap := capacity_bounds hs.accepted.capacity
  rw [hs.jobs, hs.perRequester, hs.slots] at hcap
  have hfree := saturatedAdmission_none (by omega) (by omega) hsat
  have hused : 0 ≤ s.usedSlots :=
    Finset.sum_nonneg fun key _ =>
      ReservationState.slotsOf_nonneg (ReservationState.validate_ok hs.accepted.validate) key
  set entry := r.grantEntry build s slots nonce with hentry
  have hentry : entry =
      { buildName := build.name, requester := build.requesterKey, slots := slots,
        grantNonce := nonce, grantFence := if s.fence == 0 then 1 else s.fence } := by
    rw [hentry, Reconciler.grantEntry, if_pos hg]
  have hfence : entry.grantFence ≠ 0 := by
    rw [hentry]
    by_cases h0 : s.fence = 0
    · simp [h0]
    · simp [h0]
  have hok : ReservationState.EntryOk s.workerSlots build.reservationKey entry := by
    have hu := hb.uid
    simp only [opaqueUID, Bool.and_eq_true, bne_iff_ne, decide_eq_true_eq] at hu
    have hname := hb.name.2
    simp only [isDNS1123Subdomain, Bool.and_eq_true, decide_eq_true_eq] at hname
    refine ⟨?_, ⟨by rw [hentry]; exact ha, hfence, ?_, ?_, ?_, ?_⟩, ?_⟩
    · have hle : slots ≤ s.workerSlots := by rw [hs.slots]; omega
      simp [ActiveReservation.wellFormed, hentry, hb.reservationKey, hb.requesterKey, hu.1,
        maxReservationUIDBytes, hu.2, hb.name.1, hb.name.2, hname.1, hb.requester.1,
        hb.requester.2, hslots.1, hle]
    all_goals simp [hentry]
    exact ⟨by simp, by simp, by simp, by simp, by simp, by simp⟩
  have hadd := hs.accepted.add hn (by rw [hs.jobs]; exact hfree.1)
    (by rw [hs.slots, hentry]; exact hslots.2)
    (by rw [hs.perRequester, hentry]; exact hfree.2) hok
  exact ⟨hadd.version, hadd.capacity, hadd.jobs, .inr (hx _), hadd.entry, hadd.slots,
    hadd.requester⟩

theorem admission_disciplined (hx : ∀ text, validReservationHex (r.ext.sha256Hex text) 64)
    (hb : CRDValid build) :
    Disciplined (r.admission build) fun _ => True := by
  unfold Reconciler.admission
  rw [if_pos hg]
  refine Disciplined.bind (M := fun a => validReservationHex a 32 = true)
    ⟨trivial, fun _ ha => ha⟩ fun nonce ha => ?_
  refine .retry (fun _ => True) trivial fun n permit _ => .quiet quiet_ctxErr fun _ => ?_
  refine (readReservations_disciplined hg).bind fun cm hcm => ?_
  refine .quiet (quiet_ensureLiveAdmissionBuild r build) fun _ => ?_
  have hended : Disciplined (if (cm.data.active.lookup build.reservationKey).isNone then
        r.admitFresh build cm.data permit else pure none) fun ended =>
      ended = none → cm.data.active.lookup build.reservationKey = none →
        saturatedAdmission build cm.data r.cfg.maxActiveJobs r.cfg.maxActiveJobsPerRequester
          r.cfg.workerSlots = none := by
    refine .ite (fun _ => (admitFresh_disciplined permit).imp fun _ h hn _ => h hn) fun h => ?_
    exact .pure fun _ hn => absurd (by simp [hn]) h
  refine hended.bind fun ended hsat => ?_
  cases ended with
  | some decision => exact .pure trivial
  | none =>
    refine .quiet quiet_listBuilds fun builds => ?_
    refine .quiet (quiet_ensureNoUnreservedRunner r cm.data builds) fun _ => ?_
    cases he : cm.data.active.lookup build.reservationKey with
    | some entry =>
      refine .check fun _ => .check fun _ => ?_
      exact .quiet (quiet_onlyIf (quiet_verifyPinnedGrant r build entry)) fun _ =>
        .pure trivial
    | none =>
      refine .ite (fun _ => .pure trivial) fun hadm => ?_
      have hpos : 0 < r.cfg.workerSlots := by
        have hcap := capacity_bounds hcm.accepted.capacity
        rw [hcm.slots] at hcap
        omega
      have hslots := decideAdmission_slots hpos (by simpa using hadm)
      have hnext := granted_accepted hg hx hb hcm he ha (hsat rfl he) hslots
      refine (writeReservations_disciplined hnext).attempt (fun _ _ => ?_) fun e => ?_
      · rw [hg]
        exact (finishFreshGrant_disciplined hg build _).bind fun _ _ => .pure trivial
      · refine .ite (fun _ => ?_) fun _ => .throw e
        exact .quiet (quiet_waitCAS n) fun _ => .pure trivial

end Genesis

end KovaService.Proof
