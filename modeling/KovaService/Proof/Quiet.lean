import KovaService.Proof.Rules

/-!
The functions of the service that only read.
-/

namespace KovaService.Proof

open Lib Api Ledger Protocol KovaService.System Controller

variable {α : Type}

variable {p : K α}

@[simp] theorem quiet_observe (hp : Quiet p) : Quiet (observe p) := by
  unfold observe
  repeat' first | with_reducible refine quiet_bind ?_ fun _ => ?_ | split
  all_goals simp [hp]

@[simp] theorem quiet_observedRead {c : Bool} (hp : Quiet p) : Quiet (observedRead c p) :=
  quiet_bind (quiet_onlyIf quiet_ctxErr) fun _ => hp

theorem quiet_classifyLedgerPatchError {D : Type} [DecidableEq D] {role : Role D}
    {get : K (Stored D)} (hg : Quiet get) (cm : Stored D) (e : Err) :
    Quiet (role.classifyLedgerPatchError genesisCheck get cm e) := by
  unfold Role.classifyLedgerPatchError
  repeat' first | with_reducible refine quiet_bind ?_ fun _ => ?_ | split
  all_goals simp [hg]

section Store

variable (s : Queue.Store) (observed : Bool)

@[simp] theorem quiet_readWith : Quiet (s.readWith observed) := by
  unfold Queue.Store.readWith
  repeat' with_reducible refine quiet_bind ?_ fun _ => ?_
  all_goals simp

@[simp] theorem quiet_read : Quiet s.read := quiet_readWith s false

@[simp] theorem quiet_lookupWith (id : String) : Quiet (s.lookupWith observed id) :=
  quiet_bind (quiet_readWith s observed) fun _ => quiet_pure _

@[simp] theorem quiet_lookup (id : String) : Quiet (s.lookup id) := quiet_lookupWith s false id

@[simp] theorem quiet_checkReceiptNamespaceWith : Quiet (s.checkReceiptNamespaceWith observed) :=
  quiet_bind (quiet_failIf _ _) fun _ => quiet_observedRead quiet_receiptNamespace

@[simp] theorem quiet_checkReceiptNamespace : Quiet s.checkReceiptNamespace :=
  quiet_checkReceiptNamespaceWith s false

@[simp] theorem quiet_observePinnedReceiptWith (build : KovaBuild) (entry : Intent) :
    Quiet (s.observePinnedReceiptWith observed build entry) := by
  unfold Queue.Store.observePinnedReceiptWith
  repeat' first | with_reducible refine quiet_bind ?_ fun _ => ?_ | split
  all_goals simp

@[simp] theorem quiet_verifyForBuildWith (build : KovaBuild) :
    Quiet (s.verifyForBuildWith observed build) := by
  unfold Queue.Store.verifyForBuildWith
  repeat' first | with_reducible refine quiet_bind ?_ fun _ => ?_ | refine quiet_ite ?_ ?_ | split
  all_goals simp

@[simp] theorem quiet_verifyForBuild (build : KovaBuild) : Quiet (s.verifyForBuild build) :=
  quiet_bind (quiet_verifyForBuildWith s false build) fun _ => quiet_pure _

end Store

theorem never_recordOnce {P : Request → Prop} (hP : ∀ q, P q → Writes q)
    (hr : ∀ r, ¬ P (.createReceipt r)) (x : Ext) (data : ReceiptData) :
    (recordOnce x data).run.Never P := by
  unfold recordOnce
  refine Fallible.never_bind trivial fun expected => ?_
  refine Fallible.never_bind (Fallible.never_lift (Prog.never_perform (hr expected))) fun c => ?_
  have hq : ∀ {β : Type} {p : K β}, Quiet p → p.run.Never P := fun h => Prog.Never.mono h hP
  refine Fallible.never_bind (hq (quiet_attempt (quiet_getReceipt _))) fun a => hq ?_
  unfold checkCreated
  repeat' first | with_reducible refine quiet_bind ?_ fun _ => ?_ | split
  all_goals simp

section Reconciler

variable (r : Reconciler) (build : KovaBuild) (entry : ActiveReservation) (observed : Bool)

@[simp] theorem quiet_readLedger : Quiet r.readLedger := by
  unfold Reconciler.readLedger
  repeat' first | with_reducible refine quiet_bind ?_ fun _ => ?_ | split
  all_goals simp

@[simp] theorem quiet_readReservationsWith : Quiet (r.readReservationsWith observed) := by
  unfold Reconciler.readReservationsWith
  repeat' with_reducible refine quiet_bind ?_ fun _ => ?_
  all_goals simp

@[simp] theorem quiet_readReservations : Quiet r.readReservations :=
  quiet_readReservationsWith r false

@[simp] theorem quiet_ensureLiveAdmissionBuild : Quiet (r.ensureLiveAdmissionBuild build) :=
  quiet_bind (quiet_getBuild _) fun _ => quiet_failIf _ _

@[simp] theorem quiet_getOwnedPod : Quiet (r.getOwnedPod build) := by
  unfold Reconciler.getOwnedPod
  repeat' first | with_reducible refine quiet_bind ?_ fun _ => ?_ | split
  all_goals simp

@[simp] theorem quiet_checkGrantReceiptNamespaceWith :
    Quiet (r.checkGrantReceiptNamespaceWith observed) :=
  quiet_bind (quiet_failIf _ _) fun _ => quiet_checkReceiptNamespaceWith _ observed

@[simp] theorem quiet_checkGrantReceiptNamespace : Quiet r.checkGrantReceiptNamespace :=
  quiet_checkGrantReceiptNamespaceWith r false

@[simp] theorem quiet_grantIntentWith (build : KovaBuild) (grant : ActiveReservation) :
    Quiet (r.grantIntentWith observed build grant) := by
  unfold Reconciler.grantIntentWith
  repeat' first | with_reducible refine quiet_bind ?_ fun _ => ?_ | split
  all_goals simp

@[simp] theorem quiet_observeEffect (data : ReceiptData) : Quiet (r.observeEffect data) := by
  unfold Reconciler.observeEffect
  repeat' first | with_reducible refine quiet_bind ?_ fun _ => ?_ | split
  all_goals simp

@[simp] theorem quiet_dropped (hp : Quiet p) : Quiet (do let _ ← attempt p : K PUnit) :=
  quiet_bind (quiet_attempt hp) fun _ => quiet_pure _

@[simp] theorem quiet_podIntentWith (build : KovaBuild) (entry : ActiveReservation) :
    Quiet (r.podIntentWith observed build entry) := by
  unfold Reconciler.podIntentWith
  repeat' first | with_reducible refine quiet_bind ?_ fun _ => ?_ | split
  all_goals simp

@[simp] theorem quiet_grantSlot_data : Quiet (Reconciler.grantSlot.data r observed build entry) :=
  quiet_bind (quiet_grantIntentWith r observed build entry) fun _ => quiet_pure _

@[simp] theorem quiet_podSlot_data : Quiet (Reconciler.podSlot.data r observed build entry) :=
  quiet_bind (quiet_podIntentWith r observed build entry) fun _ => quiet_pure _

theorem quiet_observeReceiptWith {x : Reconciler.ReceiptSlot}
    (hx : Quiet (x.data r true build entry)) : Quiet (r.observeReceiptWith build entry x) := by
  unfold Reconciler.observeReceiptWith
  repeat' with_reducible refine quiet_bind ?_ fun _ => ?_
  all_goals simp [hx]

@[simp] theorem quiet_observeGrantReceipt : Quiet (r.observeGrantReceipt build entry) :=
  quiet_observe (quiet_observeReceiptWith r build entry (quiet_grantSlot_data r build entry true))

@[simp] theorem quiet_observePodReceipt : Quiet (r.observePodReceipt build entry) :=
  quiet_observe (quiet_observeReceiptWith r build entry (quiet_podSlot_data r build entry true))

theorem quiet_verifyPinnedReceiptWith {x : Reconciler.ReceiptSlot} (allowClosing : Bool)
    (hx : Quiet (x.data r true build entry)) :
    Quiet (r.verifyPinnedReceiptWith build entry x allowClosing) := by
  have h := quiet_observeReceiptWith r build entry hx
  unfold Reconciler.verifyPinnedReceiptWith
  repeat' first | with_reducible refine quiet_bind ?_ fun _ => ?_ | refine quiet_ite ?_ ?_
  all_goals simp [h]

@[simp] theorem quiet_verifyPinnedGrantWith : Quiet (r.verifyPinnedGrantWith build entry) :=
  quiet_verifyPinnedReceiptWith r build entry false (quiet_grantSlot_data r build entry true)

@[simp] theorem quiet_verifyPinnedGrant : Quiet (r.verifyPinnedGrant build entry) :=
  quiet_observe (quiet_verifyPinnedGrantWith r build entry)

@[simp] theorem quiet_verifyPinnedGrantForCleanup :
    Quiet (r.verifyPinnedGrantForCleanup build entry) :=
  quiet_bind (quiet_observeGrantReceipt r build entry) fun _ => quiet_failIf _ _

@[simp] theorem quiet_verifyPinnedPodReceiptWith (allowClosing : Bool) :
    Quiet (r.verifyPinnedPodReceiptWith build entry allowClosing) :=
  quiet_verifyPinnedReceiptWith r build entry allowClosing (quiet_podSlot_data r build entry true)

@[simp] theorem quiet_verifyPinnedPodReceipt (allowClosing : Bool) :
    Quiet (r.verifyPinnedPodReceipt build entry allowClosing) :=
  quiet_observe (quiet_verifyPinnedPodReceiptWith r build entry allowClosing)

theorem quiet_freshReceipt {x : Reconciler.ReceiptSlot} (hx : Quiet (x.data r true build entry)) :
    Quiet (r.freshReceipt build entry x) := by
  unfold Reconciler.freshReceipt
  repeat' with_reducible refine quiet_bind ?_ fun _ => ?_
  all_goals simp [hx]

theorem quiet_readAttempt {lost : String} {changed : ActiveReservation → Bool}
    {verify : ActiveReservation → K Unit} (h : ∀ e, Quiet (verify e)) :
    Quiet (r.readAttempt build lost changed verify) := by
  unfold Reconciler.readAttempt
  repeat' first | with_reducible refine quiet_bind ?_ fun _ => ?_ | split
  all_goals simp [h]

@[simp] theorem quiet_freshIssueRecorded (issued : ActiveReservation) :
    Quiet (r.freshIssueRecorded build issued) := by
  unfold Reconciler.freshIssueRecorded
  repeat' first | with_reducible refine quiet_bind ?_ fun _ => ?_ | split
  all_goals simp

@[simp] theorem quiet_qualifyGenesisPodWith (build : KovaBuild) (pod : Option Pod)
    (allowClosing : Bool) : Quiet (r.qualifyGenesisPodWith observed build pod allowClosing) := by
  unfold Reconciler.qualifyGenesisPodWith
  repeat' first | with_reducible refine quiet_bind ?_ fun _ => ?_ | split
  all_goals simp

@[simp] theorem quiet_qualifyGenesisPod (pod : Option Pod) (allowClosing : Bool) :
    Quiet (r.qualifyGenesisPod build pod allowClosing) :=
  quiet_qualifyGenesisPodWith r false build pod allowClosing

@[simp] theorem quiet_podCreateAttemptRecorded (attempted : String) :
    Quiet (r.podCreateAttemptRecorded build attempted) := by
  unfold Reconciler.podCreateAttemptRecorded
  repeat' first | with_reducible refine quiet_bind ?_ fun _ => ?_ | split
  all_goals simp

@[simp] theorem quiet_reservationCovered (s : ReservationState) (build : KovaBuild) :
    Quiet (r.reservationCovered s build) := by
  unfold Reconciler.reservationCovered
  repeat' first | with_reducible refine quiet_bind ?_ fun _ => ?_ | split
  all_goals simp

@[simp] theorem quiet_ensureNoUnreservedRunner (s : ReservationState) (builds : List KovaBuild) :
    Quiet (r.ensureNoUnreservedRunner s builds) := by
  unfold Reconciler.ensureNoUnreservedRunner
  refine quiet_bind (quiet_forM fun build => ?_) fun _ =>
    quiet_bind quiet_listPods fun pods => quiet_forM fun pod => ?_
  all_goals repeat' first | with_reducible refine quiet_bind ?_ fun _ => ?_ | split
  all_goals simp

@[simp] theorem quiet_admitFresh (s : ReservationState) (permit : Bool) :
    Quiet (r.admitFresh build s permit) := by
  unfold Reconciler.admitFresh
  repeat' first | with_reducible refine quiet_bind ?_ fun _ => ?_ | split
  all_goals simp

@[simp] theorem quiet_stampGenesisPod (pod : Pod) (attempted : String) :
    Quiet (r.stampGenesisPod build pod attempted) := by
  unfold Reconciler.stampGenesisPod
  repeat' first | with_reducible refine quiet_bind ?_ fun _ => ?_ | split
  all_goals simp

@[simp] theorem quiet_directGenesisWitnessWith (build : KovaBuild) :
    Quiet (r.directGenesisWitnessWith observed build) := by
  unfold Reconciler.directGenesisWitnessWith
  repeat' first | with_reducible refine quiet_bind ?_ fun _ => ?_ | split
  all_goals simp

@[simp] theorem quiet_directGenesisWitness : Quiet (r.directGenesisWitness build) :=
  quiet_directGenesisWitnessWith r false build

@[simp] theorem quiet_directGenesisChargeWith (build : KovaBuild) :
    Quiet (r.directGenesisChargeWith observed build) := by
  unfold Reconciler.directGenesisChargeWith
  repeat' first | with_reducible refine quiet_bind ?_ fun _ => ?_ | split
  all_goals simp

@[simp] theorem quiet_directGenesisCharge : Quiet (r.directGenesisCharge build) :=
  quiet_directGenesisChargeWith r false build

@[simp] theorem quiet_stopEffective (reason : String) : Quiet (r.stopEffective build reason) := by
  unfold Reconciler.stopEffective
  repeat' first | with_reducible refine quiet_bind ?_ fun _ => ?_ | split
  all_goals simp

end Reconciler

end KovaService.Proof
