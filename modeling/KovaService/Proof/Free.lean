import KovaService.Proof.Quiet

/-!
Programs of which the protocol demands nothing: they read, delete Pods and builds, and cancel a
runner.
-/

namespace KovaService.Proof

open Lib Api Ledger Protocol KovaService.System Controller

variable {w : World} {ρ : w.Execution} {t i : Nat} {α β τ : Type} {p : K α} {f : α → K β}

def Owing : Request → Prop
  | .deletePod .. | .deleteBuild .. | .execCancel .. => False
  | q => Writes q

variable {q : Request}

theorem Owing.writes (h : Owing q) : Writes q := by
  cases q <;> first | exact h.elim | exact h

theorem demand_of_not_owing {n : Nat} (h : ¬ Owing q) : demand ρ n t q := by
  cases q <;> first | trivial | simp [Owing, Writes, wired] at h

def Free (p : K α) : Prop := p.run.Never Owing

theorem Free.does (h : Free p) : Does ρ t p i (fun _ _ => True) :=
  Run.wpE_of_never h fun _ _ => demand_of_not_owing

@[simp] theorem Quiet.free (h : Quiet p) : Free p := Prog.Never.mono h fun _ => Owing.writes

theorem free_bind (hp : Free p) (hf : ∀ a, Free (f a)) : Free (p >>= f) :=
  Fallible.never_bind hp hf

@[simp] theorem free_attempt (hp : Free p) : Free (attempt p) := Fallible.never_attempt hp

@[simp] theorem free_onlyIf {c : Bool} {p : K Unit} (hp : Free p) : Free (onlyIf c p) := by
  cases c
  · trivial
  · exact hp

theorem free_ite {c : Prop} [Decidable c] {p q : K α} (hp : Free p) (hq : Free q) :
    Free (if c then p else q) := by
  split
  · exact hp
  · exact hq

theorem free_request {g : Answer q → Except Err α} (hp : p.run = invoke q >>= fun r => .ret (g r))
    (hq : ¬ Owing q) : Free p := by
  unfold Free
  rw [hp]
  exact Prog.never_bind (Prog.never_perform hq) fun _ => trivial

@[simp] theorem free_deletePod (name : String) (uid : UID) : Free (deletePod name uid) :=
  free_request rfl fun h => h

@[simp] theorem free_deleteBuild (name : String) (uid : UID) : Free (deleteBuild name uid) :=
  free_request rfl fun h => h

@[simp] theorem free_cancelRunner (build : KovaBuild) : Free (cancelRunner build) :=
  free_request rfl fun h => h

section Status

variable (r : Reconciler) (build : KovaBuild)

@[simp] theorem quiet_finishEffective (phase : Phase) : Quiet (r.finishEffective build phase) := by
  unfold Reconciler.finishEffective
  repeat' first | with_reducible refine quiet_bind ?_ fun _ => ?_ |
    with_reducible refine quiet_ite ?_ ?_ | with_reducible refine quiet_onlyIf ?_
  all_goals simp

@[simp] theorem free_deletePodWithUID (name : String) (uid : UID) :
    Free (r.deletePodWithUID name uid) := by
  unfold Reconciler.deletePodWithUID
  repeat' first | with_reducible refine free_bind ?_ fun _ => ?_ | refine free_ite ?_ ?_ | split
  all_goals simp

@[simp] theorem quiet_observeBuildStatus : Quiet (r.observeBuildStatus build) := by
  unfold Reconciler.observeBuildStatus buildStatus
  repeat' first | with_reducible refine quiet_bind ?_ fun _ => ?_ | refine quiet_ite ?_ ?_
  all_goals simp

@[simp] theorem quiet_genesisPost (oci : Bool) : Quiet (r.genesisPost build oci) := by
  unfold Reconciler.genesisPost postExport
  repeat' first | with_reducible refine quiet_bind ?_ fun _ => ?_ | split
  all_goals simp

@[simp] theorem quiet_exporter (oci : Bool) : Quiet (r.exporter build oci) :=
  quiet_ite (quiet_genesisPost r build oci) (quiet_execExport _ _ oci)

@[simp] theorem quiet_attemptDue : Quiet (Reconciler.attemptDue build) := by
  unfold Reconciler.attemptDue
  repeat' first | with_reducible refine quiet_bind ?_ fun _ => ?_ | refine quiet_ite ?_ ?_
  all_goals simp

end Status

@[simp] theorem quiet_collectReceipts {post : Bool → K Export} (hp : ∀ oci, Quiet (post oci))
    (results : List BuildVerificationResult) : Quiet (collectReceipts post results) := by
  have hof : ∀ format results transient,
      Quiet (collectReceiptsOf post format results transient) := by
    intro format results transient
    unfold collectReceiptsOf
    repeat' first | with_reducible refine quiet_bind ?_ fun _ => ?_ | split
    all_goals simp [hp]
  unfold collectReceipts
  repeat' first | with_reducible refine quiet_bind ?_ fun _ => ?_ | split
  all_goals simp [hof]

@[simp] theorem quiet_verifyReceipts (results : List BuildVerificationResult) (budget : Nat) :
    Quiet (verifyReceipts results budget) := by
  induction results generalizing budget with
  | nil => simp [verifyReceipts]
  | cons v rest ih =>
    unfold verifyReceipts
    repeat' first | with_reducible refine quiet_bind ?_ fun _ => ?_ | split
    all_goals simp [ih]

@[simp] theorem quiet_registryAttempt (results : List BuildVerificationResult)
    (transient : String) : Quiet (Reconciler.registryAttempt results transient) := by
  unfold Reconciler.registryAttempt verifyRemoteReceipts
  repeat' first | with_reducible refine quiet_bind ?_ fun _ => ?_ | split
  all_goals simp

end KovaService.Proof
