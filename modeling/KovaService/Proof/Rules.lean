import KovaService.Protocol.Demand
import KovaService.System.Answers

/-!
Rules for proofs about handlers.

`Does ρ t p i Post Fail`: when thread `t` of the run has `p` left to do at instant `i`, each of its
requests meets the demand of the protocol, a result satisfies `Post` and an error `Fail`, both with
the instant at which `p` ends.  A quiet program only reads, and nothing is demanded of it.
-/

namespace KovaService.Proof

open Lib Api Ledger Protocol KovaService.System

variable {w : World} {α β τ : Type}

def Does (ρ : w.Execution) (t : Nat) (p : K α) (i : Nat) (Post : α → Nat → Prop)
    (Fail : Err → Nat → Prop := fun _ _ => True) : Prop :=
  ρ.wpE (demand ρ) t p i Post Fail

variable {ρ : w.Execution} {t i : Nat} {p : K α} {f : α → K β}
variable {Mid : α → Nat → Prop} {Post : β → Nat → Prop} {Fail Fail' : Err → Nat → Prop}

/-- A round that is the last satisfies `Post`; one that is not leaves the loop's invariant. -/
def roundPost (Post : α → Nat → Prop) (I : τ → Nat → Prop) : Round τ α → Nat → Prop
  | .done a, j => Post a j
  | .again s, j => I s j

variable {c : Bool} {r : Except Err α} {e : Err}

namespace Does

theorem pure {Post : α → Nat → Prop} {a : α} (h : Post a i) :
    Does ρ t (Pure.pure a : K α) i Post Fail := h

theorem throw (h : Fail e i) : Does ρ t (MonadExcept.throw e : K β) i Post Fail := h

theorem mono {Post Post' : α → Nat → Prop} (h : Does ρ t p i Post Fail)
    (hP : ∀ a j, i ≤ j → Post a j → Post' a j) (hF : ∀ e j, i ≤ j → Fail e j → Fail' e j) :
    Does ρ t p i Post' Fail' :=
  Run.wpE_mono h hP hF

theorem imp {Post Post' : α → Nat → Prop} (h : Does ρ t p i Post Fail)
    (hP : ∀ a j, i ≤ j → Post a j → Post' a j) : Does ρ t p i Post' :=
  h.mono hP fun _ _ _ _ => trivial

theorem bind (h : Does ρ t p i Mid Fail') (hf : ∀ a j, i ≤ j → Mid a j → Does ρ t (f a) j Post Fail)
    (hF : ∀ e j, i ≤ j → Fail' e j → Fail e j) : Does ρ t (p >>= f) i Post Fail :=
  Run.wpE_seq h hf hF

theorem andThen (h : Does ρ t p i Mid Fail')
    (hf : ∀ a j, i ≤ j → Mid a j → Does ρ t (f a) j Post) :
    Does ρ t (p >>= f) i Post :=
  h.bind hf fun _ _ _ _ => trivial

theorem attempt {f : Except Err α → K β} (h : Does ρ t p i Mid Fail')
    (hok : ∀ a j, i ≤ j → Mid a j → Does ρ t (f (.ok a)) j Post Fail)
    (herr : ∀ e j, i ≤ j → Fail' e j → Does ρ t (f (.error e)) j Post Fail) :
    Does ρ t (Api.attempt p >>= f) i Post Fail := by
  refine Run.wpE_bind.mpr (Run.wpE_attempt.mpr ?_)
  exact Run.wpE_mono h hok herr

theorem failIf {f : Unit → K β} (hc : c → Fail e i) (h : c = false → Does ρ t (f ()) i Post Fail) :
    Does ρ t (Api.failIf c e >>= f) i Post Fail :=
  Run.wpE_bind.mpr (Run.wpE_failIf.mpr ⟨hc, h⟩)

theorem check {f : Unit → K β} (h : c = false → Does ρ t (f ()) i Post) :
    Does ρ t (Api.failIf c e >>= f) i Post :=
  failIf (fun _ => trivial) h

theorem lastCheck {Post : Unit → Nat → Prop} (h : c = false → Post () i) :
    Does ρ t (Api.failIf c e) i Post :=
  Run.wpE_failIf.mpr ⟨fun _ => trivial, h⟩

theorem ofAns (hF : ∀ e, r = .error e → Fail e i)
    (h : ∀ a, r = .ok a → Does ρ t (f a) i Post Fail) :
    Does ρ t (Api.ofAns r >>= f) i Post Fail := by
  refine Run.wpE_bind.mpr ?_
  cases r with
  | ok a => exact h a rfl
  | error e => exact hF e rfl

theorem decoded (h : ∀ a, r = .ok a → Does ρ t (f a) i Post) :
    Does ρ t (Api.ofAns r >>= f) i Post :=
  ofAns (fun _ _ => trivial) h

theorem answer {Post : α → Nat → Prop} (h : ∀ a, r = .ok a → Post a i) :
    Does ρ t (Api.ofAns r) i Post := by
  cases r with
  | ok a => exact h a rfl
  | error e => exact trivial

theorem onlyIf {p : K Unit} {f : Unit → K β} {Mid : Nat → Prop}
    (hp : c → Does ρ t p i (fun _ => Mid) Fail') (hskip : c = false → Mid i)
    (h : ∀ j, i ≤ j → Mid j → Does ρ t (f ()) j Post) :
    Does ρ t (Api.onlyIf c p >>= f) i Post := by
  cases c with
  | false => exact h i le_rfl (hskip rfl)
  | true => exact (hp rfl).andThen fun _ j hj hm => h j hj hm

theorem ite {Post : α → Nat → Prop} {c : Prop} [Decidable c] {p q : K α}
    (hp : c → Does ρ t p i Post Fail) (hq : ¬ c → Does ρ t q i Post Fail) :
    Does ρ t (if c then p else q) i Post Fail := by
  split
  · next h => exact hp h
  · next h => exact hq h

theorem retry {busy : Err} {body : Nat → τ → K (Round τ β)} {fuel n : Nat} {s : τ}
    (I : τ → Nat → Prop) (hI : I s i)
    (hbody : ∀ n s j, i ≤ j → I s j → Does ρ t (body n s) j (roundPost Post I)) :
    Does ρ t (Api.retry busy body fuel n s) i Post := by
  refine Run.wpE_retry I hI (fun n s j hj hs => ?_) fun _ _ _ _ => trivial
  refine Run.wpE_mono (hbody n s j hj hs) (fun r k _ hr => ?_) fun _ _ _ h => h
  cases r <;> exact hr

end Does

variable {q : Request} {g : Answer q → Except Err α}

theorem Does.request {Post : α → Nat → Prop} (hp : p.run = invoke q >>= fun r => .ret (g r))
    (hG : ∀ j, i ≤ j → ρ.rests t i j → demand ρ j t q)
    (hok : ∀ m r a, i < m → ρ.gets m t q r → g r = .ok a → Post a (m + 1))
    (herr : ∀ m r e, i < m → ρ.gets m t q r → g r = .error e → Fail e (m + 1)) :
    Does ρ t p i Post Fail := by
  unfold Does Run.wpE
  rw [hp, Run.wp_bind]
  refine Run.wp_perform hG fun j m r hj hm _ _ _ hg => ?_
  cases hr : g r with
  | ok a => exact hok m r a (by omega) hg hr
  | error e => exact herr m r e (by omega) hg hr

/-- The requests of which something may be demanded. -/
def Writes (q : Request) : Prop := wired q ∨ ∃ m, q = .mark m

def Quiet (p : K α) : Prop := p.run.Never Writes

/-- Thread `t` only reads from `i` until before `j`. -/
def Calm (ρ : w.Execution) (t i j : Nat) : Prop := ρ.silent t Writes i j

theorem demand_of_not_writes {n : Nat} (h : ¬ Writes q) : demand ρ n t q := by
  cases q <;> first | trivial | simp [Writes, wired] at h

theorem Quiet.does (h : Quiet p) :
    Does ρ t p i (fun _ j => Calm ρ t i j) (fun _ j => Calm ρ t i j) :=
  Run.wpE_mono (Run.wpE_silent h (Run.wpE_of_never h fun _ _ => demand_of_not_writes))
    (fun _ _ _ hp => hp.2) fun _ _ _ hp => hp.2

theorem Does.avoiding {Post : α → Nat → Prop} {P : Request → Prop} (h : Does ρ t p i Post Fail)
    (hp : p.run.Never P) : Does ρ t p i (fun a j => Post a j ∧ ρ.silent t P i j)
      (fun e j => Fail e j ∧ ρ.silent t P i j) :=
  Run.wpE_silent hp h

theorem Does.quietly {Post : α → Nat → Prop} (h : Does ρ t p i Post Fail) (hq : Quiet p) :
    Does ρ t p i (fun a j => Post a j ∧ Calm ρ t i j) (fun e j => Fail e j ∧ Calm ρ t i j) :=
  h.avoiding hq

theorem Does.calmly {Post : α → Nat → Prop} (h : Does ρ t p i Post) (hq : Quiet p) :
    Does ρ t p i (fun a j => Post a j ∧ Calm ρ t i j) :=
  (h.quietly hq).imp fun _ _ _ hP => hP

section Quiet

theorem quiet_bind (hp : Quiet p) (hf : ∀ a, Quiet (f a)) : Quiet (p >>= f) :=
  Fallible.never_bind hp hf

@[simp] theorem quiet_attempt (hp : Quiet p) : Quiet (attempt p) := Fallible.never_attempt hp

@[simp] theorem quiet_throw (e : Err) : Quiet (throw e : K α) := trivial

@[simp] theorem quiet_pure (a : α) : Quiet (pure a : K α) := trivial

@[simp] theorem quiet_failIf (c : Bool) (e : Err) : Quiet (failIf c e) := Fallible.never_failIf c e

@[simp] theorem quiet_ofAns (r : Except Err α) : Quiet (ofAns r) := trivial

@[simp] theorem quiet_onlyIf {p : K Unit} (hp : Quiet p) : Quiet (onlyIf c p) := by
  cases c
  · trivial
  · exact hp

theorem quiet_ite {c : Prop} [Decidable c] {p q : K α} (hp : Quiet p) (hq : Quiet q) :
    Quiet (if c then p else q) := by
  split
  · exact hp
  · exact hq

theorem quiet_forM {l : List τ} {g : τ → K PUnit} (h : ∀ a, Quiet (g a)) : Quiet (l.forM g) := by
  induction l with
  | nil => trivial
  | cons a l ih => exact quiet_bind (h a) fun _ => ih

def passive : Request → Bool
  | .mark _ => false
  | q => !wired q

theorem quiet_request (hp : p.run = invoke q >>= fun r => .ret (g r)) (hq : passive q) :
    Quiet p := by
  have hw : ¬ Writes q := by
    cases q <;> simp_all [Writes, passive]
  unfold Quiet
  rw [hp]
  exact Prog.never_bind (Prog.never_perform hw) fun _ => trivial

@[simp] theorem quiet_getLedger : Quiet getLedger := quiet_request rfl rfl

@[simp] theorem quiet_getQueue : Quiet getQueue := quiet_request rfl rfl

@[simp] theorem quiet_getBuild (name : String) : Quiet (getBuild name) := quiet_request rfl rfl

@[simp] theorem quiet_cachedBuild (name : String) : Quiet (cachedBuild name) := quiet_request rfl rfl

@[simp] theorem quiet_listBuilds : Quiet listBuilds := quiet_request rfl rfl

@[simp] theorem quiet_getPod (name : String) : Quiet (getPod name) := quiet_request rfl rfl

@[simp] theorem quiet_listPods : Quiet listPods := quiet_request rfl rfl

@[simp] theorem quiet_getReceipt (name : String) : Quiet (getReceipt name) := quiet_request rfl rfl

@[simp] theorem quiet_genesisCheck : Quiet genesisCheck := quiet_request rfl rfl

@[simp] theorem quiet_receiptNamespace : Quiet receiptNamespace := quiet_request rfl rfl

@[simp] theorem quiet_execStatus (pod : String) (uid : UID) : Quiet (execStatus pod uid) :=
  quiet_request rfl rfl

@[simp] theorem quiet_execInspect (pod : String) (uid : UID) : Quiet (execInspect pod uid) :=
  quiet_request rfl rfl

@[simp] theorem quiet_execExport (pod : String) (uid : UID) (oci : Bool) :
    Quiet (execExport pod uid oci) := quiet_request rfl rfl

@[simp] theorem quiet_resolve (image digest : String) : Quiet (resolve image digest) :=
  quiet_request rfl rfl

@[simp] theorem quiet_newNonce : Quiet newNonce := quiet_request rfl rfl

@[simp] theorem quiet_newJobID : Quiet newJobID := quiet_request rfl rfl

@[simp] theorem quiet_timeNow : Quiet timeNow := quiet_request rfl rfl

@[simp] theorem quiet_ctxErr : Quiet ctxErr := quiet_request rfl rfl

@[simp] theorem quiet_waitCAS (n : Nat) : Quiet (waitCAS n) := quiet_request rfl rfl

@[simp] theorem quiet_tryBegin : Quiet tryBegin := quiet_request rfl rfl

@[simp] theorem quiet_tryVerificationSlot : Quiet tryVerificationSlot := quiet_request rfl rfl

@[simp] theorem quiet_authorize : Quiet authorize := quiet_request rfl rfl

end Quiet

end KovaService.Proof
