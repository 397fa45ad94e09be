import Mathlib.Tactic.Common

/-!
Interaction programs.

A program is a finite tree of calls: each call names a request and continues with any answer the
request may get.  Nothing is said here about who answers; a scheduler that interleaves many such
programs over one shared store is in `KovaService.Lib.Run`.

Besides sequencing the module has the two control structures request handlers are written with: an
early failure, and a bounded retry loop whose body either finishes or asks for another attempt.
`Never` is the purely syntactic fact "no call of this kind".
-/

namespace KovaService.Lib

/-- A program over requests `Q`, where request `q` is answered by a value of `R q`. -/
inductive Prog (Q : Type) (R : Q → Type) (α : Type) where
  | ret (a : α)
  | call (q : Q) (k : R q → Prog Q R α)

namespace Prog

variable {Q : Type} {R : Q → Type} {α β ε τ : Type}

protected def bind : Prog Q R α → (α → Prog Q R β) → Prog Q R β
  | .ret a, f => f a
  | .call q k, f => .call q fun r => (k r).bind f

instance : Monad (Prog Q R) where
  pure := .ret
  bind := Prog.bind

def perform (q : Q) : Prog Q R (R q) :=
  .call q .ret

@[simp] theorem pure_eq (a : α) : (pure a : Prog Q R α) = .ret a := rfl

@[simp] theorem ret_bind (a : α) (f : α → Prog Q R β) : (.ret a : Prog Q R α) >>= f = f a := rfl

@[simp] theorem call_bind (q : Q) (k : R q → Prog Q R α) (f : α → Prog Q R β) :
    (.call q k : Prog Q R α) >>= f = .call q fun r => k r >>= f := rfl

/-- No path of the program issues a request satisfying `P`. -/
def Never (P : Q → Prop) : Prog Q R α → Prop
  | .ret _ => True
  | .call q k => ¬ P q ∧ ∀ r, (k r).Never P

variable {P : Q → Prop} {p : Prog Q R α}

theorem never_bind {f : α → Prog Q R β} (hp : p.Never P) (hf : ∀ a, (f a).Never P) :
    (p >>= f).Never P := by
  induction p with
  | ret a => exact hf a
  | call q k ih => exact ⟨hp.1, fun r => ih r (hp.2 r)⟩

theorem Never.mono {P' : Q → Prop} (h : p.Never P) (hP : ∀ q, P' q → P q) : p.Never P' := by
  induction p with
  | ret a => trivial
  | call q k ih => exact ⟨fun hq => h.1 (hP q hq), fun r => ih r (h.2 r)⟩

theorem never_perform {q : Q} (h : ¬ P q) : (perform q : Prog Q R (R q)).Never P :=
  ⟨h, fun _ => trivial⟩

end Prog

/-- Programs that may fail with an error of type `ε`. -/
abbrev Fallible (Q : Type) (R : Q → Type) (ε : Type) : Type → Type :=
  ExceptT ε (Prog Q R)

/-- What one round of a retry loop decides: finish, or try again from a new loop state. -/
inductive Round (τ α : Type) where
  | done (a : α)
  | again (s : τ)

namespace Fallible

variable {Q : Type} {R : Q → Type} {α β ε τ : Type}

def attempt (p : Fallible Q R ε α) : Fallible Q R ε (Except ε α) :=
  ExceptT.mk (p.run >>= fun r => pure (.ok r))

def failIf (c : Bool) (e : ε) : Fallible Q R ε Unit :=
  if c then throw e else pure ()

def lift (p : Prog Q R α) : Fallible Q R ε α :=
  ExceptT.mk (p >>= fun a => .ret (.ok a))

/-- At most `fuel` rounds of `body`, numbered from `n`; `busy` when every round asks for another. -/
def retry (busy : ε) (body : Nat → τ → Fallible Q R ε (Round τ α)) :
    (fuel n : Nat) → τ → Fallible Q R ε α
  | 0, _, _ => throw busy
  | fuel + 1, n, s => do
    match ← body n s with
    | .done a => pure a
    | .again s' => retry busy body fuel (n + 1) s'

variable {p : Fallible Q R ε α}

section Calls

variable {P : Q → Prop}

theorem run_bind (p : Fallible Q R ε α) (f : α → Fallible Q R ε β) :
    (p >>= f).run = p.run >>= fun r => match r with
      | .ok a => (f a).run
      | .error e => .ret (.error e) := by
  change Prog.bind p.run (ExceptT.bindCont f) = Prog.bind p.run _
  congr 1
  funext r
  cases r <;> rfl

@[simp] theorem run_attempt (p : Fallible Q R ε α) :
    p.attempt.run = p.run >>= fun r => .ret (.ok r) := rfl

@[simp] theorem run_lift (p : Prog Q R α) :
    (lift p : Fallible Q R ε α).run = p >>= fun a => .ret (.ok a) := rfl

@[simp] theorem run_throw (e : ε) : (throw e : Fallible Q R ε α).run = .ret (.error e) := rfl

@[simp] theorem run_pure (a : α) : (pure a : Fallible Q R ε α).run = .ret (.ok a) := rfl

@[simp] theorem run_failIf (c : Bool) (e : ε) :
    (failIf c e : Fallible Q R ε Unit).run = .ret (if c then .error e else .ok ()) := by
  cases c <;> rfl

theorem never_bind {f : α → Fallible Q R ε β} (hp : p.run.Never P) (hf : ∀ a, (f a).run.Never P) :
    (p >>= f).run.Never P := by
  rw [run_bind]
  refine Prog.never_bind hp fun r => ?_
  cases r with
  | ok a => exact hf a
  | error e => trivial

theorem never_attempt (hp : p.run.Never P) : p.attempt.run.Never P :=
  Prog.never_bind hp fun _ => trivial

theorem never_lift {p : Prog Q R α} (hp : p.Never P) : (lift p : Fallible Q R ε α).run.Never P :=
  Prog.never_bind hp fun _ => trivial

theorem never_throw (e : ε) : (throw e : Fallible Q R ε α).run.Never P := trivial

theorem never_pure (a : α) : (pure a : Fallible Q R ε α).run.Never P := trivial

theorem never_failIf (c : Bool) (e : ε) : (failIf c e : Fallible Q R ε Unit).run.Never P := by
  rw [run_failIf]; trivial

end Calls

end Fallible

end KovaService.Lib
