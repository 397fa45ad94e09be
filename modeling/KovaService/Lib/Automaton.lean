import Mathlib.Logic.Relation

/-!
Automata that take one action at a time, and the states they reach.

`allowed` restricts the actions by the state they are taken in, so that one rule serves both for all
runs and for the runs that meet a condition at every step.
-/

namespace KovaService.Lib

structure Automaton (σ α β : Type) where
  init : σ
  step : σ → α → Option (σ × β)

namespace Automaton

variable {σ α β : Type} (M : Automaton σ α β) (allowed : σ → α → Prop)

def Next (s s' : σ) : Prop := ∃ a r, allowed s a ∧ M.step s a = some (s', r)

def Steps : σ → σ → Prop := Relation.ReflTransGen (M.Next allowed)

def Reachable (s : σ) : Prop := M.Steps allowed M.init s

variable {M allowed} {P : σ → Prop}

theorem Steps.keep {s s' : σ} (h : M.Steps allowed s s') (hs : P s)
    (step : ∀ s a s' r, P s → allowed s a → M.step s a = some (s', r) → P s') : P s' := by
  induction h with
  | refl => exact hs
  | tail _ hstep ih =>
    obtain ⟨a, r, ha, he⟩ := hstep
    exact step _ a _ r ih ha he

theorem Reachable.invariant {s : σ} (h : M.Reachable allowed s) (h₀ : P M.init)
    (step : ∀ s a s' r, P s → allowed s a → M.step s a = some (s', r) → P s') : P s :=
  Steps.keep h h₀ step

variable (M)

/-- The state after a list of actions, where all of them can be taken and pass the test. -/
def after (ok : σ → α → Bool) (s : σ) : List α → Option σ
  | [] => some s
  | a :: as => if ok s a then (M.step s a).bind fun p => after ok p.1 as else none

variable {M}

theorem steps_of_after {ok : σ → α → Bool} {s s' : σ} {as : List α} (h : M.after ok s as = some s')
    (hok : ∀ s a, ok s a → allowed s a) :
    M.Steps allowed s s' := by
  induction as generalizing s with
  | nil =>
    cases h
    exact Relation.ReflTransGen.refl
  | cons a as ih =>
    unfold after at h
    split at h
    · next ha =>
      obtain ⟨⟨s₁, r⟩, hs, hrest⟩ := Option.bind_eq_some_iff.mp h
      exact Relation.ReflTransGen.head ⟨a, r, hok s a ha, hs⟩ (ih hrest)
    · cases h

variable (M) in
/-- An infinite run, with what was done and answered at every instant. -/
structure Run where
  state : Nat → σ
  action : Nat → α
  answer : Nat → β
  zero : state 0 = M.init
  step : ∀ n, M.step (state n) (action n) = some (state (n + 1), answer n)

theorem Run.invariant (r : M.Run) (h₀ : P M.init)
    (step : ∀ s a s' b, P s → M.step s a = some (s', b) → P s') (n : Nat) : P (r.state n) := by
  induction n with
  | zero => exact r.zero ▸ h₀
  | succ n ih => exact step _ _ _ _ ih (r.step n)

end Automaton

end KovaService.Lib
