import Mathlib.Tactic.Common
import Mathlib.Order.Monotone.Basic

/-!
Values that change over discrete time.

A versioned register moves its version forward whenever its value changes.  Two instants with the
same version therefore have the same value, and nothing happened in between: this is all that a
compare-and-swap on the version checks, and all that is needed of it.
-/

namespace KovaService.Lib

/-- The version grows with every change of the value. -/
structure Versioned {α : Type} (value : Nat → α) (version : Nat → Nat) : Prop where
  step : ∀ n, value (n + 1) = value n ∧ version (n + 1) = version n ∨ version n < version (n + 1)

namespace Versioned

variable {α : Type} {value : Nat → α} {version : Nat → Nat}

theorem mono (h : Versioned value version) {m n : Nat} (hmn : m ≤ n) : version m ≤ version n := by
  refine monotone_nat_of_le_succ (fun k => ?_) hmn
  rcases h.step k with ⟨-, he⟩ | hlt
  · exact he.ge
  · exact hlt.le

/-- The swap succeeds only where nothing was written since the read. -/
theorem eq_of_version_eq (h : Versioned value version) {m k n : Nat} (hmk : m ≤ k) (hkn : k ≤ n)
    (he : version n = version m) : value k = value m ∧ version k = version m := by
  induction hmk with
  | refl => exact ⟨rfl, rfl⟩
  | @step k hk ih =>
    obtain ⟨hv, hr⟩ := ih (Nat.le_of_succ_le hkn)
    rcases h.step k with ⟨hv', hr'⟩ | hlt
    · exact ⟨hv'.trans hv, hr'.trans hr⟩
    · have hle : version (k + 1) ≤ version n := h.mono hkn
      omega

end Versioned

theorem exists_last_instant {P : Nat → Prop} {m n : Nat} (hmn : m ≤ n) (hm : P m) (hn : ¬ P n) :
    ∃ k, m ≤ k ∧ k < n ∧ P k ∧ ¬ P (k + 1) := by
  induction hmn with
  | refl => exact absurd hm hn
  | @step k hk ih =>
    by_cases hp : P k
    · exact ⟨k, hk, Nat.lt_succ_self k, hp, hn⟩
    · obtain ⟨j, hj, hjk, h⟩ := ih hp
      exact ⟨j, hj, Nat.lt_succ_of_lt hjk, h⟩

end KovaService.Lib
