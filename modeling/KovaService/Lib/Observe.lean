import KovaService.Lib.Triple

/-!
Programs that only read, answered along a history of the store.

`A i q r` says that request `q` may be answered by `r` at instant `i`.  The program is answered at one
instant for each of its requests, with any delay in between, and leaves no trace itself: it may be
thought of at any point of any run.  What a thread of a run computes by reading is one such
observation.
-/

namespace KovaService.Lib

variable {Q : Type} {R : Q → Type} {σ C E J α β ε : Type} {p : Prog Q R α}

/-- The program, begun at the first instant, ends at the second one with the result. -/
inductive Observed (A : Nat → (q : Q) → R q → Prop) : Prog Q R α → Nat → α → Nat → Prop
  | ret {a : α} {n m : Nat} (h : n ≤ m) : Observed A (.ret a) n a m
  | call {q : Q} {k : R q → Prog Q R α} {n i m : Nat} {r : R q} {a : α}
      (hi : n ≤ i) (hr : A i q r) (h : Observed A (k r) i a m) : Observed A (.call q k) n a m

def Prog.answeredBy (f : (q : Q) → Option (R q)) : Prog Q R α → Option α
  | .ret a => some a
  | .call q k => (f q).bind fun r => (k r).answeredBy f

variable {a : α}

namespace Observed

variable {A : Nat → (q : Q) → R q → Prop} {n m : Nat}

theorem le (h : Observed A p n a m) : n ≤ m := by
  induction h with
  | ret h => exact h
  | call hi _ _ ih => exact hi.trans ih

theorem since (h : Observed A p n a m) {i : Nat} (hi : i ≤ n) : Observed A p i a m := by
  cases h with
  | ret h => exact .ret (hi.trans h)
  | call hj hr h => exact .call (hi.trans hj) hr h

theorem upTo (h : Observed A p n a m) {j : Nat} (hj : m ≤ j) : Observed A p n a j := by
  induction h with
  | ret h => exact .ret (h.trans hj)
  | call hi hr _ ih => exact .call hi hr (ih hj)

theorem bind_iff {f : α → Prog Q R β} {b : β} :
    Observed A (p >>= f) n b m ↔
      ∃ a i, Observed A p n a i ∧ Observed A (f a) i b m := by
  induction p generalizing n with
  | ret a =>
    refine ⟨fun h => ⟨a, n, .ret le_rfl, h⟩, ?_⟩
    rintro ⟨a', i, h, hf⟩
    cases h with
    | ret h => exact hf.since h
  | call q k ih =>
    constructor
    · intro h
      cases h with
      | call hi hr h =>
        obtain ⟨a, j, hp, hf⟩ := (ih _).mp h
        exact ⟨a, j, .call hi hr hp, hf⟩
    · rintro ⟨a, j, hp, hf⟩
      cases hp with
      | call hi hr h => exact .call hi hr ((ih _).mpr ⟨a, j, h, hf⟩)

theorem perform_iff {q : Q} {r : R q} :
    Observed A (Prog.perform q) n r m ↔ ∃ i, n ≤ i ∧ i ≤ m ∧ A i q r := by
  constructor
  · intro h
    cases h with
    | call hi hr h =>
      cases h with
      | ret hm => exact ⟨_, hi, hm, hr⟩
  · rintro ⟨i, hi, hm, hr⟩
    exact .call hi hr (.ret hm)

theorem of_answered {f : (q : Q) → Option (R q)} (h : p.answeredBy f = some a)
    (hf : ∀ q r, f q = some r → A n q r) : Observed A p n a n := by
  induction p with
  | ret b =>
    cases h
    exact .ret le_rfl
  | call q k ih =>
    obtain ⟨r, hr, hk⟩ := Option.bind_eq_some_iff.mp h
    exact .call le_rfl (hf q r hr) (ih r hk)

end Observed

namespace Fallible

variable (A : Nat → (q : Q) → R q → Prop)

def Returns (p : Fallible Q R ε α) (n : Nat) (a : α) (m : Nat) : Prop :=
  Observed A p.run n (.ok a) m

def Fails (p : Fallible Q R ε α) (n : Nat) (e : ε) (m : Nat) : Prop :=
  Observed A p.run n (.error e) m

variable {A} {n m : Nat} {e : ε} {f : α → Fallible Q R ε β} {p : Fallible Q R ε α}

theorem fails_bind :
    Fails A (p >>= f) n e m ↔
      Fails A p n e m ∨ ∃ a i, Returns A p n a i ∧ Fails A (f a) i e m := by
  unfold Fails Returns
  rw [run_bind, Observed.bind_iff]
  constructor
  · rintro ⟨r, i, hp, hf⟩
    cases r with
    | ok a => exact .inr ⟨a, i, hp, hf⟩
    | error e' =>
      cases hf with
      | ret h => exact .inl (hp.upTo h)
  · rintro (h | ⟨a, i, hp, hf⟩)
    · exact ⟨.error e, m, h, .ret le_rfl⟩
    · exact ⟨.ok a, i, hp, hf⟩

theorem returns_bind {b : β} :
    Returns A (p >>= f) n b m ↔
      ∃ a i, Returns A p n a i ∧ Returns A (f a) i b m := by
  unfold Returns
  rw [run_bind, Observed.bind_iff]
  constructor
  · rintro ⟨r, i, hp, hf⟩
    cases r with
    | ok a => exact ⟨a, i, hp, hf⟩
    | error e => cases hf
  · rintro ⟨a, i, hp, hf⟩
    exact ⟨.ok a, i, hp, hf⟩

theorem returns_pure {b : α} : Returns A (pure a : Fallible Q R ε α) n b m ↔ b = a ∧ n ≤ m := by
  constructor
  · intro h
    cases h with
    | ret h => exact ⟨rfl, h⟩
  · rintro ⟨rfl, h⟩
    exact .ret h

theorem not_fails_pure : ¬ Fails A (pure a : Fallible Q R ε α) n e m := by
  intro h
  cases h

theorem fails_throw {e' : ε} : Fails A (throw e' : Fallible Q R ε α) n e m ↔ e = e' ∧ n ≤ m := by
  constructor
  · intro h
    cases h with
    | ret h => exact ⟨rfl, h⟩
  · rintro ⟨rfl, h⟩
    exact .ret h

theorem fails_failIf {c : Bool} {e' : ε} :
    Fails A (failIf c e' : Fallible Q R ε Unit) n e m ↔ c ∧ e = e' ∧ n ≤ m := by
  cases c with
  | false => exact iff_of_false not_fails_pure fun h => by cases h.1
  | true => exact fails_throw.trans (by simp)

theorem returns_failIf {c : Bool} {e : ε} {u : Unit} :
    Returns A (failIf c e : Fallible Q R ε Unit) n u m ↔ c = false ∧ n ≤ m := by
  cases c with
  | false => exact returns_pure.trans (by simp)
  | true =>
    refine iff_of_false (fun h => ?_) (by simp)
    cases h

theorem fails_forM {l : List β} {f : β → Fallible Q R ε PUnit} (h : Fails A (l.forM f) n e m) :
    ∃ b ∈ l, ∃ i, n ≤ i ∧ Fails A (f b) i e m := by
  induction l generalizing n with
  | nil => exact absurd h not_fails_pure
  | cons b l ih =>
    rcases fails_bind.mp h with h | ⟨_, i, hr, hf⟩
    · exact ⟨b, List.mem_cons_self, n, le_rfl, h⟩
    · obtain ⟨c, hc, j, hij, hj⟩ := ih hf
      exact ⟨c, List.mem_cons_of_mem _ hc, j, (Observed.le hr).trans hij, hj⟩

end Fallible

end KovaService.Lib
