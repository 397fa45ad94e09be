import Mathlib.Tactic
import KovaService.Lib.Run

/-!
Reasoning about runs.

Everything that happens is stated about fixed instants of one run: `sends`, `gets` and `takesEffect`
say which thread sends, which answer it receives, and when a wired request acts on the store.

Facts about past instants stay true whatever other threads do, which is what makes them usable as
evidence in `KovaService.Lib.Triple`.
-/

namespace KovaService.Lib

variable {Q : Type} {R : Q → Type} {σ C E J α β ε τ : Type} {q : Q} {r : R q}

/-- The step function, inverted: every way one instant can lead to the next. -/
inductive Semantics.Steps (S : Semantics Q R σ C E J) (m : Machine Q R σ) :
    Label C E J → Machine Q R σ → Prop where
  | spawn {t j} (h : m.threads t = .idle) : S.Steps m (.spawn t j)
      { m with threads := Function.update m.threads t (.ready (S.job j)) }
  | send {t q k} (h : m.threads t = .ready (.call q k)) : S.Steps m (.send t)
      { m with
        wire := if S.wired q then (m.fresh, q) :: m.wire else m.wire
        fresh := m.fresh + 1
        threads := Function.update m.threads t (.waiting m.fresh q k) }
  | read {t id q k c s r} (h : m.threads t = .waiting id q k) (hw : S.wired q = false)
      (hr : S.reply m.store q c = some (s, r)) : S.Steps m (.answer t c)
      { m with store := s, threads := Function.update m.threads t (.ready (k r)) }
  | answer {t id q q' k c s r} (h : m.threads t = .waiting id q k) (hw : S.wired q = true)
      (hm : (id, q') ∈ m.wire) (hr : S.reply m.store q c = some (s, r)) : S.Steps m (.answer t c)
      { m with
        store := s
        wire := m.wire.filter fun x => x.1 != id
        threads := Function.update m.threads t (.ready (k r)) }
  | lose {t id q k c r} (h : m.threads t = .waiting id q k) (hw : S.wired q = true)
      (hr : S.lost q c = some r) : S.Steps m (.lose t c)
      { m with threads := Function.update m.threads t (.ready (k r)) }
  | serve {id q c s r} (hm : (id, q) ∈ m.wire) (hr : S.reply m.store q c = some (s, r)) :
      S.Steps m (.serve id c) { m with store := s, wire := m.wire.filter fun x => x.1 != id }
  | again {id q c s r} (hm : (id, q) ∈ m.wire) (hq : S.repeatable q = true)
      (hr : S.reply m.store q c = some (s, r)) : S.Steps m (.again id c) { m with store := s }
  | crash {t} : S.Steps m (.crash t) { m with threads := Function.update m.threads t .over }
  | env {e s} (he : S.env m.store e = some s) : S.Steps m (.env e) { m with store := s }
  | stutter : S.Steps m .stutter m

variable {S : Semantics Q R σ C E J}

theorem Semantics.steps_of_step {m m' : Machine Q R σ} {l : Label C E J}
    (h : S.step m l = some m') : S.Steps m l m' := by
  cases l with
  | spawn t j =>
    simp only [Semantics.step] at h
    split at h
    · next ht => cases h; exact .spawn ht
    · cases h
  | send t =>
    simp only [Semantics.step] at h
    split at h
    · next ht => cases h; exact .send ht
    · cases h
  | answer t c =>
    simp only [Semantics.step] at h
    split at h
    · next id q k ht =>
      split at h
      · cases h
      next hg =>
      split at h
      · next s r hr =>
        cases h
        cases hw : S.wired q with
        | false => simpa [hw] using Steps.read (S := S) ht hw hr
        | true =>
          simp only [hw, Bool.true_and, Bool.not_eq_true', Bool.not_eq_false,
            List.any_eq_true, beq_iff_eq] at hg
          obtain ⟨⟨id', q'⟩, hm, hid⟩ := hg
          cases hid
          simpa [hw] using Steps.answer (S := S) ht hw hm hr
      · cases h
    · cases h
  | lose t c =>
    simp only [Semantics.step] at h
    split at h
    · next ht =>
      split at h
      · next hw =>
        split at h
        · next hr => cases h; exact .lose ht hw hr
        · cases h
      · cases h
    · cases h
  | serve id c =>
    simp only [Semantics.step] at h
    split at h
    · next id' q hf =>
      have hid : id' = id := by simpa using List.find?_some hf
      cases hid
      split at h
      · next hr => cases h; exact .serve (List.mem_of_find?_eq_some hf) hr
      · cases h
    · cases h
  | again id c =>
    simp only [Semantics.step] at h
    split at h
    · next id' q hf =>
      have hid : id' = id := by simpa using List.find?_some hf
      cases hid
      split at h
      · next hq =>
        split at h
        · next hr => cases h; exact .again (List.mem_of_find?_eq_some hf) hq hr
        · cases h
      · cases h
    · cases h
  | crash t => cases h; exact .crash
  | env e =>
    simp only [Semantics.step] at h
    split at h
    · next he => cases h; exact .env he
    · cases h
  | stutter => cases h; exact .stutter

def Label.actor : Label C E J → Option Nat
  | .spawn t _ | .send t | .answer t _ | .lose t _ | .crash t => some t
  | .serve _ _ | .again _ _ | .env _ | .stutter => none

variable {t : Nat}

theorem Semantics.Steps.threads_of_actor_ne {m m' : Machine Q R σ} {l : Label C E J}
    (h : S.Steps m l m') (ht : l.actor ≠ some t) :
    m'.threads t = m.threads t := by
  cases h <;> simp only [Label.actor, ne_eq, Option.some.injEq, reduceCtorEq] at ht <;>
    first
    | rfl
    | exact Function.update_of_ne (Ne.symm ht) _ _

namespace Run

variable {S : Semantics Q R σ C E J} {s₀ : σ} (ρ : Run S s₀)

/-- Thread `t` sends request `q` at instant `n`. -/
def sends (n t : Nat) (q : Q) : Prop :=
  ρ.label n = .send t ∧ ∃ k, (ρ.state n).threads t = .ready (.call q k)

def gets (n t : Nat) (q : Q) (r : R q) : Prop :=
  ∃ id k c, (ρ.state n).threads t = .waiting id q k ∧
    ((ρ.label n = .answer t c ∧ (S.wired q → (id, q) ∈ (ρ.state n).wire) ∧
        S.reply (ρ.state n).store q c = some ((ρ.state (n + 1)).store, r)) ∨
      (ρ.label n = .lose t c ∧ S.wired q ∧ S.lost q c = some r))

/-- At instant `n` the wired request `q` with wire number `id` acts on the store, leaving the
wire unless it may be repeated. -/
def takesEffect (n id : Nat) (q : Q) (c : C) (r : R q) : Prop :=
  (id, q) ∈ (ρ.state n).wire ∧
    S.reply (ρ.state n).store q c = some ((ρ.state (n + 1)).store, r) ∧
    (S.repeatable q = false → ∀ q', (id, q') ∉ (ρ.state (n + 1)).wire)

/-- Request `q` acts on the store at instant `n`: a wired request arrives, or another is answered. -/
def acts (n : Nat) (q : Q) : Prop :=
  (∃ id c r, ρ.takesEffect n id q c r) ∨ S.wired q = false ∧ ∃ t r, ρ.gets n t q r

abbrev store (n : Nat) : σ := (ρ.state n).store

theorem steps (n : Nat) : S.Steps (ρ.state n) (ρ.label n) (ρ.state (n + 1)) :=
  Semantics.steps_of_step (ρ.step n)

theorem fresh_le_succ (n : Nat) : (ρ.state n).fresh ≤ (ρ.state (n + 1)).fresh := by
  have h := ρ.steps n
  generalize ρ.state (n + 1) = m' at h
  generalize ρ.label n = l at h
  cases h <;> simp

variable {n : Nat}

theorem fresh_mono {i : Nat} (h : i ≤ n) : (ρ.state i).fresh ≤ (ρ.state n).fresh := by
  induction h with
  | refl => exact le_rfl
  | step _ ih => exact ih.trans (ρ.fresh_le_succ _)

variable {ρ}

theorem sends.fresh (h : ρ.sends n t q) : (ρ.state (n + 1)).fresh = (ρ.state n).fresh + 1 := by
  obtain ⟨hl, k, hk⟩ := h
  have hs := ρ.steps n
  rw [hl] at hs
  generalize ρ.state (n + 1) = m' at hs
  cases hs
  rfl

variable {q' : Q}

theorem sends.instant_unique {n' t' : Nat} (h : ρ.sends n t q) (h' : ρ.sends n' t' q')
    (he : (ρ.state n).fresh = (ρ.state n').fresh) : n = n' := by
  by_contra hne
  rcases Nat.lt_or_gt_of_ne hne with hlt | hlt
  · have hle : (ρ.state (n + 1)).fresh ≤ (ρ.state n').fresh := ρ.fresh_mono hlt
    rw [h.fresh] at hle
    omega
  · have hle : (ρ.state (n' + 1)).fresh ≤ (ρ.state n).fresh := ρ.fresh_mono hlt
    rw [h'.fresh] at hle
    omega

theorem sends.unique {t' : Nat} (h : ρ.sends n t q) (h' : ρ.sends n t' q') : t = t' ∧ q = q' := by
  obtain ⟨hl, k, hk⟩ := h
  obtain ⟨hl', k', hk'⟩ := h'
  rw [hl] at hl'
  cases hl'
  rw [hk] at hk'
  cases hk'
  exact ⟨rfl, rfl⟩

variable (ρ)

theorem wire_sent (n : Nat) : ∀ id q, (id, q) ∈ (ρ.state n).wire →
    S.wired q ∧ ∃ j t, j < n ∧ ρ.sends j t q ∧ (ρ.state j).fresh = id := by
  induction n with
  | zero => simp [ρ.zero, Semantics.start]
  | succ n ih =>
    intro id q hq
    have old : (id, q) ∈ (ρ.state n).wire →
        S.wired q ∧ ∃ j t, j < n + 1 ∧ ρ.sends j t q ∧ (ρ.state j).fresh = id := by
      intro h
      obtain ⟨hw, j, t, hj, hs⟩ := ih id q h
      exact ⟨hw, j, t, Nat.lt_succ_of_lt hj, hs⟩
    have hs := ρ.steps n
    generalize hm' : ρ.state (n + 1) = m' at hs hq
    generalize hl : ρ.label n = l at hs
    cases hs with
    | @send t q' k h =>
      by_cases hw : S.wired q' = true
      · simp only [hw, if_true, List.mem_cons, Prod.mk.injEq] at hq
        rcases hq with ⟨hid, rfl⟩ | hq
        · exact ⟨hw, n, t, Nat.lt_succ_self n, ⟨hl, k, h⟩, hid.symm⟩
        · exact old hq
      · simp only [hw, if_false, Bool.false_eq_true] at hq
        exact old hq
    | answer h hw hm hr => exact old ((List.mem_filter.mp hq).1)
    | serve hm hr => exact old ((List.mem_filter.mp hq).1)
    | spawn h => exact old hq
    | read h hw hr => exact old hq
    | lose h hw hr => exact old hq
    | again hm hq' hr => exact old hq
    | crash => exact old hq
    | env he => exact old hq
    | stutter => exact old hq

theorem waiting_sent (n : Nat) : ∀ t id q k, (ρ.state n).threads t = .waiting id q k →
    ∃ j, j < n ∧ ρ.sends j t q ∧ (ρ.state j).fresh = id := by
  induction n with
  | zero => simp [ρ.zero, Semantics.start]
  | succ n ih =>
    intro t id q k hk
    have old : (ρ.state n).threads t = .waiting id q k →
        ∃ j, j < n + 1 ∧ ρ.sends j t q ∧ (ρ.state j).fresh = id := by
      intro h
      obtain ⟨j, hj, hs⟩ := ih t id q k h
      exact ⟨j, Nat.lt_succ_of_lt hj, hs⟩
    by_cases ha : (ρ.label n).actor = some t
    · have hs := ρ.steps n
      generalize hm' : ρ.state (n + 1) = m' at hs hk
      generalize hl : ρ.label n = l at hs ha
      cases hs with
      | @send t' q' k' h =>
        cases ha
        simp only [Function.update_self, Thread.waiting.injEq] at hk
        obtain ⟨hid, rfl, -⟩ := hk
        exact ⟨n, Nat.lt_succ_self n, ⟨hl, k', h⟩, hid⟩
      | _ => cases ha <;> simp at hk
    · rw [(ρ.steps n).threads_of_actor_ne ha] at hk
      exact old hk

variable {id : Nat}

theorem wire_waiting {k : R q → Prog Q R Unit} (hk : (ρ.state n).threads t = .waiting id q k)
    (hm : (id, q') ∈ (ρ.state n).wire) :
    q' = q := by
  obtain ⟨j, -, hs, hid⟩ := ρ.waiting_sent n t id q k hk
  obtain ⟨-, j', t', -, hs', hid'⟩ := ρ.wire_sent n id q' hm
  have hj := hs.instant_unique hs' (hid.trans hid'.symm)
  subst hj
  exact (hs.unique hs').2.symm

/-- Why the store changes from one instant to the next, if it does. -/
inductive StoreStep (n : Nat) : Prop where
  | same (h : (ρ.state (n + 1)).store = (ρ.state n).store)
  | env (e : E) (hl : ρ.label n = .env e)
      (h : S.env (ρ.state n).store e = some (ρ.state (n + 1)).store)
  | read (t : Nat) (q : Q) (c : C) (r : R q) (hw : S.wired q = false) (hg : ρ.gets n t q r)
      (h : S.reply (ρ.state n).store q c = some ((ρ.state (n + 1)).store, r))
  | effect (id : Nat) (q : Q) (c : C) (r : R q) (h : ρ.takesEffect n id q c r)

theorem storeStep (n : Nat) : ρ.StoreStep n := by
  have hs := ρ.steps n
  generalize hm' : ρ.state (n + 1) = m' at hs
  generalize hl : ρ.label n = l at hs
  cases hs with
  | @read t id q k c s r h hw hr =>
    have hr' : S.reply (ρ.state n).store q c = some ((ρ.state (n + 1)).store, r) := by rw [hm', hr]
    exact .read t q c r hw
      ⟨id, k, c, h, .inl ⟨hl, fun h' => by simp [hw] at h', hr'⟩⟩ hr'
  | @answer t id q q' k c s r h hw hm hr =>
    have hq := ρ.wire_waiting h hm
    subst hq
    exact .effect id q' c r ⟨hm, by rw [hm', hr], fun _ q'' => by simp [hm']⟩
  | @serve id q c s r hm hr =>
    exact .effect id q c r ⟨hm, by rw [hm', hr], fun _ q'' => by simp [hm']⟩
  | @again id q c s r hm hq hr =>
    exact .effect id q c r ⟨hm, by rw [hm', hr], fun h => by rw [hq] at h; cases h⟩
  | @env e s he => exact .env e hl (by rw [hm', he])
  | _ => exact .same (by rw [hm'])

theorem wire_succ (h : (id, q) ∈ (ρ.state (n + 1)).wire) :
    (id, q) ∈ (ρ.state n).wire ∨ (∃ t, ρ.sends n t q) ∧ (ρ.state n).fresh = id := by
  obtain ⟨-, j, t, hj, hs, hid⟩ := ρ.wire_sent (n + 1) id q h
  rcases Nat.lt_succ_iff_lt_or_eq.mp hj with hlt | rfl
  · refine .inl ?_
    have hs' := ρ.steps n
    have hne : (ρ.state n).fresh ≠ id := by
      have hle : (ρ.state (j + 1)).fresh ≤ (ρ.state n).fresh := ρ.fresh_mono hlt
      rw [hs.fresh] at hle
      omega
    generalize ρ.state (n + 1) = m' at hs' h
    generalize ρ.label n = l at hs'
    cases hs' with
    | @send t' q' k' hk =>
      by_cases hw : S.wired q' = true
      · simp only [hw, if_true, List.mem_cons, Prod.mk.injEq] at h
        exact h.resolve_left fun h' => hne h'.1.symm
      · simpa [hw] using h
    | answer | serve => exact (List.mem_filter.mp h).1
    | _ => exact h
  · exact .inr ⟨⟨t, hs⟩, hid⟩

variable {ρ}

theorem gets.actor (h : ρ.gets n t q r) : (ρ.label n).actor = some t := by
  obtain ⟨id, k, c, -, ⟨hl, -⟩ | ⟨hl, -⟩⟩ := h <;> rw [hl] <;> rfl

theorem gets.read (h : ρ.gets n t q r) (hw : S.wired q = false) :
    ∃ c, S.reply (ρ.state n).store q c = some ((ρ.state (n + 1)).store, r) := by
  obtain ⟨id, k, c, -, ⟨-, -, hr⟩ | ⟨-, hw', -⟩⟩ := h
  · exact ⟨c, hr⟩
  · rw [hw] at hw'; cases hw'

/-- The answer to a wired request is the answer of its effect, unless the sender gave up. -/
theorem gets.effect (h : ρ.gets n t q r) (hw : S.wired q) :
    (∃ id c, ρ.takesEffect n id q c r) ∨ ∃ c, S.lost q c = some r := by
  obtain ⟨id, k, c, hk, ⟨hl, hm, hr⟩ | ⟨-, -, hr⟩⟩ := h
  · refine .inl ⟨id, c, hm hw, hr, fun _ q' => ?_⟩
    have hs := ρ.steps n
    generalize ρ.state (n + 1) = m' at hs
    rw [hl] at hs
    cases hs with
    | read h hw' hr' =>
      rw [hk] at h
      cases h
      rw [hw] at hw'
      cases hw'
    | answer h hw' hm' hr' =>
      rw [hk] at h
      cases h
      simp
  · exact .inr ⟨c, hr⟩

theorem takesEffect.sent {c : C} (h : ρ.takesEffect n id q c r) :
    S.wired q ∧ ∃ j t, j < n ∧ ρ.sends j t q ∧ (ρ.state j).fresh = id :=
  ρ.wire_sent n id q h.1

/-- A request that took effect and may not be repeated never comes back to the wire. -/
theorem takesEffect.gone {c : C} (h : ρ.takesEffect n id q c r) (hq : S.repeatable q = false)
    {m : Nat} (hm : n < m) (q' : Q) :
    (id, q') ∉ (ρ.state m).wire := by
  obtain ⟨-, j, t, hj, hs, hid⟩ := h.sent
  induction hm with
  | refl => exact h.2.2 hq q'
  | @step m hm ih =>
    intro hmem
    rcases ρ.wire_succ hmem with hold | ⟨⟨t', hs'⟩, hid'⟩
    · exact ih hold
    · have := hs.instant_unique hs' (hid.trans hid'.symm)
      have : n + 1 ≤ m := hm
      omega

/-- When requests of kind `P` are sent at most once, none is left after one took effect. -/
theorem takesEffect.last {P : Q → Prop}
    (once : ∀ n t q n' t' q', ρ.sends n t q → P q → ρ.sends n' t' q' → P q' → n = n')
    {c : C} (h : ρ.takesEffect n id q c r) (hP : P q)
    (hq : S.repeatable q = false) {m id' : Nat} {q' : Q} (hm : n < m)
    (hw : (id', q') ∈ (ρ.state m).wire) : ¬ P q' := by
  intro hP'
  obtain ⟨-, j, t, -, hs, hid⟩ := h.sent
  obtain ⟨-, j', t', -, hs', hid'⟩ := ρ.wire_sent m id' q' hw
  have hj := once j t q j' t' q' hs hP hs' hP'
  subst hj
  have heq : id' = id := hid'.symm.trans hid
  subst heq
  exact h.gone hq hm q' hw

end Run

end KovaService.Lib
