import KovaService.Api.Object
import KovaService.Lib.Automaton

/-!
`AdmissionCoordinator`: one permit for a fresh grant at a time, and one wakeup for everybody who
found it taken.

Every method runs under the mutex once, so a run is a sequence of calls, in any order and from any
number of goroutines, and of receptions from the channel.  A permit is a pointer; the n-th one
allocated is named `n`.
-/

namespace KovaService.Admission

open Lib Api

variable (own : String)

def admissionReleaseRequestName : String := "kova-service-admission-release"

structure ReleaseEvent where
  ns : String
  name : String
  deriving DecidableEq

/-- `AdmissionCoordinator`.  `release` is the buffered channel, of capacity one; `permits` counts the
permits allocated so far. -/
structure Coordinator where
  holder : Option Nat := none
  pending : Bool := false
  generation : UInt64 := 0
  release : List ReleaseEvent := []
  permits : Nat := 0
  deriving DecidableEq

inductive Call where
  /-- `early` and `late` are the context's errors before the lock and under it. -/
  | tryBegin (ns : String) (early late : Option Err)
  | deferIfBusy (ns : String)
  | release (permit : Option Nat)
  | receive

inductive Reply where
  | permit (p : Nat)
  | busy
  | failed (e : Err)
  | observed (busy : Bool) (generation : UInt64)
  | released
  | event (e : ReleaseEvent)

def Reply.isBusy : Reply → Bool
  | .busy => true
  | .observed taken _ => taken
  | _ => false

def validate (ns : String) : Except Err Unit :=
  if ns == "" || own != ns then
    .error (.text "local admission coordinator differs from configured Namespace")
  else .ok ()

namespace Coordinator

variable (g : Coordinator)

def tryBegin (ns : String) (early late : Option Err) :
    Coordinator × Reply :=
  match validate own ns with
  | .error e => (g, .failed e)
  | .ok () =>
    match early, late with
    | some e, _ => (g, .failed e)
    | none, some e => (g, .failed e)
    | none, none =>
      if g.holder.isSome then ({ g with pending := true }, .busy)
      else ({ g with holder := some g.permits, permits := g.permits + 1 }, .permit g.permits)

def deferIfBusy (ns : String) : Coordinator × Reply :=
  match validate own ns with
  | .error e => (g, .failed e)
  | .ok () =>
    if g.holder.isSome then ({ g with pending := true }, .observed true g.generation)
    else (g, .observed false g.generation)

/-- The end of `release`: the permit is free, and the demand bit becomes an event. -/
def freed : Coordinator :=
  let g := { g with holder := none, generation := g.generation + 1 }
  if !g.pending then g
  else
    let g := { g with pending := false }
    -- The send does not block: a full channel keeps the event it has.
    if g.release.length < 1 then
      { g with release := g.release ++ [⟨own, admissionReleaseRequestName⟩] }
    else g

def releasePermit : Option Nat → Coordinator × Reply
  | none => (g, .released)
  | some p => if g.holder != some p then (g, .released) else (g.freed own, .released)

end Coordinator

/-- The coordinator of one Namespace with its callers and its consumer.  Nothing is received from an
empty channel. -/
def coordinator : Automaton Coordinator Call Reply where
  init := {}
  step g
    | .tryBegin ns early late => some (g.tryBegin own ns early late)
    | .deferIfBusy ns => some (g.deferIfBusy own ns)
    | .release permit => some (g.releasePermit own permit)
    | .receive =>
      match g.release with
      | [] => none
      | e :: rest => some ({ g with release := rest }, .event e)

inductive Effect (own : String) (g : Coordinator) : Call → Coordinator → Reply → Prop
  | begun {ns : String} {early late : Option Err} (free : g.holder = none) :
      Effect own g (.tryBegin ns early late)
        { g with holder := some g.permits, permits := g.permits + 1 } (.permit g.permits)
  | deferred {a : Call} {b : Reply} {p : Nat} (taken : g.holder = some p) (busy : b.isBusy)
      (call : ∀ q, a ≠ .release q) : Effect own g a { g with pending := true } b
  | ended {p : Nat} (held : g.holder = some p) :
      Effect own g (.release (some p)) (g.freed own) .released
  | received {e : ReleaseEvent} {rest : List ReleaseEvent} (waiting : g.release = e :: rest) :
      Effect own g .receive { g with release := rest } (.event e)
  | nothing {a : Call} {b : Reply} (idle : b.isBusy = false) (none : ∀ p, b ≠ .permit p)
      (stale : ∀ p, a = .release (some p) → g.holder ≠ some p) (call : a ≠ .receive) :
      Effect own g a g b

theorem tryBegin_effect (g : Coordinator) (ns : String) (early late : Option Err) :
    Effect own g (.tryBegin ns early late) (g.tryBegin own ns early late).1
      (g.tryBegin own ns early late).2 := by
  unfold Coordinator.tryBegin
  split
  · exact .nothing rfl (by simp) (by simp) (by simp)
  · split
    · exact .nothing rfl (by simp) (by simp) (by simp)
    · exact .nothing rfl (by simp) (by simp) (by simp)
    · split
      · next h =>
        obtain ⟨p, hp⟩ := Option.isSome_iff_exists.mp h
        exact .deferred hp rfl (by simp)
      · next h => exact .begun (by simpa using h)

theorem deferIfBusy_effect (g : Coordinator) (ns : String) :
    Effect own g (.deferIfBusy ns) (g.deferIfBusy own ns).1 (g.deferIfBusy own ns).2 := by
  unfold Coordinator.deferIfBusy
  split
  · exact .nothing rfl (by simp) (by simp) (by simp)
  · split
    · next h =>
      obtain ⟨p, hp⟩ := Option.isSome_iff_exists.mp h
      exact .deferred hp rfl (by simp)
    · exact .nothing rfl (by simp) (by simp) (by simp)

theorem releasePermit_effect (g : Coordinator) (permit : Option Nat) :
    Effect own g (.release permit) (g.releasePermit own permit).1
      (g.releasePermit own permit).2 := by
  unfold Coordinator.releasePermit
  split
  · exact .nothing rfl (by simp) (by simp) (by simp)
  next p =>
  split
  · next h =>
    refine .nothing rfl (by simp) ?_ (by simp)
    intro q hq
    cases hq
    simpa using h
  · next h => exact .ended (by simpa using h)

variable {own : String} {g : Coordinator}

theorem step_effect {g' : Coordinator} {a : Call} {b : Reply}
    (h : (coordinator own).step g a = some (g', b)) : Effect own g a g' b := by
  cases a with
  | tryBegin ns early late =>
    have he := tryBegin_effect own g ns early late
    rwa [Option.some.inj h] at he
  | deferIfBusy ns =>
    have he := deferIfBusy_effect own g ns
    rwa [Option.some.inj h] at he
  | release permit =>
    have he := releasePermit_effect own g permit
    rwa [Option.some.inj h] at he
  | receive =>
    simp only [coordinator] at h
    split at h
    · cases h
    · next he =>
      cases h
      exact .received he

@[simp] theorem freed_holder (g : Coordinator) : (g.freed own).holder = none := by
  unfold Coordinator.freed
  grind

@[simp] theorem freed_pending (g : Coordinator) : (g.freed own).pending = false := by
  unfold Coordinator.freed
  grind

@[simp] theorem freed_permits (g : Coordinator) : (g.freed own).permits = g.permits := by
  unfold Coordinator.freed
  grind

theorem freed_release (h : g.pending) : (g.freed own).release ≠ [] := by
  unfold Coordinator.freed
  simp only [h]
  split
  · contradiction
  · split
    · simp
    · next hfull => simpa using hfull

theorem freed_release_mono (h : g.release ≠ []) : (g.freed own).release ≠ [] := by
  unfold Coordinator.freed
  grind

variable {own : String}

/-- Permit `p` was handed out before instant `n` and has not been released since. -/
def Held (r : (coordinator own).Run) (n p : Nat) : Prop :=
  ∃ i < n, r.answer i = .permit p ∧ ∀ j, i < j → j < n → r.action j ≠ .release (some p)

variable (r : (coordinator own).Run)

theorem run_effect (n : Nat) :
    Effect own (r.state n) (r.action n) (r.state (n + 1)) (r.answer n) :=
  step_effect (r.step n)

variable {p : Nat} {i : Nat}

theorem permit_fresh (ha : r.answer i = .permit p) :
    p = (r.state i).permits ∧ (r.state (i + 1)).permits = p + 1 := by
  have he := run_effect r i
  rw [ha] at he
  generalize r.state (i + 1) = g at he ⊢
  generalize r.action i = a at he
  cases he with
  | begun => exact ⟨rfl, rfl⟩
  | deferred _ busy => cases busy
  | nothing _ none => exact absurd rfl (none p)

theorem permits_mono {n : Nat} (hin : i ≤ n) :
    (r.state i).permits ≤ (r.state n).permits := by
  induction n, hin using Nat.le_induction with
  | base => exact Nat.le_refl _
  | succ n hin ih =>
    refine ih.trans ?_
    have he := run_effect r n
    generalize r.state (n + 1) = g at he ⊢
    generalize r.action n = a at he
    generalize r.answer n = b at he
    cases he with
    | begun => exact Nat.le_succ _
    | ended => simp
    | deferred => exact Nat.le_refl _
    | received => exact Nat.le_refl _
    | nothing => exact Nat.le_refl _

theorem permit_once {j : Nat} (hi : r.answer i = .permit p) (hj : r.answer j = .permit p) :
    i = j := by
  obtain ⟨hpi, hi'⟩ := permit_fresh r hi
  obtain ⟨hpj, hj'⟩ := permit_fresh r hj
  rcases Nat.lt_trichotomy i j with hlt | heq | hgt
  · have hle : (r.state (i + 1)).permits ≤ (r.state j).permits := permits_mono r hlt
    omega
  · exact heq
  · have hle : (r.state (j + 1)).permits ≤ (r.state i).permits := permits_mono r hgt
    omega

theorem held_between {j : Nat} (hi : Held r i p) (hj : Held r j p) :
    ∀ k, i ≤ k → k < j → r.action k ≠ .release (some p) := by
  obtain ⟨i₀, hi₀, ha, -⟩ := hi
  obtain ⟨j₀, -, hb, hkeep⟩ := hj
  have he := permit_once r ha hb
  intro k hik hkj
  exact hkeep k (by omega) hkj

theorem held_succ (n p : Nat) :
    Held r (n + 1) p ↔
      r.answer n = .permit p ∨ Held r n p ∧ r.action n ≠ .release (some p) := by
  constructor
  · rintro ⟨i, hi, ha, hkeep⟩
    rcases Nat.lt_succ_iff_lt_or_eq.mp hi with hlt | rfl
    · refine .inr ⟨⟨i, hlt, ha, ?_⟩, hkeep n hlt (Nat.lt_succ_self n)⟩
      intro j hij hjn
      exact hkeep j hij (Nat.lt_succ_of_lt hjn)
    · exact .inl ha
  · rintro (ha | ⟨⟨i, hi, ha, hkeep⟩, hn⟩)
    · refine ⟨n, Nat.lt_succ_self n, ha, ?_⟩
      intro j hnj hjn
      omega
    · refine ⟨i, Nat.lt_succ_of_lt hi, ha, ?_⟩
      intro j hij hjn
      rcases Nat.lt_succ_iff_lt_or_eq.mp hjn with hlt | rfl
      · exact hkeep j hij hlt
      · exact hn

theorem holder_iff_held (n p : Nat) :
    (r.state n).holder = some p ↔ Held r n p := by
  induction n with
  | zero =>
    rw [r.zero]
    constructor
    · intro h
      cases h
    · rintro ⟨i, hi, -⟩
      exact absurd hi (Nat.not_lt_zero i)
  | succ n ih =>
    rw [held_succ, ← ih]
    have he := run_effect r n
    generalize r.state (n + 1) = g at he ⊢
    generalize r.action n = a at he ⊢
    generalize r.answer n = b at he ⊢
    cases he with
    | begun free => simp [free]
    | deferred taken busy call =>
      have hb : b ≠ .permit p := by
        rintro rfl
        cases busy
      simp [hb, call]
    | ended held => simp [held]
    | received => simp
    | nothing idle none stale =>
      simp only [none, false_or]
      exact ⟨fun h => ⟨h, fun ha => stale p ha h⟩, fun h => h.1⟩

/-- The demand bit is set only while somebody holds the permit. -/
theorem pending_holder (n : Nat) (h : (r.state n).pending) :
    ∃ p, (r.state n).holder = some p := by
  refine r.invariant (P := fun g => g.pending = true → ∃ p, g.holder = some p) ?_ ?_ n h
  · intro h
    cases h
  intro g a g' b hg hstep
  cases step_effect hstep with
  | begun => exact fun _ => ⟨_, rfl⟩
  | deferred taken => exact fun _ => ⟨_, taken⟩
  | ended => simp
  | received => exact hg
  | nothing => exact hg

theorem busy_holder (h : (r.answer i).isBusy) :
    ∃ p, (r.state i).holder = some p ∧ (r.state (i + 1)).holder = some p ∧
      (r.state (i + 1)).pending := by
  have he := run_effect r i
  generalize r.state (i + 1) = g at he ⊢
  generalize r.action i = a at he
  generalize r.answer i = b at he h
  cases he with
  | begun => cases h
  | deferred taken => exact ⟨_, taken, taken, rfl⟩
  | ended => cases h
  | received => cases h
  | nothing idle => rw [idle] at h; cases h

theorem pending_step {n : Nat} (hh : (r.state n).holder = some p) (hp : (r.state n).pending)
    (ha : r.action n ≠ .release (some p)) :
    (r.state (n + 1)).holder = some p ∧ (r.state (n + 1)).pending := by
  have he := run_effect r n
  generalize r.state (n + 1) = g at he ⊢
  generalize r.action n = a at he ha
  generalize r.answer n = b at he
  cases he with
  | begun free => rw [free] at hh; cases hh
  | deferred => exact ⟨hh, rfl⟩
  | ended held =>
    rw [held] at hh
    cases hh
    exact absurd rfl ha
  | received => exact ⟨hh, hp⟩
  | nothing => exact ⟨hh, hp⟩

theorem pending_until {j : Nat} (hij : i ≤ j) (hh : (r.state i).holder = some p)
    (hp : (r.state i).pending)
    (hkeep : ∀ k, i ≤ k → k < j → r.action k ≠ .release (some p)) :
    (r.state j).holder = some p ∧ (r.state j).pending := by
  induction j, hij using Nat.le_induction with
  | base => exact ⟨hh, hp⟩
  | succ j hij ih =>
    obtain ⟨hh', hp'⟩ := ih fun k hik hkj => hkeep k hik (Nat.lt_succ_of_lt hkj)
    exact pending_step r hh' hp' (hkeep j hij (Nat.lt_succ_self j))

theorem waiting_until {j k : Nat} (hjk : j ≤ k) (hw : (r.state j).release ≠ [])
    (hkeep : ∀ m, j ≤ m → m < k → r.action m ≠ .receive) :
    (r.state k).release ≠ [] := by
  induction k, hjk using Nat.le_induction with
  | base => exact hw
  | succ k hjk ih =>
    have hk := ih fun m hjm hmk => hkeep m hjm (Nat.lt_succ_of_lt hmk)
    have ha := hkeep k hjk (Nat.lt_succ_self k)
    have he := run_effect r k
    generalize r.state (k + 1) = g at he ⊢
    generalize r.action k = a at he ha
    generalize r.answer k = b at he
    cases he with
    | begun => exact hk
    | deferred => exact hk
    | ended => exact freed_release_mono hk
    | received => exact absurd rfl ha
    | nothing => exact hk

theorem stale_release {n : Nat} (ha : r.action n = .release (some p))
    (hh : (r.state n).holder ≠ some p) :
    r.state (n + 1) = r.state n := by
  have he := run_effect r n
  rw [ha] at he
  generalize r.state (n + 1) = g at he ⊢
  generalize r.answer n = b at he
  cases he with
  | deferred _ _ call => exact absurd rfl (call _)
  | ended held => exact absurd held hh
  | nothing => rfl

theorem release_leaves_event {n : Nat} (ha : r.action n = .release (some p))
    (hh : (r.state n).holder = some p)
    (hp : (r.state n).pending) : (r.state (n + 1)).release ≠ [] := by
  have he := run_effect r n
  rw [ha] at he
  generalize r.state (n + 1) = g at he ⊢
  generalize r.answer n = b at he
  cases he with
  | deferred _ _ call => exact absurd rfl (call _)
  | ended => exact freed_release hp
  | nothing _ _ stale => exact absurd hh (stale p rfl)

/-- A permit is handed out once, and no wakeup is lost, in any order of calls, releases and
receptions. -/
theorem coordinator_loses_no_wakeup (own : String) (r : (coordinator own).Run) :
    (∀ i j p, r.answer i = .permit p → r.answer j = .permit p → i = j) ∧
    (∀ n p q, Held r n p → Held r n q → p = q) ∧
    (∀ n p, r.action n = .release (some p) → ¬ Held r n p → r.state (n + 1) = r.state n) ∧
    (∀ n, (r.state n).pending → ∃ p, Held r n p) ∧
    (∀ i, (r.answer i).isBusy → ∃ p, Held r i p ∧
      ∀ j, i < j → Held r j p → r.action j = .release (some p) →
        (r.state (j + 1)).release ≠ [] ∧
        ∀ k, j < k → (∀ m, j < m → m < k → r.action m ≠ .receive) → (r.state k).release ≠ []) := by
  refine ⟨fun i j p => permit_once r, ?_, ?_, ?_, ?_⟩
  · intro n p q hp hq
    rw [← holder_iff_held] at hp hq
    exact Option.some.inj (hp.symm.trans hq)
  · intro n p ha hn
    rw [← holder_iff_held] at hn
    exact stale_release r ha hn
  · intro n hn
    obtain ⟨p, hp⟩ := pending_holder r n hn
    exact ⟨p, (holder_iff_held r n p).mp hp⟩
  · intro i hi
    obtain ⟨p, hbefore, hafter, hpending⟩ := busy_holder r hi
    refine ⟨p, (holder_iff_held r i p).mp hbefore, ?_⟩
    intro j hij hj ha
    have hkeep := held_between r ((holder_iff_held r i p).mp hbefore) hj
    obtain ⟨hholder, hdemand⟩ := pending_until r hij hafter hpending
      fun k hik hkj => hkeep k (Nat.le_of_succ_le hik) hkj
    have hevent := release_leaves_event r ha hholder hdemand
    refine ⟨hevent, ?_⟩
    intro k hjk hquiet
    exact waiting_until r hjk hevent hquiet

end KovaService.Admission
