import KovaService.Lib.Prog

/-!
Runs of many programs over one shared store.

A machine has a store, a set of threads, and a wire.  A thread sends its next request and then
waits.  A request that is not wired (a read, a clock, a random source) is answered from the store
at one instant.  A wired request (a mutation) is put on the wire and from then on may take effect
at any later instant, at most once: while its sender still waits for the answer, after the sender
was told that the outcome is unknown, or after the sender has crashed.  A repeatable wired request
may take effect several times.

`Semantics.step` is executable, so a schedule can be run.  A run gives the machine at every instant;
since `stutter` is a step, every finite schedule is the prefix of a run.
-/

namespace KovaService.Lib

inductive Thread (Q : Type) (R : Q → Type) where
  | idle
  | ready (p : Prog Q R Unit)
  | waiting (id : Nat) (q : Q) (k : R q → Prog Q R Unit)
  | over

/-- What happens at one instant.  `C` resolves what the store leaves open, `E` are the actions of
the surroundings, `J` names the programs that may be started. -/
inductive Label (C E J : Type) where
  | spawn (t : Nat) (j : J)
  | send (t : Nat)
  | answer (t : Nat) (c : C)
  | lose (t : Nat) (c : C)
  | serve (id : Nat) (c : C)
  | again (id : Nat) (c : C)
  | crash (t : Nat)
  | env (e : E)
  | stutter

/-- The meaning of requests over a store `σ`. -/
structure Semantics (Q : Type) (R : Q → Type) (σ C E J : Type) where
  wired : Q → Bool
  repeatable : Q → Bool
  /-- The request takes effect (or is read) now. -/
  reply : σ → (q : Q) → C → Option (σ × R q)
  /-- The answer of a sender that gives up waiting for a wired request. -/
  lost : (q : Q) → C → Option (R q)
  env : σ → E → Option σ
  job : J → Prog Q R Unit

structure Machine (Q : Type) (R : Q → Type) (σ : Type) where
  store : σ
  wire : List (Nat × Q)
  fresh : Nat
  threads : Nat → Thread Q R

namespace Semantics

variable {Q : Type} {R : Q → Type} {σ C E J : Type} (S : Semantics Q R σ C E J)

def start (s : σ) : Machine Q R σ where
  store := s
  wire := []
  fresh := 0
  threads := fun _ => .idle

def step (m : Machine Q R σ) : Label C E J → Option (Machine Q R σ)
  | .spawn t j =>
    match m.threads t with
    | .idle => some { m with threads := Function.update m.threads t (.ready (S.job j)) }
    | _ => none
  | .send t =>
    match m.threads t with
    | .ready (.call q k) => some
        { m with
          wire := if S.wired q then (m.fresh, q) :: m.wire else m.wire
          fresh := m.fresh + 1
          threads := Function.update m.threads t (.waiting m.fresh q k) }
    | _ => none
  | .answer t c =>
    match m.threads t with
    | .waiting id q k =>
      if S.wired q && !(m.wire.any fun x => x.1 == id) then none
      else
        match S.reply m.store q c with
        | some (s, r) => some
            { m with
              store := s
              wire := if S.wired q then m.wire.filter fun x => x.1 != id else m.wire
              threads := Function.update m.threads t (.ready (k r)) }
        | none => none
    | _ => none
  | .lose t c =>
    match m.threads t with
    | .waiting _ q k =>
      if S.wired q then
        match S.lost q c with
        | some r => some { m with threads := Function.update m.threads t (.ready (k r)) }
        | none => none
      else none
    | _ => none
  | .serve id c =>
    match m.wire.find? fun x => x.1 == id with
    | some (_, q) =>
      match S.reply m.store q c with
      | some (s, _) => some { m with store := s, wire := m.wire.filter fun x => x.1 != id }
      | none => none
    | none => none
  | .again id c =>
    match m.wire.find? fun x => x.1 == id with
    | some (_, q) =>
      if S.repeatable q then
        match S.reply m.store q c with
        | some (s, _) => some { m with store := s }
        | none => none
      else none
    | none => none
  | .crash t => some { m with threads := Function.update m.threads t .over }
  | .env e =>
    match S.env m.store e with
    | some s => some { m with store := s }
    | none => none
  | .stutter => some m

def exec (m : Machine Q R σ) : List (Label C E J) → Option (Machine Q R σ)
  | [] => some m
  | l :: ls =>
    match S.step m l with
    | some m' => exec m' ls
    | none => none

end Semantics

/-- An infinite run from store `s₀`. -/
structure Run {Q : Type} {R : Q → Type} {σ C E J : Type} (S : Semantics Q R σ C E J) (s₀ : σ)
    where
  state : Nat → Machine Q R σ
  label : Nat → Label C E J
  zero : state 0 = Semantics.start s₀
  step : ∀ n, S.step (state n) (label n) = some (state (n + 1))

namespace Semantics

variable {Q : Type} {R : Q → Type} {σ C E J : Type} (S : Semantics Q R σ C E J)
variable {ls : List (Label C E J)} {m : Machine Q R σ}

theorem exec_append (m : Machine Q R σ) (ls ls' : List (Label C E J)) :
    S.exec m (ls ++ ls') = (S.exec m ls).bind fun m' => S.exec m' ls' := by
  induction ls generalizing m with
  | nil => rfl
  | cons l ls ih =>
    simp only [List.cons_append, exec]
    cases S.step m l with
    | none => rfl
    | some m' => exact ih m'

theorem exec_take_isSome (h : (S.exec m ls).isSome) (n : Nat) : (S.exec m (ls.take n)).isSome := by
  rw [← List.take_append_drop n ls, exec_append] at h
  cases he : S.exec m (ls.take n) with
  | none => simp [he] at h
  | some m' => rfl

def runOf (s₀ : σ) (ls : List (Label C E J)) (h : (S.exec (start s₀) ls).isSome) : Run S s₀ where
  state n := (S.exec (start s₀) (ls.take n)).get (S.exec_take_isSome h n)
  label n := ls.getD n .stutter
  zero := rfl
  step n := by
    have hn := S.exec_take_isSome h n
    have hn' := S.exec_take_isSome h (n + 1)
    obtain ⟨m, hm⟩ := Option.isSome_iff_exists.mp hn
    obtain ⟨m', hm'⟩ := Option.isSome_iff_exists.mp hn'
    simp only [hm, hm', Option.get_some]
    cases hl : ls[n]? with
    | none =>
      have hle : ls.length ≤ n := List.getElem?_eq_none_iff.mp hl
      rw [List.take_of_length_le hle] at hm
      rw [List.take_of_length_le (Nat.le_succ_of_le hle), hm] at hm'
      cases hm'
      simp [List.getD, hl, step]
    | some l =>
      rw [List.take_add_one, exec_append, hm, hl] at hm'
      simp only [Option.toList_some, Option.bind_some, exec] at hm'
      simp only [List.getD, hl, Option.getD_some]
      split at hm'
      · next heq => rw [heq, ← hm']
      · cases hm'

def always (P : σ → Bool) (m : Machine Q R σ) : List (Label C E J) → Bool
  | [] => P m.store
  | l :: ls => P m.store && match S.step m l with
    | some m' => always P m' ls
    | none => false

variable {P : σ → Bool}

theorem exec_of_always (h : S.always P m ls) : (S.exec m ls).isSome := by
  induction ls generalizing m with
  | nil => rfl
  | cons l ls ih =>
    simp only [always, Bool.and_eq_true] at h
    simp only [exec]
    split
    · next m' hm =>
      simp only [hm] at h
      exact ih h.2
    · next hm => simp [hm] at h

theorem always_take {m' : Machine Q R σ} (h : S.always P m ls) {n : Nat}
    (hn : S.exec m (ls.take n) = some m') :
    P m'.store := by
  induction ls generalizing m n with
  | nil =>
    simp only [List.take_nil, exec, Option.some.injEq] at hn
    exact hn ▸ h
  | cons l ls ih =>
    simp only [always, Bool.and_eq_true] at h
    cases n with
    | zero =>
      simp only [List.take_zero, exec, Option.some.injEq] at hn
      exact hn ▸ h.1
    | succ n =>
      simp only [List.take_succ_cons, exec] at hn
      split at hn
      · next m₁ hm =>
        simp only [hm] at h
        exact ih h.2 hn
      · cases hn

variable {s₀ : σ}

theorem runOf_always (h : S.always P (start s₀) ls) (n : Nat) :
    P ((S.runOf s₀ ls (S.exec_of_always h)).state n).store :=
  S.always_take h (Option.some_get _).symm

variable {h : (S.exec (start s₀) ls).isSome}

theorem runOf_label (n : Nat) :
    (S.runOf s₀ ls h).label n ∈ ls ∨ (S.runOf s₀ ls h).label n = .stutter := by
  simp only [runOf, List.getD]
  cases hl : ls[n]? with
  | none => exact .inr rfl
  | some l => exact .inl (List.mem_of_getElem? hl)

theorem runOf_state {n : Nat} (hm : S.exec (start s₀) (ls.take n) = some m) :
    (S.runOf s₀ ls h).state n = m := by
  simp only [runOf, hm, Option.get_some]

theorem runOf_end (hm : S.exec (start s₀) ls = some m) : (S.runOf s₀ ls h).state ls.length = m := by
  simp only [runOf, List.take_length, hm, Option.get_some]

end Semantics

end KovaService.Lib
