import KovaService.Lib.Contract
import KovaService.Lib.RunLogic

/-!
Weakest preconditions of programs along a run.

`wp G t p i Post` says: if thread `t` of the run has `p` left to do at instant `i`, then every
request it sends from then on satisfies the demand `G` at the instant it is sent, and if it finishes
with `a` at instant `j` then `Post a j`.  Between two of its own events a thread rests, and the
definition hands this to the prover, so that facts about a thread's whole past can be carried along.
`wpE` is the same for programs that may fail.
-/

namespace KovaService.Lib.Run

variable {Q : Type} {R : Q → Type} {σ C E J α β ε τ : Type} {S : Semantics Q R σ C E J} {s₀ : σ}
variable (ρ : Run S s₀) (G : Nat → Nat → Q → Prop) (t : Nat) {P : Q → Prop} {p : Fallible Q R ε α}

def rests (i j : Nat) : Prop :=
  ∀ m, i ≤ m → m < j → (∀ q, ¬ ρ.sends m t q) ∧ ∀ q r, ¬ ρ.gets m t q r

def wp : Prog Q R α → Nat → (α → Nat → Prop) → Prop
  | .ret a, i, Post => Post a i
  | .call q k, i, Post => ∀ j, i ≤ j → ρ.rests t i j → ρ.sends j t q →
      G j t q ∧ ∀ m r, j < m → ρ.rests t (j + 1) m → ρ.gets m t q r → wp (k r) (m + 1) Post

def wpE (p : Fallible Q R ε α) (i : Nat) (Post : α → Nat → Prop) (Fail : ε → Nat → Prop) : Prop :=
  ρ.wp G t p.run i fun r j =>
    match r with
    | .ok a => Post a j
    | .error e => Fail e j

variable {ρ G t} {i : Nat}

theorem wp_bind {p : Prog Q R α} {f : α → Prog Q R β} {Post : β → Nat → Prop} :
    ρ.wp G t (p >>= f) i Post ↔ ρ.wp G t p i fun a j => ρ.wp G t (f a) j Post := by
  induction p generalizing i with
  | ret a => exact Iff.rfl
  | call q k ih =>
    refine forall_congr' fun j => imp_congr_right fun _ => imp_congr_right fun _ =>
      imp_congr_right fun _ => and_congr_right fun _ => forall_congr' fun m =>
        forall_congr' fun r => imp_congr_right fun _ => imp_congr_right fun _ =>
          imp_congr_right fun _ => ?_
    exact ih r

theorem wp_mono {p : Prog Q R α} {Post Post' : α → Nat → Prop} (h : ρ.wp G t p i Post)
    (hP : ∀ a j, i ≤ j → Post a j → Post' a j) :
    ρ.wp G t p i Post' := by
  induction p generalizing i with
  | ret a => exact hP a i le_rfl h
  | call q k ih =>
    intro j hj hq hs
    refine ⟨(h j hj hq hs).1, fun m r hm hr hg => ?_⟩
    exact ih r ((h j hj hq hs).2 m r hm hr hg) fun a j' hj' => hP a j' (by omega)

theorem wp_of_ensures {D : Q → Prop} {p : Prog Q R α} {Post : α → Prop}
    (hp : p.Ensures (fun _ _ => True) D Post) (hG : ∀ n q, D q → G n t q) :
    ρ.wp G t p i fun a _ => Post a := by
  induction p generalizing i with
  | ret a => exact hp
  | call q k ih =>
    exact fun j hj hq hs => ⟨hG j q hp.1, fun m r hm hr hg => ih r (hp.2 r trivial)⟩

theorem wp_of_never {p : Prog Q R α} (hp : p.Never P) (hG : ∀ n q, ¬ P q → G n t q) :
    ρ.wp G t p i fun _ _ => True :=
  wp_of_ensures (Prog.ensures_of_never hp fun _ => id) hG

variable {q : Q}

theorem wp_perform {Post : R q → Nat → Prop} (hG : ∀ j, i ≤ j → ρ.rests t i j → G j t q)
    (hP : ∀ j m r, i ≤ j → j < m → ρ.rests t i j → ρ.sends j t q → ρ.rests t (j + 1) m →
      ρ.gets m t q r → Post r (m + 1)) :
    ρ.wp G t (Prog.perform q) i Post :=
  fun j hj hr hs => ⟨hG j hj hr, fun m r hm hr' hg => hP j m r hj hm hr hs hr' hg⟩

/-- Thread `t` sends and receives nothing of kind `P` from `i` until before `j`. -/
def silent (ρ : Run S s₀) (t : Nat) (P : Q → Prop) (i j : Nat) : Prop :=
  ∀ m, i ≤ m → m < j → (∀ q, ρ.sends m t q → ¬ P q) ∧ ∀ q r, ρ.gets m t q r → ¬ P q

theorem rests.silent {j : Nat} (h : ρ.rests t i j) : ρ.silent t P i j :=
  fun m hi hj => ⟨fun q hs => absurd hs ((h m hi hj).1 q), fun q r hg => absurd hg ((h m hi hj).2 q r)⟩

theorem silent_trans {j k : Nat} (h : ρ.silent t P i j) (h' : ρ.silent t P j k) :
    ρ.silent t P i k := by
  intro m hi hk
  rcases Nat.lt_or_ge m j with hj | hj
  · exact h m hi hj
  · exact h' m hj hk

variable {n : Nat}

theorem not_gets_of_sends {q' : Q} {r : R q'} (h : ρ.sends n t q) : ¬ ρ.gets n t q' r := by
  rintro ⟨id, k, c, hk, -⟩
  obtain ⟨-, k', hk'⟩ := h
  rw [hk] at hk'
  cases hk'

variable {r : R q}

theorem gets_unique {q' : Q} {r' : R q'} (h : ρ.gets n t q r) (h' : ρ.gets n t q' r') : q = q' := by
  obtain ⟨id, k, c, hk, -⟩ := h
  obtain ⟨id', k', c', hk', -⟩ := h'
  rw [hk] at hk'
  cases hk'
  rfl

theorem gets_functional {r' : R q} (h : ρ.gets n t q r) (h' : ρ.gets n t q r') : r = r' := by
  obtain ⟨id, k, c, -, h⟩ := h
  obtain ⟨id', k', c', -, h'⟩ := h'
  rcases h with ⟨hl, -, hr⟩ | ⟨hl, -, hr⟩ <;> rcases h' with ⟨hl', -, hr'⟩ | ⟨hl', -, hr'⟩ <;>
    rw [hl] at hl' <;> cases hl' <;> rw [hr] at hr' <;> cases hr' <;> rfl

theorem silent_exchange {j m : Nat} (hq : ¬ P q) (h1 : ρ.rests t i j) (hs : ρ.sends j t q)
    (h2 : ρ.rests t (j + 1) m) (hg : ρ.gets m t q r) :
    ρ.silent t P i (m + 1) := by
  intro k hi hk
  rcases Nat.lt_trichotomy k j with hlt | rfl | hgt
  · exact h1.silent k hi hlt
  · exact ⟨fun q' hs' => (hs.unique hs').2 ▸ hq, fun q' r' hg' => absurd hg' (not_gets_of_sends hs)⟩
  · rcases Nat.lt_or_ge k m with hlt | hge
    · exact h2.silent k hgt hlt
    · have hkm : k = m := by omega
      subst hkm
      exact ⟨fun q' hs' => absurd hg (not_gets_of_sends hs'), fun q' r' hg' =>
        gets_unique hg hg' ▸ hq⟩

theorem wp_silent {p : Prog Q R α} {Post : α → Nat → Prop} (hp : p.Never P)
    (h : ρ.wp G t p i Post) :
    ρ.wp G t p i fun a j => Post a j ∧ ρ.silent t P i j := by
  induction p generalizing i with
  | ret a => exact ⟨h, fun m hi hj => by omega⟩
  | call q k ih =>
    intro j hj hr hs
    refine ⟨(h j hj hr hs).1, fun m r hm hr' hg => ?_⟩
    refine wp_mono (ih r (hp.2 r) ((h j hj hr hs).2 m r hm hr' hg)) fun a j' _ hP => ⟨hP.1, ?_⟩
    exact silent_trans (silent_exchange hp.1 hr hs hr' hg) hP.2

section Fallible

variable {i : Nat} {Post : α → Nat → Prop} {Fail : ε → Nat → Prop} {f : β → Fallible Q R ε α}

theorem wpE_bind {p : Fallible Q R ε β} :
    ρ.wpE G t (p >>= f) i Post Fail ↔
      ρ.wpE G t p i (fun a j => ρ.wpE G t (f a) j Post Fail) Fail := by
  unfold wpE
  rw [Fallible.run_bind, wp_bind]
  refine iff_of_eq (congrArg _ ?_)
  funext r j
  cases r <;> rfl

theorem wpE_pure {a : α} : ρ.wpE G t (pure a : Fallible Q R ε α) i Post Fail ↔ Post a i :=
  Iff.rfl

theorem wpE_failIf {c : Bool} {e : ε} {Post : Unit → Nat → Prop} :
    ρ.wpE G t (Fallible.failIf c e) i Post Fail ↔
      (c → Fail e i) ∧ (c = false → Post () i) := by
  cases c <;> simp [wpE, wp]

theorem wpE_lift {p : Prog Q R α} :
    ρ.wpE G t (Fallible.lift p) i Post Fail ↔ ρ.wp G t p i Post := by
  unfold wpE
  rw [Fallible.run_lift, wp_bind]
  rfl

theorem wpE_attempt {Post : Except ε α → Nat → Prop} :
    ρ.wpE G t p.attempt i Post Fail ↔
      ρ.wpE G t p i (fun a j => Post (.ok a) j) (fun e j => Post (.error e) j) := by
  unfold wpE
  rw [Fallible.run_attempt, wp_bind]
  refine iff_of_eq (congrArg _ ?_)
  funext r j
  cases r <;> rfl

variable {Fail' : ε → Nat → Prop}

theorem wpE_mono {Post' : α → Nat → Prop} (h : ρ.wpE G t p i Post Fail)
    (hP : ∀ a j, i ≤ j → Post a j → Post' a j)
    (hF : ∀ e j, i ≤ j → Fail e j → Fail' e j) : ρ.wpE G t p i Post' Fail' := by
  refine wp_mono h fun r j hj hr => ?_
  cases r with
  | ok a => exact hP a j hj hr
  | error e => exact hF e j hj hr

theorem wpE_seq {p : Fallible Q R ε β} {Mid : β → Nat → Prop} (h : ρ.wpE G t p i Mid Fail')
    (hf : ∀ a j, i ≤ j → Mid a j → ρ.wpE G t (f a) j Post Fail)
    (hF : ∀ e j, i ≤ j → Fail' e j → Fail e j) : ρ.wpE G t (p >>= f) i Post Fail :=
  wpE_bind.mpr (wpE_mono h hf hF)

theorem wpE_of_never (hp : p.run.Never P) (hG : ∀ n q, ¬ P q → G n t q) :
    ρ.wpE G t p i (fun _ _ => True) (fun _ _ => True) :=
  wp_mono (wp_of_never hp hG) fun r _ _ _ => by cases r <;> trivial

theorem wpE_silent (hp : p.run.Never P) (h : ρ.wpE G t p i Post Fail) :
    ρ.wpE G t p i (fun a j => Post a j ∧ ρ.silent t P i j)
      (fun e j => Fail e j ∧ ρ.silent t P i j) := by
  refine wp_mono (wp_silent hp h) fun r j _ hr => ?_
  cases r <;> exact hr

theorem wpE_retry {busy : ε} {body : Nat → τ → Fallible Q R ε (Round τ α)} (I : τ → Nat → Prop)
    {fuel : Nat} {s : τ} (hI : I s i)
    (hbody : ∀ n s j, i ≤ j → I s j → ρ.wpE G t (body n s) j
      (fun r j' => match r with
        | .done a => Post a j'
        | .again s' => I s' j') Fail)
    (hbusy : ∀ s j, i ≤ j → I s j → Fail busy j) :
    ρ.wpE G t (Fallible.retry busy body fuel n s) i Post Fail := by
  suffices h : ∀ j, i ≤ j → I s j →
      ρ.wpE G t (Fallible.retry busy body fuel n s) j Post Fail from h i le_rfl hI
  clear hI
  induction fuel generalizing n s with
  | zero => exact fun j hj hs => hbusy s j hj hs
  | succ fuel ih =>
    intro j hj hs
    refine wpE_seq (hbody n s j hj hs) (fun r j' hj' hr => ?_) fun e j' _ h => h
    cases r with
    | done a => exact hr
    | again s' => exact ih j' (hj.trans hj') hr

end Fallible

theorem idle_rests (h : (ρ.state n).threads t = .idle) : ρ.rests t 0 n := by
  induction n with
  | zero => intro m _ hm; omega
  | succ n ih =>
    -- a thread never becomes idle again, so it was idle before and did nothing
    have hn : (ρ.state n).threads t = .idle := by
      by_cases ha : (ρ.label n).actor = some t
      · have hs := ρ.steps n
        generalize ρ.state (n + 1) = m' at hs h
        generalize ρ.label n = l at hs ha
        cases hs <;> cases ha <;> simp at h
      · rwa [(ρ.steps n).threads_of_actor_ne ha] at h
    intro m hm hmn
    rcases Nat.lt_succ_iff_lt_or_eq.mp hmn with hlt | rfl
    · exact ih hn m hm hlt
    · refine ⟨fun q hs => ?_, fun q r hg => ?_⟩
      · obtain ⟨-, k, hk⟩ := hs
        rw [hn] at hk
        cases hk
      · obtain ⟨id, k, c, hk, -⟩ := hg
        rw [hn] at hk
        cases hk

theorem rests_succ (h : ρ.rests t i n) (ha : (ρ.label n).actor ≠ some t) : ρ.rests t i (n + 1) := by
  intro m hi hm
  rcases Nat.lt_succ_iff_lt_or_eq.mp hm with hlt | rfl
  · exact h m hi hlt
  · exact ⟨fun q hs => ha (by rw [hs.1]; rfl), fun q r hg => ha hg.actor⟩

/-- What is left of the program of a thread at instant `n` meets the demand. -/
def Promised (ρ : Run S s₀) (G : Nat → Nat → Q → Prop) (t n : Nat) : Thread Q R → Prop
  | .ready p => ∃ i, i ≤ n ∧ ρ.rests t i n ∧ ρ.wp G t p i fun _ _ => True
  | .waiting _ q k => ∃ j, j < n ∧ ρ.rests t (j + 1) n ∧
      ∀ m r, j < m → ρ.rests t (j + 1) m → ρ.gets m t q r → ρ.wp G t (k r) (m + 1) fun _ _ => True
  | _ => True

theorem Promised.rests {th : Thread Q R} (h : Promised ρ G t n th)
    (ha : (ρ.label n).actor ≠ some t) : Promised ρ G t (n + 1) th := by
  cases th with
  | ready p =>
    obtain ⟨i, hi, hr, hw⟩ := h
    exact ⟨i, Nat.le_succ_of_le hi, rests_succ hr ha, hw⟩
  | waiting id q k =>
    obtain ⟨j, hj, hr, hw⟩ := h
    exact ⟨j, Nat.lt_succ_of_lt hj, rests_succ hr ha, hw⟩
  | _ => trivial

theorem rests_self (i : Nat) : ρ.rests t i i := fun m h1 h2 => by omega

theorem spawned_rests {j : J} (hl : ρ.label n = .spawn t j) (hk : (ρ.state n).threads t = .idle) :
    ρ.rests t 0 (n + 1) := by
  intro m _ hm
  rcases Nat.lt_succ_iff_lt_or_eq.mp hm with hlt | rfl
  · exact idle_rests hk m (Nat.zero_le m) hlt
  · refine ⟨fun q hs => ?_, fun q r hg => ?_⟩
    · rw [hs.1] at hl
      cases hl
    · obtain ⟨id, k, c, hk', -⟩ := hg
      rw [hk] at hk'
      cases hk'

/-- A thread that is answered goes on with the continuation it was proved for. -/
theorem Promised.resume {id : Nat} {k : R q → Prog Q R Unit}
    (h : Promised ρ G t n (.waiting id q k)) (hg : ρ.gets n t q r) :
    Promised ρ G t (n + 1) (.ready (k r)) := by
  obtain ⟨j, hj, hr, hw⟩ := h
  exact ⟨n + 1, le_rfl, rests_self _, hw n r hj hr hg⟩

theorem promised_succ
    (h : ∀ n t j, ρ.label n = .spawn t j → ρ.rests t 0 (n + 1) →
      ρ.wp G t (S.job j) (n + 1) fun _ _ => True)
    (ih : Promised ρ G t n ((ρ.state n).threads t)) :
    Promised ρ G t (n + 1) ((ρ.state (n + 1)).threads t) := by
  by_cases ha : (ρ.label n).actor = some t
  · have hs := ρ.steps n
    generalize hm' : ρ.state (n + 1) = m' at hs
    generalize hl : ρ.label n = l at hs ha
    cases hs with
    | @spawn t' j hk =>
      cases ha
      simp only [Function.update_self]
      exact ⟨n + 1, le_rfl, rests_self _, h n t j hl (spawned_rests hl hk)⟩
    | @send t' q k hk =>
      cases ha
      rw [hk] at ih
      simp only [Function.update_self]
      obtain ⟨i, hi, hr, hw⟩ := ih
      exact ⟨n, Nat.lt_succ_self n, rests_self _, (hw n hi hr ⟨hl, k, hk⟩).2⟩
    | @read t' id q k c s r hk hw hr =>
      cases ha
      rw [hk] at ih
      simp only [Function.update_self]
      exact ih.resume ⟨id, k, c, hk, .inl ⟨hl, fun h' => by simp [hw] at h', by rw [hm', hr]⟩⟩
    | @answer t' id q q' k c s r hk hw hm hr =>
      cases ha
      have hq := ρ.wire_waiting hk hm
      subst hq
      rw [hk] at ih
      simp only [Function.update_self]
      exact ih.resume ⟨id, k, c, hk, .inl ⟨hl, fun _ => hm, by rw [hm', hr]⟩⟩
    | @lose t' id q k c r hk hw hr =>
      cases ha
      rw [hk] at ih
      simp only [Function.update_self]
      exact ih.resume ⟨id, k, c, hk, .inr ⟨hl, hw, hr⟩⟩
    | crash =>
      cases ha
      simp only [Function.update_self]
      trivial
    | _ => cases ha
  · rw [(ρ.steps n).threads_of_actor_ne ha]
    exact ih.rests ha

/-- Every request of the run meets the demand, when every started program meets it. -/
theorem sends_guarded
    (h : ∀ n t j, ρ.label n = .spawn t j → ρ.rests t 0 (n + 1) →
      ρ.wp G t (S.job j) (n + 1) fun _ _ => True) :
    ∀ n t q, ρ.sends n t q → G n t q := by
  have inv : ∀ n t, Promised ρ G t n ((ρ.state n).threads t) := by
    intro n t
    induction n with
    | zero =>
      rw [ρ.zero]
      trivial
    | succ n ih => exact promised_succ h ih
  intro n t q hs
  obtain ⟨-, k, hk⟩ := id hs
  have hp := inv n t
  rw [hk] at hp
  obtain ⟨i, hi, hr, hw⟩ := hp
  exact (hw n hi hr hs).1

end KovaService.Lib.Run
