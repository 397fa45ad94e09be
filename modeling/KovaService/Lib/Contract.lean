import KovaService.Lib.Prog

/-!
Contracts of a single program.

The program is run by an environment that gives any answer `A` allows, whatever state it is in.
`Ensures A G p Post` says that every request of `p` then satisfies `G`, and its result `Post`.  For a
fallible program only successful results are constrained.
-/

namespace KovaService.Lib

variable {Q : Type} {R : Q → Type} {α β ε τ : Type} {P : Q → Prop}

namespace Prog

variable {A : (q : Q) → R q → Prop} {G : Q → Prop}

def Ensures (A : (q : Q) → R q → Prop) (G : Q → Prop) : Prog Q R α → (α → Prop) → Prop
  | .ret a, Post => Post a
  | .call q k, Post => G q ∧ ∀ r, A q r → (k r).Ensures A G Post

variable {p : Prog Q R α}

theorem ensures_bind {f : α → Prog Q R β} {Post : β → Prop} :
    (p >>= f).Ensures A G Post ↔ p.Ensures A G fun a => (f a).Ensures A G Post := by
  induction p with
  | ret a => exact Iff.rfl
  | call q k ih => exact and_congr_right fun _ => forall₂_congr fun r _ => ih r

theorem Ensures.mono {Post Post' : α → Prop} (h : p.Ensures A G Post) (hP : ∀ a, Post a → Post' a) :
    p.Ensures A G Post' := by
  induction p with
  | ret a => exact hP a h
  | call q k ih => exact ⟨h.1, fun r hr => ih r (h.2 r hr)⟩

theorem ensures_of_never (h : p.Never P) (hG : ∀ q, ¬ P q → G q) : p.Ensures A G fun _ => True := by
  induction p with
  | ret a => trivial
  | call q k ih => exact ⟨hG q h.1, fun r _ => ih r (h.2 r)⟩

theorem Ensures.never {Post : α → Prop} (h : p.Ensures (fun _ _ => True) G Post)
    (hP : ∀ q, G q → ¬ P q) : p.Never P := by
  induction p with
  | ret a => trivial
  | call q k ih => exact ⟨hP q h.1, fun r => ih r (h.2 r trivial)⟩

end Prog

namespace Fallible

variable {A : (q : Q) → R q → Prop} {G : Q → Prop} {p : Fallible Q R ε α} {Post : α → Prop}

def Ensures (A : (q : Q) → R q → Prop) (G : Q → Prop) (p : Fallible Q R ε α) (Post : α → Prop) :
    Prop :=
  p.run.Ensures A G fun x => ∀ a, x = .ok a → Post a

theorem Ensures.mono {Post' : α → Prop} (h : p.Ensures A G Post) (hP : ∀ a, Post a → Post' a) :
    p.Ensures A G Post' :=
  Prog.Ensures.mono h fun _ hx a ha => hP a (hx a ha)

theorem Ensures.bind {f : α → Fallible Q R ε β} {M : α → Prop} {Post : β → Prop}
    (h : p.Ensures A G M) (hf : ∀ a, M a → (f a).Ensures A G Post) :
    (p >>= f).Ensures A G Post := by
  unfold Ensures
  rw [run_bind, Prog.ensures_bind]
  refine Prog.Ensures.mono h fun x hx => ?_
  cases x with
  | ok a => exact hf a (hx a rfl)
  | error e => exact fun a ha => by cases ha

theorem Ensures.attempt {f : Except ε α → Fallible Q R ε β} {M : α → Prop} {Post : β → Prop}
    (h : p.Ensures A G M) (hok : ∀ a, M a → (f (.ok a)).Ensures A G Post)
    (herr : ∀ e, (f (.error e)).Ensures A G Post) : (p.attempt >>= f).Ensures A G Post := by
  unfold Ensures
  rw [run_bind, run_attempt, Prog.ensures_bind, Prog.ensures_bind]
  refine Prog.Ensures.mono h fun x hx => ?_
  cases x with
  | ok a => exact hok a (hx a rfl)
  | error e => exact herr e

theorem ensures_pure {a : α} (h : Post a) : (pure a : Fallible Q R ε α).Ensures A G Post :=
  fun _ hb => Except.ok.inj hb ▸ h

theorem ensures_throw (e : ε) : (throw e : Fallible Q R ε α).Ensures A G Post :=
  fun _ h => by cases h

theorem ensures_failIf {c : Bool} {e : ε} {P : Unit → Prop} (h : c = false → P ()) :
    (failIf c e : Fallible Q R ε Unit).Ensures A G P := by
  cases c with
  | true => exact ensures_throw e
  | false => exact ensures_pure (h rfl)

theorem ensures_of_never (h : p.run.Never P) (hG : ∀ q, ¬ P q → G q) :
    p.Ensures A G fun _ => True :=
  (Prog.ensures_of_never h hG).mono fun _ _ _ _ => trivial

theorem ensures_retry {busy : ε} {body : Nat → τ → Fallible Q R ε (Round τ α)} (I : τ → Prop)
    (hbody : ∀ n s, I s → (body n s).Ensures A G fun
      | .done a => Post a
      | .again s' => I s')
    (fuel n : Nat) {s : τ} (hs : I s) : (retry busy body fuel n s).Ensures A G Post := by
  induction fuel generalizing n s with
  | zero => exact ensures_throw busy
  | succ fuel ih =>
    refine (hbody n s hs).bind fun r hr => ?_
    cases r with
    | done a => exact ensures_pure hr
    | again s' => exact ih (n + 1) hr

end Fallible

variable {m : Except ε α} {f : α → Except ε β}

theorem bind_ok {b : β} (h : (m >>= f) = .ok b) : ∃ a, m = .ok a ∧ f a = .ok b := by
  cases m with
  | error e => cases h
  | ok a => exact ⟨a, rfl, h⟩

theorem bind_of_ok {a : α} {b : Except ε β} (h : m = .ok a) (hf : f a = b) : (m >>= f) = b := by
  rw [h]
  exact hf

theorem ok_bind {a : α} (h : m = .ok a) (f : α → Except ε β) : (m >>= f) = f a := by
  rw [h]
  rfl

/-- A loop that succeeds keeps the invariant its steps keep; it may depend on the elements done. -/
theorem foldlM_invariant {f : τ → β → Except ε τ} {l : List β} {s s' : τ} (I : List β → τ → Prop)
    (hf : ∀ front b s s', I front s → f s b = .ok s' → I (front ++ [b]) s') (h₀ : I [] s)
    (h : l.foldlM f s = .ok s') : I l s' := by
  suffices hs : ∀ rest front s, I front s → rest.foldlM f s = .ok s' → I (front ++ rest) s' from
    hs l [] s h₀ h
  intro rest
  induction rest with
  | nil =>
    intro front s hi he
    cases he
    rwa [List.append_nil]
  | cons b rest ih =>
    intro front s hi he
    rw [List.foldlM_cons] at he
    cases hb : f s b with
    | error e =>
      rw [hb] at he
      cases he
    | ok s₁ =>
      rw [hb] at he
      have hrest := ih (front ++ [b]) s₁ (hf front b s s₁ hi hb) he
      rwa [List.append_assoc] at hrest

theorem forall_snoc {P : β → Prop} {l : List β} {b : β} (h : ∀ x ∈ l, P x) (hb : P b) :
    ∀ x ∈ l ++ [b], P x :=
  List.forall_mem_append.mpr ⟨h, List.forall_mem_singleton.mpr hb⟩

variable {κ : Type} {r : κ → κ → Prop} {keys : List κ} {last : Option κ} {k : κ}

/-- Increasing keys, the last of which is known. -/
structure Increasing (r : κ → κ → Prop) (keys : List κ) (last : Option κ) : Prop where
  sorted : keys.Pairwise r
  reach : ∀ k ∈ keys, ∃ m, last = some m ∧ (k = m ∨ r k m)

theorem Increasing.snoc [IsTrans κ r] (h : Increasing r keys last) (hk : ∀ m, last = some m → r m k) :
    Increasing r (keys ++ [k]) (some k) := by
  have hlt : ∀ a ∈ keys, r a k := by
    intro a ha
    obtain ⟨m, hm, rfl | ham⟩ := h.reach a ha
    · exact hk a hm
    · exact trans_of r ham (hk m hm)
  refine ⟨List.pairwise_append.mpr ⟨h.sorted, List.pairwise_singleton r k, by simpa using hlt⟩, ?_⟩
  intro a ha
  rcases List.mem_append.mp ha with ha | ha
  · exact ⟨k, rfl, .inr (hlt a ha)⟩
  · exact ⟨k, rfl, .inl (List.mem_singleton.mp ha)⟩

end KovaService.Lib
