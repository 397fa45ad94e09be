import KovaService.Lib.Contract

/-!
A single program against an environment that may answer anything, and the requests it has issued.

`Guarded G p h Post` says of a program that is about to run with history `h` that it issues every
request only when `G` holds of the history before it, and that `Post` holds of the history and the
result at its end.  `Exec` adds a state that survives a failure.
-/

namespace KovaService.Lib

variable {Q : Type} {R : Q → Type} {σ ε α β : Type} {p : Prog Q R α}

abbrev Event (Q : Type) (R : Q → Type) : Type := (q : Q) × R q

variable {tr' : List (Event Q R)}

namespace Prog

variable {h : List (Event Q R)} {Post : List (Event Q R) → α → Prop} {tr : List (Event Q R)}

/-- The program may issue these requests and get these answers, and then go on or stop. -/
inductive Plays : Prog Q R α → List (Event Q R) → Prop
  | nil (p : Prog Q R α) : Plays p []
  | call {q : Q} {k : R q → Prog Q R α} {r : R q} {tr : List (Event Q R)}
      (h : Plays (k r) tr) : Plays (.call q k) (⟨q, r⟩ :: tr)

/-- With these answers the program returns the result. -/
inductive Ends : Prog Q R α → List (Event Q R) → α → Prop
  | ret (a : α) : Ends (.ret a) [] a
  | call {q : Q} {k : R q → Prog Q R α} {r : R q} {tr : List (Event Q R)} {a : α}
      (h : Ends (k r) tr a) : Ends (.call q k) (⟨q, r⟩ :: tr) a

/-- The history and the result when the answers are given by a function of the history. -/
def play (answer : List (Event Q R) → (q : Q) → R q) :
    Prog Q R α → List (Event Q R) → List (Event Q R) × α
  | .ret a, h => (h, a)
  | .call q k, h => (k (answer h q)).play answer (h ++ [⟨q, answer h q⟩])

theorem ends_play (answer : List (Event Q R) → (q : Q) → R q) (p : Prog Q R α)
    (h : List (Event Q R)) :
    ∃ tr, (p.play answer h).1 = h ++ tr ∧ p.Ends tr (p.play answer h).2 := by
  induction p generalizing h with
  | ret a => exact ⟨[], by simp [play], .ret a⟩
  | call q k ih =>
    obtain ⟨tr, htr, hend⟩ := ih (answer h q) (h ++ [⟨q, answer h q⟩])
    exact ⟨⟨q, answer h q⟩ :: tr, by simpa [play] using htr, .call hend⟩

theorem Plays.of_append (hp : p.Plays (tr ++ tr')) : p.Plays tr := by
  induction tr generalizing p with
  | nil => exact .nil p
  | cons e tr ih =>
    cases hp with
    | call hp => exact .call (ih hp)

variable {a : α}

theorem Ends.plays (hp : p.Ends tr a) : p.Plays tr := by
  induction hp with
  | ret a => exact .nil _
  | call _ ih => exact .call ih

def Guarded (G : List (Event Q R) → Q → Prop) :
    Prog Q R α → List (Event Q R) → (List (Event Q R) → α → Prop) → Prop
  | .ret a, h, Post => Post h a
  | .call q k, h, Post => G h q ∧ ∀ r, (k r).Guarded G (h ++ [⟨q, r⟩]) Post

variable {G : List (Event Q R) → Q → Prop}

theorem Guarded.issued (hp : p.Guarded G h Post) {e : Event Q R} (ht : p.Plays (tr ++ [e])) : G
    (h ++ tr) e.1 := by
  induction tr generalizing p h with
  | nil =>
    cases ht with
    | call _ => simpa using hp.1
  | cons e' tr ih =>
    cases ht with
    | call ht => simpa using ih (hp.2 _) ht

theorem Guarded.ended (hp : p.Guarded G h Post) (he : p.Ends tr a) : Post (h ++ tr) a := by
  induction he generalizing h with
  | ret a =>
    rw [List.append_nil]
    exact hp
  | call _ ih => simpa using ih (hp.2 _)

theorem Ensures.ended {G : Q → Prop} {Post : α → Prop} (hp : p.Ensures (fun _ _ => True) G Post)
    (he : p.Ends tr a) : Post a := by
  induction he with
  | ret a => exact hp
  | call _ ih => exact ih (hp.2 _ trivial)

theorem guarded_bind {Post : List (Event Q R) → β → Prop} :
    (p >>= f).Guarded G h Post ↔ p.Guarded G h fun h' a => (f a).Guarded G h' Post := by
  induction p generalizing h with
  | ret a => exact Iff.rfl
  | call q k ih => exact and_congr_right fun _ => forall_congr' fun r => ih r

theorem Guarded.mono {Post' : List (Event Q R) → α → Prop} (hp : p.Guarded G h Post)
    (hP : ∀ h' a, Post h' a → Post' h' a) : p.Guarded G h Post' := by
  induction p generalizing h with
  | ret a => exact hP h a hp
  | call q k ih => exact ⟨hp.1, fun r => ih r (hp.2 r)⟩

theorem Guarded.weaken {G' : List (Event Q R) → Q → Prop} (hp : p.Guarded G h Post)
    (hG : ∀ h q, G h q → G' h q) : p.Guarded G' h Post := by
  induction p generalizing h with
  | ret a => exact hp
  | call q k ih => exact ⟨hG _ _ hp.1, fun r => ih r (hp.2 r)⟩

theorem guarded_trivial (p : Prog Q R α) (h : List (Event Q R)) :
    p.Guarded (fun _ _ => True) h fun _ _ => True := by
  induction p generalizing h with
  | ret a => trivial
  | call q k ih => exact ⟨trivial, fun r => ih r _⟩

end Prog

/-- Programs with a state that may fail; a failure keeps the state. -/
abbrev Exec (Q : Type) (R : Q → Type) (σ ε : Type) : Type → Type :=
  ExceptT ε (StateT σ (Prog Q R))

namespace Exec

def request (q : Q) : Exec Q R σ ε (R q) :=
  ExceptT.mk fun s => .call q fun r => .ret (.ok r, s)

def failIf (c : Bool) (e : ε) : Exec Q R σ ε Unit :=
  if c then throw e else pure ()

def attempt (p : Exec Q R σ ε α) : Exec Q R σ ε (Except ε α) :=
  ExceptT.mk do
    let r ← p.run
    pure (.ok r)

variable (G : List (Event Q R) → Q → Prop)

/-- From a history and a state the program keeps to `G`, and its outcome satisfies `Post`. -/
def Runs (p : Exec Q R σ ε α) (h : List (Event Q R)) (s : σ)
    (Post : Except ε α → List (Event Q R) → σ → Prop) : Prop :=
  Prog.Guarded G (p.run.run s) h fun h' x => Post x.1 h' x.2

section Runs

variable {G} {h : List (Event Q R)} {s : σ} {e : ε} {p : Exec Q R σ ε β}
variable {Post : Except ε α → List (Event Q R) → σ → Prop}
variable {Mid : Except ε β → List (Event Q R) → σ → Prop}

theorem runs_pure (hp : Post (.ok a) h s) : Runs G (pure a : Exec Q R σ ε α) h s Post := hp

theorem runs_throw (hp : Post (.error e) h s) : Runs G (throw e : Exec Q R σ ε α) h s Post := hp

theorem runs_request {q : Q} {f : R q → Exec Q R σ ε α} (hq : G h q)
    (hp : ∀ r, Runs G (f r) (h ++ [⟨q, r⟩]) s Post) : Runs G (request q >>= f) h s Post := ⟨hq, hp⟩

theorem runs_get {f : σ → Exec Q R σ ε α} (hp : Runs G (f s) h s Post) :
    Runs G (get >>= f) h s Post := hp

theorem runs_modify {g : σ → σ} {f : PUnit → Exec Q R σ ε α} (hp : Runs G (f ⟨⟩) h (g s) Post) :
    Runs G (modify g >>= f) h s Post := hp

theorem Runs.mono {Mid' : Except ε β → List (Event Q R) → σ → Prop} (hp : Runs G p h s Mid)
    (hP : ∀ r h' s', Mid r h' s' → Mid' r h' s') : Runs G p h s Mid' :=
  Prog.Guarded.mono hp fun h' x hx => hP x.1 h' x.2 hx

theorem runs_bind {f : β → Exec Q R σ ε α} (hp : Runs G p h s Mid)
    (hf : ∀ a h' s', Mid (.ok a) h' s' → Runs G (f a) h' s' Post)
    (he : ∀ e h' s', Mid (.error e) h' s' → Post (.error e) h' s') :
    Runs G (p >>= f) h s Post := by
  unfold Runs
  refine Prog.guarded_bind.mpr (Prog.Guarded.mono hp fun h' x hx => ?_)
  obtain ⟨r, s'⟩ := x
  cases r with
  | ok a => exact hf a h' s' hx
  | error e => exact he e h' s' hx

theorem runs_attempt {f : Except ε β → Exec Q R σ ε α} (hp : Runs G p h s Mid)
    (hf : ∀ r h' s', Mid r h' s' → Runs G (f r) h' s' Post) :
    Runs G (p.attempt >>= f) h s Post := by
  have ha : Runs G p.attempt h s fun r h' s' => ∃ r', r = .ok r' ∧ Mid r' h' s' :=
    Prog.guarded_bind.mpr (Prog.Guarded.mono hp fun _ _ hx => ⟨_, rfl, hx⟩)
  refine runs_bind ha ?_ ?_
  · rintro _ h' s' ⟨r, hr, hm⟩
    cases hr
    exact hf _ h' s' hm
  · rintro _ h' s' ⟨r, hr, -⟩
    cases hr

end Runs

/-- The program keeps to `G`, and ends with `Post` or, on failure, with `Fail`. -/
def Guarded (p : Exec Q R σ ε α) (h : List (Event Q R)) (s : σ)
    (Post : α → List (Event Q R) → σ → Prop) (Fail : List (Event Q R) → σ → Prop) : Prop :=
  Runs G p h s fun r h' s' =>
    match r with
    | .ok a => Post a h' s'
    | .error _ => Fail h' s'

variable {G} {h : List (Event Q R)} {s : σ} {Fail : List (Event Q R) → σ → Prop}

theorem guarded_pure {Post : α → List (Event Q R) → σ → Prop} (hp : Post a h s) :
    Guarded G (pure a : Exec Q R σ ε α) h s Post Fail := hp

variable {e : ε}

theorem guarded_throw {Post : α → List (Event Q R) → σ → Prop} (hf : Fail h s) :
    Guarded G (throw e : Exec Q R σ ε α) h s Post Fail := hf

variable {Post : β → List (Event Q R) → σ → Prop} {p : Exec Q R σ ε α} {f : α → Exec Q R σ ε β}

theorem guarded_bind (hp : Guarded G p h s (fun a h' s' => Guarded G (f a) h' s' Post Fail) Fail) :
    Guarded G (p >>= f) h s Post Fail :=
  runs_bind hp (fun _ _ _ hf => hf) fun _ _ _ hf => hf

theorem Guarded.mono {Post Post' : α → List (Event Q R) → σ → Prop} (hp : Guarded G p h s Post Fail)
    (hP : ∀ a h' s', Post a h' s' → Post' a h' s') :
    Guarded G p h s Post' Fail :=
  Runs.mono hp fun r h' s' hx => by
    cases r with
    | ok a => exact hP a h' s' hx
    | error e => exact hx

theorem Guarded.andThen {Mid : α → List (Event Q R) → σ → Prop} (hp : Guarded G p h s Mid Fail)
    (hf : ∀ a h' s', Mid a h' s' → Guarded G (f a) h' s' Post Fail) :
    Guarded G (p >>= f) h s Post Fail :=
  guarded_bind (hp.mono hf)

theorem guarded_request {q : Q} {Post : R q → List (Event Q R) → σ → Prop} (hq : G h q)
    (hp : ∀ r, Post r (h ++ [⟨q, r⟩]) s) :
    Guarded G (request q : Exec Q R σ ε (R q)) h s Post Fail := ⟨hq, hp⟩

theorem guarded_get {Post : σ → List (Event Q R) → σ → Prop} (hp : Post s h s) :
    Guarded G (get : Exec Q R σ ε σ) h s Post Fail := hp

theorem guarded_modify {f : σ → σ} {Post : PUnit → List (Event Q R) → σ → Prop}
    (hp : Post ⟨⟩ h (f s)) : Guarded G (modify f : Exec Q R σ ε PUnit) h s Post Fail := hp

theorem guarded_failIf {c : Bool} {Post : Unit → List (Event Q R) → σ → Prop} (hf : c → Fail h s)
    (hp : c = false → Post () h s) :
    Guarded G (failIf c e : Exec Q R σ ε Unit) h s Post Fail := by
  cases c with
  | true => exact guarded_throw (hf rfl)
  | false => exact guarded_pure (hp rfl)

theorem guarded_unless {c : Bool} {f : Unit → Exec Q R σ ε β} (hf : Fail h s)
    (hp : c = false → Guarded G (f ()) h s Post Fail) : Guarded G (failIf c e >>= f) h s Post Fail :=
  guarded_bind (guarded_failIf (fun _ => hf) hp)

theorem guarded_foldlM {τ : Type} {l : List β} {f : τ → β → Exec Q R σ ε τ} {t : τ}
    (I : List β → τ → List (Event Q R) → σ → Prop)
    (hf : ∀ front b rest, l = front ++ b :: rest → ∀ t h s, I front t h s →
      Guarded G (f t b) h s (I (front ++ [b])) Fail) (h₀ : I [] t h s) :
    Guarded G (l.foldlM f t) h s (I l) Fail := by
  suffices hs : ∀ rest front, l = front ++ rest → ∀ t h s, I front t h s →
      Guarded G (rest.foldlM f t) h s (I l) Fail from hs l [] rfl t h s h₀
  intro rest
  induction rest with
  | nil =>
    intro front hl t h s hi
    obtain rfl : l = front := by simpa using hl
    exact guarded_pure hi
  | cons b rest ih =>
    intro front hl t h s hi
    rw [List.foldlM_cons]
    refine (hf front b rest hl t h s hi).andThen fun t' h' s' hi' => ?_
    exact ih (front ++ [b]) (by simpa using hl) t' h' s' hi'

theorem guarded_forM {l : List β} {f : β → Exec Q R σ ε PUnit}
    (I : List β → List (Event Q R) → σ → Prop)
    (hf : ∀ front b rest, l = front ++ b :: rest → ∀ h s, I front h s →
      Guarded G (f b) h s (fun _ => I (front ++ [b])) Fail) (h₀ : I [] h s) :
    Guarded G (l.forM f) h s (fun _ => I l) Fail := by
  have heq : l.forM f = l.foldlM (fun _ b => f b) ⟨⟩ := by
    clear hf
    induction l with
    | nil => rfl
    | cons b l ih => exact congrArg (f b >>= ·) (funext fun _ => ih)
  rw [heq]
  exact guarded_foldlM (fun front _ => I front) (fun front b rest hl _ => hf front b rest hl) h₀

end Exec

end KovaService.Lib
