import KovaService.Lib.Trace
import KovaService.Fairness.Order

/-!
What the result of `PatchLedgerData` says about its Patch.

The calls of one `PatchLedgerData`, the reads of its checks included, are answered by a world in
which other writers do what they like with the ledger object, and in which a Patch that failed
without a clear answer may still take effect.  The world evaluates the body it is sent.  A result
that a caller could take for success or contention leaves few possibilities for the calls
(`Traced`), and the fate of the Patch is read off them.
-/

namespace KovaService.Protocol.Patch

open Lib Api KovaService.Ledger Controller

/-- A call as the ledger sees it; of a call for another object only its failure counts. -/
inductive Call (D : Type) where
  | read (r : Ans (Stored D))
  | patch (body : List (PatchOp D)) (r : Ans (Stored D))
  | other (r : Ans Unit)

variable {D : Type}

namespace Call

def conflicts : Call D → Bool
  | .read (.error e) => e.isConflict
  | .patch _ (.error e) => e.isConflict
  | .other (.error e) => e.isConflict
  | _ => false

def isPatch : Call D → Bool
  | .patch .. => true
  | _ => false

def elsewhere : Call D → Bool
  | .other _ => true
  | _ => false

end Call

/-- What has become of the Patch; a committed one is known by the objects before and after it. -/
inductive Fate (D : Type) where
  | unsent
  | pending (body : List (PatchOp D))
  | refused
  | committed (old new : Stored D)

structure World (D : Type) where
  ledger : Option (Stored D)
  used : List UID
  fate : Fate D

abbrev Calls (D : Type) := List (World D × Call D)

section Worlds

variable [DecidableEq D]

def World.commit (w : World D) (old new : Stored D) : World D :=
  { w with ledger := some new, fate := .committed old new }

/-- What happens between the calls.  A UID is never given to a second object. -/
inductive Moves : World D → World D → Prop
  | write {w : World D} (now : Option (Stored D))
      (h : ∀ l, now = some l → w.ledger.map Stored.uid = some l.uid ∨ l.uid ∉ w.used) :
      Moves w { w with ledger := now, used := now.toList.map Stored.uid ++ w.used }
  | late {w : World D} {body : List (PatchOp D)} {l l' : Stored D} (rv : Nat)
      (hf : w.fate = .pending body) (hl : w.ledger = some l) (ha : applyPatch body l = some l') :
      Moves w (w.commit l { l' with resourceVersion := rv })

/-- How a call is answered.  Nothing is assumed of the other objects. -/
inductive Serves : World D → Call D → World D → Prop
  | read {w : World D} {l : Stored D} (hl : w.ledger = some l) : Serves w (.read (.ok l)) w
  | unread {w : World D} (e : Err) : Serves w (.read (.error e)) w
  | other {w : World D} (r : Ans Unit) : Serves w (.other r) w
  | patch {w : World D} {body : List (PatchOp D)} {l l' : Stored D} (rv : Nat)
      (hf : w.fate = .unsent) (hl : w.ledger = some l) (ha : applyPatch body l = some l') :
      Serves w (.patch body (.ok { l' with resourceVersion := rv }))
        (w.commit l { l' with resourceVersion := rv })
  | refuse {w : World D} {body : List (PatchOp D)} {e : Err} (hf : w.fate = .unsent)
      (he : e.reason = some .conflict ∨ e.reason = some .invalid) :
      Serves w (.patch body (.error e)) { w with fate := .refused }
  | fail {w : World D} {body : List (PatchOp D)} {e : Err} (hf : w.fate = .unsent)
      (he : ¬ (e.reason = some .conflict ∨ e.reason = some .invalid)) :
      Serves w (.patch body (.error e)) { w with fate := .pending body }

inductive Lives : World D → Calls D → World D → Prop
  | nil (w : World D) : Lives w [] w
  | move {w w₁ w' : World D} {tr : Calls D} (h : Moves w w₁) (ht : Lives w₁ tr w') : Lives w tr w'
  | call {w w₁ w' : World D} {c : Call D} {tr : Calls D}
      (h : Serves w c w₁) (ht : Lives w₁ tr w') : Lives w ((w, c) :: tr) w'

def NeverCommitted (w : World D) : Prop :=
  ∀ w', Lives w [] w' → ∀ old new, w'.fate ≠ .committed old new

end Worlds

section Statements

variable (cm : Stored D) (next : D)

structure Tests (l : Stored D) : Prop where
  uid : l.uid = cm.uid
  resourceVersion : l.resourceVersion = cm.resourceVersion
  data : l.data = cm.data

/-- The ledger was another object when one of the calls reached it. -/
def Replaced (tr : Calls D) : Prop :=
  ∃ c ∈ tr, c.2.elsewhere = false ∧ ∃ l, c.1.ledger = some l ∧ l.uid ≠ cm.uid

def ConflictAfter (tr : Calls D) : Prop :=
  ∃ before w body u after, tr = before ++ (w, .patch body (.ok u)) :: after ∧
    ∃ c ∈ after, c.2.conflicts

structure Outcome [DecidableEq D] (tr : Calls D) (r : Ans Unit) (w' : World D) : Prop where
  committed : r = .ok () → ∃ l rv,
    w'.fate = .committed l { l with resourceVersion := rv, data := next } ∧ Tests cm l
  contention : ∀ e, r = .error e → e.isConflict → NeverCommitted w' ∨ ConflictAfter tr
  replaced : Replaced cm tr → r ≠ .ok () ∧
    ∀ e, r = .error e → e.isConflict → ∃ c ∈ tr, c.2.conflicts

end Statements

section Bodies

variable [DecidableEq D] {cm l l' : Stored D} {next : D}

theorem applyPatch_uid {body : List (PatchOp D)} (h : applyPatch body l = some l') :
    l'.uid = l.uid := by
  induction body generalizing l with
  | nil =>
    cases h
    rfl
  | cons op body ih =>
    rw [applyPatch, List.foldlM_cons, Option.bind_eq_bind, Option.bind_eq_some_iff] at h
    obtain ⟨l₁, hop, hrest⟩ := h
    rw [ih hrest]
    cases op with
    | replaceData =>
      cases hop
      rfl
    | _ =>
      simp only [PatchOp.apply, Option.ite_none_right_eq_some, Option.some.injEq] at hop
      rw [hop.2]

/-- The body of `PatchLedgerData` applies to what it was computed from and to nothing else. -/
theorem applyPatch_ledgerPatch (h : applyPatch (ledgerPatch cm next) l = some l') :
    Tests cm l ∧ l' = { l with data := next } := by
  simp only [applyPatch, ledgerPatch, List.foldlM_cons, List.foldlM_nil, PatchOp.apply,
    Option.bind_eq_bind, Option.bind_eq_some_iff, Option.ite_none_right_eq_some,
    Option.some.injEq] at h
  obtain ⟨_, ⟨hu, rfl⟩, _, ⟨hv, rfl⟩, _, ⟨hd, rfl⟩, _, rfl, hl⟩ := h
  exact ⟨⟨hu, hv, hd⟩, (Option.some.inj hl).symm⟩

end Bodies

section Runs

variable [DecidableEq D] {cm u : Stored D} {next : D} {w w₁ w' : World D} {tr : Calls D}
variable {body : List (PatchOp D)}

theorem Lives.at {before after : Calls D} {p : World D × Call D}
    (h : Lives w (before ++ p :: after) w') :
    ∃ w₁, Lives w before p.1 ∧ Serves p.1 p.2 w₁ ∧ Lives w₁ after w' := by
  generalize htr : before ++ p :: after = tr at h
  induction h generalizing before with
  | nil => simp at htr
  | move hm _ ih =>
    obtain ⟨w₁, hbefore, hrest⟩ := ih htr
    exact ⟨w₁, .move hm hbefore, hrest⟩
  | call hs ht ih =>
    cases before with
    | nil =>
      cases htr
      exact ⟨_, .nil _, hs, ht⟩
    | cons q before =>
      cases htr
      obtain ⟨w₁, hbefore, hrest⟩ := ih rfl
      exact ⟨w₁, .call hs hbefore, hrest⟩

/-- A Patch that is decided, or that is not sent in these calls, keeps its fate. -/
theorem fate_kept (h : Lives w tr w') (hf : ∀ body, w.fate ≠ .pending body)
    (hsent : w.fate = .unsent → ∀ c ∈ tr, c.2.isPatch = false) : w'.fate = w.fate := by
  induction h with
  | nil => rfl
  | move hm _ ih =>
    cases hm with
    | write => exact ih hf hsent
    | late _ hp => exact absurd hp (hf _)
  | call hs _ ih =>
    cases hs with
    | patch _ hu => cases hsent hu _ List.mem_cons_self
    | refuse hu => cases hsent hu _ List.mem_cons_self
    | fail hu => cases hsent hu _ List.mem_cons_self
    | _ => exact ih hf fun hu c hc => hsent hu c (List.mem_cons_of_mem _ hc)

theorem neverCommitted_of_fate (hf : w.fate = .refused ∨ w.fate = .unsent) : NeverCommitted w := by
  intro w' h old new hl
  have hkept := fate_kept h (by rcases hf with hf | hf <;> simp [hf]) (by simp)
  rcases hf with hf | hf <;> simp [hkept, hf] at hl

theorem committed_of_patch (h : Lives w tr w')
    (hc : .patch (ledgerPatch cm next) (.ok u) ∈ tr.map Prod.snd) :
    ∃ l rv, w'.fate = .committed l { l with resourceVersion := rv, data := next } ∧ Tests cm l := by
  obtain ⟨⟨w₀, c⟩, hmem, rfl⟩ := List.mem_map.mp hc
  obtain ⟨before, after, rfl⟩ := List.append_of_mem hmem
  obtain ⟨w₁, -, hs, hafter⟩ := h.at
  cases hs with
  | patch rv _ _ ha =>
    obtain ⟨htests, rfl⟩ := applyPatch_ledgerPatch ha
    exact ⟨_, rv, fate_kept hafter (by simp [World.commit]) (by simp [World.commit]), htests⟩

variable {e : Err}

theorem refused_of_patch (h : Lives w tr w') (hc : .patch body (.error e) ∈ tr.map Prod.snd)
    (he : e.reason = some .conflict ∨ e.reason = some .invalid) : w'.fate = .refused := by
  obtain ⟨⟨w₀, c⟩, hmem, rfl⟩ := List.mem_map.mp hc
  obtain ⟨before, after, rfl⟩ := List.append_of_mem hmem
  obtain ⟨w₁, -, hs, hafter⟩ := h.at
  cases hs with
  | refuse => exact fate_kept hafter (by simp) (by simp)
  | fail _ hn => exact absurd he hn

def Gone (cm : Stored D) (w : World D) : Prop :=
  cm.uid ∈ w.used ∧ w.ledger.map Stored.uid ≠ some cm.uid

theorem Gone.commit {l l' : Stored D} {rv : Nat} (hg : Gone cm w) (hl : w.ledger = some l)
    (ha : applyPatch body l = some l') : Gone cm (w.commit l { l' with resourceVersion := rv }) := by
  refine ⟨hg.1, fun h => hg.2 ?_⟩
  have hu : l'.uid = cm.uid := Option.some.inj h
  rw [hl, ← hu, applyPatch_uid ha]
  rfl

theorem gone_kept (h : Lives w tr w') (hg : Gone cm w) : Gone cm w' := by
  induction h with
  | nil => exact hg
  | move hm _ ih =>
    refine ih ?_
    cases hm with
    | write now hnow =>
      refine ⟨List.mem_append_right _ hg.1, fun hback => ?_⟩
      obtain ⟨l, rfl, hu⟩ := Option.map_eq_some_iff.mp hback
      rcases hnow l rfl with h | h
      · exact hg.2 (hu ▸ h)
      · exact h (hu ▸ hg.1)
    | late _ _ hl ha => exact hg.commit hl ha
  | call hs _ ih =>
    cases hs with
    | patch _ _ hl ha => exact ih (hg.commit hl ha)
    | _ => exact ih hg

variable {uid : UID}

theorem used_kept (h : Lives w tr w') (hu : uid ∈ w.used) : uid ∈ w'.used := by
  induction h with
  | nil => exact hu
  | move hm _ ih =>
    cases hm with
    | write => exact ih (List.mem_append_right _ hu)
    | late => exact ih hu
  | call hs _ ih => cases hs <;> exact ih hu

end Runs

def Elsewhere (calls : List (Call D)) : Prop := ∀ c ∈ calls, c.elsewhere

/-- The last call to the ledger has read the object with this UID. -/
def Vouched (uid : UID) (calls : List (Call D)) : Prop :=
  ∃ before l after, calls = before ++ .read (.ok l) :: after ∧ l.uid = uid ∧ Elsewhere after

variable {calls : List (Call D)}

theorem Vouched.front (front : List (Call D)) (h : Vouched uid calls) :
    Vouched uid (front ++ calls) := by
  obtain ⟨before, l, after, rfl, hu, hafter⟩ := h
  exact ⟨front ++ before, l, after, by simp, hu, hafter⟩

theorem Vouched.back {rest : List (Call D)} (h : Vouched uid calls) (hrest : Elsewhere rest) :
    Vouched uid (calls ++ rest) := by
  obtain ⟨before, l, after, rfl, hu, hafter⟩ := h
  refine ⟨before, l, after ++ rest, by simp, hu, fun c hc => ?_⟩
  exact (List.mem_append.mp hc).elim (hafter c) (hrest c)

/-- Whoever finds the original object in the end has found it at every call before. -/
theorem not_replaced [DecidableEq D] {cm : Stored D} {w w' : World D} {tr : Calls D}
    (h : Lives w tr w') (hu : cm.uid ∈ w.used) (hv : Vouched cm.uid (tr.map Prod.snd)) :
    ¬ Replaced cm tr := by
  obtain ⟨calls, l, calls', htr, hown, helse⟩ := hv
  obtain ⟨front, rest, rfl, -, hrest⟩ := List.map_eq_append_iff.mp htr
  obtain ⟨⟨wₗ, c⟩, back, rfl, rfl, rfl⟩ := List.map_eq_cons_iff.mp hrest
  obtain ⟨w₁, hfront, hs, -⟩ := h.at
  have hread : wₗ.ledger = some l := by
    cases hs with
    | read hl => exact hl
  rintro ⟨⟨w₀, c⟩, hmem, hc, l₀, hl₀, hne⟩
  rcases List.mem_append.mp hmem with hmem | hmem
  · obtain ⟨before, after, rfl⟩ := List.append_of_mem hmem
    obtain ⟨w₂, hbefore, hs, hafter⟩ := hfront.at
    have hother : w₀.ledger.map Stored.uid ≠ some cm.uid := by
      rw [hl₀]
      exact fun h => hne (Option.some.inj h)
    have hgone : Gone cm w₀ := ⟨used_kept hbefore hu, hother⟩
    exact (gone_kept (.call hs hafter) hgone).2 (by simp [hread, hown])
  · rcases List.mem_cons.mp hmem with hmem | hmem
    · cases hmem
      rw [hread] at hl₀
      exact hne (Option.some.inj hl₀ ▸ hown)
    · have hother := helse c (List.mem_map.mpr ⟨_, hmem, rfl⟩)
      rw [hc] at hother
      cases hother

section Programs

variable {Q : Type} {R : Q → Type} {α β : Type} (call : Event Q R → Call D)

/-- Whenever the program returns, its calls and its result are so related. -/
def Says (p : Fallible Q R Err α) (S : List (Call D) → Ans α → Prop) : Prop :=
  ∀ tr r, p.run.Ends tr r → S (tr.map call) r

variable {call} {p : Fallible Q R Err α} {f : α → Fallible Q R Err β}
variable {S : List (Call D) → Ans α → Prop} {T : List (Call D) → Ans β → Prop}

variable {tr : List (Event Q R)}

theorem ends_bind {p : Prog Q R α} {f : α → Prog Q R β} {b : β} (h : (p >>= f).Ends tr b) :
    ∃ tr₁ tr₂ a, tr = tr₁ ++ tr₂ ∧ p.Ends tr₁ a ∧ (f a).Ends tr₂ b := by
  induction p generalizing tr with
  | ret a => exact ⟨[], tr, a, rfl, .ret a, h⟩
  | call q k ih =>
    cases h with
    | call h =>
      obtain ⟨tr₁, tr₂, a, rfl, h₁, h₂⟩ := ih _ h
      exact ⟨_ :: tr₁, tr₂, a, rfl, .call h₁, h₂⟩

theorem Says.bind (hp : Says call p S) (hfail : ∀ c e, S c (.error e) → T c (.error e))
    (hok : ∀ c a, S c (.ok a) → Says call (f a) fun c' r => T (c ++ c') r) :
    Says call (p >>= f) T := by
  intro tr r h
  rw [Fallible.run_bind] at h
  obtain ⟨tr₁, tr₂, a, rfl, h₁, h₂⟩ := ends_bind h
  rw [List.map_append]
  cases a with
  | error e =>
    cases h₂
    simpa using hfail _ e (hp _ _ h₁)
  | ok a => exact hok _ a (hp _ _ h₁) _ _ h₂

theorem Says.attempt {f : Ans α → Fallible Q R Err β} (hp : Says call p S)
    (hf : ∀ c a, S c a → Says call (f a) fun c' r => T (c ++ c') r) :
    Says call (p.attempt >>= f) T := by
  refine Says.bind (S := fun c r => ∃ a, r = .ok a ∧ S c a) (fun tr r h => ?_) ?_ ?_
  · rw [Fallible.run_attempt] at h
    obtain ⟨tr₁, tr₂, a, rfl, h₁, h₂⟩ := ends_bind h
    cases h₂
    exact ⟨a, rfl, by simpa using hp _ _ h₁⟩
  · rintro c e ⟨a, ha, -⟩
    cases ha
  · rintro c a ⟨a', ha, h⟩
    cases ha
    exact hf c a h

theorem Says.mono {S' : List (Call D) → Ans α → Prop} (hp : Says call p S)
    (h : ∀ c r, S c r → S' c r) : Says call p S' :=
  fun tr r hr => h _ _ (hp tr r hr)

variable {r : Ans α}

theorem says_ofAns (h : S [] r) : Says call (ofAns r) S := by
  rintro tr r' ⟨⟩
  exact h

theorem calls_perform {q : Q} {x : R q → Call D} {r : R q} (h : ∀ r, call ⟨q, r⟩ = x r)
    (hr : (Prog.perform q).Ends tr r) : tr.map call = [x r] := by
  cases hr with
  | call hr =>
    cases hr
    simp [h]

variable {c : Bool}

theorem says_failIf {S : List (Call D) → Ans Unit → Prop} (hfail : c → S [] (.error e))
    (hok : c = false → S [] (.ok ())) :
    Says call (failIf c e) S := by
  cases c with
  | true => exact says_ofAns (hfail rfl)
  | false => exact says_ofAns (hok rfl)

theorem says_throw (h : S [] (.error e)) : Says call (throw e : Fallible Q R Err α) S :=
  says_ofAns h

theorem Says.unless {f : Unit → Fallible Q R Err β} (hfail : c → T [] (.error e))
    (hok : c = false → Says call (f ()) T) :
    Says call (failIf c e >>= f) T := by
  cases c with
  | true => exact says_throw (hfail rfl)
  | false => exact hok rfl

theorem Says.ofAns_bind (hfail : ∀ e, r = .error e → T [] (.error e))
    (hok : ∀ a, r = .ok a → Says call (f a) T) : Says call (ofAns r >>= f) T := by
  cases r with
  | error e => exact says_throw (hfail e rfl)
  | ok a => exact hok a rfl

/-- No Patch is sent, a Conflict comes from one of the calls, and a result has `V`. -/
structure Minds (V : α → List (Call D) → Prop) (calls : List (Call D)) (r : Ans α) : Prop where
  unpatched : ∀ c ∈ calls, c.isPatch = false
  handed : ∀ e, r = .error e → e.isConflict → ∃ c ∈ calls, c.conflicts
  holds : ∀ a, r = .ok a → V a calls

variable {V : α → List (Call D) → Prop} {U : β → List (Call D) → Prop}

theorem Minds.mono {V' : α → List (Call D) → Prop} (h : Minds V calls r)
    (hV : ∀ a, V a calls → V' a calls) : Minds V' calls r :=
  ⟨h.unpatched, h.handed, fun a ha => hV a (h.holds a ha)⟩

theorem Minds.append {c c' : List (Call D)} {r : Ans β} (h : ∀ x ∈ c, x.isPatch = false)
    (h' : Minds (fun b c' => U b (c ++ c')) c' r) : Minds U (c ++ c') r where
  unpatched x hx := (List.mem_append.mp hx).elim (h x) (h'.unpatched x)
  handed e he hc := by
    obtain ⟨x, hx, hconf⟩ := h'.handed e he hc
    exact ⟨x, List.mem_append_right _ hx, hconf⟩
  holds := h'.holds

theorem Says.minds (hp : Says call p (Minds V))
    (hf : ∀ c a, V a c → Says call (f a) (Minds fun b c' => U b (c ++ c'))) :
    Says call (p >>= f) (Minds U) := by
  refine hp.bind (fun c e h => ?_) fun c a h => ?_
  · refine ⟨h.unpatched, fun e' he => ?_, fun b hb => ?_⟩
    · cases he
      exact h.handed e rfl
    · cases hb
  · exact (hf c a (h.holds a rfl)).mono fun c' r h' => .append h.unpatched h'

theorem minds_ret (he : ∀ e, r = .error e → e.isConflict = false) (h : ∀ a, r = .ok a → V a []) :
    Minds V [] r :=
  ⟨by simp, fun e hr hc => by simp [he e hr] at hc, h⟩

theorem minds_ofAns (he : ∀ e, r = .error e → e.isConflict = false) (h : ∀ a, r = .ok a → V a []) :
    Says call (ofAns r) (Minds V) :=
  says_ofAns (minds_ret he h)

theorem minds_pure {a : α} (h : V a []) : Says call (pure a : Fallible Q R Err α) (Minds V) := by
  refine minds_ofAns (r := .ok a) (fun e he => ?_) fun b hb => ?_
  · cases he
  · cases hb
    exact h

theorem minds_failIf {V : Unit → List (Call D) → Prop} (he : e.isConflict = false)
    (h : c = false → V () []) :
    Says call (failIf c e) (Minds V) := by
  refine says_failIf (fun _ => minds_ret (fun e' h' => ?_) fun b hb => ?_)
    fun hc => minds_ret (fun e' h' => ?_) fun b _ => h hc
  · cases h'
    exact he
  · cases hb
  · cases h'

end Programs

theorem Elsewhere.append {c c' : List (Call D)} (h : Elsewhere c) (h' : Elsewhere c') :
    Elsewhere (c ++ c') :=
  fun x hx => (List.mem_append.mp hx).elim (h x) (h' x)

theorem elsewhere_nil : Elsewhere ([] : List (Call D)) := by simp [Elsewhere]

def outcome {α : Type} (r : Ans α) : Ans Unit := r.map fun _ => ()

section Checks

open GuardCall

variable {call : Event GuardCall GuardCall.Answer → Call D} {g : Guard}

/-- The objects that are no ledgers. -/
structure Remote (call : Event GuardCall GuardCall.Answer → Call D) : Prop where
  receipt : ∀ r, call ⟨.receiptCheck, r⟩ = .other r
  namespaced : ∀ name r, call ⟨.getNamespace name, r⟩ = .other (outcome r)
  genesis : ∀ r, call ⟨.getGenesis, r⟩ = .other (outcome r)

theorem minds_other {α : Type} {p : GuardK α}
    (h : Says call p fun c r => c = [.other (outcome r)]) :
    Says call p (Minds fun _ => Elsewhere) := by
  refine h.mono fun c r hc => ?_
  subst hc
  refine ⟨by simp [Call.isPatch], fun e he hconf => ?_, fun a _ => by simp [Elsewhere, Call.elsewhere]⟩
  subst he
  exact ⟨_, List.mem_singleton_self _, hconf⟩

theorem minds_ofText {α : Type} {r : Except String α} :
    Says call (ofText r : GuardK α) (Minds fun _ => Elsewhere) := by
  refine minds_ofAns (fun e he => ?_) fun _ _ => elsewhere_nil
  cases r with
  | ok => cases he
  | error =>
    cases he
    rfl

section Remote

variable (hr : Remote call)

include hr

theorem receipt_minds {installed : Bool} :
    Says call (onlyIf installed checkReceipt) (Minds fun _ => Elsewhere) := by
  cases installed with
  | false => exact minds_pure elsewhere_nil
  | true =>
    refine minds_other fun tr r h => ?_
    have hcalls := calls_perform hr.receipt h
    cases r <;> exact hcalls

theorem getOriginal_minds : Says call g.getOriginal (Minds fun _ => Elsewhere) := by
  have hns : ∀ name, Says call (readNamespace name) (Minds fun _ => Elsewhere) := fun name =>
    minds_other fun tr r h => calls_perform (hr.namespaced name) h
  have hgenesis : Says call readGenesis (Minds fun _ => Elsewhere) :=
    minds_other fun tr r h => calls_perform hr.genesis h
  unfold Guard.getOriginal
  refine (hns _).minds fun c₁ _ h₁ => minds_ofText.minds fun c₂ _ h₂ => ?_
  refine (hns _).minds fun c₃ _ h₃ => minds_ofText.minds fun c₄ _ h₄ => ?_
  refine hgenesis.minds fun c₅ _ h₅ => minds_ofText.minds fun c₆ _ h₆ => minds_pure ?_
  exact h₁.append (h₂.append (h₃.append (h₄.append (h₅.append (h₆.append elsewhere_nil)))))

end Remote

section Ledgers

variable {D' : Type} {role : Role D'} {get : GuardK (Stored D')} {x : Ans (Stored D') → Call D}
variable {uid : UID}

/-- `readLedger` makes one call, and accepts a pinned ledger only under the UID pinned. -/
theorem readLedger_minds (hget : Says call get fun c r => c = [x r])
    (hx : ∀ r, (x r).isPatch = false) (he : ∀ e, (x (.error e)).conflicts = e.isConflict)
    (hv : ∀ d e, role.validate d = .error e → e.isConflict = false) :
    Says call (Guard.readLedger role get uid) (Minds fun _ c =>
      ∃ r, c = [x r] ∧ (uid ≠ "" → ∃ cm, r = .ok cm ∧ cm.uid = uid)) := by
  unfold Guard.readLedger
  refine hget.attempt fun c a hc => ?_
  subst hc
  cases a with
  | error e =>
    refine says_failIf (fun _ => ⟨by simp [hx], fun e' h hconf => ?_, fun _ h => ?_⟩)
      fun hmissing => ⟨by simp [hx], fun e' h => ?_, fun _ _ => ⟨_, rfl, fun h => ?_⟩⟩
    · cases h
      exact ⟨_, List.mem_singleton_self _, (he e).trans hconf⟩
    · cases h
    · cases h
    · simp_all
  | ok cm =>
    refine Says.mono ?_ fun c' r h => Minds.append (by simp [hx]) h
    refine (minds_failIf (V := fun _ c => c = [] ∧ (uid ≠ "" → cm.uid = uid)) rfl fun h => ?_).minds
      fun c _ hc => minds_ofAns (hv cm.data) fun _ _ => ?_
    · exact ⟨rfl, by simpa using h⟩
    · obtain ⟨rfl, hu⟩ := hc
      exact ⟨_, rfl, fun h => ⟨cm, rfl, hu h⟩⟩

theorem readLedger_own {role : Role D} {get : GuardK (Stored D)}
    (hget : Says call get fun c r => c = [.read r])
    (hv : ∀ d e, role.validate d = .error e → e.isConflict = false) :
    Says call (Guard.readLedger role get uid) (Minds fun _ c => uid ≠ "" → Vouched uid c) := by
  refine (readLedger_minds hget (fun _ => rfl) (fun _ => rfl) hv).mono fun c r h => h.mono ?_
  rintro _ ⟨r, rfl, hr⟩ huid
  obtain ⟨cm, rfl, hu⟩ := hr huid
  exact ⟨[], cm, [], rfl, hu, elsewhere_nil⟩

theorem readLedger_peer (hget : Says call get fun c r => c = [.other (outcome r)])
    (hv : ∀ d e, role.validate d = .error e → e.isConflict = false) :
    Says call (Guard.readLedger role get uid) (Minds fun _ => Elsewhere) := by
  refine (readLedger_minds hget (fun _ => rfl) (fun _ => rfl) hv).mono fun c r h => h.mono ?_
  rintro _ ⟨r, rfl, -⟩
  simp [Elsewhere, Call.elsewhere]

end Ledgers

variable {active : Role ReservationState} {queue : Role QueueState}
variable {A B : UID → List (Call D) → Prop}

/-- The calls of an observation by its two reads of ledgers, with nothing of a ledger after them. -/
def Observed (A B : UID → List (Call D) → Prop) (uids : UID × UID) (calls : List (Call D)) : Prop :=
  ∃ front a b back, calls = front ++ (a ++ (b ++ back)) ∧ A uids.1 a ∧ B uids.2 b ∧ Elsewhere back

theorem Observed.framed {uids : UID × UID} (h : Observed A B uids calls) (front : List (Call D))
    {back : List (Call D)} (hback : Elsewhere back) :
    Observed A B uids (front ++ (calls ++ back)) := by
  obtain ⟨f, a, b, k, rfl, ha, hb, hk⟩ := h
  exact ⟨front ++ f, a, b, k ++ back, by simp, ha, hb, hk.append hback⟩

section Both

variable (hr : Remote call)
  (ha : ∀ uid, Says call (Guard.readLedger active readActive uid) (Minds fun _ => A uid))
  (hb : ∀ uid, Says call (Guard.readLedger queue readQueue uid) (Minds fun _ => B uid))

include hr ha hb

theorem observeCommitted_minds :
    Says call (g.observeCommitted active queue) (Minds (Observed A B)) := by
  unfold Guard.observeCommitted
  refine minds_ofText.minds fun c₁ _ _ => (getOriginal_minds hr).minds fun c₂ first _ => ?_
  refine (minds_failIf (V := fun _ _ => True) rfl fun _ => trivial).minds fun c₃ _ _ => ?_
  refine (ha _).minds fun a _ hA => (hb _).minds fun b _ hB => ?_
  refine (getOriginal_minds hr).minds fun c₄ last h₄ => ?_
  refine (minds_failIf (V := fun _ => Elsewhere) rfl fun _ => elsewhere_nil).minds fun c₅ _ h₅ => ?_
  refine minds_pure ⟨c₁ ++ (c₂ ++ c₃), a, b, c₄ ++ c₅, by simp, hA, hB, h₄.append h₅⟩

theorem check_minds : Says call (g.check active queue)
    (Minds fun _ => Observed A B (g.original.activeLedgerUID, g.original.queueLedgerUID)) := by
  unfold Guard.check
  refine (receipt_minds hr).minds fun c₁ _ _ => ?_
  refine (observeCommitted_minds hr ha hb).minds fun c₂ current h₂ => ?_
  refine (minds_failIf (V := fun _ c => c = [] ∧ current = _) rfl
    fun h => ⟨rfl, by simpa using h⟩).minds fun c₃ _ h₃ => ?_
  obtain ⟨rfl, rfl⟩ := h₃
  refine (receipt_minds hr).mono fun c r h => h.mono fun _ hback => ?_
  exact h₂.framed c₁ hback

end Both

end Checks

section Walk

variable {Q : Type} {R : Q → Type} {call : Event Q R → Call D} {role : Role D}
variable {check : Fallible Q R Err Unit} {get : Fallible Q R Err (Stored D)}
variable {patch : List (PatchOp D) → Fallible Q R Err (Stored D)} {cm : Stored D} {next : D}

/-- The programs that `PatchLedgerData` is given: a read, a Patch, and a check that ends with the
ledger of this UID. -/
structure Speaks (call : Event Q R → Call D) (uid : UID) (check : Fallible Q R Err Unit)
    (get : Fallible Q R Err (Stored D)) (patch : List (PatchOp D) → Fallible Q R Err (Stored D)) :
    Prop where
  get : Says call get fun c r => c = [.read r]
  patch : ∀ body, Says call (patch body) fun c r => c = [.patch body r]
  check : Says call check (Minds fun _ => Vouched uid)

/-- How `PatchLedgerData` comes to return a Conflict. -/
inductive Contended (uid : UID) (calls : List (Call D)) : Prop
  | unsent (h : ∀ c ∈ calls, c.isPatch = false) (hc : ∃ c ∈ calls, c.conflicts = true)
  | refused {body : List (PatchOp D)} {e : Err} (h : .patch body (.error e) ∈ calls)
      (he : e.reason = some .conflict ∨ e.reason = some .invalid)
      (hc : Vouched uid calls ∨ ∃ c ∈ calls, c.conflicts)
  | after {before after : List (Call D)} {body : List (PatchOp D)} {u : Stored D}
      (h : calls = before ++ .patch body (.ok u) :: after) (hc : ∃ c ∈ after, c.conflicts)

structure Traced (cm : Stored D) (next : D) (calls : List (Call D)) (r : Ans Unit) : Prop where
  done : r = .ok () → Vouched cm.uid calls ∧ ∃ u, .patch (ledgerPatch cm next) (.ok u) ∈ calls
  contended : ∀ e, r = .error e → e.isConflict → Contended cm.uid calls

theorem traced_plain (he : e.isConflict = false) :
    Traced cm next calls (.error e) where
  done := by simp
  contended e' h hc := by
    cases h
    simp [he] at hc

theorem checkLedger_error {l : Stored D} (h : role.checkLedger l = .error e) :
    e.isConflict = false := by
  unfold Role.checkLedger at h
  split at h
  · cases h
  · cases h
    rfl

/-- What the classification of an error `e` of the Patch gives back. -/
structure Classified (uid : UID) (e : Err) (calls : List (Call D)) (r : Ans Unit) : Prop where
  failed : r ≠ .ok ()
  contended : ∀ e', r = .error e' → e'.isConflict →
    e.reason = some .conflict ∨ e.reason = some .invalid ∧
      (Vouched uid calls ∨ ∃ c ∈ calls, c.conflicts)

theorem classified_plain {e' : Err} (he : e'.isConflict = false) :
    Classified uid e calls (.error e') where
  failed := by simp
  contended e₁ h hc := by
    cases h
    simp [he] at hc

variable (hs : Speaks call role.expectedUID check get patch)
  (hv : ∀ d e, role.validate d = .error e → e.isConflict = false)

include hs

theorem classifyLedgerPatchError_traced [DecidableEq D] (e : Err) :
    Says call (role.classifyLedgerPatchError check get cm e) (Classified role.expectedUID e) := by
  unfold Role.classifyLedgerPatchError
  refine Says.unless (fun _ => ⟨by simp, fun e' h hc => .inl ?_⟩) fun hinvalid => ?_
  · cases h
    simpa [Err.isConflict] using hc
  have hreason : e.reason = some .invalid := by simpa using hinvalid
  refine hs.get.attempt fun c a hc => ?_
  subst hc
  cases a with
  | error e' => exact says_throw (classified_plain (by simp [Err.isConflict, Err.reason, hreason]))
  | ok l =>
    refine Says.ofAns_bind (fun e₁ he₁ => classified_plain (checkLedger_error he₁)) fun _ _ => ?_
    cases role.validate l.data with
    | error e₁ => exact says_throw (classified_plain rfl)
    | ok _ =>
      refine hs.check.bind (fun c e₁ h => ⟨by simp, fun e₂ h₂ hc => ?_⟩) fun c _ h => ?_
      · cases h₂
        obtain ⟨x, hx, hconf⟩ := h.handed e₁ rfl hc
        exact .inr ⟨hreason, .inr ⟨x, List.mem_append_right _ hx, hconf⟩⟩
      · have hvouched := (h.holds _ rfl).front [.read (.ok l)]
        have hend : ∀ e₁, Classified role.expectedUID e ([.read (.ok l)] ++ (c ++ [])) (.error e₁) :=
          fun e₁ => ⟨by simp, fun _ _ _ => .inr ⟨hreason, .inl (by simpa using hvouched)⟩⟩
        split <;> exact says_throw (hend _)

include hv

theorem readback_minds : Says call (do
      let readback ← get
      ofAns (role.checkLedger readback)
      ofAns (role.validate readback.data)
      check) (Minds fun _ => Vouched role.expectedUID) := by
  have hget : Says call get (Minds fun _ _ => True) := by
    refine hs.get.mono fun c r hc => ?_
    subst hc
    refine ⟨by simp [Call.isPatch], fun e he hconf => ?_, fun _ _ => trivial⟩
    subst he
    exact ⟨_, List.mem_singleton_self _, hconf⟩
  refine hget.minds fun c₁ l _ => ?_
  refine (minds_ofAns (V := fun _ _ => True) (fun _ => checkLedger_error) fun _ _ => trivial).minds
    fun c₂ _ _ => ?_
  refine (minds_ofAns (V := fun _ _ => True) (hv _) fun _ _ => trivial).minds fun c₃ _ _ => ?_
  exact hs.check.mono fun c r h => h.mono fun _ hc => ((hc.front c₃).front c₂).front c₁

theorem patchLedgerData_traced [DecidableEq D] :
    Says call (role.patchLedgerData check get patch cm next) (Traced cm next) := by
  unfold Role.patchLedgerData
  refine Says.ofAns_bind (fun e he => traced_plain (checkLedger_error he)) fun _ hown => ?_
  have huid : role.expectedUID = cm.uid := by
    unfold Role.checkLedger at hown
    split at hown
    · simp_all
    · cases hown
  refine Says.unless (fun _ => traced_plain rfl) fun _ => ?_
  cases hnext : role.validate next with
  | error e => exact says_throw (traced_plain (hv next e hnext))
  | ok _ =>
    refine hs.check.bind (fun c e h => ⟨by simp, fun e' he hc => ?_⟩) fun c _ h => ?_
    · cases he
      exact .unsent h.unpatched (h.handed e rfl hc)
    refine (hs.patch _).attempt fun c' a hc' => ?_
    subst hc'
    have hsent : ∀ c₂, .patch (ledgerPatch cm next) a ∈
        c ++ ([.patch (ledgerPatch cm next) a] ++ c₂) := by simp
    cases a with
    | error e =>
      refine (classifyLedgerPatchError_traced hs e).mono fun c₂ r hr =>
        ⟨fun h => absurd h hr.failed, fun e' he hc => ?_⟩
      have hmem : ∀ x ∈ c₂, x ∈ c ++ ([.patch (ledgerPatch cm next) (.error e)] ++ c₂) :=
        fun x hx => List.mem_append_right _ (List.mem_append_right _ hx)
      rcases hr.contended e' he hc with hconflict | ⟨hinvalid, hvouched | ⟨x, hx, hconf⟩⟩
      · refine .refused (hsent c₂) (.inl hconflict) (.inr ⟨_, hsent c₂, ?_⟩)
        simp [Call.conflicts, Err.isConflict, hconflict]
      · exact .refused (hsent c₂) (.inr hinvalid) (.inl (huid ▸ (hvouched.front _).front c))
      · exact .refused (hsent c₂) (.inr hinvalid) (.inr ⟨x, hmem x hx, hconf⟩)
    | ok u =>
      refine Says.ofAns_bind (fun e he => traced_plain (checkLedger_error he)) fun _ _ => ?_
      refine Says.unless (fun _ => traced_plain rfl) fun _ => ?_
      refine (readback_minds hs hv).mono fun c₂ r hr => ⟨fun h => ?_, fun e he hc => ?_⟩
      · exact ⟨huid ▸ ((hr.holds () h).front _).front c, u, hsent c₂⟩
      · exact .after (show _ = c ++ .patch _ (.ok u) :: c₂ from rfl) (hr.handed e he hc)

end Walk

/-- A call of `PatchLedgerData` for the ledger `cm` that was read before. -/
structure Attempt [DecidableEq D] (call : Event GuardCall GuardCall.Answer → Call D)
    (p : GuardK Unit) (cm : Stored D) (w : World D) (tr : Calls D) (r : Ans Unit) (w' : World D) :
    Prop where
  unsent : w.fate = .unsent
  known : cm.uid ∈ w.used
  ends : ∃ events, p.run.Ends events r ∧ events.map call = tr.map Prod.snd
  lives : Lives w tr w'

section Outcomes

variable {cm : Stored D} {next : D} {w w' : World D} {tr : Calls D} {r : Ans Unit}

theorem conflicts_of_calls (h : ∃ c ∈ tr.map Prod.snd, c.conflicts) : ∃ c ∈ tr, c.2.conflicts := by
  obtain ⟨c, hc, hconf⟩ := h
  obtain ⟨p, hp, rfl⟩ := List.mem_map.mp hc
  exact ⟨p, hp, hconf⟩

variable [DecidableEq D]

theorem neverCommitted_of_contended (hf : w.fate = .unsent) (hl : Lives w tr w')
    (h : Contended cm.uid (tr.map Prod.snd)) : NeverCommitted w' ∨ ConflictAfter tr := by
  cases h with
  | unsent h =>
    have hfate := fate_kept hl (by simp [hf]) fun _ c hc => h _ (List.mem_map_of_mem hc)
    exact .inl (neverCommitted_of_fate (.inr (hfate.trans hf)))
  | refused h he => exact .inl (neverCommitted_of_fate (.inl (refused_of_patch hl h he)))
  | after htr hc =>
    obtain ⟨front, rest, rfl, -, hrest⟩ := List.map_eq_append_iff.mp htr
    obtain ⟨⟨w₀, c⟩, back, rfl, rfl, rfl⟩ := List.map_eq_cons_iff.mp hrest
    exact .inr ⟨front, w₀, _, _, back, rfl, conflicts_of_calls hc⟩

/-- After a replacement there is a Conflict only if the API said so. -/
theorem conflicts_of_contended (hu : cm.uid ∈ w.used) (hl : Lives w tr w') (hr : Replaced cm tr)
    (h : Contended cm.uid (tr.map Prod.snd)) : ∃ c ∈ tr, c.2.conflicts := by
  refine conflicts_of_calls ?_
  cases h with
  | unsent _ hc => exact hc
  | refused _ _ hc => exact hc.resolve_left fun hv => not_replaced hl hu hv hr
  | after htr hc =>
    obtain ⟨c, hmem, hconf⟩ := hc
    exact ⟨c, by simp [htr, hmem], hconf⟩

theorem outcome_of_traced {call : Event GuardCall GuardCall.Answer → Call D} {p : GuardK Unit}
    (ha : Attempt call p cm w tr r w') (hp : Says call p (Traced cm next)) :
    Outcome cm next tr r w' := by
  obtain ⟨events, hends, hcalls⟩ := ha.ends
  have ht : Traced cm next (tr.map Prod.snd) r := hcalls ▸ hp events r hends
  refine ⟨fun hr => ?_, fun e he hc => ?_, fun hr => ⟨fun hok => ?_, fun e he hc => ?_⟩⟩
  · obtain ⟨-, u, hu⟩ := ht.done hr
    exact committed_of_patch ha.lives hu
  · exact neverCommitted_of_contended ha.unsent ha.lives (ht.contended e he hc)
  · exact not_replaced ha.lives ha.known (ht.done hok).1 hr
  · exact conflicts_of_contended ha.known ha.lives hr (ht.contended e he hc)

end Outcomes

def activeCall : Event GuardCall GuardCall.Answer → Call ReservationState
  | ⟨.receiptCheck, r⟩ => .other r
  | ⟨.getNamespace _, r⟩ => .other (outcome (α := Namespace) r)
  | ⟨.getGenesis, r⟩ => .other (outcome (α := Stored String) r)
  | ⟨.getActive, r⟩ => .read r
  | ⟨.getQueue, r⟩ => .other (outcome (α := QueueMap) r)
  | ⟨.patchActive body, r⟩ => .patch body r
  | ⟨.patchQueue _, r⟩ => .other (outcome (α := QueueMap) r)

def queueCall : Event GuardCall GuardCall.Answer → Call QueueState
  | ⟨.receiptCheck, r⟩ => .other r
  | ⟨.getNamespace _, r⟩ => .other (outcome (α := Namespace) r)
  | ⟨.getGenesis, r⟩ => .other (outcome (α := Stored String) r)
  | ⟨.getActive, r⟩ => .other (outcome (α := LedgerMap) r)
  | ⟨.getQueue, r⟩ => .read r
  | ⟨.patchActive _, r⟩ => .other (outcome (α := LedgerMap) r)
  | ⟨.patchQueue body, r⟩ => .patch body r

theorem remote_active : Remote activeCall := ⟨fun _ => rfl, fun _ _ => rfl, fun _ => rfl⟩

theorem remote_queue : Remote queueCall := ⟨fun _ => rfl, fun _ _ => rfl, fun _ => rfl⟩

theorem active_validate_error {x : Reconciler} {d : ReservationState}
    (h : x.validateForGenesis d = .error e) : e.isConflict = false := by
  unfold Reconciler.validateForGenesis Reconciler.decodeReservations at h
  unfold ReservationState.validate ReservationState.validateLimits validateReservationCapacity at h
  split_ifs at h <;> simp_all <;> (subst h; rfl)

theorem queue_validate_error {s : Queue.Store} {d : QueueState}
    (h : s.validateForGenesis d = .error e) : e.isConflict = false := by
  unfold Queue.Store.validateForGenesis QueueState.validate at h
  split_ifs at h <;> cases h <;> rfl

section Service

open GuardCall

variable (g : Guard) (x : Reconciler) (s : Queue.Store)

def serviceCheck : GuardK Unit := g.check (x.role g.original) (s.role g.original)

/-- `PatchLedgerData` for the active ledger. -/
def patchActiveData (cm : LedgerMap) (next : ReservationState) : GuardK Unit :=
  (x.role g.original).patchLedgerData (serviceCheck g x s) readActive sendActive cm next

/-- `PatchLedgerData` for the queue ledger. -/
def patchQueueData (cm : QueueMap) (next : QueueState) : GuardK Unit :=
  (s.role g.original).patchLedgerData (serviceCheck g x s) readQueue sendQueue cm next

theorem speaks_active :
    Speaks activeCall g.original.activeLedgerUID (serviceCheck g x s) readActive sendActive where
  get tr r h := calls_perform (fun _ => rfl) h
  patch body tr r h := calls_perform (fun _ => rfl) h
  check := by
    have hown : ∀ uid, Says activeCall (Guard.readLedger (x.role g.original) readActive uid)
        (Minds fun _ c => uid ≠ "" → Vouched uid c) := fun uid =>
      readLedger_own (fun tr r h => calls_perform (fun _ => rfl) h) fun _ _ => active_validate_error
    have hpeer : ∀ uid, Says activeCall (Guard.readLedger (s.role g.original) readQueue uid)
        (Minds fun _ => Elsewhere) := fun uid =>
      readLedger_peer (fun tr r h => calls_perform (fun _ => rfl) h) fun _ _ => queue_validate_error
    refine (check_minds remote_active hown hpeer).mono fun c r h => h.mono fun _ ho => ?_
    obtain ⟨front, a, b, back, rfl, ha, hb, hback⟩ := ho
    exact ((ha g.activePinned).back (hb.append hback)).front front

theorem speaks_queue :
    Speaks queueCall g.original.queueLedgerUID (serviceCheck g x s) readQueue sendQueue where
  get tr r h := calls_perform (fun _ => rfl) h
  patch body tr r h := calls_perform (fun _ => rfl) h
  check := by
    have hpeer : ∀ uid, Says queueCall (Guard.readLedger (x.role g.original) readActive uid)
        (Minds fun _ => Elsewhere) := fun uid =>
      readLedger_peer (fun tr r h => calls_perform (fun _ => rfl) h) fun _ _ => active_validate_error
    have hown : ∀ uid, Says queueCall (Guard.readLedger (s.role g.original) readQueue uid)
        (Minds fun _ c => uid ≠ "" → Vouched uid c) := fun uid =>
      readLedger_own (fun tr r h => calls_perform (fun _ => rfl) h) fun _ _ => queue_validate_error
    refine (check_minds remote_queue hpeer hown).mono fun c r h => h.mono fun _ ho => ?_
    obtain ⟨front, a, b, back, rfl, -, hb, hback⟩ := ho
    exact (((hb g.queuePinned).back hback).front a).front front

/-- What a caller of `PatchLedgerData` learns, for both ledgers. -/
theorem patchLedgerData_outcome :
    (∀ (cm : LedgerMap) (next : ReservationState) (w w' : World ReservationState)
      (tr : Calls ReservationState) (r : Ans Unit),
      Attempt activeCall (patchActiveData g x s cm next) cm w tr r w' →
      Outcome cm next tr r w') ∧
    (∀ (cm : QueueMap) (next : QueueState) (w w' : World QueueState) (tr : Calls QueueState)
      (r : Ans Unit),
      Attempt queueCall (patchQueueData g x s cm next) cm w tr r w' →
      Outcome cm next tr r w') := by
  refine ⟨fun cm next w w' tr r ha => ?_, fun cm next w w' tr r ha => ?_⟩
  · refine outcome_of_traced ha ?_
    unfold patchActiveData
    exact patchLedgerData_traced (speaks_active g x s) fun _ _ => active_validate_error
  · refine outcome_of_traced ha ?_
    unfold patchQueueData
    exact patchLedgerData_traced (speaks_queue g x s) fun _ _ => queue_validate_error

end Service

def smallStore : Queue.Store where
  ext := Fairness.plainExt
  genesis := none
  namespaceName := "kova"
  globalLimit := 2
  requesterLimit := 1

def smallReconciler : Reconciler where
  ext := Fairness.plainExt
  cfg := {}
  genesis := none

def smallGenesis : Genesis where
  namespaceUID := "n"
  genesisName := "kova-genesis"
  genesisUID := "g"
  generation := "1"
  activeLedgerUID := "a"
  queueLedgerUID := "q"
  receiptNamespace := "kova-receipts"
  receiptNamespaceUID := "r"
  workerPoolID := "pool"
  runnerImage := "runner"

def smallGuard : Guard where
  original := smallGenesis
  namespaceName := "kova"
  validate := .ok ()
  qualifyGenesis _ := .ok ⟨"", true, "a", "q"⟩
  receiptInstalled := false
  activePinned := by decide
  queuePinned := by decide

def emptyActive : LedgerMap := ⟨"a", 5, ReservationState.genesisEmpty {}⟩

def emptyQueue : QueueMap := ⟨"q", 7, QueueState.genesisEmpty 2 1⟩

def recreatedQueue : QueueMap := { emptyQueue with uid := "q2", resourceVersion := 9 }

def conflict : Err := .api .conflict "the object has been modified"

abbrev emptyPatch : GuardK Unit :=
  patchQueueData smallGuard smallReconciler smallStore emptyQueue emptyQueue.data

def originalReads : List (Event GuardCall GuardCall.Answer) :=
  [⟨.getNamespace "kova", (.ok ⟨"kova", "n", none, true⟩ : Ans Namespace)⟩,
    ⟨.getNamespace "kova-receipts", (.ok ⟨"kova-receipts", "r", none, true⟩ : Ans Namespace)⟩,
    ⟨.getGenesis, (.ok ⟨"g", 3, ""⟩ : Ans (Stored String))⟩]

def checkReads : List (Event GuardCall GuardCall.Answer) :=
  originalReads ++ [⟨.getActive, (.ok emptyActive : Ans LedgerMap)⟩,
    ⟨.getQueue, (.ok emptyQueue : Ans QueueMap)⟩] ++ originalReads

abbrev emptyBody : List (PatchOp QueueState) := ledgerPatch emptyQueue emptyQueue.data

def quietWorld : World QueueState := ⟨some emptyQueue, ["q"], .unsent⟩

def recreatedWorld : World QueueState := ⟨some recreatedQueue, ["q2", "q"], .unsent⟩

def quietCheck : Calls QueueState := checkReads.map fun e => (quietWorld, queueCall e)

theorem quietCheck_lives {tr : Calls QueueState} {w : World QueueState} (h : Lives quietWorld tr w) :
    Lives quietWorld (quietCheck ++ tr) w :=
  .call (.other _) (.call (.other _) (.call (.other _) (.call (.other _) (.call (.read rfl)
    (.call (.other _) (.call (.other _) (.call (.other _) h)))))))

def refusedRun : Calls QueueState :=
  quietCheck ++ [(recreatedWorld, .patch emptyBody (.error conflict))]

def refusedEvents : List (Event GuardCall GuardCall.Answer) :=
  checkReads ++ [⟨.patchQueue emptyBody, (.error conflict : Ans QueueMap)⟩]

theorem refusedEvents_end : emptyPatch.run.Ends refusedEvents (.error conflict) :=
  .call (.call (.call (.call (.call (.call (.call (.call (.call (.ret _)))))))))

theorem refusedRun_attempt :
    Attempt queueCall emptyPatch emptyQueue quietWorld refusedRun (.error conflict)
      { recreatedWorld with fate := .refused } where
  unsent := rfl
  known := by decide
  ends := ⟨refusedEvents, refusedEvents_end, rfl⟩
  lives := quietCheck_lives (.move (.write (some recreatedQueue)
    (by rintro l ⟨⟩; exact .inr (by decide))) (.call (.refuse rfl (.inl rfl)) (.nil _)))

def patchedQueue : QueueMap := { emptyQueue with resourceVersion := 8 }

def committedWorld : World QueueState := quietWorld.commit emptyQueue patchedQueue

def committedRun : Calls QueueState :=
  quietCheck ++ [(quietWorld, .patch emptyBody (.ok patchedQueue)),
    (committedWorld, .read (.error conflict))]

def committedEvents : List (Event GuardCall GuardCall.Answer) :=
  checkReads ++ [⟨.patchQueue emptyBody, (.ok patchedQueue : Ans QueueMap)⟩,
    ⟨.getQueue, (.error conflict : Ans QueueMap)⟩]

theorem committedEvents_end : emptyPatch.run.Ends committedEvents (.error conflict) :=
  .call (.call (.call (.call (.call (.call (.call (.call (.call (.call (.ret _))))))))))

theorem committedRun_attempt :
    Attempt queueCall emptyPatch emptyQueue quietWorld committedRun (.error conflict)
      committedWorld where
  unsent := rfl
  known := by decide
  ends := ⟨committedEvents, committedEvents_end, rfl⟩
  lives := quietCheck_lives
    (.call (.patch 8 rfl rfl (show applyPatch _ _ = some emptyQueue by decide))
    (.call (.unread conflict) (.nil _)))

/-- A Conflict is returned for a ledger that was replaced, and for a Patch that was committed. -/
theorem conflict_says_too_much :
    conflict.isConflict ∧
    (Attempt queueCall emptyPatch emptyQueue quietWorld refusedRun (.error conflict)
      { recreatedWorld with fate := .refused } ∧ Replaced emptyQueue refusedRun) ∧
    (Attempt queueCall emptyPatch emptyQueue quietWorld committedRun (.error conflict)
      committedWorld ∧ committedWorld.fate = .committed emptyQueue patchedQueue) :=
  ⟨rfl, ⟨refusedRun_attempt, _, List.mem_append_right _ List.mem_cons_self, rfl, recreatedQueue, rfl,
    by decide⟩, committedRun_attempt, rfl⟩

theorem patchLedgerData_outcome_refused :
    Outcome emptyQueue emptyQueue.data refusedRun (.error conflict)
      { recreatedWorld with fate := .refused } :=
  (patchLedgerData_outcome smallGuard smallReconciler smallStore).2 emptyQueue emptyQueue.data _ _ _ _
    refusedRun_attempt

end KovaService.Protocol.Patch
