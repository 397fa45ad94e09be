import KovaService.Proof.Reads

/-!
Writing a ledger.

Both ledgers are written by one request between reads, so what the caller learns is what the answer
to that request says.  A lost answer is kept apart from a refusal: only a refusal lets a loop that
arms a receipt go on.
-/

namespace KovaService.Proof

open Lib Api Ledger Protocol KovaService.System Controller

variable {w : World} {ρ : w.Execution} {t i j : Nat} {cfg : Config} {coord : Bool}
variable {writer : LedgerWriter}

/-- `Q` held at some instant, and thread `t` has only read since. -/
def After (ρ : w.Execution) (t : Nat) (Q : Nat → Prop) (j : Nat) : Prop :=
  ∃ k, k ≤ j ∧ Q k ∧ Calm ρ t k j

theorem calm_refl (i : Nat) : Calm ρ t i i := fun m hi hj => by omega

theorem After.now {Q : Nat → Prop} (h : Q i) : After ρ t Q i := ⟨i, le_rfl, h, calm_refl i⟩

theorem After.calm {Q : Nat → Prop} (h : After ρ t Q i) (hij : i ≤ j) (hc : Calm ρ t i j) :
    After ρ t Q j := by
  obtain ⟨k, hk, hq, hkc⟩ := h
  exact ⟨k, hk.trans hij, hq, Run.silent_trans hkc hc⟩

section Patch

variable {D : Type} [DecidableEq D] {role : Role D} {get : K (Stored D)} {cm : Stored D}
variable {patch : List (PatchOp D) → K (Stored D)} {next : D}

theorem classifyLedgerPatchError_does (hg : Quiet get) (patchErr : Err) :
    Does ρ t (role.classifyLedgerPatchError genesisCheck get cm patchErr) i (fun _ _ => False)
      (fun e j => Calm ρ t i j ∧ (e = patchErr ∨ patchErr.reason = some .invalid)) := by
  have hfail : ∀ e j, (e = patchErr ∨ patchErr.reason = some .invalid) ∧ Calm ρ t i j →
      Calm ρ t i j ∧ (e = patchErr ∨ patchErr.reason = some .invalid) := fun _ _ h => ⟨h.2, h.1⟩
  refine Does.mono (Does.quietly ?_ (quiet_classifyLedgerPatchError hg cm patchErr))
    (fun _ _ _ h => h.1) fun e j _ => hfail e j
  unfold Role.classifyLedgerPatchError
  refine .failIf (fun _ => .inl rfl) fun hr => ?_
  have hinv : ∀ e : Err, e = patchErr ∨ patchErr.reason = some .invalid :=
    fun _ => .inr (by simpa using hr)
  refine hg.does.attempt (fun current j _ _ => ?_) fun e j _ _ => .throw (hinv _)
  refine .ofAns (fun _ _ => hinv _) fun _ _ => ?_
  split
  · exact .throw (hinv _)
  · refine quiet_genesisCheck.does.bind (fun _ k _ _ => ?_) fun e k _ _ => hinv e
    split
    · exact .throw (hinv _)
    · exact .throw (hinv _)

/-- How a failed `PatchLedgerData` ended: before its Patch, after it, or with the Patch's error. -/
def PatchFailure (ρ : w.Execution) (t i : Nat) (Ok : Nat → Prop) (Bad : Err → Nat → Prop) (e : Err)
    (j : Nat) : Prop :=
  Calm ρ t i j ∨ After ρ t Ok j ∨
    ∃ e₀, (e = e₀ ∨ e₀.reason = some .invalid) ∧ After ρ t (Bad e₀) j

theorem patchLedgerData_does {Ok : Nat → Prop} {Bad : Err → Nat → Prop} (hg : Quiet get)
    (hput : ∀ body j, i ≤ j → Calm ρ t i j → Does ρ t (patch body) j (fun _ k => Ok k) Bad) :
    Does ρ t (role.patchLedgerData genesisCheck get patch cm next) i (fun _ j => After ρ t Ok j)
      (PatchFailure ρ t i Ok Bad) := by
  unfold Role.patchLedgerData
  have early : ∀ e, PatchFailure ρ t i Ok Bad e i := fun e => .inl (calm_refl i)
  refine .ofAns (fun e _ => early e) fun _ _ => ?_
  refine .failIf (fun _ => early _) fun _ => ?_
  split
  · exact .throw (early _)
  · refine quiet_genesisCheck.does.bind (fun _ j hj hc => ?_) fun _ _ _ hc => .inl hc
    refine (hput _ j hj hc).attempt (fun updated k _ hk => ?_) fun e k _ hk => ?_
    · -- the Patch committed: whatever fails from here on, that remains
      have hok : After ρ t Ok k := .now hk
      refine .ofAns (fun _ _ => .inr (.inl hok)) fun _ _ => ?_
      refine .failIf (fun _ => .inr (.inl hok)) fun _ => ?_
      refine hg.does.bind (fun readback l hl hc => ?_) fun _ l hl hc => .inr (.inl (hok.calm hl hc))
      have hok := hok.calm hl hc
      refine .ofAns (fun _ _ => .inr (.inl hok)) fun _ _ => ?_
      refine .ofAns (fun _ _ => .inr (.inl hok)) fun _ _ => ?_
      exact quiet_genesisCheck.does.mono (fun _ n hn hc => hok.calm hn hc)
        fun _ n hn hc => .inr (.inl (hok.calm hn hc))
    · refine (classifyLedgerPatchError_does hg e).mono (fun _ _ _ h => h.elim) fun e' l hl h => ?_
      exact .inr (.inr ⟨e, h.2, ⟨k, hl, hk, h.1⟩⟩)

end Patch

/-- From `i` to `j` thread `t` issued no effect, and no arming write of it went unanswered. -/
structure Steady (ρ : w.Execution) (t i j : Nat) : Prop where
  silent : ρ.silent t isEffect i j
  confirmed : Confirmed ρ t i → Confirmed ρ t j

theorem Steady.of_calm (h : Calm ρ t i j) : Steady ρ t i j :=
  ⟨silent_of_imp h fun _ => isEffect.writes, fun hc => hc.calm h⟩

variable {k : Nat}

theorem Steady.trans (h : Steady ρ t i j) (h' : Steady ρ t j k) : Steady ρ t i k :=
  ⟨Run.silent_trans h.silent h'.silent, fun hc => h'.confirmed (h.confirmed hc)⟩

theorem Steady.calm (h : Steady ρ t i j) (h' : Calm ρ t j k) : Steady ρ t i k :=
  h.trans (.of_calm h')

/-- Thread `t` may still spend the nonce `a`. -/
structure Fresh (ρ : w.Execution) (t i : Nat) (a : String) : Prop where
  unspent : Unspent ρ t i a isEffect
  confirmed : Confirmed ρ t i

theorem Fresh.steady {a : String} (h : Fresh ρ t i a) (hij : i ≤ j) (hs : Steady ρ t i j) :
    Fresh ρ t j a :=
  ⟨h.unspent.silent hij hs.silent, hs.confirmed h.confirmed⟩

/-- A ledger write that succeeded. -/
structure Wrote (ρ : w.Execution) (t i j : Nat) (next : ReservationState) : Prop where
  stored : ∃ m, i < m ∧ m ≤ j ∧ (ρ.store m).ledger.data = next
  steady : Steady ρ t i j

theorem encodeReservations_ok {s : ReservationState} {x : Ext}
    (h : x.encodeReservations s = .ok ()) : s.validate = .ok () := by
  unfold Ext.encodeReservations at h
  split at h
  · cases h
  · assumption

variable {next : ReservationState} {uid : UID} {m : Nat}
variable {patch : Option (List (PatchOp ReservationState))}

theorem Confirmed.put {rv : Nat} {r : Ans LedgerMap} (h : Confirmed ρ t i) (hjm : j < m)
    (h1 : ρ.rests t i j) (hs : ρ.sends j t (.putLedger writer uid patch rv next))
    (h2 : ρ.rests t (j + 1) m) (hg : ρ.gets m t (.putLedger writer uid patch rv next) r)
    (hr : ∀ e, r = .error e → unknownOutcome e = false ∨ ¬ isArming writer) :
    Confirmed ρ t (m + 1) := by
  intro k writer' uid' patch' rv' next' e hk ha hg'
  rcases Nat.lt_or_ge k i with hlt | hge
  · exact h k writer' uid' patch' rv' next' e hlt ha hg'
  · rcases Nat.lt_trichotomy k j with hkj | rfl | hkj
    · exact absurd hg' ((h1 k hge hkj).2 _ _)
    · exact absurd hg' (Run.not_gets_of_sends hs)
    · rcases Nat.lt_or_ge k m with hkm | hkm
      · exact absurd hg' ((h2 k hkj hkm).2 _ _)
      · have hkm : k = m := by omega
        subst hkm
        cases Run.gets_unique hg hg'
        exact (hr e (Run.gets_functional hg hg')).resolve_right (not_not.mpr ha)

theorem putLedger_does {rv : Nat}
    (hd : ∀ n, i ≤ n → ρ.rests t i n → LedgerWrite ρ n t writer uid rv next) :
    Does ρ t (putLedger writer uid patch rv next) i (fun _ k => Wrote ρ t i k next)
      (fun e k => unknownOutcome e = false ∨ ¬ isArming writer → Steady ρ t i k) := by
  refine Run.wp_perform hd fun j m r hj hm h1 hs h2 hg => ?_
  have hne : ¬ isEffect (.putLedger writer uid patch rv next) := id
  have hsil : ρ.silent t isEffect i (m + 1) := Run.silent_exchange hne h1 hs h2 hg
  cases r with
  | ok cm =>
    refine ⟨⟨m + 1, by omega, le_rfl, putLedger_ok hg⟩, hsil, fun hc => ?_⟩
    exact Confirmed.put hc hm h1 hs h2 hg fun e he => by cases he
  | error e =>
    refine fun hu => ⟨hsil, fun hc => Confirmed.put hc hm h1 hs h2 hg fun e' he => ?_⟩
    cases he
    exact hu

theorem Wrote.calm (h : Wrote ρ t i k next) (hkj : k ≤ j) (hc : Calm ρ t k j) :
    Wrote ρ t i j next := by
  obtain ⟨m, h1, h2, hd⟩ := h.stored
  exact ⟨⟨m, h1, h2.trans hkj, hd⟩, h.steady.calm hc⟩

theorem Wrote.since (h : Wrote ρ t k j next) (hik : i ≤ k) (hc : Calm ρ t i k) :
    Wrote ρ t i j next := by
  obtain ⟨m, h1, h2, hd⟩ := h.stored
  exact ⟨⟨m, by omega, h2, hd⟩, (Steady.of_calm hc).trans h.steady⟩

theorem not_unknownOutcome {e : Err} (h : e.isConflict ∨ e.reason = some .invalid) :
    unknownOutcome e = false := by
  have hr : e.reason = some .conflict ∨ e.reason = some .invalid :=
    h.imp_left fun hc => by simpa [Err.isConflict] using hc
  rcases hr with hr | hr <;> simp [unknownOutcome, hr]

theorem storeReservations_does {cm : LedgerMap} (hm : m < i) (hcm : cm = (ρ.store m).ledger)
    (hc : LedgerChange ρ t m i uid cm.data writer next) :
    Does ρ t ((w.reconciler cfg coord).storeReservations writer uid cm next) i
      (fun _ j => Wrote ρ t i j next)
      (fun e j => e.isConflict ∨ ¬ isArming writer → Steady ρ t i j) := by
  unfold Reconciler.storeReservations
  refine .ofAns (fun e _ _ => .of_calm (calm_refl i)) fun _ he => ?_
  have hd : ∀ k, i ≤ k → Calm ρ t i k → ∀ n, k ≤ n → ρ.rests t k n →
      LedgerWrite ρ n t writer uid cm.resourceVersion next := by
    intro k hk hck n hn hr
    have hcn : Calm ρ t i n := Run.silent_trans hck hr.silent
    refine ⟨⟨m, by omega, by rw [hcm], ?_⟩, encodeReservations_ok he⟩
    have := hc.later (hk.trans hn) (silent_of_imp hcn fun _ => isEffect.writes)
    rwa [hcm] at this
  have hput : ∀ patch k, i ≤ k → Calm ρ t i k →
      Does ρ t (putLedger writer uid patch cm.resourceVersion next) k
        (fun _ l => Wrote ρ t i l next)
        (fun e l => unknownOutcome e = false ∨ ¬ isArming writer → Steady ρ t i l) := by
    intro patch k hk hck
    refine (putLedger_does (hd k hk hck)).mono (fun _ l _ h => h.since hk hck) fun e l _ h hu => ?_
    exact (Steady.of_calm hck).trans (h hu)
  split
  · refine (patchLedgerData_does quiet_getLedger fun body => hput (some body)).mono (fun _ j _ h => ?_)
      fun e j _ h hu => ?_
    · obtain ⟨k, hk, hw, hck⟩ := h
      exact hw.calm hk hck
    · rcases h with hcj | ⟨k, -, hw, hck⟩ | ⟨e₀, he₀, k, -, hb, hck⟩
      · exact .of_calm hcj
      · exact hw.steady.calm hck
      · refine (hb (hu.imp_left fun hcf => not_unknownOutcome ?_)).calm hck
        exact he₀.imp_left fun (h : e = e₀) => h ▸ hcf
  · refine (hput none i le_rfl (calm_refl i)).bind (fun _ j _ h => .pure h) fun e j _ h hu => ?_
    exact h (hu.imp_left fun hcf => not_unknownOutcome (.inl hcf))

theorem proposed_does :
    Does ρ t (mark (.proposed next)) i (fun _ j => Steady ρ t i j) (fun _ _ => False) := by
  refine Run.wp_perform (fun _ _ _ => trivial) fun j m _ hj hm h1 hs h2 hg => ?_
  have hsil : ∀ {P : Request → Prop}, ¬ P (.mark (.proposed next)) → ρ.silent t P i (m + 1) :=
    fun hne => Run.silent_exchange hne h1 hs h2 hg
  exact ⟨hsil fun h => h, fun hc => hc.silent (hsil fun h => h)⟩

/-- `writeReservations`, for a move that is justified by a read and what was seen since.  A conflict
is a refusal, so it leaves nothing open. -/
theorem writeReservations_does {cm : LedgerMap} (hm : m < i) (hcm : cm = (ρ.store m).ledger)
    (hc : LedgerChange ρ t m i uid cm.data writer next) :
    Does ρ t ((w.reconciler cfg coord).writeReservations writer uid cm next) i
      (fun _ j => Wrote ρ t i j next)
      (fun e j => e.isConflict ∨ ¬ isArming writer → Steady ρ t i j) := by
  unfold Reconciler.writeReservations
  refine proposed_does.bind (fun _ k hk hst => ?_) fun _ _ _ h => h.elim
  refine (storeReservations_does (hm.trans_le hk) hcm (hc.later hk hst.silent)).mono
    (fun _ j _ hw => ?_) fun e j _ h hu => hst.trans (h hu)
  obtain ⟨l, hkl, hlj, hd⟩ := hw.stored
  exact ⟨⟨l, hk.trans_lt hkl, hlj, hd⟩, hst.trans hw.steady⟩

theorem onConflict_does {τ α : Type} {n : Nat} {s : τ} {e : Err} {otherwise : K (Round τ α)}
    {Post : α → Nat → Prop} {I : τ → Nat → Prop}
    (hagain : e.isConflict → ∀ j, i ≤ j → Calm ρ t i j → I s j)
    (hother : Does ρ t otherwise i (roundPost Post I)) :
    Does ρ t (onConflict n s e otherwise) i (roundPost Post I) := by
  unfold onConflict
  split
  · next hc => exact (quiet_waitCAS n).does.andThen fun _ j hj h => .pure (hagain hc j hj h)
  · exact hother

end KovaService.Proof
