import KovaService.Safety.Locality

/-!
The life of an entry of the active ledger.

A build that is no longer open to admission never is again.  So an entry that is gone after the build
has ended never comes back, and between its admission and its release the fields of an entry only
grow.
-/

namespace KovaService.Safety

open Lib Api Ledger Protocol Proof KovaService.System

variable {w : World} {ρ : w.Execution} {n m k t : Nat} {uid : UID}

inductive Revised (ρ : w.Execution) (n : Nat) (current : KovaBuild) : KovaBuild → Prop where
  | metadata {m b finalizers rv} (hm : m < n) (hw : MetadataWrite ρ m b current) :
      Revised ρ n current { current with
        annotations := b.annotations, finalizers := finalizers, resourceVersion := rv }
  | status {m t b rv} (hm : m < n) (hs : ρ.sends m t (.updateStatus b))
      (hw : StatusWrite ρ m t b current) :
      Revised ρ n current { current with status := b.status, resourceVersion := rv }
  | cancel {text rv} (hc : current.cancellationRequested = false) :
      Revised ρ n current { current with
        annotations := { current.annotations with cancellationRequestedAt := text }
        resourceVersion := rv }
  | delete {now rv} :
      Revised ρ n current { current with deletionTimestamp := some now, resourceVersion := rv }

variable {current : KovaBuild}

theorem base_eq {base : KovaBuild} (hb : base ∈ (ρ.store m).versions) (hmn : m < n)
    (hc : current ∈ (ρ.store n).versions)
    (hr : base.resourceVersion = current.resourceVersion) : base = current :=
  (versions_ok ρ n).version_inj _ (versions_mono ρ hmn.le hb) _ hc hr

variable {b : KovaBuild}

theorem metadata_base {q : Request} (hq : ρ.acts n q) (hw : wired q)
    (hd : ∀ m t, demand ρ m t q → ∃ base, MetadataWrite ρ m b base)
    (hc : current ∈ (ρ.store n).versions) (hr : b.resourceVersion = current.resourceVersion) :
    ∃ m, m < n ∧ MetadataWrite ρ m b current := by
  obtain ⟨m, t, hm, -, hdem⟩ := acts_demanded hq hw
  obtain ⟨base, hbase⟩ := hd m t hdem
  have hrv : base.resourceVersion = b.resourceVersion := by rw [hbase.metadata]
  rw [base_eq hbase.stored hm hc (hrv.trans hr)] at hbase
  exact ⟨m, hm, hbase⟩

theorem revision_revised (h : Revision ρ n current b) (hc : current ∈ (ρ.store n).versions) :
    Revised ρ n current b := by
  cases h with
  | @edit q b change hq he hu hr =>
    cases he with
    | update | annotate =>
      obtain ⟨m, hm, hw⟩ := metadata_base hq rfl (fun _ _ h => h) hc hr
      exact .metadata (b := b) hm hw
    | status =>
      obtain ⟨m, t, hm, hs, base, hbase⟩ := acts_demanded hq rfl
      have hrv : base.resourceVersion = b.resourceVersion := by rw [hbase.status]
      rw [base_eq hbase.stored hm hc (hrv.trans hr)] at hbase
      exact .status (b := b) hm hs hbase
  | cancel _ hc => exact .cancel hc
  | delete => exact .delete

/-- What no revision of a build takes back. -/
structure Advance (b b' : KovaBuild) : Prop where
  queue : pastQueue b.status.phase → pastQueue b'.status.phase
  deletion : b.deletionTimestamp.isSome → b'.deletionTimestamp.isSome
  linked : Linked b.annotations b'.annotations

theorem linked_refl (a : BuildAnnotations) : Linked a a :=
  ⟨rfl, rfl, rfl, fun _ => rfl, fun _ => rfl⟩

theorem Revised.advance (h : Revised ρ n current b) : Advance current b := by
  cases h with
  | metadata _ hw => exact ⟨fun h => h, fun h => h, hw.linked⟩
  | status _ _ hw => exact ⟨hw.queue, fun h => h, linked_refl _⟩
  | cancel hc =>
    refine ⟨fun h => h, fun h => h, rfl, rfl, rfl, fun h => ?_, fun _ => rfl⟩
    simp [KovaBuild.cancellationRequested, h] at hc
  | delete => exact ⟨fun h => h, fun _ => rfl, linked_refl _⟩

theorem Advance.not_live {b' : KovaBuild} (h : Advance b b') (hb : b.live = false) :
    b'.live = false := by
  by_contra hl
  simp only [KovaBuild.live, KovaBuild.cancellationRequested, Bool.not_eq_false, Bool.and_eq_true,
    Option.isNone_iff_eq_none, Bool.not_eq_true', bne_eq_false_iff_eq, Bool.or_eq_true,
    beq_iff_eq] at hl
  obtain ⟨⟨hdel, hcan⟩, hphase⟩ := hl
  have hdel' : b.deletionTimestamp = none := by
    have := mt h.deletion
    simpa [hdel] using this
  have hcan' : b.annotations.cancellationRequestedAt = "" := by
    by_contra hne
    exact hne ((h.linked.cancelled hne).symm.trans hcan)
  have hphase' : b.status.phase = .unset ∨ b.status.phase = .queued := by
    by_contra hne
    have := h.queue ⟨fun h => hne (.inl h), fun h => hne (.inr h)⟩
    exact hphase.elim this.1 this.2
  rcases hphase' with hp | hp <;>
    simp [KovaBuild.live, KovaBuild.cancellationRequested, hdel', hcan', hp] at hb

theorem not_live_of_ended (h : b.terminalOrDeleting) : b.live = false := by
  simp only [KovaBuild.terminalOrDeleting, Bool.or_eq_true] at h
  rcases h with h | h
  · simp [KovaBuild.live, Option.isSome_iff_ne_none.mp h]
  · cases hp : b.status.phase <;> simp_all [KovaBuild.live, Phase.isTerminal]

theorem stored_later {P : KovaBuild → Prop}
    (step : ∀ n current b, Revised ρ n current b → P current → P b) {c : KovaBuild}
    {name : String} (hb : b ∈ (ρ.store m).versions) (hP : P b) (hmn : m ≤ n)
    (hc : (ρ.store n).builds.lookup name = some c) (hu : c.uid = b.uid) : P c := by
  have hv := versions_ok ρ n
  refine later_versions ρ (fun n current b hr hcur => step n current b (revision_revised hr hcur))
    hb hP (hv.current _ _ hc).1 hu ?_
  exact hv.newest _ _ hc b (versions_mono ρ hmn hb) hu.symm

/-- What holds of a build at its creation and is kept by its revisions holds of every version. -/
theorem version_induction {P : Nat → KovaBuild → Prop} (mono : ∀ n b, P n b → P (n + 1) b)
    (create : ∀ n b, Creation ρ n b → (ρ.store (n + 1)).versions = b :: (ρ.store n).versions →
      P (n + 1) b)
    (revise : ∀ n current b, Revised ρ n current b → SameBuild current b →
      current ∈ (ρ.store n).versions → P n current → P (n + 1) b)
    (n : Nat) : ∀ b ∈ (ρ.store n).versions, P n b := by
  induction n with
  | zero =>
    intro b hb
    simp [Run.store, ρ.zero, Semantics.start, World.initial] at hb
  | succ n ih =>
    intro b hb
    cases buildStep ρ n with
    | keep _ hv | erase _ _ hv => exact mono n b (ih b (hv ▸ hb))
    | create b' hc _ _ hv _ =>
      rcases List.mem_cons.mp (hv ▸ hb) with rfl | hb
      · exact create n b hc hv
      · exact mono n b (ih b hb)
    | revise current b' hrev hl _ _ hv _ =>
      rcases List.mem_cons.mp (hv ▸ hb) with rfl | hb
      · have hcur := ((versions_ok ρ n).current _ _ hl).1
        exact revise n current b (revision_revised hrev hcur) hrev.same hcur (ih current hcur)
      · exact mono n b (ih b hb)

theorem never_live_again {c : KovaBuild} {name : String} (hb : b ∈ (ρ.store m).versions)
    (hl : b.live = false) (hmn : m ≤ n) (hc : (ρ.store n).builds.lookup name = some c)
    (hu : c.uid = b.uid) : c.live = false :=
  stored_later (P := fun b => b.live = false) (fun _ _ _ h => h.advance.not_live) hb hl hmn hc hu

theorem not_sawLive (hb : b ∈ (ρ.store m).versions) (hl : b.live = false) (hmk : m ≤ k) :
    ¬ SawLive ρ k n b.uid := by
  rintro ⟨j, c, hj, -, hc, hu, hlive⟩
  rw [never_live_again hb hl (hmk.trans hj.le) hc hu] at hlive
  cases hlive

def entryAt (ρ : w.Execution) (n : Nat) (uid : UID) : Option ActiveReservation :=
  (ρ.store n).ledger.data.active.lookup uid

inductive EntryMove (ρ : w.Execution) (t m n : Nat) (uid : UID) :
    LedgerWriter → Option ActiveReservation → Option ActiveReservation → Prop where
  | admission {b : KovaBuild} {slots : Int} {nonce : String} {fence : UInt64}
      (hb : b ∈ (ρ.store n).versions) (hu : b.uid = uid) (hl : SawLive ρ m n uid)
      (ha : w.genesis.isSome → Minted ρ t n nonce) :
      EntryMove ρ t m n uid .admission none (some
        { buildName := b.name, requester := b.requesterKey, slots := slots
          grantNonce := nonce, grantFence := fence })
  | fenceNone : EntryMove ρ t m n uid .fenceReservation none none
  | fence {e} : EntryMove ρ t m n uid .fenceReservation (some e) (some { e with closing := true })
  | release {e} (hc : e.closing = true) (hi : e.inFlight = [])
      (hp : SawNoPod ρ m n (buildPodName e.buildName)) (hd : Ended ρ n uid)
      (hr : w.genesis.isSome → ReceiptsGone ρ m n e) :
      EntryMove ρ t m n uid .releaseReservation (some e) none
  | update {writer e e'} (hu : EntryUpdate ρ t m n uid e writer e') :
      EntryMove ρ t m n uid writer (some e) (some e')

variable {e : ActiveReservation} {s : ReservationState}

theorem lookup_fenced (he : s.active.lookup uid = some e) :
    (Controller.Reconciler.fenced s uid).active.lookup uid = some { e with closing := true } := by
  unfold Controller.Reconciler.fenced
  rw [he]
  exact Finmap.lookup_insert _

theorem lookup_fenced_none (he : s.active.lookup uid = none) :
    (Controller.Reconciler.fenced s uid).active.lookup uid = none := by
  unfold Controller.Reconciler.fenced
  rw [he]
  exact he

variable {writer : LedgerWriter}

theorem ledgerChange_entry {next : ReservationState} (h : LedgerChange ρ t m k uid s writer next) :
    EntryMove ρ t m k uid writer (s.active.lookup uid) (next.active.lookup uid) := by
  cases h with
  | admission hb hu hn hl ha =>
    dsimp only
    rw [hn, ReservationState.lookup_set_self]
    exact .admission hb hu hl ha
  | fence =>
    cases he : s.active.lookup uid with
    | none =>
      rw [lookup_fenced_none he]
      exact .fenceNone
    | some e =>
      rw [lookup_fenced he]
      exact .fence
  | release he hc hi hp hd hr =>
    rw [he, ReservationState.lookup_remove_self]
    exact .release hc hi hp hd hr
  | update he hu =>
    rw [he, ReservationState.lookup_set_self]
    exact .update hu

/-- The entry of a build changes only by a move made for it. -/
theorem entry_step (ρ : w.Execution) (n : Nat) (uid : UID) :
    entryAt ρ (n + 1) uid = entryAt ρ n uid ∨
      ∃ m k t writer, LedgerCommit ρ n m k t writer uid ∧
        EntryMove ρ t m k uid writer (entryAt ρ n uid) (entryAt ρ (n + 1) uid) := by
  rcases ledger_step ρ n with h | ⟨m, k, t, writer, uid', hc⟩
  · exact .inl (by rw [entryAt, h]; rfl)
  · by_cases hu : uid = uid'
    · subst hu
      exact .inr ⟨m, k, t, writer, hc, ledgerChange_entry hc.change⟩
    · exact .inl ((ledgerChange_local hc.change).others uid hu)

/-- A commit was computed from a read made after every earlier write. -/
theorem commit_read_after {j : Nat} (h : LedgerCommit ρ n m k t writer uid) (hj : j < n)
    (hv : (ρ.store j).ledger.resourceVersion < (ρ.store (j + 1)).ledger.resourceVersion) :
    j < m := by
  by_contra hle
  rw [h.read j (by omega) hj.le, h.read (j + 1) (by omega) hj] at hv
  exact lt_irrefl _ hv

/-- The release of an entry, with what was known about it. -/
structure Removal (ρ : w.Execution) (n m k t : Nat) (uid : UID) (e : ActiveReservation) : Prop where
  commit : LedgerCommit ρ n m k t .releaseReservation uid
  entry : entryAt ρ n uid = some e
  closing : e.closing
  inFlight : e.inFlight = []
  noPod : SawNoPod ρ m k (buildPodName e.buildName)
  ended : Ended ρ k uid
  receipts : w.genesis.isSome → ReceiptsGone ρ m k e

/-- What a move keeps of an entry: its grant as a whole, and every field that has been set. -/
structure Grows (e e' : ActiveReservation) : Prop where
  buildName : e'.buildName = e.buildName
  requester : e'.requester = e.requester
  slots : e'.slots = e.slots
  grantNonce : e'.grantNonce = e.grantNonce
  grantFence : e'.grantFence = e.grantFence
  grantObservedRV : e.grantObservedRV ≠ "" → e'.grantObservedRV = e.grantObservedRV
  grantReceipt : e.grantReceiptUID ≠ "" →
    e'.grantReceiptUID = e.grantReceiptUID ∧ e'.grantReceiptDigest = e.grantReceiptDigest
  grantCleanupReady : e.grantCleanupReady → e'.grantCleanupReady
  podAttemptNonce : e.podAttemptNonce ≠ "" → e'.podAttemptNonce = e.podAttemptNonce
  podTemplateDigest : e.podTemplateDigest ≠ "" → e'.podTemplateDigest = e.podTemplateDigest
  podReceipt : e.podReceiptUID ≠ "" →
    e'.podReceiptUID = e.podReceiptUID ∧ e'.podReceiptDigest = e.podReceiptDigest
  podCleanupReady : e.podCleanupReady → e'.podCleanupReady
  closing : e.closing → e'.closing

theorem Grows.refl (e : ActiveReservation) : Grows e e := by
  constructor <;> simp

variable {e' : ActiveReservation}

theorem Grows.trans {e'' : ActiveReservation} (h : Grows e e') (h' : Grows e' e'') :
    Grows e e'' where
  buildName := h'.buildName.trans h.buildName
  requester := h'.requester.trans h.requester
  slots := h'.slots.trans h.slots
  grantNonce := h'.grantNonce.trans h.grantNonce
  grantFence := h'.grantFence.trans h.grantFence
  grantObservedRV hne := by
    have he := h.grantObservedRV hne
    exact (h'.grantObservedRV (he ▸ hne)).trans he
  grantReceipt hne := by
    obtain ⟨hu, hd⟩ := h.grantReceipt hne
    obtain ⟨hu', hd'⟩ := h'.grantReceipt (hu ▸ hne)
    exact ⟨hu'.trans hu, hd'.trans hd⟩
  grantCleanupReady ht := h'.grantCleanupReady (h.grantCleanupReady ht)
  podAttemptNonce hne := by
    have he := h.podAttemptNonce hne
    exact (h'.podAttemptNonce (he ▸ hne)).trans he
  podTemplateDigest hne := by
    have he := h.podTemplateDigest hne
    exact (h'.podTemplateDigest (he ▸ hne)).trans he
  podReceipt hne := by
    obtain ⟨hu, hd⟩ := h.podReceipt hne
    obtain ⟨hu', hd'⟩ := h'.podReceipt (hu ▸ hne)
    exact ⟨hu'.trans hu, hd'.trans hd⟩
  podCleanupReady ht := h'.podCleanupReady (h.podCleanupReady ht)
  closing ht := h'.closing (h.closing ht)

theorem EntryMove.grows (h : EntryMove ρ t m k uid writer (some e) (some e')) : Grows e e' := by
  cases h with
  | fence => constructor <;> simp
  | update h => cases h <;> constructor <;> simp_all

theorem entry_removed (he : entryAt ρ n uid = some e) (hn : entryAt ρ (n + 1) uid = none) :
    ∃ m k t, Removal ρ n m k t uid e := by
  rcases entry_step ρ n uid with h | ⟨m, k, t, writer, hc, hmove⟩
  · rw [hn, he] at h
    cases h
  · rw [he, hn] at hmove
    cases hmove with
    | release hcl hi hp hd hr => exact ⟨m, k, t, hc, he, hcl, hi, hp, hd, hr⟩

theorem entry_admitted (hn : entryAt ρ n uid = none) (he : entryAt ρ (n + 1) uid = some e) :
    ∃ m k t, LedgerCommit ρ n m k t .admission uid ∧
      EntryMove ρ t m k uid .admission none (some e) := by
  rcases entry_step ρ n uid with h | ⟨m, k, t, writer, hc, hmove⟩
  · rw [hn, he] at h
    cases h
  · rw [hn, he] at hmove
    have hmove' := hmove
    cases hmove with
    | admission => exact ⟨m, k, t, hc, hmove'⟩

theorem entry_grows_succ (he : entryAt ρ n uid = some e) (he' : entryAt ρ (n + 1) uid = some e') :
    Grows e e' := by
  rcases entry_step ρ n uid with h | ⟨m, k, t, writer, hc, hmove⟩
  · rw [he', he] at h
    cases h
    exact .refl e
  · rw [he, he'] at hmove
    exact hmove.grows

/-- Without an entry, after a write made at the end of the build, there will be none. -/
theorem absent_forever (hf : Fenced ρ m uid) (h : entryAt ρ m uid = none) (hmn : m ≤ n) :
    entryAt ρ n uid = none := by
  induction hmn with
  | refl => exact h
  | @step n hmn ih =>
    by_contra hne
    obtain ⟨e, he⟩ := Option.ne_none_iff_exists'.mp hne
    obtain ⟨m', k, t, hc, hmove⟩ := entry_admitted ih he
    obtain ⟨j, hj, hv, c, hcv, rfl, hend⟩ := hf
    -- the admission read the ledger after the fence, and saw the build open after that
    have hjm := commit_read_after hc (hj.trans_le hmn) hv
    cases hmove with
    | admission _ _ hlive => exact not_sawLive hcv (not_live_of_ended hend) hjm.le hlive

theorem removed_forever (hr : Removal ρ n m k t uid e) (hn : entryAt ρ (n + 1) uid = none)
    {n' : Nat} (hnn : n < n') : entryAt ρ n' uid = none :=
  absent_forever ⟨n, Nat.lt_succ_self n, hr.commit.version, hr.ended.mono hr.commit.before.2.le⟩ hn
    hnn

/-- An entry that is gone was removed. -/
theorem entry_lost (he : entryAt ρ m uid = some e) (hmn : m ≤ n) (hn : entryAt ρ n uid = none) :
    ∃ i m' k t e₁, m ≤ i ∧ i < n ∧ entryAt ρ i uid = some e₁ ∧ entryAt ρ (i + 1) uid = none ∧
      Removal ρ i m' k t uid e₁ := by
  obtain ⟨i, hmi, hin, hi, hi'⟩ := exists_last_instant (P := fun i => entryAt ρ i uid ≠ none) hmn
    (by simp [he]) (by simp [hn])
  obtain ⟨e₁, he₁⟩ := Option.ne_none_iff_exists'.mp hi
  obtain ⟨m', k, t, hr⟩ := entry_removed he₁ (not_not.mp hi')
  exact ⟨i, m', k, t, e₁, hmi, hin, he₁, not_not.mp hi', hr⟩

theorem entry_between {j : Nat} (he : entryAt ρ m uid = some e) (he' : entryAt ρ n uid = some e')
    (hmj : m ≤ j) (hjn : j ≤ n) :
    ∃ e'', entryAt ρ j uid = some e'' := by
  refine Option.ne_none_iff_exists'.mp fun hnone => ?_
  obtain ⟨i, _, _, _, _, -, hij, -, hi', hr⟩ := entry_lost he hmj hnone
  rw [removed_forever hr hi' (by omega)] at he'
  cases he'

theorem entry_grows (hmn : m ≤ n) (he : entryAt ρ m uid = some e)
    (he' : entryAt ρ n uid = some e') : Grows e e' := by
  induction hmn generalizing e' with
  | refl =>
    rw [he] at he'
    cases he'
    exact .refl e
  | @step n hmn ih =>
    obtain ⟨e₁, he₁⟩ := entry_between he he' hmn (Nat.le_succ n)
    exact (ih he₁).trans (entry_grows_succ he₁ he')

theorem entry_owner (he : entryAt ρ n uid = some e) :
    ∃ b ∈ (ρ.store n).versions, b.uid = uid ∧ e.buildName = b.name ∧
      e.requester = b.requesterKey := by
  induction n generalizing e with
  | zero =>
    have h₀ : ρ.store 0 = w.initial := congrArg Machine.store ρ.zero
    rw [entryAt, h₀] at he
    simp only [World.initial] at he
    split at he <;> simp [ReservationState.genesisEmpty, ReservationState.freshReservations] at he
  | succ n ih =>
    cases hprev : entryAt ρ n uid with
    | none =>
      obtain ⟨m, k, t, hc, hmove⟩ := entry_admitted hprev he
      cases hmove with
      | @admission b _ _ _ hb hu =>
        exact ⟨b, versions_mono ρ (hc.before.2.le.trans (Nat.le_succ n)) hb, hu, rfl, rfl⟩
    | some e₀ =>
      obtain ⟨b, hb, hu, hname, hreq⟩ := ih hprev
      have hg := entry_grows_succ hprev he
      exact ⟨b, versions_succ ρ n hb, hu, hg.buildName.trans hname, hg.requester.trans hreq⟩

/-- What an admission does not give to an entry, a later move gave it. -/
theorem entry_became {P : ActiveReservation → Prop} (he : entryAt ρ n uid = some e) (hp : P e)
    (hnew : ∀ {m k t e}, EntryMove ρ t m k uid .admission none (some e) → ¬ P e) :
    ∃ j m k t writer e₀ e₁, j < n ∧ LedgerCommit ρ j m k t writer uid ∧
      EntryMove ρ t m k uid writer (some e₀) (some e₁) ∧ ¬ P e₀ ∧ P e₁ ∧
      entryAt ρ (j + 1) uid = some e₁ := by
  induction n generalizing e with
  | zero =>
    obtain ⟨b, hb, -⟩ := entry_owner he
    simp [Run.store, ρ.zero, Semantics.start, World.initial] at hb
  | succ n ih =>
    cases hprev : entryAt ρ n uid with
    | none =>
      obtain ⟨m, k, t, -, hmove⟩ := entry_admitted hprev he
      exact absurd hp (hnew hmove)
    | some e₀ =>
      by_cases h₀ : P e₀
      · obtain ⟨j, m, k, t, writer, e₁, e₂, hj, hrest⟩ := ih hprev h₀
        exact ⟨j, m, k, t, writer, e₁, e₂, Nat.lt_succ_of_lt hj, hrest⟩
      rcases entry_step ρ n uid with h | ⟨m, k, t, writer, hc, hmove⟩
      · rw [he, hprev] at h
        cases h
        exact absurd hp h₀
      rw [hprev, he] at hmove
      exact ⟨n, m, k, t, writer, e₀, e, Nat.lt_succ_self n, hc, hmove, h₀, hp, he⟩

theorem inFlight_leaves {a : String} (he : entryAt ρ n uid = some e) (ha : a ∈ e.inFlight)
    (hn : ¬ ∃ e', entryAt ρ (n + 1) uid = some e' ∧ a ∈ e'.inFlight) :
    ∃ m k t writer, LedgerCommit ρ n m k t writer uid ∧ Settled ρ k a := by
  rcases entry_step ρ n uid with h | ⟨m, k, t, writer, hc, hmove⟩
  · exact absurd ⟨e, h.trans he, ha⟩ hn
  refine ⟨m, k, t, writer, hc, ?_⟩
  rw [he] at hmove
  generalize entryAt ρ (n + 1) uid = after at hmove hn
  cases hmove with
  | release _ hi => simp [hi] at ha
  | fence => exact absurd ⟨_, rfl, ha⟩ hn
  | update hu =>
    cases hu with
    | beginLegacy _ hi | issue _ hi => simp [hi] at ha
    | @complete a' hset =>
      by_cases haa : a = a'
      · exact haa ▸ hset
      · exact absurd ⟨_, rfl, (List.mem_erase_of_ne haa).mpr ha⟩ hn
    | completeGenesis hi hset =>
      rw [hi, List.mem_singleton] at ha
      exact ha ▸ hset
    | _ => exact absurd ⟨_, rfl, ha⟩ hn

/-- A recorded attempt stays in flight until its Create has reached the server. -/
theorem inFlight_stays {a : String} (he : entryAt ρ m uid = some e) (ha : a ∈ e.inFlight)
    (hmn : m ≤ n) (hs : ¬ Settled ρ n a) :
    ∃ e', entryAt ρ n uid = some e' ∧ a ∈ e'.inFlight := by
  by_contra hne
  obtain ⟨i, -, hin, ⟨e₁, he₁, ha₁⟩, hgone⟩ := exists_last_instant
    (P := fun i => ∃ e', entryAt ρ i uid = some e' ∧ a ∈ e'.inFlight) hmn ⟨e, he, ha⟩ hne
  obtain ⟨m', k, t, writer, hc, hset⟩ := inFlight_leaves he₁ ha₁ hgone
  exact hs (hset.mono (hc.before.2.le.trans hin.le))

end KovaService.Safety
