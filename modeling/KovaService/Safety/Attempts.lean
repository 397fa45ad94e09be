import KovaService.Safety.Capacity

/-!
The cleanup fence, and the single Pod attempt of Genesis mode.
-/

namespace KovaService.Safety

open Lib Api Ledger Protocol Proof KovaService.System

variable {w : World} {ρ : w.Execution} {n m k t : Nat} {uid : UID}

/-- No entry appears, and an entry that stays gets no new attempt, no new receipt, and stays closing
if it was. -/
def Frozen : Option ActiveReservation → Option ActiveReservation → Prop
  | none, after => after = none
  | some _, none => True
  | some e, some e' =>
    e'.podAttemptNonce = e.podAttemptNonce ∧ e'.inFlight ⊆ e.inFlight ∧
      e'.grantObservedRV = e.grantObservedRV ∧ e'.podTemplateDigest = e.podTemplateDigest ∧
      (e.closing → e'.closing)

theorem Frozen.refl (o : Option ActiveReservation) : Frozen o o := by
  cases o with
  | none => rfl
  | some e => exact ⟨rfl, List.Subset.refl _, rfl, rfl, fun h => h⟩

theorem EntryMove.frozen {writer : LedgerWriter} {before after : Option ActiveReservation}
    (h : EntryMove ρ t m k uid writer before after) (hl : ¬ SawLive ρ m k uid) :
    Frozen before after := by
  cases h with
  | fenceNone => exact .refl none
  | fence => exact ⟨rfl, List.Subset.refl _, rfl, rfl, fun _ => rfl⟩
  | release => trivial
  | admission _ _ h => exact absurd h hl
  | update h =>
    cases h with
    | complete => exact ⟨rfl, List.erase_subset, rfl, rfl, fun h => h⟩
    | completeGenesis => exact ⟨rfl, List.nil_subset _, rfl, rfl, fun h => h⟩
    | pinGrant | markGrant | pinPod | markPod =>
      exact ⟨rfl, List.Subset.refl _, rfl, rfl, fun h => h⟩
    | beginLegacy _ _ h | begin _ _ h | armGrant _ h | armPod _ h | issue _ _ h => exact absurd h hl

def Ineligible (b : KovaBuild) : Prop :=
  b.terminalOrDeleting ∨ b.cancellationRequested

variable {b : KovaBuild}

theorem Ineligible.not_live (h : Ineligible b) : b.live = false := by
  rcases h with h | h
  · exact not_live_of_ended h
  · simp [KovaBuild.live, h]

/-- A fence for the build `b` commits at instant `n`, after `b` had become ineligible. -/
structure FenceCommit (ρ : w.Execution) (n : Nat) (b : KovaBuild) : Prop where
  acts : ∃ patch rv next, ρ.acts n (.putLedger .fenceReservation b.uid patch rv next)
  written : (ρ.store (n + 1)).ledger ≠ (ρ.store n).ledger
  stored : b ∈ (ρ.store n).versions
  ineligible : Ineligible b

theorem fenceCommit_version (h : FenceCommit ρ n b) :
    (ρ.store n).ledger.resourceVersion < (ρ.store (n + 1)).ledger.resourceVersion := by
  obtain ⟨patch, rv, next, ha⟩ := h.acts
  obtain ⟨m, k, t, hc⟩ := (ledgerCommit_of_acts ha).resolve_left h.written
  exact hc.version

theorem frozen_after_fence (h : FenceCommit ρ n b) {n' : Nat} (hn : n < n') :
    Frozen (entryAt ρ n' b.uid) (entryAt ρ (n' + 1) b.uid) := by
  rcases entry_step ρ n' b.uid with he | ⟨m, k, t, writer, hc, hmove⟩
  · rw [he]
    exact .refl _
  · have hnm := commit_read_after hc hn (fenceCommit_version h)
    exact hmove.frozen (not_sawLive h.stored h.ineligible.not_live hnm.le)

variable {e : ActiveReservation}

theorem fence_closing (h : FenceCommit ρ n b) (he : entryAt ρ (n + 1) b.uid = some e) :
    e.closing := by
  obtain ⟨patch, rv, next, ha⟩ := h.acts
  obtain ⟨m, k, t, hc⟩ := (ledgerCommit_of_acts ha).resolve_left h.written
  have hmove : EntryMove ρ t m k b.uid .fenceReservation (entryAt ρ n b.uid)
      (entryAt ρ (n + 1) b.uid) := ledgerChange_entry hc.change
  rw [he] at hmove
  generalize entryAt ρ n b.uid = before at hmove
  cases hmove with
  | fence => rfl
  | update hu => cases hu

/-- The fence is final: what holds of every run. -/
structure FenceFinal (ρ : w.Execution) : Prop where
  closing : ∀ n b e, FenceCommit ρ n b →
    (ρ.store (n + 1)).ledger.data.active.lookup b.uid = some e → e.closing
  frozen : ∀ n b n', FenceCommit ρ n b → n < n' →
    Frozen ((ρ.store n').ledger.data.active.lookup b.uid)
      ((ρ.store (n' + 1)).ledger.data.active.lookup b.uid)

/-- In every run, once a fence has committed for a build that was already terminal, deleting or asked
to stop, no ledger commit adds an entry for it, records an attempt or arms a receipt on its entry, or
takes the closing mark off again. -/
theorem fence_final (ρ : w.Execution) : FenceFinal ρ :=
  ⟨fun _ _ _ h he => fence_closing h he, fun _ _ _ h hn => frozen_after_fence h hn⟩

theorem ledger_version (hg : w.genesis.isSome) (n : Nat) : (ρ.store n).ledger.data.version = 2 := by
  rw [(ledger_header ρ n).1]
  simp [World.initial, hg, ReservationState.genesisEmpty]

/-- In Genesis mode an attempt in flight is the attempt of the entry, and both receipts are pinned. -/
theorem inFlight_genesis (hg : w.genesis.isSome) {a : String} (he : entryAt ρ n uid = some e)
    (ha : a ∈ e.inFlight) :
    a = e.podAttemptNonce ∧ e.podReceiptUID ≠ "" ∧ e.grantReceiptUID ≠ "" ∧
      e.podAttemptNonce ≠ "" := by
  obtain ⟨-, hpod⟩ := (ledger_valid ρ n).genesis (ledger_version hg n) uid e he
  have hne : e.inFlight ≠ [] := List.ne_nil_of_mem ha
  simp only [ActiveReservation.podConsistent, Bool.and_eq_true, Bool.or_eq_true, bne_iff_ne, ne_eq,
    beq_iff_eq, hne, and_false, or_false, List.all_eq_true] at hpod
  obtain ⟨⟨⟨⟨⟨⟨⟨hnonce, -⟩, hdigest⟩, hgrant⟩, -⟩, -⟩, hall⟩, -⟩ := hpod
  obtain ⟨hau, hpr⟩ := hall a ha
  exact ⟨hau, hpr, (hgrant.resolve_left hdigest).2, hnonce⟩

theorem attempt_begun (he : entryAt ρ n uid = some e) (ha : e.podAttemptNonce ≠ "") :
    ∃ j m k t, j < n ∧ LedgerCommit ρ j m k t .beginPodCreate uid ∧
      Minted ρ t k e.podAttemptNonce ∧
      ∃ e', entryAt ρ (j + 1) uid = some e' ∧ e'.podAttemptNonce = e.podAttemptNonce := by
  obtain ⟨j, m, k, t, writer, e₀, e₁, hj, hc, hmove, h₀, h₁, he₁⟩ :=
    entry_became (P := fun e => e.podAttemptNonce ≠ "") he ha fun h => by cases h; simp
  have heq := (entry_grows hj he₁ he).podAttemptNonce h₁
  cases hmove with
  | fence => exact absurd h₁ h₀
  | update hu =>
    cases hu with
    | begin _ _ _ hmint => exact ⟨j, m, k, t, hj, hc, heq ▸ hmint, _, he₁, heq.symm⟩
    | _ => exact absurd h₁ h₀

/-- A Pod Create of a Genesis installation, at the moment it is issued. -/
structure GenesisCreate (ρ : w.Execution) (n t : Nat) (p : Pod) (b : KovaBuild)
    (e : ActiveReservation) : Prop where
  owner : p.ownerReferences = [Controller.Reconciler.controllerReference b]
  stored : b ∈ (ρ.store n).versions
  entry : (ρ.store n).ledger.data.active.lookup b.uid = some e
  nonce : p.annotations.createAttempt = e.podAttemptNonce
  inFlight : e.podAttemptNonce ∈ e.inFlight
  grantPinned : e.grantReceiptUID ≠ ""
  podPinned : e.podReceiptUID ≠ ""
  begun : ∃ j m k, j < n ∧ LedgerCommit ρ j m k t .beginPodCreate b.uid ∧
    ∃ e', (ρ.store (j + 1)).ledger.data.active.lookup b.uid = some e' ∧
      e'.podAttemptNonce = e.podAttemptNonce

theorem genesisCreate_of_sends (hg : w.genesis.isSome) {p : Pod} (hs : ρ.sends n t (.createPod p)) :
    ∃ b e, GenesisCreate ρ n t p b e := by
  obtain ⟨b, e, hu⟩ := underWay_of_sends hs le_rfl (not_settled_of_sends hs)
  obtain ⟨hstamp, hpod, hgrant, hne⟩ := inFlight_genesis hg hu.entry hu.inFlight
  obtain ⟨j, m, k, t', hj, hc, ⟨i, hi, hmint⟩, hrest⟩ := attempt_begun hu.entry hne
  obtain ⟨i', -, hmint', -⟩ := hu.creation.unspent
  -- the nonce of the entry was drawn by one thread only
  obtain ⟨-, rfl⟩ := nonce_unique ρ hmint (hstamp ▸ hmint')
  exact ⟨b, e, hu.creation.owner, hu.creation.stored, hu.entry, hstamp, hstamp ▸ hu.inFlight, hgrant,
    hpod, j, m, k, hj, hc, hrest⟩

theorem genesisCreate_unique (hg : w.genesis.isSome) {p p' : Pod} {n' t' : Nat}
    (hs : ρ.sends n t (.createPod p)) (hs' : ρ.sends n' t' (.createPod p'))
    (hc : controlledBy p uid) (hc' : controlledBy p' uid) : n = n' := by
  obtain ⟨b, e, h⟩ := genesisCreate_of_sends hg hs
  obtain ⟨b', e', h'⟩ := genesisCreate_of_sends hg hs'
  have he : entryAt ρ n uid = some e := controlledBy_owner h.owner hc ▸ h.entry
  have he' : entryAt ρ n' uid = some e' := controlledBy_owner h'.owner hc' ▸ h'.entry
  have hne := (inFlight_genesis hg he h.inFlight).2.2.2
  have hne' := (inFlight_genesis hg he' h'.inFlight).2.2.2
  have heq : e'.podAttemptNonce = e.podAttemptNonce := by
    rcases Nat.le_total n n' with hle | hle
    · exact (entry_grows hle he he').podAttemptNonce hne
    · exact ((entry_grows hle he' he).podAttemptNonce hne').symm
  exact createPod_once e.podAttemptNonce n t _ n' t' _ hs h.nonce hs' (h'.nonce.trans heq)

/-- Thread `t` was left without an answer to a write that arms a receipt, before `n`. -/
def ArmingLost (ρ : w.Execution) (t n : Nat) : Prop :=
  ∃ m writer uid patch rv next e, m < n ∧ isArming writer ∧
    ρ.gets m t (.putLedger writer uid patch rv next) (.error e) ∧ unknownOutcome e

def isGrantEffect : Request → Prop
  | .createReceipt r => (∃ g, r.data = .grant g) ∨ ∃ p, r.data = .podCreate p
  | .createPod _ => True
  | _ => False

theorem not_armingLost (hg : w.genesis.isSome) {q : Request} (hs : ρ.sends n t q)
    (hq : isGrantEffect q) : ¬ ArmingLost ρ t n := by
  rintro ⟨m, writer, uid, patch, rv, next, e, hm, harm, hget, hlost⟩
  have hconf : Confirmed ρ t n := by
    have hd := sends_demanded ρ n t q hs
    cases q with
    | createPod p =>
      obtain ⟨b, hb⟩ := hd
      exact hb.confirmed hg
    | createReceipt r =>
      obtain ⟨-, hd⟩ := hd
      rcases hq with ⟨g, hr⟩ | ⟨p, hr⟩
      · rw [hr] at hd
        exact hd.2.2
      · rw [hr] at hd
        exact hd.2.2
    | _ => exact hq.elim
  have := hconf m writer uid patch rv next e hm harm hget
  rw [hlost] at this
  cases this

/-- What holds of the Pod Creates of every Genesis run. -/
structure SinglePodCreate (ρ : w.Execution) : Prop where
  once : ∀ n t p n' t' p' uid, ρ.sends n t (.createPod p) → ρ.sends n' t' (.createPod p') →
    controlledBy p uid → controlledBy p' uid → n = n'
  issued : ∀ n t p, ρ.sends n t (.createPod p) → ∃ b e, GenesisCreate ρ n t p b e
  confirmed : ∀ n t q, ρ.sends n t q → isGrantEffect q → ¬ ArmingLost ρ t n

/-- In every run of a Genesis installation a build gets at most one Pod Create.  It is issued by the
thread whose own `beginPodCreate` recorded the attempt, when both receipts are pinned and the ledger
has the attempt in flight; and a thread that was left without an answer to an arming write creates
neither a receipt nor a Pod. -/
theorem genesis_single_pod_create (g : Genesis) (ρ : World.Execution { w with genesis := some g }) :
    SinglePodCreate ρ :=
  ⟨fun _ _ _ _ _ _ _ hs hs' => genesisCreate_unique rfl hs hs',
    fun _ _ _ => genesisCreate_of_sends rfl, fun _ _ _ => not_armingLost rfl⟩

end KovaService.Safety
