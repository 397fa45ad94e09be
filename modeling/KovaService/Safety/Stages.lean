import KovaService.Proof.Proposals
import KovaService.Safety.Attempts

/-!
The stages of a Genesis reservation: every state the code proposes is accepted, a field of an entry
that is set stays as it is, and the list of attempts in flight is filled at most once.
-/

namespace KovaService.Safety

open Lib Api Ledger Protocol Proof Controller KovaService.System

variable {w : World} {ρ : w.Execution} {n n' m k t : Nat} {uid : UID}

theorem not_unspent_of_settled {a : String} (h : Settled ρ n a) :
    ¬ Unspent ρ t n a isCreatePod := by
  rintro ⟨i, hi, hmint, hsilent⟩
  obtain ⟨j, p, hj, hact, hstamp⟩ := h
  obtain ⟨j', t', hj', hsend, b, hb⟩ := acts_demanded hact rfl
  obtain ⟨i', hi', hmint', -⟩ := hb.unspent
  rw [hstamp] at hmint'
  obtain ⟨rfl, rfl⟩ := nonce_unique ρ hmint hmint'
  exact (hsilent j' hi'.le (hj'.trans hj)).1 _ hsend trivial

def Fills (ρ : w.Execution) (n : Nat) (uid : UID) : Prop :=
  ∃ e e', entryAt ρ n uid = some e ∧ entryAt ρ (n + 1) uid = some e' ∧ e.inFlight = [] ∧
    e'.inFlight ≠ []

/-- In Genesis mode only the issue of a Pod Create fills the list. -/
theorem fills_issue (hg : w.genesis.isSome) (h : Fills ρ n uid) :
    ∃ m k t e e', LedgerCommit ρ n m k t .authorizeFreshPodCreate uid ∧
      entryAt ρ n uid = some e ∧ e.inFlight = [] ∧
      entryAt ρ (n + 1) uid = some e' ∧ e.podAttemptNonce ∈ e'.inFlight ∧
      Unspent ρ t k e.podAttemptNonce isCreatePod := by
  obtain ⟨e, e', he, he', hempty, hfull⟩ := h
  rcases entry_step ρ n uid with heq | ⟨m, k, t, writer, hc, hmove⟩
  · rw [he, he'] at heq
    cases heq
    exact absurd hempty hfull
  rw [he, he'] at hmove
  cases hmove with
  | fence => exact absurd hempty hfull
  | update hu =>
    cases hu with
    | issue _ _ _ ha => exact ⟨m, k, t, e, _, hc, he, hempty, he', List.mem_singleton.mpr rfl, ha⟩
    | beginLegacy _ _ _ _ hno => simp [hg] at hno
    | complete => simp [hempty] at hfull
    | completeGenesis => exact absurd rfl hfull
    | _ => exact absurd hempty hfull

theorem not_fills_later (hg : w.genesis.isSome) (h : Fills ρ n uid) (h' : Fills ρ n' uid) :
    ¬ n < n' := by
  intro hlt
  obtain ⟨m, k, t, e, e₁, -, -, -, he₁, ha, -⟩ := fills_issue hg h
  obtain ⟨m', k', t', e₂, -, hc', he₂, hempty, -, -, hun⟩ := fills_issue hg h'
  obtain ⟨hstamp, -, -, hne⟩ := inFlight_genesis hg he₁ ha
  -- the first attempt has left the list before the second issue
  obtain ⟨i, hi, hin, ⟨e₃, he₃, ha₃⟩, hgone⟩ := exists_last_instant
    (P := fun i => ∃ e', entryAt ρ i uid = some e' ∧ e.podAttemptNonce ∈ e'.inFlight)
    (show n + 1 ≤ n' from hlt) ⟨e₁, he₁, ha⟩ (by simp [he₂, hempty])
  obtain ⟨m₀, k₀, t₀, writer, hc, hset⟩ := inFlight_leaves he₃ ha₃ hgone
  -- so it had arrived at the server when the second issue read the ledger
  have hread : i < m' := commit_read_after hc' hin hc.version
  have hsame : e₂.podAttemptNonce = e.podAttemptNonce :=
    ((entry_grows (show n + 1 ≤ n' from hlt) he₁ he₂).podAttemptNonce hne).trans hstamp.symm
  rw [hsame] at hun
  refine not_unspent_of_settled (hset.mono ?_) hun
  have := hc.before
  have := hc'.before
  omega

/-- No function of Genesis mode proposes a state that `encodeReservations` refuses as invalid. -/
structure ProposalsAccepted (r : Reconciler) : Prop where
  admission : ∀ build, CRDValid build → Disciplined (r.admission build) fun _ => True
  fenceReservation : ∀ build, Disciplined (r.fenceReservation build) fun _ => True
  armFreshGrant : ∀ build original, Disciplined (r.armFreshGrant build original) fun _ => True
  pinGrantReceipt : ∀ build armed witness, armed.grantObservedRV ≠ "" →
    Disciplined (r.pinGrantReceipt build armed witness) fun _ => True
  finishFreshGrant : ∀ build original,
    Disciplined (r.finishFreshGrant build original) fun _ => True
  beginPodCreate : ∀ build, Disciplined (r.beginPodCreate build) fun _ => True
  armFreshPodAttempt : ∀ build attempted digest,
    Disciplined (r.armFreshPodAttempt build attempted digest) fun _ => True
  pinPodReceipt : ∀ build armed witness, armed.podTemplateDigest ≠ "" →
    Disciplined (r.pinPodReceipt build armed witness) fun _ => True
  authorizeFreshPodCreate : ∀ build pinned,
    Disciplined (r.authorizeFreshPodCreate build pinned) fun _ => True
  finishFreshPodAttempt : ∀ build pod attempted,
    Disciplined (r.finishFreshPodAttempt build pod attempted) fun _ => True
  completeGenesisPodCreate : ∀ build attempted,
    Disciplined (r.completeGenesisPodCreate build attempted) fun _ => True
  /-- The cleanup marks and the removal. -/
  releaseReservation : ∀ build, CRDValid build →
    Disciplined (r.releaseReservation build) fun _ => True

theorem proposalsAccepted {r : Reconciler} (hg : r.genesis.isSome)
    (hx : ∀ text, validReservationHex (r.ext.sha256Hex text) 64) : ProposalsAccepted r where
  admission _ hb := admission_disciplined hg hx hb
  fenceReservation := fenceReservation_disciplined hg
  armFreshGrant build original := (armFreshGrant_disciplined hg build original).imp fun _ _ => trivial
  pinGrantReceipt build _ witness ho := pinGrantReceipt_disciplined hg ho build witness
  finishFreshGrant := finishFreshGrant_disciplined hg
  beginPodCreate := beginPodCreate_disciplined hg
  armFreshPodAttempt build attempted digest :=
    (armFreshPodAttempt_disciplined hg build attempted digest).imp fun _ _ => trivial
  pinPodReceipt build _ witness ht := pinPodReceipt_disciplined hg ht build witness
  authorizeFreshPodCreate := authorizeFreshPodCreate_disciplined hg
  finishFreshPodAttempt := finishFreshPodAttempt_disciplined hg
  completeGenesisPodCreate := completeGenesisPodCreate_disciplined hg
  releaseReservation _ hb := releaseReservation_disciplined hg hb.uid_ne

/-- Along a run the fields of an entry are set once and its in-flight list is filled once. -/
structure EntriesStaged (ρ : w.Execution) : Prop where
  setOnce : ∀ uid m n e e', m ≤ n → entryAt ρ m uid = some e → entryAt ρ n uid = some e' →
    Grows e e'
  filledOnce : ∀ uid n n', Fills ρ n uid → Fills ρ n' uid → n = n'

/-- Proposals of the code are accepted whatever accepted ledger they start from, and entries move
through their stages in one direction. -/
theorem stage_discipline (g : Genesis) (ρ : World.Execution { w with genesis := some g }) :
    (∀ r : Reconciler, r.genesis.isSome →
      (∀ text, validReservationHex (r.ext.sha256Hex text) 64) → ProposalsAccepted r) ∧
    EntriesStaged ρ := by
  refine ⟨fun r hg hx => proposalsAccepted hg hx, ?_, fun uid n n' h h' => ?_⟩
  · intro uid m n e e' hmn he he'
    exact entry_grows hmn he he'
  · have hg : ({ w with genesis := some g } : World).genesis.isSome := rfl
    rcases Nat.lt_trichotomy n n' with hlt | heq | hlt
    · exact absurd hlt (not_fills_later hg h h')
    · exact heq
    · exact absurd hlt (not_fills_later hg h' h)

end KovaService.Safety
