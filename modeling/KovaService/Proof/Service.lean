import KovaService.Proof.Http
import KovaService.Proof.Lifecycle

/-!
The service refines the protocol: every request that any process ever sends meets its demand, and
every change of a ledger is a move of the protocol made on the state it changes.
-/

namespace KovaService.Proof

open Lib Api Ledger Protocol KovaService.System

variable {w : World} (ρ : w.Execution)

theorem confirmed_of_rests {t n : Nat} (h : ρ.rests t 0 n) : Confirmed ρ t n := by
  intro m writer uid patch rv next e hm _ hg
  exact absurd hg ((h m (Nat.zero_le m) hm).2 _ _)

theorem jobK_does {t i : Nat} (j : Job) (hC : Confirmed ρ t i) : Complies ρ t (w.jobK j) i := by
  cases j with
  | reconcile cfg coordinator name => exact reconcile_does name fun _ => hC
  | create cfg p body => exact handleCreateBuild_does body
  | cancel cfg name => exact handleCancelBuild_does name

/-- Every request of every run meets the demand of the protocol. -/
theorem sends_demanded : ∀ n t q, ρ.sends n t q → demand ρ n t q := by
  refine Run.sends_guarded fun n t j _ hrest => ?_
  refine Run.wp_bind.mpr (Run.wp_mono (jobK_does ρ j (confirmed_of_rests ρ hrest)) ?_)
  exact fun _ _ _ _ => trivial

variable {ρ} {n : Nat}

/-- A mutation that acts was sent before, and met its demand then. -/
theorem acts_demanded {q : Request} (h : ρ.acts n q) (hw : wired q) :
    ∃ m t, m < n ∧ ρ.sends m t q ∧ demand ρ m t q := by
  obtain ⟨id, c, r, he⟩ := effect_of_acts ρ h hw
  obtain ⟨-, m, t, hm, hs, -⟩ := he.sent
  exact ⟨m, t, hm, hs, sends_demanded ρ m t q hs⟩

/-- At instant `n` a ledger write of thread `t` commits: it was justified when it was sent at `k`, by
a read at `m` of the ledger that it now replaces. -/
structure LedgerCommit (ρ : w.Execution) (n m k t : Nat) (writer : LedgerWriter) (uid : UID) :
    Prop where
  acts : ∃ patch, ρ.acts n (.putLedger writer uid patch (ρ.store n).ledger.resourceVersion
    (ρ.store (n + 1)).ledger.data)
  sent : ∃ patch, ρ.sends k t (.putLedger writer uid patch (ρ.store n).ledger.resourceVersion
    (ρ.store (n + 1)).ledger.data)
  before : m < k ∧ k < n
  read : ∀ j, m ≤ j → j ≤ n → (ρ.store j).ledger = (ρ.store n).ledger
  change : LedgerChange ρ t m k uid (ρ.store n).ledger.data writer (ρ.store (n + 1)).ledger.data
  valid : (ρ.store (n + 1)).ledger.data.validate = .ok ()
  version : (ρ.store n).ledger.resourceVersion < (ρ.store (n + 1)).ledger.resourceVersion

theorem ledgerCommit_of_acts {writer : LedgerWriter} {uid : UID} {rv : Nat}
    {patch : Option (List (PatchOp ReservationState))}
    {next : ReservationState} (ha : ρ.acts n (.putLedger writer uid patch rv next)) :
    (ρ.store (n + 1)).ledger = (ρ.store n).ledger ∨
      ∃ m k t, LedgerCommit ρ n m k t writer uid := by
  rcases (ledger_versioned ρ).step n with ⟨h, -⟩ | hlt
  · exact .inl h
  have hne : (ρ.store (n + 1)).ledger ≠ (ρ.store n).ledger := fun h => by simp [h] at hlt
  obtain ⟨rfl, hdata⟩ := (putLedger_swaps ha).resolve_left hne
  obtain ⟨k, t, hk, hs, hd⟩ := acts_demanded ha rfl
  obtain ⟨m, hm, hrv, hc⟩ := hd.read
  have hsame : ∀ j, m ≤ j → j ≤ n → (ρ.store j).ledger = (ρ.store m).ledger :=
    fun j h1 h2 => ((ledger_versioned ρ).eq_of_version_eq h1 h2 hrv.symm).1
  have hnow : (ρ.store n).ledger = (ρ.store m).ledger := hsame n (by omega) le_rfl
  refine .inr ⟨m, k, t, ⟨patch, hdata ▸ ha⟩, ⟨patch, hdata ▸ hs⟩, ⟨hm, hk⟩,
    fun j h1 h2 => (hsame j h1 h2).trans hnow.symm, ?_, ?_, hlt⟩
  · rw [hdata, hnow]
    exact hc
  · rw [hdata]
    exact hd.valid

/-- The active ledger changes only by moves of the protocol. -/
theorem ledger_step (ρ : w.Execution) (n : Nat) :
    (ρ.store (n + 1)).ledger = (ρ.store n).ledger ∨
      ∃ m k t writer uid, LedgerCommit ρ n m k t writer uid := by
  rcases ledger_succ ρ n with h | ⟨writer, uid, patch, next, ha, -, -⟩
  · exact .inl h
  · refine (ledgerCommit_of_acts ha).imp_right ?_
    rintro ⟨m, k, t, hc⟩
    exact ⟨m, k, t, writer, uid, hc⟩

structure QueueCommit (ρ : w.Execution) (n m k t : Nat) (writer : QueueWriter) (id : String) :
    Prop where
  acts : ∃ patch, ρ.acts n (.putQueue writer id patch (ρ.store n).queue.resourceVersion
    (ρ.store (n + 1)).queue.data)
  sent : ∃ patch, ρ.sends k t (.putQueue writer id patch (ρ.store n).queue.resourceVersion
    (ρ.store (n + 1)).queue.data)
  before : m < k ∧ k < n
  read : ∀ j, m ≤ j → j ≤ n → (ρ.store j).queue = (ρ.store n).queue
  change : QueueChange ρ t m k id (ρ.store n).queue.data writer (ρ.store (n + 1)).queue.data
  valid : (ρ.store (n + 1)).queue.data.validate = .ok ()
  version : (ρ.store n).queue.resourceVersion < (ρ.store (n + 1)).queue.resourceVersion

theorem queueCommit_of_acts {writer : QueueWriter} {id : String} {rv : Nat}
    {patch : Option (List (PatchOp QueueState))}
    {next : QueueState} (ha : ρ.acts n (.putQueue writer id patch rv next)) :
    (ρ.store (n + 1)).queue = (ρ.store n).queue ∨
      ∃ m k t, QueueCommit ρ n m k t writer id := by
  rcases (queue_versioned ρ).step n with ⟨h, -⟩ | hlt
  · exact .inl h
  have hne : (ρ.store (n + 1)).queue ≠ (ρ.store n).queue := fun h => by simp [h] at hlt
  obtain ⟨rfl, hdata⟩ := (putQueue_swaps ha).resolve_left hne
  obtain ⟨k, t, hk, hs, hd⟩ := acts_demanded ha rfl
  obtain ⟨m, hm, hrv, hc⟩ := hd.read
  have hsame : ∀ j, m ≤ j → j ≤ n → (ρ.store j).queue = (ρ.store m).queue :=
    fun j h1 h2 => ((queue_versioned ρ).eq_of_version_eq h1 h2 hrv.symm).1
  have hnow : (ρ.store n).queue = (ρ.store m).queue := hsame n (by omega) le_rfl
  refine .inr ⟨m, k, t, ⟨patch, hdata ▸ ha⟩, ⟨patch, hdata ▸ hs⟩, ⟨hm, hk⟩,
    fun j h1 h2 => (hsame j h1 h2).trans hnow.symm, ?_, ?_, hlt⟩
  · rw [hdata, hnow]
    exact hc
  · rw [hdata]
    exact hd.valid

theorem queue_step (ρ : w.Execution) (n : Nat) :
    (ρ.store (n + 1)).queue = (ρ.store n).queue ∨
      ∃ m k t writer id, QueueCommit ρ n m k t writer id := by
  rcases queue_succ ρ n with h | ⟨writer, id, patch, next, ha, -, -⟩
  · exact .inl h
  · refine (queueCommit_of_acts ha).imp_right ?_
    rintro ⟨m, k, t, hc⟩
    exact ⟨m, k, t, writer, id, hc⟩

end KovaService.Proof
