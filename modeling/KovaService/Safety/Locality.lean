import KovaService.Proof.Service

/-!
Ledger writes are local: a commit touches the entry or intent it was made for, and the header fields
that belong to its kind.
-/

namespace KovaService.Safety

open Lib Api Ledger Protocol Proof KovaService.System

/-- From `s` to `s'` at most the entry of `uid` and the fence differ, and the last granted requester
only together with a new entry. -/
structure LedgerLocal (uid : UID) (s s' : ReservationState) : Prop where
  others : ∀ key, key ≠ uid → s'.active.lookup key = s.active.lookup key
  version : s'.version = s.version
  maxJobs : s'.maxJobs = s.maxJobs
  maxPerRequester : s'.maxPerRequester = s.maxPerRequester
  workerSlots : s'.workerSlots = s.workerSlots
  lastGranted : s'.lastGrantedRequesterHash ≠ s.lastGrantedRequesterHash →
    s.active.lookup uid = none ∧ ∃ e, s'.active.lookup uid = some e

/-- From `s` to `s'` at most the intent of `id` differs. -/
structure QueueLocal (id : String) (s s' : QueueState) : Prop where
  others : ∀ key, key ≠ id → s'.intents.lookup key = s.intents.lookup key
  version : s'.version = s.version
  globalLimit : s'.globalLimit = s.globalLimit
  requesterLimit : s'.requesterLimit = s.requesterLimit

namespace LedgerLocal

variable {uid : UID} {s : ReservationState}

theorem refl (uid : UID) (s : ReservationState) : LedgerLocal uid s s :=
  ⟨fun _ _ => rfl, rfl, rfl, rfl, rfl, fun h => absurd rfl h⟩

theorem set (e : ActiveReservation) : LedgerLocal uid s (s.set uid e) :=
  ⟨fun _ h => ReservationState.lookup_set_of_ne h, rfl, rfl, rfl, rfl, fun h => absurd rfl h⟩

theorem remove : LedgerLocal uid s (s.remove uid) :=
  ⟨fun _ h => ReservationState.lookup_remove_of_ne h, rfl, rfl, rfl, rfl, fun h => absurd rfl h⟩

theorem fenced : LedgerLocal uid s (Controller.Reconciler.fenced s uid) := by
  unfold Controller.Reconciler.fenced
  dsimp only
  split
  · exact ⟨fun _ _ => rfl, rfl, rfl, rfl, rfl, fun h => absurd rfl h⟩
  · exact ⟨fun _ h => Finmap.lookup_insert_of_ne _ h, rfl, rfl, rfl, rfl, fun h => absurd rfl h⟩

end LedgerLocal

namespace QueueLocal

variable {id : String} {s : QueueState}

theorem refl (id : String) (s : QueueState) : QueueLocal id s s :=
  ⟨fun _ _ => rfl, rfl, rfl, rfl⟩

theorem set (e : Intent) : QueueLocal id s (s.set id e) :=
  ⟨fun _ h => QueueState.lookup_set_of_ne h, rfl, rfl, rfl⟩

theorem remove : QueueLocal id s (s.remove id) :=
  ⟨fun _ h => QueueState.lookup_remove_of_ne h, rfl, rfl, rfl⟩

end QueueLocal

variable {w : World} {ρ : w.Execution} {n m k t : Nat} {writer : LedgerWriter} {uid : UID}

theorem ledgerChange_local {s next : ReservationState}
    (h : LedgerChange ρ t m k uid s writer next) : LedgerLocal uid s next := by
  cases h with
  | admission hb hu hn hl ha =>
    exact ⟨fun _ h => Finmap.lookup_insert_of_ne _ h, rfl, rfl, rfl, rfl,
      fun _ => ⟨hn, _, Finmap.lookup_insert _⟩⟩
  | fence => exact .fenced
  | release => exact .remove
  | update => exact .set _

theorem queueChange_local {id : String} {s next : QueueState} {writer : QueueWriter}
    (h : QueueChange ρ t m k id s writer next) : QueueLocal id s next := by
  cases h with
  | set => exact .set _
  | remove => exact .remove

theorem ledger_acts_local {patch : Option (List (PatchOp ReservationState))} {rv : Nat}
    {next : ReservationState} (h : ρ.acts n (.putLedger writer uid patch rv next)) :
    LedgerLocal uid (ρ.store n).ledger.data (ρ.store (n + 1)).ledger.data := by
  rcases ledgerCommit_of_acts h with he | ⟨m, k, t, hc⟩
  · rw [he]
    exact .refl uid _
  · exact ledgerChange_local hc.change

theorem queue_acts_local {writer : QueueWriter} {id : String} {rv : Nat}
    {patch : Option (List (PatchOp QueueState))}
    {next : QueueState} (h : ρ.acts n (.putQueue writer id patch rv next)) :
    QueueLocal id (ρ.store n).queue.data (ρ.store (n + 1)).queue.data := by
  rcases queueCommit_of_acts h with he | ⟨m, k, t, hc⟩
  · rw [he]
    exact .refl id _
  · exact queueChange_local hc.change

theorem ledger_header (ρ : w.Execution) (n : Nat) :
    (ρ.store n).ledger.data.version = w.initial.ledger.data.version ∧
    (ρ.store n).ledger.data.maxJobs = w.cfg.maxActiveJobs ∧
    (ρ.store n).ledger.data.maxPerRequester = w.cfg.maxActiveJobsPerRequester ∧
    (ρ.store n).ledger.data.workerSlots = w.cfg.workerSlots := by
  induction n with
  | zero =>
    rw [show ρ.store 0 = w.initial from congrArg Machine.store ρ.zero]
    refine ⟨rfl, ?_, ?_, ?_⟩ <;> simp only [World.initial] <;> split <;> rfl
  | succ n ih =>
    rcases ledger_step ρ n with h | ⟨m, k, t, writer, uid, hc⟩
    · rwa [h]
    · have hl := ledgerChange_local hc.change
      exact ⟨hl.version.trans ih.1, hl.maxJobs.trans ih.2.1, hl.maxPerRequester.trans ih.2.2.1,
        hl.workerSlots.trans ih.2.2.2⟩

theorem queue_header (ρ : w.Execution) (n : Nat) :
    (ρ.store n).queue.data.version = w.initial.queue.data.version ∧
    (ρ.store n).queue.data.globalLimit = w.cfg.maxQueuedJobs ∧
    (ρ.store n).queue.data.requesterLimit = w.cfg.maxQueuedJobsPerRequester := by
  induction n with
  | zero =>
    rw [show ρ.store 0 = w.initial from congrArg Machine.store ρ.zero]
    refine ⟨rfl, ?_, ?_⟩ <;> simp only [World.initial] <;> split <;> rfl
  | succ n ih =>
    rcases queue_step ρ n with h | ⟨m, k, t, writer, id, hc⟩
    · rwa [h]
    · have hl := queueChange_local hc.change
      exact ⟨hl.version.trans ih.1, hl.globalLimit.trans ih.2.1, hl.requesterLimit.trans ih.2.2⟩

/-- In every run, whatever conflicts, retries and lost answers it has: a write of the active ledger
that takes effect changes at most the entry it was made for, the fence, and with a new entry the
last granted requester; a write of the queue ledger changes at most the intent it was made for;
nothing else changes either ledger; and their limits and versions are those of the start. -/
theorem ledger_writes_local (ρ : w.Execution) (n : Nat) :
    (∀ writer uid patch rv next, ρ.acts n (.putLedger writer uid patch rv next) →
      LedgerLocal uid (ρ.store n).ledger.data (ρ.store (n + 1)).ledger.data) ∧
    ((∀ writer uid patch rv next, ¬ ρ.acts n (.putLedger writer uid patch rv next)) →
      (ρ.store (n + 1)).ledger = (ρ.store n).ledger) ∧
    (∀ writer id patch rv next, ρ.acts n (.putQueue writer id patch rv next) →
      QueueLocal id (ρ.store n).queue.data (ρ.store (n + 1)).queue.data) ∧
    ((∀ writer id patch rv next, ¬ ρ.acts n (.putQueue writer id patch rv next)) →
      (ρ.store (n + 1)).queue = (ρ.store n).queue) ∧
    ((ρ.store n).ledger.data.version = (ρ.store 0).ledger.data.version ∧
      (ρ.store n).ledger.data.maxJobs = (ρ.store 0).ledger.data.maxJobs ∧
      (ρ.store n).ledger.data.maxPerRequester = (ρ.store 0).ledger.data.maxPerRequester ∧
      (ρ.store n).ledger.data.workerSlots = (ρ.store 0).ledger.data.workerSlots) ∧
    (ρ.store n).queue.data.version = (ρ.store 0).queue.data.version ∧
      (ρ.store n).queue.data.globalLimit = (ρ.store 0).queue.data.globalLimit ∧
      (ρ.store n).queue.data.requesterLimit = (ρ.store 0).queue.data.requesterLimit := by
  have hl := ledger_header ρ n
  have hl₀ := ledger_header ρ 0
  have hq := queue_header ρ n
  have hq₀ := queue_header ρ 0
  refine ⟨fun _ _ _ _ _ => ledger_acts_local, fun hno => ?_, fun _ _ _ _ _ => queue_acts_local,
    fun hno => ?_, ⟨?_, ?_, ?_, ?_⟩, ?_, ?_, ?_⟩
  · rcases ledger_succ ρ n with h | ⟨writer, uid, patch, next, ha, -⟩
    · exact h
    · exact absurd ha (hno _ _ _ _ _)
  · rcases queue_succ ρ n with h | ⟨writer, id, patch, next, ha, -⟩
    · exact h
    · exact absurd ha (hno _ _ _ _ _)
  · exact hl.1.trans hl₀.1.symm
  · exact hl.2.1.trans hl₀.2.1.symm
  · exact hl.2.2.1.trans hl₀.2.2.1.symm
  · exact hl.2.2.2.trans hl₀.2.2.2.symm
  · exact hq.1.trans hq₀.1.symm
  · exact hq.2.1.trans hq₀.2.1.symm
  · exact hq.2.2.trans hq₀.2.2.symm

end KovaService.Safety
