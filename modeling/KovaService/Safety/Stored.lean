import KovaService.Codec.RoundTrip
import KovaService.Safety.Quota

/-!
What the cluster stores.

The versions of a build follow one another in one direction.  Both ledgers fit into their ConfigMaps
at every instant, and pass the checks of every process of the installation that reads them.
-/

namespace KovaService.Safety

open Lib Api Ledger Protocol Proof KovaService.System

variable {w : World} {ρ : w.Execution} {n : Nat} {a b current : KovaBuild}

theorem linked_trans {x y z : BuildAnnotations} (h : Linked x y) (h' : Linked y z) :
    Linked x z where
  intent := h'.intent.trans h.intent
  receipt := h'.receipt.trans h.receipt
  digest := h'.digest.trans h.digest
  cancelled := fun hx => (h'.cancelled (h.cancelled hx ▸ hx)).trans (h.cancelled hx)
  settled := fun hx => (h'.settled (h.settled hx ▸ hx)).trans (h.settled hx)

theorem kept_trans {x y z : KovaBuildStatus} (h : Kept x y) (h' : Kept y z) : Kept x z :=
  ⟨h'.phase.trans h.phase, h'.outputs.trans h.outputs, h'.results.trans h.results,
    h'.finishedAt.trans h.finishedAt⟩

/-- A thread replaced the terminal status by way of a direct read, after it had been dispatched on a
version that was still running. -/
def Rewritten (ρ : w.Execution) (a : KovaBuild) : Prop :=
  w.genesis.isSome ∧ ∃ n t b base, ρ.sends n t (.updateStatus b) ∧
    StatusWrite ρ n t b base ∧ DirectBase ρ t n base ∧ SameBuild a base ∧ Kept a.status base.status

structure Follows (ρ : w.Execution) (a b : KovaBuild) : Prop where
  same : SameBuild a b
  advance : Advance a b
  final : a.status.phase.isTerminal → Kept a.status b.status ∨ Rewritten ρ a

theorem follows_refl (a : KovaBuild) : Follows ρ a a :=
  ⟨⟨rfl, rfl, rfl, rfl⟩, ⟨id, id, linked_refl _⟩, fun _ => .inl ⟨rfl, rfl, rfl, rfl⟩⟩

theorem Revised.kept (h : Revised ρ n current b) (ht : current.status.phase.isTerminal) :
    Kept current.status b.status ∨ w.genesis.isSome ∧
      ∃ m t b, ρ.sends m t (.updateStatus b) ∧ StatusWrite ρ m t b current ∧
        DirectBase ρ t m current := by
  cases h with
  | @status m t b _ _ hs hw =>
    exact (hw.terminal ht).imp_right fun ⟨hg, hd⟩ => ⟨hg, m, t, b, hs, hw, hd⟩
  | metadata | cancel | delete => exact .inl ⟨rfl, rfl, rfl, rfl⟩

theorem Follows.revised (h : Follows ρ a current) (hr : Revised ρ n current b)
    (hs : SameBuild current b) : Follows ρ a b := by
  refine ⟨h.same.trans hs, ⟨?_, ?_, linked_trans h.advance.linked hr.advance.linked⟩, fun ht => ?_⟩
  · exact fun hq => hr.advance.queue (h.advance.queue hq)
  · exact fun hd => hr.advance.deletion (h.advance.deletion hd)
  · rcases h.final ht with hk | hw
    · rcases hr.kept (hk.phase ▸ ht) with hk' | ⟨hg, m, t, b, hsend, hw, hd⟩
      · exact .inl (kept_trans hk hk')
      · exact .inr ⟨hg, m, t, b, current, hsend, hw, hd, h.same, hk⟩
    · exact .inr hw

def VersionsFollow (ρ : w.Execution) (n : Nat) : Prop :=
  ∀ a ∈ (ρ.store n).versions, ∀ b ∈ (ρ.store n).versions, b.uid = a.uid →
    a.resourceVersion ≤ b.resourceVersion → Follows ρ a b

/-- In every run a later version of a build has the same identity and spec, does not return to the
queue, and takes back neither the deletion nor the cancellation, the link to its receipt or the
settled mark.  A terminal status keeps its phase, outputs, results and end, except that in Genesis
mode a handler may replace it that was dispatched before the end and has read the build since. -/
theorem versions_follow (ρ : w.Execution) (n : Nat) : VersionsFollow ρ n := by
  intro a ha b hb hu hv
  refine later_versions ρ (P := Follows ρ a) (fun n current b hr hc h => ?_) ha (follows_refl a)
    hb hu hv
  exact h.revised (revision_revised hr hc) hr.same

structure LedgersReadable (ρ : w.Execution) (n : Nat) : Prop where
  active : ∃ text, Codec.encodeReservations (ρ.store n).ledger.data = .ok text ∧
    Codec.decodeReservations (.single Codec.reservationDataKey text) = .ok (ρ.store n).ledger.data
  activeChecks : ∀ r : Controller.Reconciler, r.cfg = w.cfg → r.genesis = w.genesis →
    r.checkRead (ρ.store n).ledger.data = .ok ()
  queue : (∀ id e, (ρ.store n).queue.data.intents.lookup id = some e → e.createdAtUnix < 2 ^ 63) →
    ∃ text, Codec.encodeState (ρ.store n).queue.data = .ok text ∧
      Codec.decodeQueue w.cfg.maxQueuedJobs w.cfg.maxQueuedJobsPerRequester
        (if w.genesis.isSome then 2 else 1) (.single Codec.queueDataKey text) =
          .ok (ρ.store n).queue.data
  queueChecks : ∀ s : Queue.Store, s.globalLimit = w.cfg.maxQueuedJobs →
    s.requesterLimit = w.cfg.maxQueuedJobsPerRequester → s.genesis = w.genesis →
    s.checkRead (ρ.store n).queue.data = .ok ()

/-- Whatever the processes of an installation write, none of them is ever locked out: at every
instant of every run both ledgers fit, decode to the state that was encoded, and pass the checks of
every reader with the configuration of the installation. -/
theorem ledgers_readable (ρ : w.Execution) (n : Nat) : LedgersReadable ρ n := by
  have hl := (ledger_valid ρ n).validate
  have hq := queue_validate ρ n
  obtain ⟨hlv, hjobs, hper, hslots⟩ := ledger_header ρ n
  obtain ⟨hqv, hglobal, hrequester⟩ := queue_header ρ n
  have hlv' : (ρ.store n).ledger.data.version = if w.genesis.isSome then 2 else 1 := by
    rw [hlv]
    simp only [World.initial]
    split <;> rfl
  have hqv' : (ρ.store n).queue.data.version = if w.genesis.isSome then 2 else 1 := by
    rw [hqv]
    simp only [World.initial]
    split <;> rfl
  refine ⟨⟨_, Codec.encodeReservations_ok hl, Codec.decodeReservations_encoded hl⟩, ?_, ?_, ?_⟩
  · intro r hcfg hgen
    cases hg : w.genesis <;>
      simp [Controller.Reconciler.checkRead, Controller.Reconciler.decodeReservations, hl,
        ReservationState.validateLimits, validateReservationCapacity, hcfg, hgen, hg, hjobs, hper,
        hslots, hlv', w.capacity]
  · intro ht
    refine ⟨_, Codec.encodeState_ok hq ht, ?_⟩
    rw [← hglobal, ← hrequester, ← hqv']
    exact Codec.decodeQueue_encoded hq ht
  · intro s hsg hsr hgen
    cases hg : w.genesis <;>
      simp [Queue.Store.checkRead, hq, hsg, hsr, hgen, hg, hglobal, hrequester, hqv']

end KovaService.Safety
