import KovaService.Lib.Timeline
import KovaService.System.Acts

/-!
How each part of the cluster evolves along a run.

For every kind of object there is one theorem that names the only events that can change it, and the
facts that follow for the whole run: versions only grow, UIDs and nonces are given out once, what
was created once does not come back.
-/

namespace KovaService.System

open Lib Api Ledger Runner

theorem lookup_insert_cases {β : Type} {m : Finmap fun _ : String => β} {key key' : String}
    {a b : β} (h : (m.insert key a).lookup key' = some b) :
    key' = key ∧ b = a ∨ key' ≠ key ∧ m.lookup key' = some b := by
  by_cases hk : key' = key
  · rw [hk, Finmap.lookup_insert] at h
    exact .inl ⟨hk, (Option.some.inj h).symm⟩
  · rw [Finmap.lookup_insert_of_ne _ hk] at h
    exact .inr ⟨hk, h⟩

theorem lookup_of_erase {β : Type} {m : Finmap fun _ : String => β} {key key' : String} {b : β}
    (h : (m.erase key).lookup key' = some b) : key' ≠ key ∧ m.lookup key' = some b := by
  by_cases hk : key' = key
  · rw [hk, Finmap.lookup_erase] at h
    cases h
  · rw [Finmap.lookup_erase_ne hk] at h
    exact ⟨hk, h⟩

/-- The part of the cluster a request or an action is about. -/
inductive Part where
  | ledger | queue | builds | pods | receipts | runners | nonces | none
  deriving DecidableEq

def part : Request → Part
  | .putLedger .. => .ledger
  | .putQueue .. => .queue
  | .createBuild _ | .updateBuild _ | .updateStatus _ | .patchAnnotations _ | .deleteBuild .. =>
    .builds
  | .createPod _ | .deletePod .. => .pods
  | .createReceipt _ | .deleteReceipt .. => .receipts
  | .execSubmit .. | .execCancel .. => .runners
  | .nonce => .nonces
  | _ => .none

def envPart : EnvAction → Part
  | .createBuild .. | .deleteBuild .. | .cancelBuild .. => .builds
  | .podStatus .. | .podTerminating .. | .podGone _ => .pods
  | .runner .. | .retire .. => .runners

/-- Only the named part changes; the counters only grow. -/
structure Frame (p : Part) (s s' : Cluster) : Prop where
  ledger : p ≠ .ledger → s'.ledger = s.ledger
  queue : p ≠ .queue → s'.queue = s.queue
  builds : p ≠ .builds → s'.builds = s.builds ∧ s'.versions = s.versions
  pods : p ≠ .pods → s'.pods = s.pods
  receipts : p ≠ .receipts → s'.receipts = s.receipts
  daemons : p ≠ .pods → p ≠ .runners → s'.daemons = s.daemons
  runs : p ≠ .runners → s'.runs = s.runs
  nonces : p ≠ .nonces → s'.nonces = s.nonces
  clock : s.clock ≤ s'.clock
  uids : s.uids ⊆ s'.uids

namespace Frame

variable {s : Cluster}

theorem refl (p : Part) : Frame p s s := by
  constructor <;> intros <;> first | rfl | exact ⟨rfl, rfl⟩

theorem of_builds {B V C U} (hc : s.clock ≤ C) (hu : s.uids ⊆ U) :
    Frame .builds s { s with builds := B, versions := V, clock := C, uids := U } := by
  constructor <;> intros <;> first | rfl | contradiction | assumption

theorem of_pods {P D U} (hu : s.uids ⊆ U) :
    Frame .pods s { s with pods := P, daemons := D, uids := U } := by
  constructor <;> intros <;> first | rfl | contradiction | assumption | exact ⟨rfl, rfl⟩

theorem of_receipts {R C U} (hc : s.clock ≤ C) (hu : s.uids ⊆ U) :
    Frame .receipts s { s with receipts := R, clock := C, uids := U } := by
  constructor <;> intros <;> first | rfl | contradiction | assumption | exact ⟨rfl, rfl⟩

theorem of_runners {D L} : Frame .runners s { s with daemons := D, runs := L } := by
  constructor <;> intros <;> first | rfl | contradiction | exact ⟨rfl, rfl⟩

end Frame

section Frames

variable {s s' : Cluster}

theorem storeBuild_frame (s : Cluster) (b : KovaBuild) : Frame .builds s (s.storeBuild b).1 :=
  Frame.of_builds (Nat.le_succ _) (Finset.Subset.refl _)

theorem settleBuild_frame (s : Cluster) (b : KovaBuild) : Frame .builds s (s.settleBuild b).1 := by
  unfold Cluster.settleBuild
  split
  · exact Frame.of_builds le_rfl (Finset.Subset.refl _)
  · exact storeBuild_frame s b

theorem createBuild_frame (s : Cluster) (b : KovaBuild) (uid : UID) (now : Time) :
    Frame .builds s (s.createBuild b uid now).1 := by
  unfold Cluster.createBuild
  split
  · exact Frame.refl _
  · exact Frame.of_builds (Nat.le_succ _) (Finset.subset_insert _ _)

theorem beginDelete_frame (s : Cluster) (b : KovaBuild) (now : Time) :
    Frame .builds s (s.beginDelete b now) := by
  unfold Cluster.beginDelete
  split
  · exact Frame.of_builds le_rfl (Finset.Subset.refl _)
  · split
    · exact Frame.refl _
    · exact storeBuild_frame s _

theorem createPod_frame (s : Cluster) (p : Pod) (uid : UID) :
    Frame .pods s (s.createPod p uid).1 := by
  unfold Cluster.createPod
  split
  · exact Frame.refl _
  · exact Frame.of_pods (Finset.subset_insert _ _)

theorem deletePod_frame (s : Cluster) (name : String) (uid : UID) (now : Option Time) :
    Frame .pods s (s.deletePod name uid now).1 := by
  unfold Cluster.deletePod
  cases s.pods.lookup name with
  | none => exact Frame.refl _
  | some current =>
    simp only
    split
    · exact Frame.refl _
    · cases now <;> exact Frame.of_pods (Finset.Subset.refl _)

theorem createReceipt_eq {r stored : Receipt} {uid : UID}
    (h : s.createReceipt r uid = some (s', stored)) :
    s.receipts.lookup r.name = none ∧ stored = { r with uid := uid, resourceVersion := s.clock + 1 } ∧
      s' = { s with
        receipts := s.receipts.insert r.name stored, uids := insert uid s.uids
        clock := s.clock + 1 } := by
  unfold Cluster.createReceipt at h
  split at h
  · cases h
  · next hn =>
    cases h
    exact ⟨by simpa using hn, rfl, rfl⟩

theorem Acts.frame {q : Request} (h : Acts s q s') : Frame (part q) s s' := by
  cases h with
  | nothing => exact Frame.refl _
  | createBuild => exact createBuild_frame ..
  | editBuild hq => cases hq <;> exact settleBuild_frame ..
  | deleteBuild => exact beginDelete_frame ..
  | createPod => exact createPod_frame ..
  | deletePod => exact deletePod_frame ..
  | createReceipt hu hf h =>
    rw [(createReceipt_eq h).2.2]
    exact Frame.of_receipts (Nat.le_succ _) (Finset.subset_insert _ _)
  | deleteReceipt => exact Frame.of_receipts le_rfl (Finset.Subset.refl _)
  | submit | cancel => exact Frame.of_runners
  | _ =>
    constructor <;> intros <;>
      first | rfl | contradiction | exact ⟨rfl, rfl⟩ | exact Nat.le_succ _

theorem EnvActs.frame {e : EnvAction} (h : EnvActs s e s') : Frame (envPart e) s s' := by
  cases h with
  | createBuild => exact createBuild_frame ..
  | deleteBuild => exact beginDelete_frame ..
  | cancelBuild => exact settleBuild_frame ..
  | podStatus | podTerminating | podGone => exact Frame.of_pods (Finset.Subset.refl _)
  | runner | retire => exact Frame.of_runners

end Frames

variable {w : World} (ρ : w.Execution)

theorem frame_succ (n : Nat) : ∃ p, Frame p (ρ.store n) (ρ.store (n + 1)) := by
  rcases store_succ ρ n with h | ⟨q, -, ha⟩ | ⟨e, -, ha⟩
  · exact ⟨.none, h ▸ Frame.refl _⟩
  · exact ⟨_, ha.frame⟩
  · exact ⟨_, ha.frame⟩

variable {n : Nat}

theorem effect_of_acts {q : Request} (h : ρ.acts n q) (hw : wired q) :
    ∃ id c r, ρ.takesEffect n id q c r := by
  rcases h with h | ⟨hf, -⟩
  · exact h
  · exact absurd (hf.symm.trans hw) (by decide)

theorem clock_mono {m : Nat} (h : m ≤ n) : (ρ.store m).clock ≤ (ρ.store n).clock :=
  monotone_nat_of_le_succ (fun n => (frame_succ ρ n).choose_spec.clock) h

theorem uids_mono {m : Nat} (h : m ≤ n) : (ρ.store m).uids ⊆ (ρ.store n).uids :=
  monotone_nat_of_le_succ (f := fun n => (ρ.store n).uids)
    (fun n => (frame_succ ρ n).choose_spec.uids) h

theorem ledger_succ (n : Nat) :
    (ρ.store (n + 1)).ledger = (ρ.store n).ledger ∨
    ∃ writer key patch next,
      ρ.acts n (.putLedger writer key patch (ρ.store n).ledger.resourceVersion next) ∧
      (ρ.store (n + 1)).clock = (ρ.store n).clock + 1 ∧
      (ρ.store (n + 1)).ledger =
        { (ρ.store n).ledger with resourceVersion := (ρ.store n).clock + 1, data := next } := by
  rcases store_succ ρ n with h | ⟨q, hq, ha⟩ | ⟨e, -, ha⟩
  · exact .inl (by rw [h])
  · by_cases hp : part q = .ledger
    · generalize ρ.store (n + 1) = s' at ha
      cases ha with
      | putLedger hne => exact .inr ⟨_, _, _, _, hq, rfl, rfl⟩
      | nothing => exact .inl rfl
      | editBuild h => cases h <;> cases hp
      | _ => cases hp
    · exact .inl (ha.frame.ledger hp)
  · exact .inl (ha.frame.ledger (by cases e <;> simp [envPart]))

theorem queue_succ (n : Nat) :
    (ρ.store (n + 1)).queue = (ρ.store n).queue ∨
    ∃ writer id patch next,
      ρ.acts n (.putQueue writer id patch (ρ.store n).queue.resourceVersion next) ∧
      (ρ.store (n + 1)).clock = (ρ.store n).clock + 1 ∧
      (ρ.store (n + 1)).queue =
        { (ρ.store n).queue with resourceVersion := (ρ.store n).clock + 1, data := next } := by
  rcases store_succ ρ n with h | ⟨q, hq, ha⟩ | ⟨e, -, ha⟩
  · exact .inl (by rw [h])
  · by_cases hp : part q = .queue
    · generalize ρ.store (n + 1) = s' at ha
      cases ha with
      | putQueue hne => exact .inr ⟨_, _, _, _, hq, rfl, rfl⟩
      | nothing => exact .inl rfl
      | editBuild h => cases h <;> cases hp
      | _ => cases hp
    · exact .inl (ha.frame.queue hp)
  · exact .inl (ha.frame.queue (by cases e <;> simp [envPart]))

/-- A cell that takes its version from the clock whenever it is written. -/
theorem versioned_of_clock {D : Type} {cell : Nat → Stored D}
    (hzero : (cell 0).resourceVersion ≤ (ρ.store 0).clock)
    (hsucc : ∀ n, cell (n + 1) = cell n ∨ (ρ.store (n + 1)).clock = (ρ.store n).clock + 1 ∧
      (cell (n + 1)).resourceVersion = (ρ.store n).clock + 1) :
    Versioned cell fun n => (cell n).resourceVersion := by
  have hle : ∀ n, (cell n).resourceVersion ≤ (ρ.store n).clock := by
    intro n
    induction n with
    | zero => exact hzero
    | succ n ih =>
      rcases hsucc n with h | ⟨hc, h⟩
      · rw [h]
        exact ih.trans (clock_mono ρ (Nat.le_succ n))
      · rw [h, hc]
  refine ⟨fun n => ?_⟩
  rcases hsucc n with h | ⟨-, h⟩
  · exact .inl ⟨h, by rw [h]⟩
  · right
    rw [h]
    exact Nat.lt_succ_of_le (hle n)

theorem ledger_versioned :
    Versioned (fun n => (ρ.store n).ledger) fun n => (ρ.store n).ledger.resourceVersion := by
  refine versioned_of_clock ρ (by simp [Run.store, ρ.zero, Semantics.start, World.initial])
    fun n => ?_
  rcases ledger_succ ρ n with h | ⟨writer, key, patch, next, hq, hc, h⟩
  · exact .inl h
  · exact .inr ⟨hc, by rw [h]⟩

theorem queue_versioned :
    Versioned (fun n => (ρ.store n).queue) fun n => (ρ.store n).queue.resourceVersion := by
  refine versioned_of_clock ρ (by simp [Run.store, ρ.zero, Semantics.start, World.initial])
    fun n => ?_
  rcases queue_succ ρ n with h | ⟨writer, id, patch, next, hq, hc, h⟩
  · exact .inl h
  · exact .inr ⟨hc, by rw [h]⟩

theorem nonces_mono {m : Nat} (h : m ≤ n) : (ρ.store m).nonces ⊆ (ρ.store n).nonces := by
  refine monotone_nat_of_le_succ (f := fun n => (ρ.store n).nonces) (fun n => ?_) h
  rcases store_succ ρ n with h | ⟨q, hq, ha⟩ | ⟨e, -, ha⟩
  · rw [h]
  · by_cases hp : part q = .nonces
    · generalize ρ.store (n + 1) = s' at ha
      cases ha with
      | nonce hx hf => exact Finset.subset_insert _ _
      | nothing => exact le_rfl
      | editBuild h => cases h <;> cases hp
      | _ => cases hp
    · exact (ha.frame.nonces hp).ge
  · exact (ha.frame.nonces (by cases e <;> simp [envPart])).ge

/-- A nonce that is handed out was not known before. -/
theorem nonce_fresh {t : Nat} {a : String} (h : ρ.gets n t .nonce (.ok a)) :
    lowerHex a 32 ∧ a ∉ (ρ.store n).nonces ∧ a ∈ (ρ.store (n + 1)).nonces := by
  obtain ⟨c, hc⟩ := h.read rfl
  rcases minted_eq hc with ⟨x, hx, hf, ha, hs⟩ | ⟨-, e, he⟩
  · cases ha
    refine ⟨hx, hf, ?_⟩
    have hmem := Finset.mem_insert_self a (ρ.store n).nonces
    rwa [show ρ.store (n + 1) = _ from hs]
  · cases he

theorem nonce_unique {m t t' : Nat} {a : String} (h : ρ.gets m t .nonce (.ok a))
    (h' : ρ.gets n t' .nonce (.ok a)) : m = n ∧ t = t' := by
  have hm := nonce_fresh ρ h
  have hn := nonce_fresh ρ h'
  have heq : m = n := by
    rcases Nat.lt_trichotomy m n with hlt | heq | hlt
    · exact absurd (nonces_mono ρ hlt hm.2.2) hn.2.1
    · exact heq
    · exact absurd (nonces_mono ρ hlt hn.2.2) hm.2.1
  subst heq
  exact ⟨rfl, Option.some.inj (h.actor.symm.trans h'.actor)⟩

end KovaService.System
