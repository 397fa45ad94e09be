import KovaService.Safety.Entries

/-!
Capacity.  Every runner Pod, and every Pod Create that can still take effect, is covered by an entry
of the active ledger, and the ledger never holds more entries or slots than it was created for.
-/

namespace KovaService.Safety

open Lib Api Ledger Protocol Proof KovaService.System

variable {w : World} {ρ : w.Execution} {n m k t : Nat} {uid : UID} {p : Pod}

variable {e : ActiveReservation} {a : String}

theorem unspent_once {P : Request → Prop} {n' t' : Nat} {q q' : Request} (h : Unspent ρ t n a P)
    (hs : ρ.sends n t q) (hP : P q)
    (h' : Unspent ρ t' n' a P) (hs' : ρ.sends n' t' q') (hP' : P q') : n = n' := by
  obtain ⟨m, hm, hg, hsilent⟩ := h
  obtain ⟨m', hm', hg', hsilent'⟩ := h'
  obtain ⟨rfl, rfl⟩ := nonce_unique ρ hg hg'
  rcases Nat.lt_trichotomy n n' with hlt | heq | hlt
  · exact absurd hP ((hsilent' n hm.le hlt).1 q hs)
  · exact heq
  · exact absurd hP' ((hsilent n' hm'.le hlt).1 q' hs')

def stampedWith (a : String) : Request → Prop
  | .createPod p => p.annotations.createAttempt = a
  | _ => False

theorem createPod_once (a : String) : ∀ n t q n' t' q', ρ.sends n t q → stampedWith a q →
    ρ.sends n' t' q' → stampedWith a q' → n = n' := by
  intro n t q n' t' q' hs hq hs' hq'
  cases q with
  | createPod p =>
    cases q' with
    | createPod p' =>
      obtain ⟨b, hb⟩ := sends_demanded ρ n t _ hs
      obtain ⟨b', hb'⟩ := sends_demanded ρ n' t' _ hs'
      have hu : Unspent ρ t n a isCreatePod := hq ▸ hb.unspent
      have hu' : Unspent ρ t' n' a isCreatePod := hq' ▸ hb'.unspent
      exact unspent_once hu hs trivial hu' hs' trivial
    | _ => exact hq'.elim
  | _ => exact hq.elim

theorem not_settled_of_sends (hs : ρ.sends n t (.createPod p)) :
    ¬ Settled ρ n p.annotations.createAttempt := by
  rintro ⟨m, p', hm, ha, hstamp⟩
  obtain ⟨j, t', hj, hs', -⟩ := acts_demanded ha rfl
  have := createPod_once _ j t' _ n t _ hs' hstamp hs rfl
  omega

theorem not_settled_of_wire {id : Nat} (h : (id, Request.createPod p) ∈ (ρ.state n).wire) :
    ¬ Settled ρ n p.annotations.createAttempt := by
  rintro ⟨m, p', hm, ha, hstamp⟩
  obtain ⟨id', c, r, he⟩ := effect_of_acts ρ ha rfl
  exact he.last (createPod_once p.annotations.createAttempt) hstamp rfl hm h rfl

/-- A Pod Create that was sent at `j` and has not arrived yet, with the entry that covers it. -/
structure UnderWay (ρ : w.Execution) (n j t : Nat) (p : Pod) (b : KovaBuild)
    (e : ActiveReservation) : Prop where
  creation : PodCreation ρ j t p b
  entry : entryAt ρ n b.uid = some e
  inFlight : p.annotations.createAttempt ∈ e.inFlight

theorem underWay_of_sends {j : Nat} (hs : ρ.sends j t (.createPod p)) (hjn : j ≤ n)
    (hn : ¬ Settled ρ n p.annotations.createAttempt) : ∃ b e, UnderWay ρ n j t p b e := by
  obtain ⟨b, hb⟩ := sends_demanded ρ j t _ hs
  obtain ⟨m, e, hm, he, ha⟩ := hb.recorded
  obtain ⟨e', he', ha'⟩ := inFlight_stays he ha (hm.trans hjn) hn
  exact ⟨b, e', hb, he', ha'⟩

theorem underWay_of_wire {id : Nat} (h : (id, Request.createPod p) ∈ (ρ.state n).wire) :
    ∃ j t b e, j < n ∧ UnderWay ρ n j t p b e := by
  obtain ⟨-, j, t, hj, hs, -⟩ := ρ.wire_sent n id _ h
  obtain ⟨b, e, hu⟩ := underWay_of_sends hs hj.le (not_settled_of_wire h)
  exact ⟨j, t, b, e, hj, hu⟩

theorem underWay_of_acts (h : ρ.acts n (.createPod p)) :
    ∃ j t b e, j < n ∧ UnderWay ρ n j t p b e := by
  obtain ⟨id, c, r, he⟩ := effect_of_acts ρ h rfl
  exact underWay_of_wire he.1

theorem controlledBy_owner {b : KovaBuild}
    (ho : p.ownerReferences = [Controller.Reconciler.controllerReference b])
    (hc : controlledBy p uid) : b.uid = uid := by
  obtain ⟨o, hmem, rfl⟩ := hc
  rw [ho, List.mem_singleton] at hmem
  rw [hmem]
  rfl

theorem entry_succ_of_inFlight (he : entryAt ρ n uid = some e) (ha : a ∈ e.inFlight) :
    ∃ e', entryAt ρ
    (n + 1) uid = some e' := by
  by_contra hne
  have hnone : entryAt ρ (n + 1) uid = none := by
    simpa [Option.eq_none_iff_forall_ne_some] using hne
  obtain ⟨m, k, t, hr⟩ := entry_removed he hnone
  simp [hr.inFlight] at ha

variable {name : String}

theorem pod_name_entry (hp : (ρ.store n).pods.lookup name = some p) (hc : controlledBy p uid)
    (he : entryAt ρ n uid = some e) : name = buildPodName e.buildName := by
  obtain ⟨hname, m, p₀, hm, hbirth⟩ := pod_born ρ hp
  obtain ⟨j, t, b, e₀, hj, hu⟩ := underWay_of_acts hbirth.acts
  have hb := versions_mono ρ (hj.le.trans hm.le) hu.creation.stored
  obtain ⟨c, hcv, hcu, hcn, -⟩ := entry_owner he
  have howner : p.ownerReferences = [Controller.Reconciler.controllerReference b] :=
    hbirth.same.owners.trans hu.creation.owner
  have hsame := (versions_ok ρ n).same b hb c hcv ((controlledBy_owner howner hc).trans hcu.symm)
  rw [← hname, hcn, hsame.name, hbirth.same.name]
  exact hu.creation.name

theorem pod_keeps_entry (hr : Removal ρ n m k t uid e)
    (hp : (ρ.store n).pods.lookup name = some p) : ¬ controlledBy p uid := by
  intro hc
  obtain ⟨j, hmj, hjk, hj⟩ := hr.noPod
  have hkn := hr.commit.before.2
  rw [← pod_name_entry hp hc hr.entry] at hj
  obtain ⟨-, i, p₀, hji, hin, hbirth⟩ := pod_born_since ρ (by omega) hj hp
  obtain ⟨_, _, b, e₀, -, hu⟩ := underWay_of_acts hbirth.acts
  have howner : p.ownerReferences = [Controller.Reconciler.controllerReference b] :=
    hbirth.same.owners.trans hu.creation.owner
  -- the Create arrived while the ledger was as the releaser had read it: nothing in flight
  have he : entryAt ρ i uid = some e := by
    rw [entryAt, hr.commit.read i (by omega) hin.le]
    exact hr.entry
  have he₀ := hu.entry
  rw [controlledBy_owner howner hc, he] at he₀
  cases he₀
  simpa [hr.inFlight] using hu.inFlight

theorem pod_entry (hp : (ρ.store n).pods.lookup name = some p) (hc : controlledBy p uid) :
    ∃ e, entryAt ρ n uid = some e := by
  induction n generalizing p with
  | zero => simp [Run.store, ρ.zero, Semantics.start, World.initial] at hp
  | succ n ih =>
    rcases pods_succ ρ hp with ⟨p₀, hp₀, hs⟩ | ⟨p₀, -, hbirth, -⟩
    · have hc₀ : controlledBy p₀ uid := by
        unfold controlledBy
        rw [← hs.owners]
        exact hc
      obtain ⟨e, he⟩ := ih hp₀ hc₀
      by_contra hne
      have hnone : entryAt ρ (n + 1) uid = none := by
        simpa [Option.eq_none_iff_forall_ne_some] using hne
      obtain ⟨m, k, t, hr⟩ := entry_removed he hnone
      exact pod_keeps_entry hr hp₀ hc₀
    · obtain ⟨_, _, b, e, -, hu⟩ := underWay_of_acts hbirth.acts
      have howner : p.ownerReferences = [Controller.Reconciler.controllerReference b] :=
        hbirth.same.owners.trans hu.creation.owner
      rw [← controlledBy_owner howner hc]
      exact entry_succ_of_inFlight hu.entry hu.inFlight

theorem ledger_valid (ρ : w.Execution) (n : Nat) : (ρ.store n).ledger.data.Valid := by
  induction n with
  | zero =>
    obtain ⟨hjobs, -, -, -, hslots, -⟩ := capacity_bounds w.capacity
    rw [show ρ.store 0 = w.initial from congrArg Machine.store ρ.zero]
    simp only [World.initial]
    split <;>
      refine ⟨?_, w.capacity, ?_, ?_, ?_, ?_, ?_, ?_, ?_⟩ <;>
      simp [ReservationState.genesisEmpty, ReservationState.freshReservations,
        ReservationState.usedSlots] <;>
      omega
  | succ n ih =>
    rcases ledger_step ρ n with h | ⟨m, k, t, writer, uid, hc⟩
    · rwa [h]
    · exact ReservationState.validate_ok hc.valid

def Occupies (ρ : w.Execution) (n : Nat) (uid : UID) : Prop :=
  (∃ name p, (ρ.store n).pods.lookup name = some p ∧ controlledBy p uid) ∨
    ∃ id p, (id, Request.createPod p) ∈ (ρ.state n).wire ∧ controlledBy p uid

theorem occupies_entry (h : Occupies ρ n uid) : ∃ e, entryAt ρ n uid = some e := by
  rcases h with ⟨name, p, hp, hc⟩ | ⟨id, p, hw, hc⟩
  · exact pod_entry hp hc
  · obtain ⟨_, _, b, e, -, hu⟩ := underWay_of_wire hw
    rw [← controlledBy_owner hu.creation.owner hc]
    exact ⟨e, hu.entry⟩

variable {U : Finset UID}

theorem card_le_maxJobs (h : ∀ uid ∈ U, ∃ e, entryAt ρ n uid = some e) :
    (U.card : Int) ≤ w.cfg.maxActiveJobs := by
  have hsub : U ⊆ (ρ.store n).ledger.data.active.keys := by
    intro uid hu
    obtain ⟨e, he⟩ := h uid hu
    exact Finmap.mem_keys.mpr (Finmap.mem_of_lookup_eq_some he)
  calc (U.card : Int) ≤ (ρ.store n).ledger.data.active.keys.card := by
        exact_mod_cast Finset.card_le_card hsub
    _ ≤ (ρ.store n).ledger.data.maxJobs := (ledger_valid ρ n).jobs
    _ = w.cfg.maxActiveJobs := (ledger_header ρ n).2.1

theorem card_le_maxPerRequester {requester : String}
    (h : ∀ uid ∈ U, ∃ e, entryAt ρ n uid = some e ∧ e.requester = requester) :
    (U.card : Int) ≤ w.cfg.maxActiveJobsPerRequester := by
  rcases U.eq_empty_or_nonempty with rfl | ⟨uid₀, hu₀⟩
  · have hcap := w.capacity
    simp only [capacitySupported, Bool.not_eq_true', Bool.or_eq_false_iff,
      decide_eq_false_iff_not] at hcap
    simp only [Finset.card_empty, Nat.cast_zero]
    omega
  obtain ⟨e₀, he₀, rfl⟩ := h uid₀ hu₀
  have hsub : U ⊆ (ρ.store n).ledger.data.active.keys.filter fun key =>
      (ρ.store n).ledger.data.heldBy e₀.requester key := by
    intro uid hu
    obtain ⟨e, he, hr⟩ := h uid hu
    refine Finset.mem_filter.mpr ⟨Finmap.mem_keys.mpr (Finmap.mem_of_lookup_eq_some he), ?_⟩
    rw [entryAt] at he
    simp [ReservationState.heldBy, he, hr]
  calc (U.card : Int) ≤ (ρ.store n).ledger.data.byRequester e₀.requester := by
        exact_mod_cast Finset.card_le_card hsub
    _ ≤ (ρ.store n).ledger.data.maxPerRequester := (ledger_valid ρ n).requester _ _ he₀
    _ = w.cfg.maxActiveJobsPerRequester := (ledger_header ρ n).2.2.1

theorem slots_le_workerSlots (h : ∀ uid ∈ U, ∃ e, entryAt ρ n uid = some e) :
    ∑ uid ∈ U, (ρ.store n).ledger.data.slotsOf uid ≤ w.cfg.workerSlots := by
  have hsub : U ⊆ (ρ.store n).ledger.data.active.keys := by
    intro uid hu
    obtain ⟨e, he⟩ := h uid hu
    exact Finmap.mem_keys.mpr (Finmap.mem_of_lookup_eq_some he)
  calc ∑ uid ∈ U, (ρ.store n).ledger.data.slotsOf uid
      ≤ (ρ.store n).ledger.data.usedSlots := Finset.sum_le_sum_of_subset_of_nonneg hsub
        fun key _ _ => ReservationState.slotsOf_nonneg (ledger_valid ρ n) key
    _ ≤ (ρ.store n).ledger.data.workerSlots := (ledger_valid ρ n).slots
    _ = w.cfg.workerSlots := (ledger_header ρ n).2.2.2

theorem entry_requester {b : KovaBuild} (he : entryAt ρ n b.uid = some e)
    (hb : b ∈ (ρ.store n).versions) : e.requester = b.requesterKey := by
  obtain ⟨c, hc, hu, -, hr⟩ := entry_owner he
  have hsame := (versions_ok ρ n).same b hb c hc hu.symm
  rw [hr, KovaBuild.requesterKey, KovaBuild.requesterKey, hsame.spec, hsame.name]

/-- In every run of the service, in both modes and at every instant: a build that has a runner Pod,
or a Pod Create of which can still take effect, owns an entry of the active ledger.  Any set of such
builds has at most `MaxActiveJobs` members, at most `MaxActiveJobsPerRequester` of one requester, and
was granted at most `WorkerSlots` slots together. -/
theorem runner_capacity (ρ : w.Execution) (n : Nat) :
    (∀ uid, Occupies ρ n uid → ∃ e, (ρ.store n).ledger.data.active.lookup uid = some e) ∧
    ∀ U : Finset UID, (∀ uid ∈ U, Occupies ρ n uid) →
      (U.card : Int) ≤ w.cfg.maxActiveJobs ∧
      (∀ requester, (∀ uid ∈ U, ∃ b ∈ (ρ.store n).versions, b.uid = uid ∧
        b.requesterKey = requester) → (U.card : Int) ≤ w.cfg.maxActiveJobsPerRequester) ∧
      ∑ uid ∈ U, (ρ.store n).ledger.data.slotsOf uid ≤ w.cfg.workerSlots := by
  refine ⟨fun _ => occupies_entry, fun U hU => ?_⟩
  have hentry : ∀ uid ∈ U, ∃ e, entryAt ρ n uid = some e := fun uid hu => occupies_entry (hU uid hu)
  refine ⟨card_le_maxJobs hentry, fun requester hreq => ?_, slots_le_workerSlots hentry⟩
  have hheld : ∀ uid ∈ U, ∃ e, entryAt ρ n uid = some e ∧ e.requester = requester := by
    intro uid hu
    obtain ⟨e, he⟩ := hentry uid hu
    obtain ⟨b, hb, rfl, hr⟩ := hreq uid hu
    exact ⟨e, he, (entry_requester he hb).trans hr⟩
  exact card_le_maxPerRequester hheld

end KovaService.Safety
