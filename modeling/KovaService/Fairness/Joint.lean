import KovaService.Fairness.Decision

/-!
All builds admitted on one snapshot fit into the ledger together.

The budgets of the virtual allocation bound the number of grants, their slots and the grants of each
requester; `addGrants` spends exactly these budgets, in any order of the grants.
-/

namespace KovaService.Fairness

open Lib Api Ledger Controller Proof

variable {x : Ext} {builds : List KovaBuild} {s : ReservationState} {active : String → Nat}
  {limit jobs slots maxJobs workerSlots : Int}

theorem virtualGrants_length (limit : Int) (cs : List KovaBuild) (active : String → Nat)
    (jobs slots : Int) :
    ((virtualGrants limit cs active jobs slots).length : Int) ≤ max jobs 0 := by
  fun_induction virtualGrants limit cs active jobs slots with
  | case1 | case3 => simp
  | case2 _ _ _ _ _ _ ih => exact ih
  | case4 _ _ _ _ _ _ hroom ih =>
    simp only [Bool.or_eq_true, decide_eq_true_eq] at hroom
    rw [List.length_cons]
    omega

theorem virtualGrants_slots (limit : Int) (cs : List KovaBuild) (active : String → Nat)
    (jobs slots : Int) :
    ((virtualGrants limit cs active jobs slots).map Prod.snd).sum ≤ max slots 0 := by
  fun_induction virtualGrants limit cs active jobs slots with
  | case1 | case3 => simp
  | case2 _ _ _ _ _ _ ih => exact ih
  | case4 _ _ _ _ _ _ hroom ih =>
    simp only [Bool.or_eq_true, decide_eq_true_eq] at hroom
    rw [List.map_cons, List.sum_cons]
    omega

variable {g : KovaBuild × Int}

theorem virtualGrants_each {cs : List KovaBuild}
    (h : g ∈ virtualGrants limit cs active jobs slots) : 1 ≤ g.2 ∧ g.2 ≤ slots := by
  fun_induction virtualGrants limit cs active jobs slots with
  | case1 | case3 => cases h
  | case2 _ _ _ _ _ _ ih => exact ih h
  | case4 c _ _ _ _ _ hroom ih =>
    have hpos := requestedConcurrency_pos c
    simp only [Bool.or_eq_true, decide_eq_true_eq] at hroom
    rcases List.mem_cons.mp h with rfl | h
    · dsimp only
      omega
    · have := ih h
      omega

def grantsTo (q : String) (grants : List (KovaBuild × Int)) : Nat :=
  grants.countP fun g => g.1.requesterKey == q

theorem virtualGrants_requester (limit : Int) (q : String) (cs : List KovaBuild)
    (active : String → Nat) (jobs slots : Int) :
    (active q : Int) + grantsTo q (virtualGrants limit cs active jobs slots) ≤
      max limit (active q) := by
  fun_induction virtualGrants limit cs active jobs slots with
  | case1 | case3 => simp [grantsTo]
  | case2 _ _ _ _ _ _ ih => exact ih
  | case4 c cs active _ _ hfree _ ih =>
    rw [grantsTo, List.countP_cons]
    change _ + ((grantsTo q (virtualGrants limit cs _ _ _) + _ : Nat) : Int) ≤ _
    by_cases hq : c.requesterKey = q
    · subst hq
      simp only [served, beq_self_eq_true, if_true] at ih ⊢
      push_cast at ih ⊢
      omega
    · simpa [served, hq, Ne.symm hq] using ih

theorem virtualGrants_sublist (limit : Int) (cs : List KovaBuild) (active : String → Nat)
    (jobs slots : Int) :
    ((virtualGrants limit cs active jobs slots).map Prod.fst).Sublist cs := by
  fun_induction virtualGrants limit cs active jobs slots with
  | case1 | case3 => exact List.nil_sublist _
  | case2 c _ _ _ _ _ ih => exact ih.cons c
  | case4 c _ _ _ _ _ _ ih => exact ih.cons_cons c

def addGrants (entry : KovaBuild → Int → ActiveReservation) (s : ReservationState)
    (grants : List (KovaBuild × Int)) : ReservationState :=
  grants.foldl (fun s g => s.set g.1.reservationKey (entry g.1 g.2)) s

theorem addGrants_valid {entry : KovaBuild → Int → ActiveReservation}
    (hentry : ∀ b a, (entry b a).requester = b.requesterKey ∧ (entry b a).slots = a)
    (grants : List (KovaBuild × Int)) (hs : s.Valid)
    (hkeys : (grants.map fun g => g.1.reservationKey).Nodup)
    (hnew : ∀ g ∈ grants, s.active.lookup g.1.reservationKey = none)
    (hok : ∀ g ∈ grants, s.EntryValid g.1.reservationKey (entry g.1 g.2))
    (hpos : ∀ g ∈ grants, 0 ≤ g.2)
    (hjobs : (s.active.keys.card : Int) + grants.length ≤ s.maxJobs)
    (hslots : s.usedSlots + (grants.map Prod.snd).sum ≤ s.workerSlots)
    (hreq : ∀ g ∈ grants, (s.byRequester g.1.requesterKey : Int) +
      grantsTo g.1.requesterKey grants ≤ s.maxPerRequester) :
    (addGrants entry s grants).Valid := by
  induction grants generalizing s with
  | nil => exact hs
  | cons g grants ih =>
    obtain ⟨hg, hnodup⟩ := List.nodup_cons.mp hkeys
    have hn := hnew g List.mem_cons_self
    have hpos' : ∀ g' ∈ grants, 0 ≤ g'.2 := fun g' h => hpos g' (List.mem_cons_of_mem _ h)
    have hsum : 0 ≤ (grants.map Prod.snd).sum :=
      List.sum_nonneg fun a ha => by
        obtain ⟨g', hg', rfl⟩ := List.mem_map.mp ha
        exact hpos' g' hg'
    rw [List.map_cons, List.sum_cons] at hslots
    rw [List.length_cons] at hjobs
    push_cast at hjobs
    have hgreq := hreq g List.mem_cons_self
    have hstep : (s.set g.1.reservationKey (entry g.1 g.2)).Valid := by
      refine hs.add hn (by omega) ?_ ?_ (hok g List.mem_cons_self)
      · rw [(hentry g.1 g.2).2]
        omega
      · rw [(hentry g.1 g.2).1]
        have : 1 ≤ grantsTo g.1.requesterKey (g :: grants) := by simp [grantsTo]
        omega
    refine ih hstep hnodup (fun g' h => ?_) (fun g' h => ?_) hpos' ?_ ?_ fun g' h => ?_
    · have hne : g'.1.reservationKey ≠ g.1.reservationKey := fun he =>
        hg (List.mem_map.mpr ⟨g', h, he⟩)
      rw [ReservationState.lookup_set_of_ne hne]
      exact hnew g' (List.mem_cons_of_mem _ h)
    · have := hok g' (List.mem_cons_of_mem _ h)
      exact ⟨this.entry, this.legacy, this.genesis⟩
    · rw [ReservationState.card_set_new hn]
      push_cast
      change _ ≤ s.maxJobs
      omega
    · rw [ReservationState.usedSlots_set_new hn, (hentry g.1 g.2).2]
      change _ ≤ s.workerSlots
      omega
    · have hcount := hreq g' (List.mem_cons_of_mem _ h)
      rw [grantsTo, List.countP_cons] at hcount
      rw [ReservationState.byRequester_set_new hn, (hentry g.1 g.2).1]
      change _ ≤ s.maxPerRequester
      unfold grantsTo
      by_cases hq : g.1.requesterKey = g'.1.requesterKey
      · simp only [hq, beq_self_eq_true, if_true] at hcount ⊢
        push_cast at hcount ⊢
        omega
      · simpa [hq] using hcount

def admitted (x : Ext) (builds : List KovaBuild) (s : ReservationState) (cfg : Config)
    (build : KovaBuild) : Bool :=
  (decideAdmission x build builds s cfg.maxActiveJobs cfg.maxActiveJobsPerRequester
    cfg.workerSlots).admitted

def admittedGrants (x : Ext) (builds : List KovaBuild) (s : ReservationState) (cfg : Config) :
    List (KovaBuild × Int) :=
  (builds.filter (admitted x builds s cfg)).map fun build =>
    (build, (decideAdmission x build builds s cfg.maxActiveJobs cfg.maxActiveJobsPerRequester
      cfg.workerSlots).allocation)

theorem find_grant {grants : List (KovaBuild × Int)}
    (hk : (grants.map fun g => g.1.reservationKey).Nodup) (hg : g ∈ grants) :
    (grants.find? fun g' => g'.1.reservationKey == g.1.reservationKey) = some g := by
  induction grants with
  | nil => cases hg
  | cons a grants ih =>
    obtain ⟨ha, hk⟩ := List.nodup_cons.mp hk
    rcases List.mem_cons.mp hg with rfl | hg
    · exact List.find?_cons_of_pos (by simp)
    · have hne : a.1.reservationKey ≠ g.1.reservationKey := fun h =>
        ha (List.mem_map.mpr ⟨g, hg, h.symm⟩)
      rw [List.find?_cons_of_neg (by simpa using hne)]
      exact ih hk hg

section Snapshot

variable {cfg : Config} (hk : (builds.map KovaBuild.reservationKey).Nodup)
  (hp : Positive cfg.maxActiveJobs cfg.maxActiveJobsPerRequester cfg.workerSlots)

include hk in
theorem queueOf_keys : ((queueOf x builds s).map KovaBuild.reservationKey).Nodup := by
  have hperm : (queueOf x builds s).Perm (queuedAdmissionCandidates builds s) := fairQueue_perm
  rw [(hperm.map _).nodup_iff]
  exact hk.sublist (List.filter_sublist.map _)

include hk in
theorem snapshotGrants_keys :
    ((snapshotGrants x builds s maxJobs limit workerSlots).map fun g =>
      g.1.reservationKey).Nodup := by
  have hsub := (virtualGrants_sublist limit (queueOf x builds s) s.byRequester
    (maxJobs - s.active.keys.card) (workerSlots - s.usedSlots)).map KovaBuild.reservationKey
  rw [List.map_map] at hsub
  exact (queueOf_keys hk).sublist hsub

include hk hp in
theorem mem_admittedGrants :
    g ∈ admittedGrants x builds s cfg ↔ g ∈ snapshotGrants x builds s cfg.maxActiveJobs
      cfg.maxActiveJobsPerRequester cfg.workerSlots := by
  have hkeys : ((snapshotGrants x builds s cfg.maxActiveJobs cfg.maxActiveJobsPerRequester
      cfg.workerSlots).map fun g => g.1.reservationKey).Nodup := snapshotGrants_keys hk
  -- What a call decides for a build that has a grant.
  have hdecision : ∀ b, ∀ g ∈ snapshotGrants x builds s cfg.maxActiveJobs
      cfg.maxActiveJobsPerRequester cfg.workerSlots, g.1.reservationKey = b.reservationKey →
      (decideAdmission x b builds s cfg.maxActiveJobs cfg.maxActiveJobsPerRequester
        cfg.workerSlots) = { admitted := true, allocation := g.2 } := by
    intro b g hg hb
    rw [decideAdmission_of_grants hp (List.ne_nil_of_mem hg), decisionIn, ← hb,
      find_grant hkeys hg]
  have hbuilds : ∀ g ∈ snapshotGrants x builds s cfg.maxActiveJobs
      cfg.maxActiveJobsPerRequester cfg.workerSlots, g.1 ∈ builds := fun g hg =>
    mem_of_mem_queueOf (virtualGrants_mem hg).1
  constructor
  · intro h
    obtain ⟨b, hb, rfl⟩ := List.mem_map.mp h
    obtain ⟨hb, hadm⟩ := List.mem_filter.mp hb
    obtain ⟨g, hg, hkey⟩ := (decideAdmission_admitted hp).mp hadm
    have hgb : g.1 = b := List.inj_on_of_nodup_map hk (hbuilds g hg) hb hkey
    rw [hdecision b g hg hkey, ← hgb]
    exact hg
  · intro hg
    have hd := hdecision g.1 g hg rfl
    refine List.mem_map.mpr ⟨g.1, List.mem_filter.mpr ⟨hbuilds g hg, ?_⟩, ?_⟩
    · rw [admitted, hd]
    · rw [hd]

include hk hp in
theorem admittedGrants_perm :
    (admittedGrants x builds s cfg).Perm (snapshotGrants x builds s cfg.maxActiveJobs
      cfg.maxActiveJobsPerRequester cfg.workerSlots) := by
  have hleft : (admittedGrants x builds s cfg).Nodup := by
    refine (hk.of_map.filter _).map fun a b h => ?_
    exact congrArg Prod.fst h
  have hright : (snapshotGrants x builds s cfg.maxActiveJobs cfg.maxActiveJobsPerRequester
      cfg.workerSlots).Nodup := (snapshotGrants_keys hk).of_map
  exact (List.perm_ext_iff_of_nodup hleft hright).mpr fun g => mem_admittedGrants hk hp

end Snapshot

variable {c : KovaBuild}

theorem virtualGrants_grant (cs : List KovaBuild) (hfree : (active c.requesterKey : Int) < limit)
    (hs : 0 < slots) (hj : 0 < jobs) :
    virtualGrants limit (c :: cs) active jobs slots =
      (c, min c.requestedConcurrency slots) ::
        virtualGrants limit cs (served active c.requesterKey) (jobs - 1)
          (slots - min c.requestedConcurrency slots) := by
  rw [virtualGrants, if_neg (by omega), if_neg (by simp; omega)]

theorem virtualGrants_skip (cs : List KovaBuild) (hfull : (active c.requesterKey : Int) ≥ limit) :
    virtualGrants limit (c :: cs) active jobs slots = virtualGrants limit cs active jobs slots := by
  rw [virtualGrants, if_pos hfull]

theorem virtualGrants_front (limit : Int) (u v : List KovaBuild) (active : String → Nat)
    (jobs slots : Int) :
    (virtualGrants limit u active jobs slots).IsPrefix
      (virtualGrants limit (u ++ v) active jobs slots) := by
  induction u generalizing active jobs slots with
  | nil => exact List.nil_prefix
  | cons c u ih =>
    rcases virtualGrants_cons c u with ⟨hfull, heq⟩ | ⟨-, -, heq⟩ | ⟨hfree, hs, hj, heq⟩
    · rw [heq, List.cons_append, virtualGrants_skip _ hfull]
      exact ih _ _ _
    · rw [heq]
      exact List.nil_prefix
    · rw [heq, List.cons_append, virtualGrants_grant _ hfree hs hj]
      exact List.cons_prefix_cons.mpr ⟨rfl, ih _ _ _⟩

variable {b : KovaBuild}

/-- A candidate without a grant ahead of one with a grant had its requester at the limit. -/
theorem virtualGrants_passed {u v : List KovaBuild} (hn : (u ++ b :: v).Nodup)
    (hb : ∀ g ∈ virtualGrants limit (u ++ b :: v) active jobs slots, g.1 ≠ b)
    (hv : ∃ g ∈ virtualGrants limit (u ++ b :: v) active jobs slots, g.1 ∈ v) :
    limit ≤ active b.requesterKey +
      grantsTo b.requesterKey (virtualGrants limit u active jobs slots) := by
  obtain ⟨g, hg, hgv⟩ := hv
  induction u generalizing active jobs slots with
  | nil =>
    have hzero : grantsTo b.requesterKey (virtualGrants limit [] active jobs slots) = 0 := rfl
    rw [hzero]
    by_contra hfree
    rw [List.nil_append] at hg hb
    by_cases hroom : slots ≤ 0 ∨ jobs ≤ 0
    · rw [virtualGrants_exhausted _ _ _ hroom] at hg
      cases hg
    · rw [virtualGrants_grant v (by omega) (by omega) (by omega)] at hb
      exact hb _ List.mem_cons_self rfl
  | cons c u ih =>
    obtain ⟨hc, hn⟩ := List.nodup_cons.mp hn
    rw [List.cons_append] at hg hb
    rcases virtualGrants_cons c (u ++ b :: v) with ⟨hfull, heq⟩ | ⟨-, -, heq⟩ | ⟨hfree, hs, hj, heq⟩
    · rw [heq] at hg hb
      rw [virtualGrants_skip u hfull]
      exact ih hn hb hg
    · rw [heq] at hg
      cases hg
    · rw [heq] at hg hb
      rw [virtualGrants_grant u hfree hs hj]
      have hg' := (List.mem_cons.mp hg).resolve_left fun h => hc (by
        rw [h] at hgv
        simp [hgv])
      have hrest := ih hn (fun g' h => hb g' (List.mem_cons_of_mem _ h)) hg'
      rw [grantsTo, List.countP_cons]
      change limit ≤ _ + ((grantsTo _ (virtualGrants limit u _ _ _) + _ : Nat) : Int)
      by_cases hq : c.requesterKey = b.requesterKey
      · simp only [served, hq, beq_self_eq_true, if_true] at hrest ⊢
        push_cast at hrest ⊢
        omega
      · simpa [served, hq, Ne.symm hq] using hrest

theorem grantEntry_valid {r : Reconciler} {a : Int} {nonce : String}
    (hv : s.version = if r.genesis.isSome then 2 else 1) (hb : CRDValid b)
    (hnonce : validReservationHex nonce 32) (ha : 1 ≤ a ∧ a ≤ s.workerSlots) :
    s.EntryValid b.reservationKey (r.grantEntry b s a nonce) := by
  have hu := hb.uid
  simp only [opaqueUID, Bool.and_eq_true, bne_iff_ne, decide_eq_true_eq] at hu
  have hname := hb.name.2
  simp only [isDNS1123Subdomain, Bool.and_eq_true, decide_eq_true_eq] at hname
  have hwell : (r.grantEntry b s a nonce).wellFormed s.workerSlots b.reservationKey := by
    unfold Reconciler.grantEntry
    cases r.genesis.isSome <;>
      simp [ActiveReservation.wellFormed, hb.reservationKey, hb.requesterKey, hu.1,
        maxReservationUIDBytes, hu.2, hb.name.1, hb.name.2, hname.1, hb.requester.1,
        hb.requester.2, ha.1, ha.2]
  refine ⟨hwell, fun h1 => ?_, fun h2 => ?_⟩
  · cases hg : r.genesis.isSome with
    | true => simp [hg, h1] at hv
    | false => simp [Reconciler.grantEntry, hg, ActiveReservation.legacy]
  · cases hg : r.genesis.isSome with
    | false => simp [hg, h2] at hv
    | true =>
      by_cases h0 : s.fence = 0 <;>
        simp [Reconciler.grantEntry, hg, ActiveReservation.grantConsistent,
          ActiveReservation.podConsistent, hnonce, h0]

theorem keys_nodup (hu : (builds.map KovaBuild.uid).Nodup) (hb : ∀ b ∈ builds, CRDValid b) :
    (builds.map KovaBuild.reservationKey).Nodup := by
  have heq : builds.map KovaBuild.reservationKey = builds.map KovaBuild.uid :=
    List.map_congr_left fun b h => (hb b h).reservationKey
  rw [heq]
  exact hu

theorem limits_match {cfg : Config} (h : s.validateLimits cfg = .ok ()) :
    s.maxJobs = cfg.maxActiveJobs ∧ s.maxPerRequester = cfg.maxActiveJobsPerRequester ∧
      s.workerSlots = cfg.workerSlots := by
  unfold ReservationState.validateLimits at h
  cases hc : validateReservationCapacity cfg with
  | error e => simp [hc] at h
  | ok _ =>
    simp only [hc] at h
    split_ifs at h with hne
    simpa [and_assoc] using hne

theorem positive_of_valid {cfg : Config} (hs : s.Valid) (h : s.validateLimits cfg = .ok ()) :
    Positive cfg.maxActiveJobs cfg.maxActiveJobsPerRequester cfg.workerSlots := by
  have hcap := capacity_bounds hs.capacity
  obtain ⟨h1, h2, h3⟩ := limits_match h
  exact ⟨by omega, by omega, by omega⟩

theorem lookup_of_queued (hs : s.Valid) (h : c ∈ queuedAdmissionCandidates builds s) :
    s.active.lookup c.reservationKey = none := by
  cases he : s.active.lookup c.reservationKey with
  | none => rfl
  | some e =>
    have hzero : s.slotsOf c.reservationKey = 0 := by
      have := (List.mem_filter.mp h).2
      simp only [Bool.and_eq_true, beq_iff_eq] at this
      exact this.2
    have hwell := hs.entry _ _ he
    simp only [ActiveReservation.wellFormed, Bool.and_eq_true, decide_eq_true_eq] at hwell
    rw [ReservationState.slotsOf_of_lookup he] at hzero
    omega

section Result

variable {r : Reconciler} (hvalid : s.Valid) (hk : (builds.map KovaBuild.reservationKey).Nodup)
  (hl : s.validateLimits r.cfg = .ok ())

include hvalid hk hl in
theorem admitted_fit {nonce : KovaBuild → String} (hb : ∀ b ∈ builds, CRDValid b)
    (hv : s.version = if r.genesis.isSome then 2 else 1)
    (hnonce : ∀ b ∈ builds, validReservationHex (nonce b) 32) :
    (addGrants (fun b slots => r.grantEntry b s slots (nonce b)) s
      (admittedGrants r.ext builds s r.cfg)).Valid := by
  obtain ⟨hjobs, hreq, hslots⟩ := limits_match hl
  have hperm := admittedGrants_perm (x := r.ext) (s := s) hk (positive_of_valid hvalid hl)
  set grants := snapshotGrants r.ext builds s r.cfg.maxActiveJobs r.cfg.maxActiveJobsPerRequester
    r.cfg.workerSlots
  have hqueued : ∀ g ∈ grants, g.1 ∈ queuedAdmissionCandidates builds s := fun g hg =>
    mem_queueOf.mp (virtualGrants_mem hg).1
  have hbuild : ∀ g ∈ grants, g.1 ∈ builds := fun g hg => (List.mem_filter.mp (hqueued g hg)).1
  have heach : ∀ g ∈ grants, 1 ≤ g.2 ∧ g.2 ≤ s.workerSlots - s.usedSlots := fun g hg =>
    hslots ▸ virtualGrants_each hg
  have hused : 0 ≤ s.usedSlots := Finset.sum_nonneg fun key _ => s.slotsOf_nonneg hvalid key
  have hlength : (grants.length : Int) ≤ max (r.cfg.maxActiveJobs - s.active.keys.card) 0 :=
    virtualGrants_length _ _ _ _ _
  have hsum : (grants.map Prod.snd).sum ≤ max (r.cfg.workerSlots - s.usedSlots) 0 :=
    virtualGrants_slots _ _ _ _ _
  have hcount : ∀ q, (s.byRequester q : Int) + grantsTo q grants ≤
      max r.cfg.maxActiveJobsPerRequester (s.byRequester q) := fun q =>
    virtualGrants_requester _ q _ _ _ _
  refine addGrants_valid (fun b a => ?_) _ hvalid ?_ (fun g hg => ?_) (fun g hg => ?_)
    (fun g hg => ?_) ?_ ?_ fun g hg => ?_
  · unfold Reconciler.grantEntry
    split <;> exact ⟨rfl, rfl⟩
  · exact (hperm.map _).nodup_iff.mpr (snapshotGrants_keys hk)
  · exact lookup_of_queued hvalid (hqueued g (hperm.mem_iff.mp hg))
  · have hg := hperm.mem_iff.mp hg
    have hroom := heach g hg
    exact grantEntry_valid hv (hb g.1 (hbuild g hg)) (hnonce g.1 (hbuild g hg)) (by omega)
  · have := heach g (hperm.mem_iff.mp hg)
    omega
  · have hcard := hvalid.jobs
    rw [hperm.length_eq]
    omega
  · have hcap := hvalid.slots
    rw [(hperm.map Prod.snd).sum_eq]
    omega
  · have hroom := hcount g.1.requesterKey
    have hfree := (virtualGrants_mem (hperm.mem_iff.mp hg)).2
    unfold grantsTo at hroom ⊢
    rw [hperm.countP_eq]
    omega

include hvalid hk hl in
theorem admitted_closed {u v : List KovaBuild} (hsplit : queueOf r.ext builds s = u ++ b :: v)
    (hc : c ∈ v)
    (hadm : admitted r.ext builds s r.cfg c)
    (hdeny : admitted r.ext builds s r.cfg b = false) :
    r.cfg.maxActiveJobsPerRequester ≤ s.byRequester b.requesterKey +
      u.countP fun c => c.requesterKey == b.requesterKey && admitted r.ext builds s r.cfg c := by
  have hp := positive_of_valid hvalid hl
  have hgranted : ∀ g ∈ snapshotGrants r.ext builds s r.cfg.maxActiveJobs
      r.cfg.maxActiveJobsPerRequester r.cfg.workerSlots,
      admitted r.ext builds s r.cfg g.1 := fun g hg =>
    (decideAdmission_admitted hp).mpr ⟨g, hg, rfl⟩
  obtain ⟨g, hg, hkey⟩ := (decideAdmission_admitted hp).mp hadm
  have hgc : g.1 = c :=
    List.inj_on_of_nodup_map (queueOf_keys hk) (virtualGrants_mem hg).1 (by simp [hsplit, hc]) hkey
  unfold snapshotGrants at hg hgranted
  rw [hsplit] at hg hgranted
  have hlimit := virtualGrants_passed (hsplit ▸ (queueOf_keys hk).of_map)
    (fun g' hg' he => by simp [he ▸ hgranted g' hg'] at hdeny) ⟨g, hg, hgc ▸ hc⟩
  -- The grants of the walk over `u` are among the admitted builds of `u`.
  have hfront := virtualGrants_front r.cfg.maxActiveJobsPerRequester u (b :: v) s.byRequester
    (r.cfg.maxActiveJobs - s.active.keys.card) (r.cfg.workerSlots - s.usedSlots)
  have hsub := virtualGrants_sublist r.cfg.maxActiveJobsPerRequester u s.byRequester
    (r.cfg.maxActiveJobs - s.active.keys.card) (r.cfg.workerSlots - s.usedSlots)
  have hcount : grantsTo b.requesterKey (virtualGrants r.cfg.maxActiveJobsPerRequester u
      s.byRequester (r.cfg.maxActiveJobs - s.active.keys.card) (r.cfg.workerSlots - s.usedSlots)) ≤
      u.countP fun c => c.requesterKey == b.requesterKey && admitted r.ext builds s r.cfg c := by
    refine le_trans ?_ hsub.countP_le
    rw [List.countP_map]
    refine List.countP_mono_left fun g hg hq => ?_
    simp only [Function.comp_apply, Bool.and_eq_true]
    exact ⟨hq, hgranted g (hfront.subset hg)⟩
  omega

end Result

/-- The builds that one snapshot admits, added together, and who is passed over. -/
theorem admitted_jointly_feasible (r : Reconciler) (builds : List KovaBuild) (s : ReservationState)
    (nonce : KovaBuild → String) (hu : (builds.map KovaBuild.uid).Nodup)
    (hb : ∀ b ∈ builds, CRDValid b) (hs : s.validate = .ok ())
    (hl : s.validateLimits r.cfg = .ok ()) (hv : s.version = if r.genesis.isSome then 2 else 1)
    (hnonce : ∀ b ∈ builds, validReservationHex (nonce b) 32) :
    (addGrants (fun b slots => r.grantEntry b s slots (nonce b)) s
        (admittedGrants r.ext builds s r.cfg)).validate = .ok () ∧
      ∀ u b v, queueOf r.ext builds s = u ++ b :: v →
        (∃ c ∈ v, admitted r.ext builds s r.cfg c) →
        admitted r.ext builds s r.cfg b = false →
        r.cfg.maxActiveJobsPerRequester ≤ s.byRequester b.requesterKey +
          u.countP fun c => c.requesterKey == b.requesterKey &&
            admitted r.ext builds s r.cfg c := by
  have hvalid := ReservationState.validate_ok hs
  have hk := keys_nodup hu hb
  refine ⟨(admitted_fit hvalid hk hl hb hv hnonce).validate, fun u b v hsplit hlater hdeny => ?_⟩
  obtain ⟨c, hc, hadm⟩ := hlater
  exact admitted_closed hvalid hk hl hsplit hc hadm hdeny

theorem admitted_jointly_feasible_two : let r : Reconciler :=
      { ext := plainExt, cfg := { maxActiveJobs := 2, workerSlots := 2 }, genesis := none }
    let builds := [queuedBuild "ann" "a" 1, queuedBuild "ann" "b" 2, queuedBuild "bob" "c" 3]
    (admittedGrants r.ext builds (.freshReservations r.cfg) r.cfg).map (fun g => (g.1.name, g.2)) =
        [("a", 1), ("c", 1)] ∧
      (addGrants (fun b slots => r.grantEntry b (.freshReservations r.cfg) slots
        "00000000000000000000000000000000") (.freshReservations r.cfg)
        (admittedGrants r.ext builds (.freshReservations r.cfg) r.cfg)).validate = .ok () := by
  intro r builds
  have hcrd : ∀ b ∈ builds, CRDValid b := by
    have hnames : ∀ b ∈ builds, opaqueUID b.uid = true ∧
        (b.name ≠ "" ∧ isDNS1123Subdomain b.name) ∧
        b.spec.requester.username ≠ "" ∧
          b.spec.requester.username.length ≤ maxRequesterRunes := by decide +kernel
    exact fun b hb => ⟨(hnames b hb).1, (hnames b hb).2.1, (hnames b hb).2.2⟩
  exact ⟨by decide +kernel, (admitted_jointly_feasible r builds (.freshReservations r.cfg)
    (fun _ => "00000000000000000000000000000000") (by decide) hcrd (by decide +kernel)
    (by decide +kernel) rfl (by decide +kernel)).1⟩

end KovaService.Fairness
