import KovaService.Controller.Pump
import KovaService.Fairness.Order
import KovaService.Proof.Proposals

/-!
The decisions `decideAdmission` takes on one snapshot are one virtual allocation.

Every call walks the fair queue and hands out the same grants until it meets its own build.
`virtualGrants` is the walk that looks for no build in particular: a decision is the lookup of its
build in that list, the pump wakes its head, and the budgets of the walk bound all decisions at once.
-/

namespace KovaService.Fairness

open Lib Api Ledger Controller

variable {x : Ext} {build : KovaBuild} {builds : List KovaBuild} {s : ReservationState}
  {active : String → Nat} {limit jobs slots maxJobs workerSlots : Int}

def served (active : String → Nat) (requester : String) : String → Nat :=
  fun q => if q == requester then active q + 1 else active q

def virtualGrants (limit : Int) :
    List KovaBuild → (String → Nat) → Int → Int → List (KovaBuild × Int)
  | [], _, _, _ => []
  | c :: cs, active, jobs, slots =>
    if (active c.requesterKey : Int) ≥ limit then virtualGrants limit cs active jobs slots
    else if slots ≤ 0 || jobs ≤ 0 then []
    else
      (c, min c.requestedConcurrency slots) ::
        virtualGrants limit cs (served active c.requesterKey) (jobs - 1)
          (slots - min c.requestedConcurrency slots)

theorem requestedConcurrency_pos (b : KovaBuild) : 1 ≤ b.requestedConcurrency := by
  unfold KovaBuild.requestedConcurrency
  split <;> omega

theorem virtualGrants_cons (c : KovaBuild) (cs : List KovaBuild) :
    (active c.requesterKey : Int) ≥ limit ∧
        virtualGrants limit (c :: cs) active jobs slots = virtualGrants limit cs active jobs slots ∨
      (active c.requesterKey : Int) < limit ∧ (slots ≤ 0 ∨ jobs ≤ 0) ∧
        virtualGrants limit (c :: cs) active jobs slots = [] ∨
      (active c.requesterKey : Int) < limit ∧ 0 < slots ∧ 0 < jobs ∧
        virtualGrants limit (c :: cs) active jobs slots =
          (c, min c.requestedConcurrency slots) ::
            virtualGrants limit cs (served active c.requesterKey) (jobs - 1)
              (slots - min c.requestedConcurrency slots) := by
  rw [virtualGrants]
  by_cases h : (active c.requesterKey : Int) ≥ limit
  · exact .inl ⟨h, if_pos h⟩
  rw [if_neg h]
  by_cases hfull : slots ≤ 0 ∨ jobs ≤ 0
  · exact .inr (.inl ⟨by omega, hfull, if_pos (by simpa using hfull)⟩)
  · refine .inr (.inr ⟨by omega, by omega, by omega, if_neg (by simpa using hfull)⟩)

def decisionIn (grants : List (KovaBuild × Int)) (build : KovaBuild) : AdmissionDecision :=
  match grants.find? fun g => g.1.reservationKey == build.reservationKey with
  | some g => { admitted := true, allocation := g.2 }
  | none => .wait "waiting for fair-share capacity"

theorem allocate_eq_decisionIn (hl : 0 < limit) (cs : List KovaBuild) :
    allocate build limit true cs active jobs slots =
      decisionIn (virtualGrants limit cs active jobs slots) build := by
  induction cs generalizing active jobs slots with
  | nil => rfl
  | cons c cs ih =>
    have hpos := requestedConcurrency_pos c
    have hmin : (if (true && decide (c.requestedConcurrency > slots)) = true then slots
        else c.requestedConcurrency) = min c.requestedConcurrency slots := by
      by_cases h : c.requestedConcurrency > slots
      · simp [h, h.le]
      · simp [h, not_lt.mp h]
    rw [allocate]
    simp only [hmin]
    rcases virtualGrants_cons c cs with ⟨hfull, heq⟩ | ⟨hfree, hroom, heq⟩ | ⟨hfree, hs, hj, heq⟩
    · rw [heq, if_pos (by simp [hl, hfull]), ih]
    · rw [heq, if_neg (by simp [hfree]), if_pos (by simp; omega)]
      rfl
    · rw [heq, if_neg (by simp [hfree]), if_neg (by simp; omega)]
      by_cases hk : c.reservationKey = build.reservationKey
      · simp [decisionIn, hk]
      · rw [if_neg (by simpa using hk), if_pos trivial]
        simp only [decisionIn, List.find?_cons, beq_eq_false_iff_ne.mpr hk]
        exact ih

def queueOf (x : Ext) (builds : List KovaBuild) (s : ReservationState) : List KovaBuild :=
  fairQueue x (queuedAdmissionCandidates builds s) s.byRequester s.lastGrantedRequesterHash

def snapshotGrants (x : Ext) (builds : List KovaBuild) (s : ReservationState)
    (maxJobs limit workerSlots : Int) : List (KovaBuild × Int) :=
  virtualGrants limit (queueOf x builds s) s.byRequester (maxJobs - s.active.keys.card)
    (workerSlots - s.usedSlots)

structure Positive (maxJobs limit workerSlots : Int) : Prop where
  jobs : 0 < maxJobs
  requester : 0 < limit
  slots : 0 < workerSlots

theorem virtualGrants_exhausted (limit : Int) (active : String → Nat) (cs : List KovaBuild)
    (h : slots ≤ 0 ∨ jobs ≤ 0) :
    virtualGrants limit cs active jobs slots = [] := by
  induction cs generalizing active with
  | nil => rfl
  | cons c cs ih =>
    rcases virtualGrants_cons c cs with ⟨-, heq⟩ | ⟨-, -, heq⟩ | ⟨-, hs, hj, -⟩
    · rw [heq, ih]
    · exact heq
    · omega

/-- With all limits positive the two early answers of `decideAdmission` and its loop are one lookup,
up to the message. -/
theorem decideAdmission_eq (hp : Positive maxJobs limit workerSlots) :
    decideAdmission x build builds s maxJobs limit workerSlots =
      if maxJobs - s.active.keys.card ≤ 0 then .wait "waiting for an active job slot"
      else if workerSlots - s.usedSlots ≤ 0 then .wait "waiting for worker capacity"
      else decisionIn (snapshotGrants x builds s maxJobs limit workerSlots) build := by
  have hj := hp.jobs
  have hw := hp.slots
  unfold decideAdmission
  simp only [hj, hw, decide_true, Bool.true_and, if_true, decide_eq_true_eq]
  rw [allocate_eq_decisionIn hp.requester]
  rfl

theorem decideAdmission_admitted (hp : Positive maxJobs limit workerSlots) :
    (decideAdmission x build builds s maxJobs limit workerSlots).admitted ↔
      ∃ g ∈ snapshotGrants x builds s maxJobs limit workerSlots,
        g.1.reservationKey = build.reservationKey := by
  have hin : (decisionIn (snapshotGrants x builds s maxJobs limit workerSlots) build).admitted =
      true ↔ ∃ g ∈ snapshotGrants x builds s maxJobs limit workerSlots,
        g.1.reservationKey = build.reservationKey := by
    unfold decisionIn
    cases hf : (snapshotGrants x builds s maxJobs limit workerSlots).find? fun g =>
        g.1.reservationKey == build.reservationKey with
    | none =>
      refine iff_of_false (by simp [AdmissionDecision.wait]) fun ⟨g, hg, hk⟩ => ?_
      exact absurd hk (by simpa using List.find?_eq_none.mp hf g hg)
    | some g =>
      exact iff_of_true rfl ⟨g, List.mem_of_find?_eq_some hf, by simpa using List.find?_some hf⟩
  rw [decideAdmission_eq hp]
  by_cases hj : maxJobs - s.active.keys.card ≤ 0
  · rw [if_pos hj, snapshotGrants, virtualGrants_exhausted _ _ _ (.inr hj)]
    simp [AdmissionDecision.wait]
  rw [if_neg hj]
  by_cases hw : workerSlots - s.usedSlots ≤ 0
  · rw [if_pos hw, snapshotGrants, virtualGrants_exhausted _ _ _ (.inl hw)]
    simp [AdmissionDecision.wait]
  rw [if_neg hw]
  exact hin

theorem decideAdmission_of_grants (hp : Positive maxJobs limit workerSlots)
    (h : snapshotGrants x builds s maxJobs limit workerSlots ≠ []) :
    decideAdmission x build builds s maxJobs limit workerSlots =
      decisionIn (snapshotGrants x builds s maxJobs limit workerSlots) build := by
  rw [decideAdmission_eq hp, if_neg, if_neg]
  · exact fun hw => h (virtualGrants_exhausted _ _ _ (.inl hw))
  · exact fun hj => h (virtualGrants_exhausted _ _ _ (.inr hj))

theorem virtualGrants_head (limit : Int) (active : String → Nat) (cs : List KovaBuild)
    (hs : 0 < slots) (hj : 0 < jobs) :
    (virtualGrants limit cs active jobs slots).head? =
      (cs.find? fun c => (active c.requesterKey : Int) < limit).map fun c =>
        (c, min c.requestedConcurrency slots) := by
  induction cs with
  | nil => rfl
  | cons c cs ih =>
    rcases virtualGrants_cons c cs with ⟨hfull, heq⟩ | ⟨-, hroom, -⟩ | ⟨hfree, -, -, heq⟩
    · rw [heq, ih, List.find?_cons_of_neg (by simpa using hfull)]
    · omega
    · rw [heq, List.find?_cons_of_pos (by simpa using hfree)]
      rfl

theorem nextAdmissionCandidate_eq_head {cfg : Config}
    (hp : Positive cfg.maxActiveJobs cfg.maxActiveJobsPerRequester cfg.workerSlots) :
    nextAdmissionCandidate x builds s cfg =
      (snapshotGrants x builds s cfg.maxActiveJobs cfg.maxActiveJobsPerRequester
        cfg.workerSlots).head?.map Prod.fst := by
  have hj := hp.jobs
  have hr := hp.requester
  have hw := hp.slots
  unfold nextAdmissionCandidate activeCapacityExhausted snapshotGrants
  by_cases hjobs : (s.active.keys.card : Int) ≥ cfg.maxActiveJobs
  · rw [virtualGrants_exhausted _ _ _ (.inr (by omega))]
    simp [hj, hjobs]
  by_cases hslots : s.usedSlots ≥ cfg.workerSlots
  · rw [virtualGrants_exhausted _ _ _ (.inl (by omega))]
    simp [hw, hslots]
  rw [virtualGrants_head _ _ _ (by omega) (by omega), Option.map_map]
  have hfst : (Prod.fst ∘ fun c : KovaBuild =>
      (c, min c.requestedConcurrency (cfg.workerSlots - s.usedSlots))) = id := rfl
  have hopen : ∀ c : KovaBuild, (!(decide (cfg.maxActiveJobsPerRequester > 0) &&
      decide ((s.byRequester c.requesterKey : Int) ≥ cfg.maxActiveJobsPerRequester))) =
      decide ((s.byRequester c.requesterKey : Int) < cfg.maxActiveJobsPerRequester) := by
    intro c
    by_cases h : (s.byRequester c.requesterKey : Int) ≥ cfg.maxActiveJobsPerRequester
    · simp [hr, h]
    · simp [h, not_le.mp h]
  rw [hfst, Option.map_id_fun, id]
  simp only [hopen, hjobs, hslots, decide_false, Bool.and_false, Bool.false_eq_true, if_false]
  rfl

/-- Room for two builds, one of a requester; ann has one running. -/
def twoSlots : Config := { maxActiveJobs := 2, workerSlots := 2 }

def annRunning : ReservationState :=
  (ReservationState.freshReservations twoSlots).set "r"
    { buildName := "r", requester := "ann", slots := 1 }

def annAndBob : List KovaBuild := [queuedBuild "ann" "a" 1, queuedBuild "bob" "b" 2]

theorem virtualGrants_mem {g : KovaBuild × Int} {cs : List KovaBuild}
    (h : g ∈ virtualGrants limit cs active jobs slots) :
    g.1 ∈ cs ∧ (active g.1.requesterKey : Int) < limit := by
  induction cs generalizing active jobs slots with
  | nil => cases h
  | cons c cs ih =>
    rcases virtualGrants_cons c cs with ⟨-, heq⟩ | ⟨-, -, heq⟩ | ⟨hfree, -, -, heq⟩
    · rw [heq] at h
      exact ⟨List.mem_cons_of_mem _ (ih h).1, (ih h).2⟩
    · rw [heq] at h
      cases h
    · rw [heq] at h
      rcases List.mem_cons.mp h with rfl | h
      · exact ⟨List.mem_cons_self, hfree⟩
      · -- A grant on the way only raises the count.
        refine ⟨List.mem_cons_of_mem _ (ih h).1, lt_of_le_of_lt ?_ (ih h).2⟩
        unfold served
        split <;> omega

theorem mem_queueOf {c : KovaBuild} :
    c ∈ queueOf x builds s ↔ c ∈ queuedAdmissionCandidates builds s :=
  fairQueue_perm.mem_iff

theorem mem_of_mem_queueOf {c : KovaBuild} (h : c ∈ queueOf x builds s) : c ∈ builds :=
  (List.mem_filter.mp (mem_queueOf.mp h)).1

/-- What the list holds under the key of a build is that build, as far as its requester goes. -/
def Identified (build : KovaBuild) (builds : List KovaBuild) : Prop :=
  ∀ c ∈ builds, c.reservationKey = build.reservationKey → c.requesterKey = build.requesterKey

theorem decideAdmission_saturated (hp : Positive maxJobs limit workerSlots)
    {blocked : AdmissionDecision}
    (h : saturatedAdmission build s maxJobs limit workerSlots = some blocked)
    (hid : Identified build builds) :
    decideAdmission x build builds s maxJobs limit workerSlots = blocked := by
  unfold saturatedAdmission at h
  simp only [hp.jobs, hp.requester, hp.slots, decide_true, Bool.true_and, decide_eq_true_eq] at h
  rw [decideAdmission_eq hp]
  by_cases hj : (s.active.keys.card : Int) ≥ maxJobs
  · rw [if_pos hj] at h
    rw [if_pos (by omega)]
    exact Option.some.inj h
  rw [if_neg hj] at h
  rw [if_neg (by omega)]
  by_cases hw : s.usedSlots ≥ workerSlots
  · rw [if_pos hw] at h
    rw [if_pos (by omega)]
    exact Option.some.inj h
  rw [if_neg hw] at h
  rw [if_neg (by omega)]
  by_cases hr : (s.byRequester build.requesterKey : Int) ≥ limit
  · rw [if_pos hr] at h
    have hnone : (snapshotGrants x builds s maxJobs limit workerSlots).find?
        (fun g => g.1.reservationKey == build.reservationKey) = none := by
      refine List.find?_eq_none.mpr fun g hg hk => ?_
      have hmem := virtualGrants_mem hg
      have hreq := hid g.1 (mem_of_mem_queueOf hmem.1) (by simpa using hk)
      rw [hreq] at hmem
      omega
    rw [decisionIn, hnone]
    exact Option.some.inj h
  · rw [if_neg hr] at h
    cases h

theorem decideAdmission_unsaturated (hp : Positive maxJobs limit workerSlots)
    (h : saturatedAdmission build s maxJobs limit workerSlots = none)
    (hq : build ∈ queuedAdmissionCandidates builds s)
    (honly : ∀ c ∈ queuedAdmissionCandidates builds s,
      (s.byRequester c.requesterKey : Int) < limit → c.reservationKey = build.reservationKey) :
    (decideAdmission x build builds s maxJobs limit workerSlots).admitted := by
  unfold saturatedAdmission at h
  simp only [hp.jobs, hp.requester, hp.slots, decide_true, Bool.true_and, decide_eq_true_eq] at h
  split_ifs at h with hj hw hr
  have hhead := virtualGrants_head limit s.byRequester (queueOf x builds s)
    (show 0 < workerSlots - s.usedSlots by omega)
    (show 0 < maxJobs - (s.active.keys.card : Int) by omega)
  have hfind : ((queueOf x builds s).find? fun c =>
      (s.byRequester c.requesterKey : Int) < limit).isSome :=
    List.find?_isSome.mpr ⟨build, mem_queueOf.mpr hq, by simpa using hr⟩
  obtain ⟨c, hc⟩ := Option.isSome_iff_exists.mp hfind
  rw [hc] at hhead
  have hmem := mem_queueOf.mp (List.mem_of_find?_eq_some hc)
  refine (decideAdmission_admitted hp).mpr ⟨_, List.mem_of_mem_head? hhead, ?_⟩
  exact honly c hmem (by simpa using List.find?_some hc)

end KovaService.Fairness
