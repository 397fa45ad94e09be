import KovaService.Fairness.Joint

/-!
Grants one after the other, with room for one at a time.

A run is a list of events: builds arrive, a build is granted while nothing is active, and the granted
build is removed before the next grant.  The cursor of the ledger remembers only the last requester,
while the ring it points into is sorted anew by the oldest queued builds at every decision.  As long
as the requesters keep their order and the last one served is still in it, the turn goes round; a
requester that moves to the back of the order, or leaves it, lets the turn start again at the front.
-/

namespace KovaService.Fairness

open Lib Api Ledger Controller

variable {build : KovaBuild}

structure Line where
  builds : List KovaBuild
  ledger : ReservationState
  deriving DecidableEq

inductive Event where
  | arrive (build : KovaBuild)
  | grant (build : KovaBuild) (nonce : String)
  | finish (build : KovaBuild)
  deriving DecidableEq

namespace Line

def queued (s : Line) : List KovaBuild := queuedAdmissionCandidates s.builds s.ledger

def requesters (s : Line) : List String := s.queued.map KovaBuild.requesterKey

def decision (r : Reconciler) (s : Line) (build : KovaBuild) : AdmissionDecision :=
  decideAdmission r.ext build s.builds s.ledger r.cfg.maxActiveJobs r.cfg.maxActiveJobsPerRequester
    r.cfg.workerSlots

def step (r : Reconciler) (s : Line) : Event → Option Line
  | .arrive build =>
    if s.builds.all fun c => c.name != build.name && c.reservationKey != build.reservationKey then
      some { s with builds := build :: s.builds }
    else none
  | .grant build nonce =>
    if s.ledger.active = ∅ ∧ build ∈ s.builds ∧ (s.decision r build).admitted = true then
      some { s with
        ledger := r.granted build s.ledger
          (r.grantEntry build s.ledger (s.decision r build).allocation nonce) }
    else none
  | .finish build =>
    if (s.ledger.active.lookup build.reservationKey).isSome then
      some
        { builds := s.builds.filter fun c => c.reservationKey != build.reservationKey
          ledger := s.ledger.remove build.reservationKey }
    else none

def run (r : Reconciler) (s : Line) : List Event → Option Line
  | [] => some s
  | e :: es => (s.step r e).bind fun s' => s'.run r es

def visited (r : Reconciler) (s : Line) : List Event → List Line
  | [] => [s]
  | e :: es => s :: (s.step r e).elim [] fun s' => s'.visited r es

def decisions (r : Reconciler) (s : Line) : List Event → List Line
  | [] => []
  | e :: es =>
    let rest := (s.step r e).elim [] fun s' => s'.decisions r es
    match e with
    | .grant _ _ => s :: rest
    | _ => rest

structure WellFormed (s : Line) : Prop where
  names : (s.builds.map KovaBuild.name).Nodup
  keys : (s.builds.map KovaBuild.reservationKey).Nodup

end Line

structure OneSlot (cfg : Config) : Prop where
  positive : Positive cfg.maxActiveJobs cfg.maxActiveJobsPerRequester cfg.workerSlots
  one : cfg.maxActiveJobs = 1 ∨ cfg.workerSlots = 1

variable {r : Reconciler} {s s' : Line} {e : Event} {es : List Event}

theorem step_wellFormed (h : s.step r e = some s') (hs : s.WellFormed) : s'.WellFormed := by
  cases e with
  | arrive build =>
    simp only [Line.step] at h
    split_ifs at h with hfresh
    cases h
    simp only [List.all_eq_true, Bool.and_eq_true, bne_iff_ne] at hfresh
    constructor
    · refine List.nodup_cons.mpr ⟨fun hmem => ?_, hs.names⟩
      obtain ⟨c, hc, he⟩ := List.mem_map.mp hmem
      exact (hfresh c hc).1 he
    · refine List.nodup_cons.mpr ⟨fun hmem => ?_, hs.keys⟩
      obtain ⟨c, hc, he⟩ := List.mem_map.mp hmem
      exact (hfresh c hc).2 he
  | grant build nonce =>
    simp only [Line.step] at h
    split_ifs at h
    cases h
    exact ⟨hs.names, hs.keys⟩
  | finish build =>
    simp only [Line.step] at h
    split_ifs at h
    cases h
    exact ⟨hs.names.sublist (List.filter_sublist.map _), hs.keys.sublist (List.filter_sublist.map _)⟩

theorem run_wellFormed (h : s.run r es = some s') (hs : s.WellFormed) : s'.WellFormed := by
  induction es generalizing s with
  | nil =>
    cases h
    exact hs
  | cons e es ih =>
    obtain ⟨s₁, h₁, h₂⟩ := Option.bind_eq_some_iff.mp h
    exact ih h₂ (step_wellFormed h₁ hs)

variable {nonce : String}

theorem step_grant (h : s.step r (.grant build nonce) = some s') :
    (s.ledger.active = ∅ ∧ build ∈ s.builds ∧ (s.decision r build).admitted) ∧
      s'.ledger.lastGrantedRequesterHash = r.ext.hashRequester build.requesterKey := by
  simp only [Line.step] at h
  split_ifs at h with hg
  cases h
  exact ⟨hg, rfl⟩

theorem step_cursor (h : s.step r e = some s') (he : ∀ build nonce, e ≠ .grant build nonce) :
    s'.ledger.lastGrantedRequesterHash = s.ledger.lastGrantedRequesterHash := by
  cases e with
  | arrive build =>
    simp only [Line.step] at h
    split_ifs at h
    cases h
    rfl
  | grant build nonce => exact absurd rfl (he build nonce)
  | finish build =>
    simp only [Line.step] at h
    split_ifs at h
    cases h
    rfl

theorem byRequester_idle (h : s.ledger.active = ∅) (q : String) : s.ledger.byRequester q = 0 := by
  simp [ReservationState.byRequester, h]

theorem usedSlots_idle (h : s.ledger.active = ∅) : s.ledger.usedSlots = 0 := by
  simp [ReservationState.usedSlots, h]

theorem admitted_is_head (hone : OneSlot r.cfg) (hs : s.WellFormed) (hidle : s.ledger.active = ∅)
    (hb : build ∈ s.builds) (hadm : (s.decision r build).admitted) :
    (queueOf r.ext s.builds s.ledger).head? = some build := by
  have hp := hone.positive
  obtain ⟨g, hg, hkey⟩ := (decideAdmission_admitted hp).mp hadm
  have hgb : g.1 = build := List.inj_on_of_nodup_map hs.keys
    (mem_of_mem_queueOf (virtualGrants_mem hg).1) hb hkey
  have hcard : s.ledger.active.keys.card = 0 := by simp [hidle]
  have hused := usedSlots_idle hidle
  have hlimit : ∀ c : KovaBuild, (s.ledger.byRequester c.requesterKey : Int) <
      r.cfg.maxActiveJobsPerRequester := fun c => by
    rw [byRequester_idle hidle]
    exact_mod_cast hp.requester
  have hj := hp.jobs
  have hw := hp.slots
  -- One grant exhausts the jobs or the slots.
  have hnone : ∀ c cs, (r.cfg.maxActiveJobs - s.ledger.active.keys.card - 1 ≤ 0 ∨
      r.cfg.workerSlots - s.ledger.usedSlots -
        min c.requestedConcurrency (r.cfg.workerSlots - s.ledger.usedSlots) ≤ 0) →
      queueOf r.ext s.builds s.ledger = c :: cs → g.1 = c := by
    intro c cs hroom hq
    rw [snapshotGrants, hq, virtualGrants_grant cs (hlimit c) (by omega) (by omega),
      virtualGrants_exhausted _ _ _ hroom.symm] at hg
    rw [List.mem_singleton.mp hg]
  cases hq : queueOf r.ext s.builds s.ledger with
  | nil =>
    rw [snapshotGrants, hq] at hg
    cases hg
  | cons c cs =>
    have hpos := requestedConcurrency_pos c
    rw [List.head?_cons, ← hgb, hnone c cs ?_ hq]
    have h1 := hone.one
    omega

theorem fairQueue_head {x : Ext} {builds : List KovaBuild} {active : String → Nat} {last : String}
    {b : KovaBuild} (h : (fairQueue x builds active last).head? = some b) :
    (servingOrder x builds active last).head? = some b.requesterKey := by
  cases horder : servingOrder x builds active last with
  | nil =>
    have hnil : fairQueue x builds active last = [] := by
      rw [fairQueue_eq_rounds, horder]
      simp [rounds]
    simp [hnil] at h
  | cons q qs =>
    have hq : q ∈ builds.map KovaBuild.requesterKey :=
      mem_servingOrder.mp (horder ▸ List.mem_cons_self)
    obtain ⟨c, cs, hc⟩ := List.exists_cons_of_ne_nil (requesterGroup_ne_nil hq)
    have hlen : builds.length = builds.length - 1 + 1 := by
      have := List.length_pos_of_mem hq
      simp only [List.length_map] at this
      omega
    have hhead : (fairQueue x builds active last).head? = some c := by
      rw [fairQueue_eq_rounds, horder, rounds, hlen, List.range_succ_eq_map, List.flatMap_cons,
        List.filterMap_cons_some (b := c) (by simp [hc])]
      rfl
    have hcb : c = b := Option.some.inj (hhead.symm.trans h)
    have hmem : b ∈ requesterGroup builds q := by simp [hc, hcb]
    rw [List.head?_cons, (mem_requesterGroup.mp hmem).2]

/-- The requesters in a fixed order, told apart by their hashes. -/
structure Ring (x : Ext) (ring : List String) : Prop where
  nodup : ring.Nodup
  hashes : ∀ p ∈ ring, ∀ q ∈ ring, x.hashRequester p = x.hashRequester q → p = q

/-- At a decision the requesters stand in the order of the ring, the one served last among them. -/
structure Steady (x : Ext) (ring : List String) (s : Line) : Prop where
  order : (sortedRequesters s.queued s.ledger.byRequester).Sublist ring
  cursor : ∃ c ∈ s.requesters, x.hashRequester c = s.ledger.lastGrantedRequesterHash

instance (x : Ext) (ring : List String) (s : Line) : Decidable (Steady x ring s) :=
  decidable_of_iff ((sortedRequesters s.queued s.ledger.byRequester).Sublist ring ∧
      ∃ c ∈ s.requesters, x.hashRequester c = s.ledger.lastGrantedRequesterHash)
    ⟨fun h => ⟨h.1, h.2⟩, fun h => ⟨h.order, h.cursor⟩⟩

theorem next_turn {ring : List String} (hone : OneSlot r.cfg) (hs : s.WellFormed)
    (hring : Ring r.ext ring) (hsteady : Steady r.ext ring s) {c : String} (hc : c ∈ ring)
    (hlast : s.ledger.lastGrantedRequesterHash = r.ext.hashRequester c)
    (hstep : s.step r (.grant build nonce) = some s') {q : String}
    (hq : q ∈ s.requesters) (hne : q ≠ c) :
    gap ring c build.requesterKey ≤ gap ring c q ∧ build.requesterKey ≠ c ∧
      build.requesterKey ∈ ring := by
  obtain ⟨hidle, hb, hadm⟩ := (step_grant hstep).1
  have hsub : ∀ p ∈ s.requesters, p ∈ ring := fun p hp =>
    hsteady.order.subset (mem_sortedRequesters.mpr hp)
  have hmem : c ∈ s.requesters := by
    obtain ⟨c', hc', hhash⟩ := hsteady.cursor
    exact hring.hashes c' (hsub c' hc') c hc (hhash.trans hlast) ▸ hc'
  have hfree : CollisionFree r.ext s.queued := fun p hp q hq =>
    hring.hashes p (hsub p hp) q (hsub q hq)
  obtain ⟨l, rest, hsorted, horder⟩ :=
    (servingOrder_rotated hfree s.ledger.byRequester hmem hlast.symm).tier
  -- Nothing is active, so that all requesters are in one tier.
  have htier : ∀ order : List String,
      (order.filter fun p => s.ledger.byRequester p == s.ledger.byRequester c) = order := fun order =>
    filter_tier_eq_self fun p _ => by rw [byRequester_idle hidle, byRequester_idle hidle]
  rw [htier] at hsorted horder
  have hhead := fairQueue_head (admitted_is_head hone hs hidle hb hadm)
  change (servingOrder r.ext s.queued _ _).head? = _ at hhead
  rw [horder] at hhead
  have hin : q ∈ l ++ c :: rest := hsorted ▸ mem_sortedRequesters.mpr hq
  have hnext := gap_next_le hring.nodup (hsorted ▸ hsteady.order) hhead hin hne
  have hserved : build.requesterKey ∈ servingOrder r.ext s.queued s.ledger.byRequester
      s.ledger.lastGrantedRequesterHash := by
    rw [horder]
    exact List.mem_of_mem_head? hhead
  exact ⟨hnext.1, hnext.2, hsub _ (mem_servingOrder.mp hserved)⟩

/-- While the turn has not passed `q` since it was with `p`, it does not come back to `p`. -/
theorem turn_reaches {ring : List String} (hone : OneSlot r.cfg) (hring : Ring r.ext ring)
    {p q c : String} (hp : p ∈ ring) (hs : s.WellFormed) (hc : c ∈ ring)
    (hlast : s.ledger.lastGrantedRequesterHash = r.ext.hashRequester c)
    (hgap : gap ring p c < gap ring p q)
    (hbuild : build.requesterKey = p) (hrun : s.run r (es ++ [.grant build nonce]) = some s')
    (hqueued : ∀ t ∈ s.visited r es, q ∈ t.requesters)
    (hsteady : ∀ t ∈ s.decisions r (es ++ [.grant build nonce]), Steady r.ext ring t) :
    ∃ b n, .grant b n ∈ es ∧ b.requesterKey = q := by
  induction es generalizing s c with
  | nil =>
    obtain ⟨s₁, h₁, -⟩ := Option.bind_eq_some_iff.mp hrun
    have hst := hsteady s List.mem_cons_self
    have hq := hqueued s List.mem_cons_self
    have hqr : q ∈ ring := hst.order.subset (mem_sortedRequesters.mpr hq)
    have hne : q ≠ c := fun h => by simp [h] at hgap
    obtain ⟨hle, hgc, hg⟩ := next_turn hone hs hring hst hc hlast h₁ hq hne
    have htrans := gap_trans hp hc hg hqr hgap hle
    have hpos := gap_pos hc (Ne.symm hgc)
    rw [hbuild, gap_self] at htrans
    rw [hbuild] at hpos
    omega
  | cons e es ih =>
    obtain ⟨s₁, h₁, h₂⟩ := Option.bind_eq_some_iff.mp hrun
    have hs₁ := step_wellFormed h₁ hs
    have hqueued₁ : ∀ t ∈ s₁.visited r es, q ∈ t.requesters := fun t ht =>
      hqueued t (by simp [Line.visited, h₁, ht])
    have hfound : (∃ b n, .grant b n ∈ es ∧ b.requesterKey = q) →
        ∃ b n, .grant b n ∈ e :: es ∧ b.requesterKey = q := fun ⟨b, n, hb, hbq⟩ =>
      ⟨b, n, List.mem_cons_of_mem _ hb, hbq⟩
    by_cases he : ∃ b n, e = .grant b n
    · obtain ⟨b, n, rfl⟩ := he
      have hst := hsteady s List.mem_cons_self
      have hsteady₁ : ∀ t ∈ s₁.decisions r (es ++ [.grant build nonce]), Steady r.ext ring t :=
        fun t ht => hsteady t (by simp [Line.decisions, h₁, ht])
      have hq := hqueued s List.mem_cons_self
      have hqr : q ∈ ring := hst.order.subset (mem_sortedRequesters.mpr hq)
      have hne : q ≠ c := fun h => by simp [h] at hgap
      obtain ⟨hle, hgc, hg⟩ := next_turn hone hs hring hst hc hlast h₁ hq hne
      have htrans := gap_trans hp hc hg hqr hgap hle
      by_cases hbq : b.requesterKey = q
      · exact ⟨b, n, List.mem_cons_self, hbq⟩
      · have hlt : gap ring p b.requesterKey < gap ring p q :=
          lt_of_le_of_ne htrans.2 fun h => hbq (eq_of_gap_eq hp hg hqr h)
        exact hfound (ih hs₁ hg (step_grant h₁).2 hlt h₂ hqueued₁ hsteady₁)
    · push Not at he
      have hsteady₁ : ∀ t ∈ s₁.decisions r (es ++ [.grant build nonce]), Steady r.ext ring t := by
        intro t ht
        refine hsteady t ?_
        cases e with
        | grant b n => exact absurd rfl (he b n)
        | arrive b => simpa [Line.decisions, h₁] using ht
        | finish b => simpa [Line.decisions, h₁] using ht
      have hlast₁ := (step_cursor h₁ he).trans hlast
      exact hfound (ih hs₁ hc hlast₁ hgap h₂ hqueued₁ hsteady₁)

theorem run_append {es' : List Event} :
    s.run r (es ++ es') = (s.run r es).bind fun s' => s'.run r es' := by
  induction es generalizing s with
  | nil => rfl
  | cons e es ih =>
    rw [List.cons_append, Line.run, Line.run]
    cases s.step r e with
    | none => rfl
    | some s₁ => exact ih

/-- Between two grants to one requester every other one that waits all the time is served, if the
requesters stand on a ring. -/
theorem turns_go_round (r : Reconciler) (s₀ s₁ : Line) (ring : List String) (pre mid : List Event)
    (a a' : KovaBuild) (n n' q : String) (hone : OneSlot r.cfg) (hs : s₀.WellFormed)
    (hrun : s₀.run r (pre ++ [.grant a n]) = some s₁)
    (hnext : (s₁.run r (mid ++ [.grant a' n'])).isSome) (hsame : a'.requesterKey = a.requesterKey)
    (hq : q ≠ a.requesterKey) (hqueued : ∀ t ∈ s₁.visited r mid, q ∈ t.requesters)
    (hring : Ring r.ext ring) (hfirst : a.requesterKey ∈ ring)
    (hsteady : ∀ t ∈ s₁.decisions r (mid ++ [.grant a' n']), Steady r.ext ring t) :
    ∃ b m, .grant b m ∈ mid ∧ b.requesterKey = q := by
  have hs₁ := run_wellFormed hrun hs
  rw [run_append] at hrun
  obtain ⟨s, -, hgrant⟩ := Option.bind_eq_some_iff.mp hrun
  obtain ⟨s', hstep, hend⟩ := Option.bind_eq_some_iff.mp hgrant
  cases hend
  obtain ⟨s₂, hnext⟩ := Option.isSome_iff_exists.mp hnext
  have hgap : gap ring a.requesterKey a.requesterKey < gap ring a.requesterKey q := by
    rw [gap_self]
    exact gap_pos hfirst (Ne.symm hq)
  exact turn_reaches hone hring hfirst hs₁ hfirst (step_grant hstep).2 hgap hsame hnext hqueued
    hsteady

def oneSlotService : Reconciler where
  ext := plainExt
  cfg := {}
  genesis := none

def waiting (builds : List KovaBuild) : Line where
  builds := builds
  ledger := .freshReservations {}

theorem turns_go_round_two : let a := queuedBuild "ann" "a" 1
    let b := queuedBuild "bob" "c" 3
    let s₀ := waiting [a, queuedBuild "ann" "b" 2, b, queuedBuild "bob" "d" 4]
    let s₁ := (s₀.run oneSlotService [.grant a ""]).getD s₀
    s₀.run oneSlotService [.grant a ""] = some s₁ ∧
      ∃ c m, Event.grant c m ∈ [.finish a, .grant b "", .finish b] ∧ c.requesterKey = "bob" := by
  intro a b s₀ s₁
  have hrun : s₀.run oneSlotService [.grant a ""] = some s₁ := by decide +kernel
  refine ⟨hrun, ?_⟩
  exact turns_go_round oneSlotService s₀ s₁ ["ann", "bob"] [] [.finish a, .grant b "", .finish b] a
    (queuedBuild "ann" "b" 2) "" "" "bob" ⟨⟨by decide, by decide, by decide⟩, by decide⟩
    ⟨by decide, by decide +kernel⟩ hrun (by decide +kernel) (by decide +kernel) (by decide +kernel)
    (by decide +kernel) ⟨by decide, by decide +kernel⟩ (by decide +kernel) (by decide +kernel)

/-- Between two grants to `ann` the build of `cid` waits and is passed over: `bob` was served, and its
next build is younger than that of `cid`. -/
theorem waiting_requester_passed : let a := queuedBuild "ann" "a" 1
    let a' := queuedBuild "ann" "b" 2
    let b := queuedBuild "bob" "c" 3
    let mid : List Event := [.finish a, .grant b "", .finish b]
    let s₀ := waiting [a, a', b, queuedBuild "cid" "d" 4, queuedBuild "bob" "e" 5]
    let s₁ := (s₀.run oneSlotService [.grant a ""]).getD s₀
    OneSlot oneSlotService.cfg ∧ s₀.WellFormed ∧
      s₀.run oneSlotService [.grant a ""] = some s₁ ∧
      (s₁.run oneSlotService (mid ++ [.grant a' ""])).isSome ∧
      a'.requesterKey = a.requesterKey ∧ "cid" ≠ a.requesterKey ∧
      (∀ t ∈ s₁.visited oneSlotService mid, "cid" ∈ t.requesters) ∧
      ∀ e ∈ mid, ∀ d n, e = .grant d n → d.requesterKey = "bob" := by
  intro a a' b mid s₀ s₁
  refine ⟨⟨⟨by decide, by decide, by decide⟩, by decide⟩, ⟨by decide, by decide +kernel⟩,
    by decide +kernel, by decide +kernel, by decide +kernel, by decide +kernel, by decide +kernel,
    ?_⟩
  rintro e he d n rfl
  have hd : d = b ∧ n = "" := by simpa [mid] using he
  rw [hd.1]
  rfl

end KovaService.Fairness
