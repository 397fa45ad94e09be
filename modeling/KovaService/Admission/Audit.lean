import KovaService.Ledger.Reservation
import KovaService.Lib.Search

/-!
The audit of `queuepump.go`: the admission pump visits the builds of all active grants, a batch a
pass, and wakes those whose grant is unfinished.

Between passes the pump keeps a cursor and a count, and nothing else.  What the API and the wake
channel answer at each place of a pass is open.
-/

namespace KovaService.Admission

open Lib Api Ledger

def admissionAuditGrantBatch : Nat := 32

/-- The fields of `AdmissionPump` that the audit keeps between passes. -/
structure AdmissionPump where
  auditCursor : String := ""
  auditRemaining : Int := 0
  deriving DecidableEq

/-- What the direct read of a grant's build and the wake channel answer. -/
structure GrantAnswer where
  get : Except Err KovaBuild
  wake : Except Err Unit

/-- Only an unfinished grant, or a fenced cleanup, needs a wake. -/
def needsWake (entry : ActiveReservation) (build : KovaBuild) : Bool :=
  build.status.phase == .unset || build.status.phase == .queued || entry.closing ||
    entry.inFlight.length > 0

/-- A call that is made for a grant, with its answer. -/
inductive AuditCall where
  | get (name : String) (answer : Except Err KovaBuild)
  | wakeBuild (build : KovaBuild) (answer : Except Err Unit)

/-- The body of the loop of `wakeGrantedBuilds`, for one grant: its calls and its result. -/
def inspectGrant (key : String) (entry : ActiveReservation) (answer : GrantAnswer) :
    List AuditCall × Except Err Unit :=
  let got := AuditCall.get entry.buildName answer.get
  match answer.get with
  | .error e => ([got],
      .error (.wrap ("active admission grant \"" ++ key ++ "\" has no readable KovaBuild: ") e ""))
  | .ok build =>
    if build.reservationKey != key || build.requesterKey != entry.requester then
      ([got], .error (.text ("active admission grant \"" ++ key ++
        "\" does not match its KovaBuild identity")))
    else if needsWake entry build then ([got, .wakeBuild build answer.wake], answer.wake)
    else ([got], .ok ())

/-- How a pass over the grants ended.  `visits` has the calls for each grant; the last of them is not
inspected when the pass failed. -/
structure Woken where
  cursor : String
  inspected : Nat
  error : Option Err
  visits : List (String × List AuditCall)

variable (s : ReservationState)

/-- The loop of `wakeGrantedBuilds` with `left` rounds to go.  The offset of a round is the number of
grants inspected before it. -/
def wakeFrom (keys : List String) (start : Nat) (answer : Nat → GrantAnswer) :
    (left inspected : Nat) → (cursor : String) → Woken
  | 0, inspected, cursor => ⟨cursor, inspected, none, []⟩
  | left + 1, inspected, cursor =>
    let key := keys.getD ((start + inspected) % keys.length) ""
    let entry := (s.active.lookup key).getD { buildName := "", requester := "", slots := 0 }
    match inspectGrant key entry (answer inspected) with
    | (calls, .error e) => ⟨cursor, inspected, some e, [(key, calls)]⟩
    | (calls, .ok ()) =>
      let rest := wakeFrom keys start answer left (inspected + 1) key
      { rest with visits := (key, calls) :: rest.visits }

def sortedKeys : List String := sortedNames s.active.keys

def wakeGrantedBuilds (answer : Nat → GrantAnswer) (cursor : String) (remaining : Int) : Woken :=
  let keys := sortedKeys s
  if keys.length == 0 then ⟨"", 0, none, []⟩
  else
    let rounds := min (min (keys.length : Int) admissionAuditGrantBatch) remaining
    wakeFrom s keys (resume keys cursor) answer rounds.toNat 0 cursor

/-- What the surroundings answer in one pass: the read of the ledger, then the grants. -/
structure Pass where
  ledger : Except Err Unit
  grants : Nat → GrantAnswer

structure Audited where
  pump : AdmissionPump
  error : Option Err
  requeue : Bool
  visits : List (String × List AuditCall)
  inspected : Nat

def audit (p : AdmissionPump) (pass : Pass) : Audited :=
  match pass.ledger with
  | .error e => ⟨p, some e, false, [], 0⟩
  | .ok () =>
    let active : Int := (sortedKeys s).length
    let remaining := if p.auditRemaining == 0 then active else p.auditRemaining
    let woken := wakeGrantedBuilds s pass.grants p.auditCursor remaining
    let remaining := remaining - woken.inspected
    match woken.error with
    | some e => ⟨⟨woken.cursor, remaining⟩, some e, false, woken.visits, woken.inspected⟩
    | none =>
      let remaining := if active == 0 then 0 else remaining
      ⟨⟨woken.cursor, remaining⟩, none, remaining > 0, woken.visits, woken.inspected⟩

def sweepOrder (cursor : String) : List String :=
  (sortedKeys s).rotate (resume (sortedKeys s) cursor)

theorem sortedKeys_sorted : (sortedKeys s).Pairwise (· < ·) :=
  (Finset.sortedLT_sort s.active.keys).pairwise

@[simp] theorem sweepOrder_length (cursor : String) :
    (sweepOrder s cursor).length = (sortedKeys s).length :=
  List.length_rotate ..

/-- The calls read the build of the grant. -/
def Visited (visit : String × List AuditCall) : Prop :=
  ∃ entry answer rest, s.active.lookup visit.1 = some entry ∧
    visit.2 = .get entry.buildName answer :: rest

/-- The build of the grant was read and is the one it was given to, and it was woken if need be. -/
def Inspected (visit : String × List AuditCall) : Prop :=
  ∃ entry build, s.active.lookup visit.1 = some entry ∧ build.reservationKey = visit.1 ∧
    build.requesterKey = entry.requester ∧ visit.2 = .get entry.buildName (.ok build) ::
      if needsWake entry build then [.wakeBuild build (.ok ())] else []

variable {key : String} {entry : ActiveReservation}

theorem visited_inspectGrant {s : ReservationState} (h : s.active.lookup key = some entry)
    (answer : GrantAnswer) :
    Visited s (key, (inspectGrant key entry answer).1) := by
  refine ⟨entry, answer.get, (inspectGrant key entry answer).1.tail, h, ?_⟩
  unfold inspectGrant
  dsimp only
  split
  · rfl
  · split_ifs <;> rfl

variable {calls : List AuditCall}

theorem inspected_inspectGrant {s : ReservationState} {answer : GrantAnswer}
    (h : s.active.lookup key = some entry)
    (hi : inspectGrant key entry answer = (calls, .ok ())) : Inspected s (key, calls) := by
  unfold inspectGrant at hi
  dsimp only at hi
  cases hget : answer.get with
  | error e => simp [hget] at hi
  | ok build =>
    simp only [hget] at hi
    by_cases hother : (build.reservationKey != key || build.requesterKey != entry.requester) = true
    · simp [hother] at hi
    rw [if_neg hother] at hi
    simp only [Bool.or_eq_true, bne_iff_ne, not_or, not_not] at hother
    refine ⟨entry, build, h, hother.1, hother.2, ?_⟩
    split_ifs at hi ⊢
    · obtain ⟨rfl, hwoken⟩ := Prod.mk.inj hi
      rw [hwoken]
    · exact (Prod.mk.inj hi).1.symm

/-- The loop reads along the rotation, and stops early only on an error. -/
structure Along (ring : List String) (left inspected : Nat) (cursor : String) (w : Woken) :
    Prop where
  range : inspected ≤ w.inspected ∧ w.inspected ≤ inspected + left
  stop : w.error = none → w.inspected = inspected + left
  short : w.error ≠ none → w.inspected < inspected + left
  read : w.visits.map Prod.fst = (ring.drop inspected).take
    (w.inspected - inspected + if w.error = none then 0 else 1)
  visited : ∀ v ∈ w.visits, Visited s v
  done : ∀ v ∈ w.visits.take (w.inspected - inspected), Inspected s v
  cursor : w.cursor = if w.inspected = inspected then cursor else ring.getD (w.inspected - 1) ""

theorem Along.cons {s : ReservationState} {ring : List String} {left inspected : Nat}
    {cursor : String} {w : Woken} (hlt : inspected < ring.length)
    (hv : Visited s (ring[inspected], calls)) (hi : Inspected s (ring[inspected], calls))
    (h : Along s ring left (inspected + 1) ring[inspected] w) :
    Along s ring (left + 1) inspected cursor
      { w with visits := (ring[inspected], calls) :: w.visits } := by
  obtain ⟨c, n, e, l⟩ := w
  obtain ⟨⟨hlow, hhigh⟩, hstop, hshort, hread, hvisited, hdone, hcursor⟩ := h
  dsimp only at hlow hhigh hstop hshort hread hvisited hdone hcursor
  have hsub : n - inspected = n - (inspected + 1) + 1 := by omega
  constructor
  · dsimp only
    omega
  · intro he
    have hn := hstop he
    dsimp only
    omega
  · intro he
    have hn := hshort he
    dsimp only
    omega
  · dsimp only
    rw [List.map_cons, hread, List.drop_eq_getElem_cons hlt, hsub, Nat.add_right_comm,
      List.take_succ_cons]
  · exact List.forall_mem_cons.mpr ⟨hv, hvisited⟩
  · dsimp only
    rw [hsub, List.take_succ_cons]
    exact List.forall_mem_cons.mpr ⟨hi, hdone⟩
  · have hne : n ≠ inspected := by omega
    dsimp only
    rw [hcursor, if_neg hne]
    split
    · next heq => simp [heq, List.getD, List.getElem?_eq_getElem hlt]
    · rfl

theorem mem_sortedKeys {s : ReservationState} : key ∈ sortedKeys s ↔ key ∈ s.active := by
  rw [sortedKeys, Finset.mem_sort, Finmap.mem_keys]

theorem wakeFrom_along {keys : List String} (start : Nat) (answer : Nat → GrantAnswer)
    {left inspected : Nat} (cursor : String)
    (h : inspected + left ≤ keys.length) (hkeys : ∀ key ∈ keys, key ∈ s.active) :
    Along s (keys.rotate start) left inspected cursor
      (wakeFrom s keys start answer left inspected cursor) := by
  induction left generalizing inspected cursor with
  | zero =>
    constructor <;> simp [wakeFrom]
  | succ left ih =>
    have hlt : inspected < (keys.rotate start).length := by
      rw [List.length_rotate]
      omega
    have hkey : keys.getD ((start + inspected) % keys.length) "" =
        (keys.rotate start)[inspected] := by
      have hm : (inspected + start) % keys.length < keys.length := Nat.mod_lt _ (by omega)
      rw [List.getElem_rotate, Nat.add_comm start]
      simp [List.getD, List.getElem?_eq_getElem hm]
    obtain ⟨entry, hentry⟩ : ∃ entry, s.active.lookup (keys.rotate start)[inspected] = some entry :=
      Option.isSome_iff_exists.mp (Finmap.lookup_isSome.mpr
        (hkeys _ (List.mem_rotate.mp (List.getElem_mem hlt))))
    have hvisited := visited_inspectGrant hentry (answer inspected)
    have hfound : (s.active.lookup (keys.getD ((start + inspected) % keys.length) "")).getD
        { buildName := "", requester := "", slots := 0 } = entry := by
      rw [hkey, hentry]
      rfl
    unfold wakeFrom
    simp only [hfound, hkey]
    split
    · next calls e hi =>
      rw [hi] at hvisited
      refine ⟨by simp, by simp, by simp, ?_, List.forall_mem_singleton.mpr hvisited, by simp, by simp⟩
      simp [List.drop_eq_getElem_cons hlt]
    · next calls hi =>
      rw [hi] at hvisited
      exact (ih _ (by omega)).cons hlt hvisited (inspected_inspectGrant hentry hi)

/-- `m` grants of the sweep from `cursor` are inspected, and the pump knows where to go on. -/
structure Progress (cursor : String) (p : AdmissionPump) (m : Nat) : Prop where
  bound : m ≤ (sortedKeys s).length
  count : p.auditRemaining = (sortedKeys s).length - m
  place : sweepOrder s p.auditCursor = (sweepOrder s cursor).rotate m

theorem take_rotate {l : List String} {m k : Nat} (h : m + k ≤ l.length) :
    (l.rotate m).take k = (l.drop m).take k := by
  rw [List.rotate_eq_drop_append_take (by omega)]
  exact List.take_append_of_le_length (by simp; omega)

variable {s} {cursor : String} {p : AdmissionPump} {m : Nat}

theorem place_after (h : Progress s cursor p m) {k : Nat} (hk : k ≤ (sortedKeys s).length) :
    sweepOrder s (if k = 0 then p.auditCursor
      else (sweepOrder s p.auditCursor).getD (k - 1) "") = (sweepOrder s cursor).rotate (m + k) := by
  cases k with
  | zero => exact h.place
  | succ k =>
    have hlt : k < (sweepOrder s p.auditCursor).length := by simpa using hk
    have hget : (sweepOrder s p.auditCursor).getD k "" = (sweepOrder s p.auditCursor)[k] := by
      simp [List.getD, List.getElem?_eq_getElem hlt]
    rw [if_neg (Nat.succ_ne_zero k), Nat.add_sub_cancel, hget]
    calc sweepOrder s (sweepOrder s p.auditCursor)[k]
        = (sweepOrder s p.auditCursor).rotate (k + 1) := rotate_resume (sortedKeys_sorted s) hlt
      _ = (sweepOrder s cursor).rotate (m + (k + 1)) := by rw [h.place, List.rotate_rotate]

def rounds (s : ReservationState) (m : Nat) : Nat :=
  min admissionAuditGrantBatch ((sortedKeys s).length - m)

theorem wakeGrantedBuilds_along (s : ReservationState) (answer : Nat → GrantAnswer)
    (cursor : String) {m : Nat}
    (hm : m < (sortedKeys s).length) :
    Along s (sweepOrder s cursor) (rounds s m) 0 cursor
      (wakeGrantedBuilds s answer cursor ((sortedKeys s).length - m)) := by
  have hrounds : (min (min ((sortedKeys s).length : Int) admissionAuditGrantBatch)
      ((sortedKeys s).length - m)).toNat = rounds s m := by
    unfold rounds
    omega
  have hkeys : ((sortedKeys s).length == 0) = false := by
    rw [beq_eq_false_iff_ne]
    omega
  unfold wakeGrantedBuilds
  simp only [hkeys, Bool.false_eq_true, if_false, hrounds]
  refine wakeFrom_along s _ answer cursor ?_ fun key => mem_sortedKeys.mp
  unfold rounds
  omega

theorem Along.counts {ring : List String} {left : Nat} {cursor : String} {w : Woken}
    (h : Along s ring left 0 cursor w) (hl : left ≤ ring.length) (hpos : 0 < left) :
    w.inspected ≤ w.visits.length ∧ 0 < w.visits.length ∧ w.visits.length ≤ left ∧
      w.visits.map Prod.fst = ring.take w.visits.length := by
  obtain ⟨⟨-, hhigh⟩, hstop, hshort, hread, -⟩ := h
  rw [List.drop_zero, Nat.sub_zero] at hread
  have hlen : w.visits.length = w.inspected + if w.error = none then 0 else 1 := by
    rw [← List.length_map Prod.fst, hread, List.length_take]
    split
    · omega
    · next he =>
      have hlt := hshort he
      omega
  refine ⟨by omega, ?_⟩
  by_cases he : w.error = none
  · have hn := hstop he
    rw [if_pos he] at hlen hread
    exact ⟨by omega, by omega, hlen ▸ hread⟩
  · have hlt := hshort he
    rw [if_neg he] at hlen hread
    exact ⟨by omega, by omega, hlen ▸ hread⟩

/-- One pass of a sweep: it goes on with the grants not yet inspected, in order. -/
structure Continues (s : ReservationState) (cursor : String) (m : Nat) (pass : Pass) (r : Audited) :
    Prop where
  progress : Progress s cursor r.pump (m + r.inspected)
  read : r.visits.map Prod.fst = ((sweepOrder s cursor).drop m).take r.visits.length
  visited : ∀ v ∈ r.visits, Visited s v
  done : ∀ v ∈ r.visits.take r.inspected, Inspected s v
  counted : r.inspected ≤ r.visits.length
  starts : pass.ledger = .ok () → r.visits ≠ []
  clean : r.error = none → r.inspected = rounds s m

theorem audit_continues (h : Progress s cursor p m) (hne : p.auditRemaining ≠ 0) (pass : Pass) :
    Continues s cursor m pass (audit s p pass) := by
  unfold audit
  split
  · next e he => exact ⟨h, by simp, by simp, by simp, Nat.le_refl _, by simp [he], by simp⟩
  next he =>
  have hm : m < (sortedKeys s).length := by
    have hb := h.bound
    have hc := h.count
    omega
  have hactive : (((sortedKeys s).length : Int) == 0) = false := by
    rw [beq_eq_false_iff_ne]
    omega
  have hremaining : (if (p.auditRemaining == 0) = true then ((sortedKeys s).length : Int)
      else p.auditRemaining) = (sortedKeys s).length - m := by
    rw [if_neg (by simpa using hne), h.count]
  simp only [hremaining, hactive, Bool.false_eq_true, if_false]
  have halong := wakeGrantedBuilds_along s pass.grants p.auditCursor hm
  generalize wakeGrantedBuilds s pass.grants p.auditCursor _ = w at halong ⊢
  have hrounds : m + rounds s m ≤ (sortedKeys s).length := by
    unfold rounds
    omega
  have hpos : 0 < rounds s m := by
    unfold rounds admissionAuditGrantBatch
    omega
  obtain ⟨hcounted, hstarts, hlen, hread⟩ := halong.counts (by simp; omega) hpos
  have hread' : w.visits.map Prod.fst =
      ((sweepOrder s cursor).drop m).take w.visits.length := by
    rwa [h.place, take_rotate (by simp; omega)] at hread
  have hprogress : Progress s cursor ⟨w.cursor, (sortedKeys s).length - m - w.inspected⟩
      (m + w.inspected) := by
    refine ⟨by omega, by dsimp only; omega, ?_⟩
    dsimp only
    rw [halong.cursor]
    exact place_after h (by omega)
  split
  · exact ⟨hprogress, hread', halong.visited, halong.done, hcounted,
      fun _ => List.ne_nil_of_length_pos hstarts, by simp⟩
  · next herr =>
    refine ⟨hprogress, hread', halong.visited, halong.done, hcounted,
      fun _ => List.ne_nil_of_length_pos hstarts, ?_⟩
    intro _
    simpa using halong.stop herr

/-- Several passes: the pump after them, and what they did for the grants they inspected. -/
def sweep (s : ReservationState) (p : AdmissionPump) :
    List Pass → AdmissionPump × List (String × List AuditCall)
  | [] => (p, [])
  | pass :: rest =>
    let r := audit s p pass
    ((sweep s r.pump rest).1, r.visits.take r.inspected ++ (sweep s r.pump rest).2)

def Sweeping (s : ReservationState) (p : AdmissionPump) : List Pass → Prop
  | [] => True
  | pass :: rest => p.auditRemaining ≠ 0 ∧ Sweeping s (audit s p pass).pump rest

def Clean (s : ReservationState) (p : AdmissionPump) : List Pass → Prop
  | [] => True
  | pass :: rest => (audit s p pass).error = none ∧ Clean s (audit s p pass).pump rest

variable {passes : List Pass}

theorem sweep_progress (h : Progress s cursor p m) (hs : Sweeping s p passes) :
    Progress s cursor (sweep s p passes).1 (m + (sweep s p passes).2.length) ∧
      (sweep s p passes).2.map Prod.fst =
        ((sweepOrder s cursor).drop m).take (sweep s p passes).2.length ∧
      ∀ v ∈ (sweep s p passes).2, Inspected s v := by
  induction passes generalizing p m with
  | nil => exact ⟨h, by simp [sweep], by simp [sweep]⟩
  | cons pass rest ih =>
    obtain ⟨hne, hrest⟩ := hs
    obtain ⟨hp, hread, -, hdone, hcounted, -, -⟩ := audit_continues h hne pass
    obtain ⟨hlast, hkeys, hall⟩ := ih hp hrest
    have htake : ((audit s p pass).visits.take (audit s p pass).inspected).length =
        (audit s p pass).inspected := by
      rw [List.length_take]
      omega
    simp only [sweep, List.length_append, htake]
    refine ⟨by rwa [Nat.add_assoc] at hlast, ?_, List.forall_mem_append.mpr ⟨hdone, hall⟩⟩
    rw [List.take_add, List.drop_drop, ← hkeys, List.map_append, List.map_take, hread,
      List.take_take, Nat.min_eq_left hcounted]

theorem sweep_clean (h : Progress s cursor p m) (hs : Sweeping s p passes) (hc : Clean s p passes) :
    m + (sweep s p passes).2.length =
      min (sortedKeys s).length (m + admissionAuditGrantBatch * passes.length) := by
  induction passes generalizing p m with
  | nil =>
    have hb := h.bound
    simp [sweep, hb]
  | cons pass rest ih =>
    obtain ⟨hne, hrest⟩ := hs
    obtain ⟨herr, hclean⟩ := hc
    obtain ⟨hp, -, -, -, hcounted, -, hfull⟩ := audit_continues h hne pass
    have hlast := ih hp hrest hclean
    have hn := hfull herr
    have hb := h.bound
    unfold rounds at hn
    simp only [sweep, List.length_append, List.length_take, List.length_cons, Nat.mul_add]
    omega

theorem sweeping_clean (h : Progress s cursor p m) (hs : Sweeping s p passes)
    (hc : Clean s p passes) (hne : passes ≠ []) :
    m + admissionAuditGrantBatch * (passes.length - 1) < (sortedKeys s).length := by
  induction passes generalizing p m with
  | nil => exact absurd rfl hne
  | cons pass rest ih =>
    obtain ⟨hleft, hrest⟩ := hs
    obtain ⟨herr, hclean⟩ := hc
    have hb := h.bound
    have hcount := h.count
    obtain ⟨hp, -, -, -, -, -, hfull⟩ := audit_continues h hleft pass
    cases rest with
    | nil =>
      simp only [List.length_cons, List.length_nil]
      omega
    | cons next rest =>
      have hlast := ih hp hrest hclean (List.cons_ne_nil _ _)
      have hn := hfull herr
      unfold rounds admissionAuditGrantBatch at hn
      simp only [List.length_cons, Nat.add_sub_cancel, admissionAuditGrantBatch] at hlast ⊢
      omega

theorem progress_start (s : ReservationState) (cursor : String) :
    Progress s cursor ⟨cursor, (sortedKeys s).length⟩ 0 :=
  ⟨Nat.zero_le _, by simp, by simp⟩

theorem audit_restarts (s : ReservationState) (cursor : String) {pass : Pass}
    (h : pass.ledger = .ok ()) :
    audit s ⟨cursor, 0⟩ pass = audit s ⟨cursor, (sortedKeys s).length⟩ pass := by
  unfold audit
  rw [h]
  simp only [beq_self_eq_true, if_true, ite_self]

end KovaService.Admission
