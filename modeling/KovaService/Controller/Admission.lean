import KovaService.Controller.Reservation

/-!
`admission.go`: which queued build gets the next grant, and the program that commits the grant.
-/

namespace KovaService.Controller

open Lib Api Ledger

variable (builds : List KovaBuild)

structure AdmissionDecision where
  admitted : Bool := false
  allocation : Int := 0
  message : String := ""
  deferred : Bool := false
  deriving DecidableEq

def AdmissionDecision.wait (message : String) : AdmissionDecision := { message := message }

def buildLess (left right : KovaBuild) : Bool :=
  if left.creationTimestamp == right.creationTimestamp then left.name < right.name
  else left.creationTimestamp < right.creationTimestamp

def requesterGroup (requester : String) : List KovaBuild :=
  (builds.filter fun b => b.requesterKey == requester).insertionSort
    fun a b => buildLess b a = false

def requesterLess (active : String → Nat) (left right : String) : Bool :=
  if active left != active right then active left < active right
  else
    match (requesterGroup builds left).head?, (requesterGroup builds right).head? with
    | some l, some r => if buildLess l r then true else if buildLess r l then false else left < right
    | _, _ => left < right

def sortedRequesters (active : String → Nat) : List String :=
  (builds.map KovaBuild.requesterKey).dedup.insertionSort
    fun a b => requesterLess builds active b a = false

/-- Rotate the tier of equally served requesters behind the one granted last. -/
def rotateAfter (x : Ext) (active : String → Nat) (last : String) (requesters : List String) :
    List String :=
  match requesters.findIdx? fun q => x.hashRequester q == last with
  | none => requesters
  | some i =>
    match requesters[i]? with
    | none => requesters
    | some q =>
      let tier := fun q' => active q' == active q
      let start := i - ((requesters.take i).reverse.takeWhile tier).length
      let stop := i + 1 + ((requesters.drop (i + 1)).takeWhile tier).length
      requesters.take start ++ (requesters.take stop).drop (i + 1) ++
        (requesters.take (i + 1)).drop start ++ requesters.drop stop

/-- `fairQueue`: one build of every requester per round. -/
def fairQueue (x : Ext) (builds : List KovaBuild) (active : String → Nat) (last : String) :
    List KovaBuild :=
  let requesters := rotateAfter x active last (sortedRequesters builds active)
  (List.range builds.length).flatMap fun round =>
    requesters.filterMap fun q => (requesterGroup builds q)[round]?

def queuedAdmissionCandidates (s : ReservationState) : List KovaBuild :=
  builds.filter fun b => !b.inertTombstone && b.live && s.slotsOf b.reservationKey == 0

/-- The loop of `decideAdmission` over the fair queue. -/
def allocate (build : KovaBuild) (maxRequesterJobs : Int) (boundedSlots : Bool) :
    List KovaBuild → (String → Nat) → Int → Int → AdmissionDecision
  | [], _, _, _ => .wait "waiting for fair-share capacity"
  | c :: cs, active, jobCapacity, slotCapacity =>
    if maxRequesterJobs > 0 && (active c.requesterKey : Int) ≥ maxRequesterJobs then
      allocate build maxRequesterJobs boundedSlots cs active jobCapacity slotCapacity
    else
      let allocation :=
        if boundedSlots && c.requestedConcurrency > slotCapacity then slotCapacity
        else c.requestedConcurrency
      if allocation ≤ 0 || jobCapacity ≤ 0 then .wait "waiting for fair-share capacity"
      else if c.reservationKey == build.reservationKey then
        { admitted := true, allocation := allocation }
      else
        allocate build maxRequesterJobs boundedSlots cs
          (fun q => if q == c.requesterKey then active q + 1 else active q) (jobCapacity - 1)
          (if boundedSlots then slotCapacity - allocation else slotCapacity)

def decideAdmission (x : Ext) (build : KovaBuild) (builds : List KovaBuild) (s : ReservationState)
    (maxJobs maxRequesterJobs workerSlots : Int) : AdmissionDecision :=
  let queued := queuedAdmissionCandidates builds s
  let jobCapacity : Int :=
    if maxJobs > 0 then maxJobs - s.active.keys.card else queued.length
  if maxJobs > 0 && jobCapacity ≤ 0 then .wait "waiting for an active job slot"
  else if workerSlots > 0 && workerSlots - s.usedSlots ≤ 0 then
    .wait "waiting for worker capacity"
  else
    allocate build maxRequesterJobs (workerSlots > 0)
      (fairQueue x queued s.byRequester s.lastGrantedRequesterHash) s.byRequester jobCapacity
      (if workerSlots > 0 then workerSlots - s.usedSlots else 0)

def saturatedAdmission (build : KovaBuild) (s : ReservationState)
    (maxJobs maxRequesterJobs workerSlots : Int) : Option AdmissionDecision :=
  if maxJobs > 0 && (s.active.keys.card : Int) ≥ maxJobs then
    some (.wait "waiting for an active job slot")
  else if workerSlots > 0 && s.usedSlots ≥ workerSlots then
    some (.wait "waiting for worker capacity")
  else if maxRequesterJobs > 0 && (s.byRequester build.requesterKey : Int) ≥ maxRequesterJobs then
    some (.wait "waiting for fair-share capacity")
  else none

namespace Reconciler

variable (r : Reconciler)

def reservationCovered (s : ReservationState) (build : KovaBuild) : K Bool := do
  match s.active.lookup build.reservationKey with
  | some entry => pure (entry.buildName == build.name)
  | none =>
    let latest ← r.readLedger
    ofAns (r.decodeReservations latest.data)
    ofAns (latest.data.validateLimits r.cfg)
    pure ((latest.data.active.lookup build.reservationKey).any fun e => e.buildName == build.name)

def ensureNoUnreservedRunner (s : ReservationState) (builds : List KovaBuild) : K Unit := do
  builds.forM fun build => do
    match build.status.phase with
    | .starting | .running | .verifying | .failedVerifying =>
      let covered ← r.reservationCovered s build
      failIf (!covered) (.text ("active KovaBuild " ++ r.qualified build.name ++
        " has no admission reservation"))
    | _ => pure ()
  let pods ← listPods
  pods.forM fun pod => do
    if pod.buildIDLabel == "" then pure ()
    else
      match builds.find? fun b => b.name == pod.buildIDLabel with
      | none => throw (.text ("runner Pod " ++ r.qualified pod.name ++
          " has no matching KovaBuild owner"))
      | some build =>
        failIf (!pod.ownedByBuild build) (.text ("runner Pod " ++ r.qualified pod.name ++
          " has no matching KovaBuild owner"))
        let covered ← r.reservationCovered s build
        failIf (!covered) (.text ("runner Pod " ++ r.qualified pod.name ++
          " has no admission reservation"))

/-- The entry of a new grant, and the ledger that holds it. -/
def grantEntry (build : KovaBuild) (s : ReservationState) (allocation : Int) (grantNonce : String) :
    ActiveReservation :=
  if r.genesis.isSome then
    { buildName := build.name, requester := build.requesterKey, slots := allocation,
      grantNonce := grantNonce, grantFence := if s.fence == 0 then 1 else s.fence }
  else { buildName := build.name, requester := build.requesterKey, slots := allocation }

def granted (build : KovaBuild) (s : ReservationState) (entry : ActiveReservation) :
    ReservationState :=
  { s.set build.reservationKey entry with
    fence := if r.genesis.isSome && s.fence == 0 then 1 else s.fence
    lastGrantedRequesterHash := r.ext.hashRequester build.requesterKey }

/-- What `admission` checks for a build without an entry: `some` ends the call. -/
def admitFresh (build : KovaBuild) (s : ReservationState) (permit : Bool) :
    K (Option AdmissionDecision) := do
  match saturatedAdmission build s r.cfg.maxActiveJobs r.cfg.maxActiveJobsPerRequester
      r.cfg.workerSlots with
  | some blocked =>
    r.queueStore.verifyForBuild build
    pure (some blocked)
  | none =>
    let free ← (if r.genesis.isSome && r.coordinator && !permit then tryBegin else pure true)
    if !free then pure (some { deferred := true })
    else
      r.queueStore.verifyForBuild build
      pure none

/-- `admission`.  The loop state says whether this call holds the local permit. -/
def admission (build : KovaBuild) : K AdmissionDecision := do
  let grantNonce ← (if r.genesis.isSome then newNonce else pure "")
  retry (r.busyGrant build "granting") (fun n (permit : Bool) => do
    ctxErr
    let cm ← r.readReservations
    r.ensureLiveAdmissionBuild build
    let existing := cm.data.active.lookup build.reservationKey
    let ended ← (if existing.isNone then r.admitFresh build cm.data permit else pure none)
    match ended with
    | some decision => pure (.done decision)
    | none =>
      let builds ← listBuilds
      r.ensureNoUnreservedRunner cm.data builds
      match existing with
      | some entry =>
        failIf (entry.buildName != build.name || entry.requester != build.requesterKey)
          (.text ("admission reservation for " ++ r.qualified build.name ++
            " does not match KovaBuild identity"))
        failIf entry.closing (r.admissionClosed build " grant is closing")
        onlyIf r.genesis.isSome (r.verifyPinnedGrant build entry)
        pure (.done { admitted := true, allocation := entry.slots })
      | none =>
        let decision := decideAdmission r.ext build builds cm.data r.cfg.maxActiveJobs
          r.cfg.maxActiveJobsPerRequester r.cfg.workerSlots
        if !decision.admitted then pure (.done decision)
        else
          let entry := r.grantEntry build cm.data decision.allocation grantNonce
          match ← attempt (r.writeReservations .admission build.reservationKey cm
              (r.granted build cm.data entry)) with
          | .error e =>
            if e.isConflict || e.isAlreadyExists then
              waitCAS n
              pure (.again (permit || (r.genesis.isSome && r.coordinator)))
            else throw e
          | .ok () =>
            onlyIf r.genesis.isSome (r.finishFreshGrant build entry)
            pure (.done decision)) maxReservationCASAttempts 0 false

end Reconciler

end KovaService.Controller
