import KovaService.Controller.Admission

/-!
`queuepump.go`: which queued build the admission pump wakes.
-/

namespace KovaService.Controller

open Api Ledger

def activeCapacityExhausted (s : ReservationState) (maxJobs workerSlots : Int) : Bool :=
  if maxJobs > 0 && (s.active.keys.card : Int) ≥ maxJobs then true
  else workerSlots > 0 && s.usedSlots ≥ workerSlots

def nextAdmissionCandidate (x : Ext) (builds : List KovaBuild) (s : ReservationState)
    (cfg : Config) : Option KovaBuild :=
  if activeCapacityExhausted s cfg.maxActiveJobs cfg.workerSlots then none
  else
    (fairQueue x (queuedAdmissionCandidates builds s) s.byRequester
      s.lastGrantedRequesterHash).find? fun candidate =>
        !(cfg.maxActiveJobsPerRequester > 0 &&
          (s.byRequester candidate.requesterKey : Int) ≥ cfg.maxActiveJobsPerRequester)

end KovaService.Controller
