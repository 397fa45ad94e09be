import KovaService.Lib.Automaton
import KovaService.Runner.Daemon

/-!
The daemon process of a runner at the grain of its critical sections: `handlers.go` and `retire.go`.

Every handler takes the mutex once per step here, and the handler and goroutine of an accepted build
request go through their statements one at a time, in any interleaving with the other requests.  A
done channel and a context are named by the invocation that made them.  The upload body and its read
deadline only decide whether the copy of the body fails, which is left open at every copy.
-/

namespace KovaService.Runner

open Lib Api

/-- The statement an accepted invocation is about to execute.  The flag tells the goroutine from the
handler. -/
inductive Pc where
  | create | copy | closeZip | uploaded | query | validate | ready
  | parse | wipe | extract | release | start | run
  | settling (async : Bool) (status : RunnerStatus) (error : String)
  | published (async : Bool) (status : RunnerStatus)
  | removed | closed | finished
  deriving DecidableEq

inductive Outcome where
  | ok
  | fail (error : String)
  deriving DecidableEq

/-- The next statement; `cancelled` is the state of the build's context. -/
def Pc.next (cancelled : Bool) : Pc → Outcome → Pc
  | .create, .ok => .copy
  | .create, .fail e => .settling false .failed e
  | .copy, .ok => .closeZip
  | .copy, .fail e =>
    if cancelled then .settling false .cancelled "build cancelled while receiving upload"
    else .settling false .failed ("receive zip: " ++ e)
  | .closeZip, .ok => .uploaded
  | .closeZip, .fail e => .settling false .failed ("close temp zip: " ++ e)
  | .uploaded, _ =>
    if cancelled then .settling false .cancelled "build cancelled after upload" else .query
  | .query, .ok => .validate
  | .query, .fail e => .settling false .failed e
  | .validate, .ok => .ready
  | .validate, .fail e => .settling false .failed e
  | .ready, _ =>
    if cancelled then .settling false .cancelled "build cancelled before execution" else .parse
  -- `runBuildAsync` from here on
  | .parse, .ok => .wipe
  | .parse, .fail e => .settling true .failed e
  | .wipe, _ => .extract
  | .extract, .ok => .release
  | .extract, .fail e => .settling true .failed ("extract zip: " ++ e)
  | .release, .ok => .start
  | .release, .fail e => .settling true .failed ("release upload copy: " ++ e)
  | .start, _ =>
    if cancelled then .settling true .cancelled "build cancelled before execution" else .run
  | .run, .ok => .settling true .completed ""
  | .run, .fail e =>
    if cancelled then .settling true .cancelled "build cancelled" else .settling true .failed e
  | .settling async status _, _ => .published async status
  | .published true _, _ => .removed
  | .published false _, _ => .closed
  | .removed, _ => .closed
  | .closed, _ => .finished
  | .finished, _ => .finished

/-- The invocation has not published its final state yet. -/
def Pc.unpublished : Pc → Bool
  | .published .. | .removed | .closed | .finished => false
  | _ => true

/-- The invocation has extracted, run, published and removed its directory, and closed its done
channel. -/
def Pc.joined : Pc → Bool
  | .closed | .finished => true
  | _ => false

structure Invocation where
  requestID : String
  pc : Pc := .create
  ctxCancelled : Bool := false
  doneClosed : Bool := false
  deriving DecidableEq

def Pc.closes : Pc → Bool
  | .published false _ | .removed => true
  | _ => false

/-- What one statement changes in the invocation itself.  A handler that gives up on a failed request
cancels its own context before it closes the channel. -/
def Invocation.next (v : Invocation) (o : Outcome) : Invocation :=
  { v with
    pc := v.pc.next v.ctxCancelled o
    ctxCancelled := v.ctxCancelled || v.pc == .published false .failed
    doneClosed := v.doneClosed || v.pc.closes }

/-- `daemonServer`, with its invocations in the order they were accepted.  `dir` names the invocation
whose files the shared image directory holds. -/
structure Server where
  buildRequestID : String := ""
  build : BuildState := { status := .idle }
  buildCancel : Option Nat := none
  buildDone : Option Nat := none
  retiredRequestID : String := ""
  retireDone : Option Nat := none
  retireUnjoinable : Bool := false
  invocations : List Invocation := []
  dir : Option Nat := none
  deriving DecidableEq

inductive RetirePhase where
  | retiring | locallyJoined
  deriving DecidableEq

structure RetireState where
  requestID : String
  phase : RetirePhase
  localSettled : Bool
  remoteWorkerSettled : Bool
  build : BuildState
  deriving DecidableEq

/-- The answers of the handlers, with their HTTP status.  `accepted` is not yet an answer: the handler
goes on to receive the body. -/
inductive Response where
  | state (code : Nat) (st : BuildState)
  | retire (code : Nat) (st : RetireState)
  | accepted
  | silent
  deriving DecidableEq

namespace Server

variable (s : Server) (ids : List String)

def refuse (code : Nat) (error : String) : Response := .state code (Daemon.refused error)

def invocation (i : Nat) (f : Invocation → Invocation) : Server :=
  { s with invocations := s.invocations.modify i f }

def setBuildState (status : RunnerStatus) (error : String) : Server :=
  { s with build := { status := status, error := error, requestID := s.buildRequestID } }

def clearBuildExecution (i : Nat) : Server :=
  if s.buildDone = some i then { s with buildDone := none, buildCancel := none } else s

def cancelContext : Server :=
  match s.buildCancel with
  | none => s
  | some i => s.invocation i fun v => { v with ctxCancelled := true }

def vacant : Bool :=
  s.retiredRequestID == "" && s.buildRequestID == "" && !buildActive s.build.status

/-- The critical section of `handleBuildPost` that accepts a request. -/
def admitBuild (requestID : String) : Server :=
  { s with
    buildRequestID := requestID
    build := { status := .running, requestID := requestID }
    buildCancel := some s.invocations.length
    buildDone := some s.invocations.length
    invocations := s.invocations ++ [{ requestID := requestID }] }

/-- `handleBuildPost` up to the acceptance of the request, for the values of `request-id`. -/
def handleBuildPost : Server × Response :=
  let requestID := ids.headD ""
  if ids.length > 1 then (s, refuse 400 "request-id must be specified at most once")
  else if requestID.utf8ByteSize > 128 then (s, refuse 400 "request-id is too long")
  else if s.retiredRequestID != "" then (s, refuse 409 "runner has an installed retire barrier")
  else if requestID != "" && requestID == s.buildRequestID then (s, .state 200 s.build)
  else if s.buildRequestID != "" then (s, refuse 409 "runner belongs to another build")
  else if buildActive s.build.status then (s, refuse 409 "a build is already running")
  else (s.admitBuild requestID, .accepted)

def handleBuildStatus : Response := .state 200 { s.build with idempotent := true }

def cancelled (reason : String) : Server := s.cancelContext.setBuildState .cancelling reason

def handleBuildCancel : Server × Response :=
  if buildActive s.build.status && s.buildCancel.isSome then
    let s' := s.cancelled "cancel requested"
    (s', .state 202 s'.build)
  else (s, .state 200 s.build)

def isClosed (i : Nat) : Bool := (s.invocations[i]?).any fun v => v.doneClosed

def retireStateLocked : RetireState :=
  let phase : RetirePhase :=
    if s.retireUnjoinable then .retiring
    else
      match s.retireDone with
      | none => .locallyJoined
      | some i => if s.isClosed i then .locallyJoined else .retiring
  { requestID := s.retiredRequestID, phase := phase, localSettled := phase == .locallyJoined
    remoteWorkerSettled := false, build := s.build }

def retireResponse : Response :=
  let st := s.retireStateLocked
  .retire (if st.phase == .retiring then 202 else 200) st

def firstRetireRequestID : Option String :=
  match ids with
  | [id] => if id == "" || id.utf8ByteSize > 128 then none else some id
  | _ => none

def badRetire : Response :=
  refuse 400 "exactly one non-empty request-id of at most 128 bytes is required"

def foreign (requestID : String) : Bool :=
  (s.buildRequestID != "" && s.buildRequestID != requestID) ||
    (s.buildRequestID == "" && s.build.status != .idle)

def installBarrier (requestID : String) : Server :=
  { s with
    retiredRequestID := requestID
    retireDone := s.buildDone
    retireUnjoinable := buildActive s.build.status && s.buildDone.isNone }

def stopRunning : Server :=
  if s.build.status == .running && s.buildCancel.isSome then s.cancelled "retire requested" else s

def handleBuildRetirePost : Server × Response :=
  match firstRetireRequestID ids with
  | none => (s, badRetire)
  | some id =>
    if s.retiredRequestID != "" && s.retiredRequestID != id then
      (s, refuse 409 "runner already retired for another request")
    else if s.retiredRequestID == "" && s.foreign id then
      (s, refuse 409 "runner belongs to another build")
    else
      let s' := (if s.retiredRequestID == "" then s.installBarrier id else s).stopRunning
      (s', s'.retireResponse)

def handleBuildRetireGet : Response :=
  match firstRetireRequestID ids with
  | none => badRetire
  | some id =>
    if s.retiredRequestID == "" then refuse 404 "retire barrier not installed"
    else if s.retiredRequestID != id then refuse 409 "runner retired for another request"
    else s.retireResponse

/-- What the statement at `pc` of invocation `i` does to the shared state.  A failed extraction may
leave files behind, and a failed removal leaves the directory as it is. -/
def perform (i : Nat) (pc : Pc) (o : Outcome) : Server :=
  match pc, o with
  | .wipe, .ok | .published true _, .ok => { s with dir := none }
  | .extract, _ => { s with dir := some i }
  | .settling _ status error, _ => s.setBuildState status error
  | .closed, _ => s.clearBuildExecution i
  | _, _ => s

def advance (i : Nat) (o : Outcome) : Option Server :=
  match s.invocations[i]? with
  | none => none
  | some v =>
    if v.pc = .finished then none
    else some ((s.perform i v.pc o).invocation i fun v => v.next o)

inductive Action where
  | build (ids : List String)
  | status
  | cancel
  | retire (ids : List String)
  | retireStatus (ids : List String)
  | advance (i : Nat) (o : Outcome)
  deriving DecidableEq

def step : Action → Option (Server × Response)
  | .build ids => some (s.handleBuildPost ids)
  | .status => some (s, s.handleBuildStatus)
  | .cancel => some s.handleBuildCancel
  | .retire ids => some (s.handleBuildRetirePost ids)
  | .retireStatus ids => some (s, s.handleBuildRetireGet ids)
  | .advance i o => (s.advance i o).map fun s' => (s', .silent)

/-- One daemon process. -/
def process : Automaton Server Action Response where
  init := {}
  step := step

end Server

end KovaService.Runner
