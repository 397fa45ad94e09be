import KovaService.Controller.Witness

/-!
The daemon of a runner Pod, as far as its answers to the controller and its calls of
`backend.runBuild` go: `handlers.go`, `retire.go` and the UID fence of `daemonclient`.

A build request is accepted under one lock, so a handler is one transition here.  What happens to an
accepted build until it ends is a sequence of events of its goroutine.
-/

namespace KovaService.Runner

open Api Controller

inductive Stage where
  | vacant | accepted | building | over
  deriving DecidableEq

structure Daemon where
  requestID : String := ""
  retiredRequestID : String := ""
  build : BuildState := { status := .idle }
  stage : Stage := .vacant
  deriving DecidableEq

def buildActive : RunnerStatus → Bool
  | .running | .cancelling => true
  | _ => false

namespace Daemon

variable (d : Daemon)

def handleBuildStatus : BuildState := { d.build with idempotent := true }

/-- `setBuildState`: the request id is kept whatever the new state says. -/
def setBuildState (status : RunnerStatus) (error : String) : Daemon :=
  { d with build := { status := status, error := error, requestID := d.requestID } }

def refused (error : String) : BuildState := { status := .error, error := error }

/-- `handleBuildPost` up to the acceptance of the request. -/
def handleBuildPost (requestID : String) : Daemon × BuildState :=
  if requestID.utf8ByteSize > 128 then (d, refused "request-id is too long")
  else if d.retiredRequestID != "" then (d, refused "runner has an installed retire barrier")
  else if requestID != "" && requestID == d.requestID then (d, d.build)
  else if d.requestID != "" then (d, refused "runner belongs to another build")
  else if buildActive d.build.status then (d, refused "a build is already running")
  else
    let accepted : BuildState := { status := .running, requestID := requestID }
    ({ d with requestID := requestID, build := accepted, stage := .accepted }, accepted)

def cancelActiveBuild (reason : String) : Daemon :=
  if buildActive d.build.status then d.setBuildState .cancelling reason else d

def handleBuildRetirePost (requestID : String) : Daemon :=
  if requestID == "" || requestID.utf8ByteSize > 128 then d
  else if d.retiredRequestID != "" && d.retiredRequestID != requestID then d
  else if d.retiredRequestID == "" &&
      ((d.requestID != "" && d.requestID != requestID) ||
        (d.requestID == "" && d.build.status != .idle)) then d
  else
    let d' := { d with retiredRequestID := requestID }
    if d.build.status == .running then d'.setBuildState .cancelling "retire requested" else d'

inductive Event where
  | abort (status : RunnerStatus) (error : String)
  | run
  | finish (status : RunnerStatus) (error : String)
  deriving DecidableEq

/-- `cancelled` is reported only when the build's context was cancelled before. -/
def endsWith (status : RunnerStatus) : Bool :=
  status == .failed || (status == .cancelled && d.build.status == .cancelling)

/-- One event: the upload, validation or extraction ends the build; `runBuild` is called; it returns.
`none` where the goroutine is elsewhere. -/
def advance : Event → Option Daemon
  | .abort status error =>
    if d.stage == .accepted && d.endsWith status then
      some { d.setBuildState status error with stage := .over }
    else none
  | .run => if d.stage == .accepted then some { d with stage := .building } else none
  | .finish status error =>
    if d.stage == .building && (status == .completed || d.endsWith status) then
      some { d.setBuildState status error with stage := .over }
    else none

end Daemon

/-- The value of the UID variable in the runner container, when it is set. -/
def runnerPodUID (pod : Pod) : Option UID :=
  match pod.spec.containers with
  | [] => none
  | c :: _ =>
    ((c.env.filter fun v => v.name == runnerPodUIDEnv).getLast?).map fun v =>
      if v.fieldRef == some ("v1", "metadata.uid") then pod.uid else v.value

/-- `ValidateExpectedPodUID`, as it runs in the container of this Pod. -/
def validateExpectedPodUID (pod : Pod) (expected : UID) : Bool :=
  match runnerPodUID pod with
  | none => expected == ""
  | some actual => actual != "" && expected != "" && expected == actual

end KovaService.Runner
