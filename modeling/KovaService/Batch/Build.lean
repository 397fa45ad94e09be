import KovaService.Batch.Jobs
import KovaService.Lib.Automaton

/-!
`RunBuild`: the scheduling loop and the goroutines of the jobs, one statement at a time.

The main goroutine starts one goroutine for each job, in order, and stops scheduling without a word
when the context of the batch is done.  What it returns is read off afterwards from the fatal error,
the context of the operation and the failure flag.  The address pools, the builds and the result store
may answer anything at any time.
-/

namespace KovaService.Batch

open Lib Api

/-- The fields of `Options` that decide what `RunBuild` does.  `callerCtx` says that a context is
given. -/
structure Options where
  imageDir : String := ""
  imageDirs : String := ""
  imageDirsAlreadyIsolated : Bool := false
  addrs : List String := []
  platformAddrs : List (String × List String) := []
  concurrency : Int := 1
  callerCtx : Bool := false
  failfast : Bool := false
  buildFormat : String := ""
  target : String := ""
  deriving DecidableEq

structure Outside extends Library where
  prepareSingleImageDir : String → Except String String
  loadSpecs : Bool → String → List BuildFormat → Except String (List Spec)
  newStore : Except String Unit

def loaded (opts : Options) (x : Outside) : Except String (List Spec) :=
  if opts.addrs.isEmpty && opts.platformAddrs.isEmpty then
    .error "BuildKit platform addresses are required"
  else
    match parseBuildFormats x.toLibrary (normalizeBuildFormatValue x.toLibrary opts.buildFormat) with
    | .error e => .error e
    | .ok buildFormats =>
      if opts.imageDirsAlreadyIsolated && (opts.imageDir != "" || opts.imageDirs == "") then
        .error "in-place source preparation requires an isolated image-dirs tree"
      else
        match (if opts.imageDir != "" then x.prepareSingleImageDir opts.imageDir
          else .ok opts.imageDirs) with
        | .error e => .error e
        | .ok imageDirs => x.loadSpecs opts.imageDirsAlreadyIsolated imageDirs buildFormats

/-- The part of `store.Entry` that says how a build ended. -/
structure Entry where
  target : String
  manifestDigest : String := ""
  success : Bool
  reason : String := ""
  deriving DecidableEq

/-- The entry of `executeBuild`, from the digest or the error of the build commands. -/
def executeBuild (spec : Spec) : Except String String → Entry
  | .ok digest => { target := spec.target, manifestDigest := digest, success := true }
  | .error e => { target := spec.target, success := false, reason := e }

/-- The statement a job's goroutine is about to execute.  The argument of `finish` is
`taskEntry.Success`. -/
inductive TaskPc where
  | build (rest : List Spec)
  | persist (spec : Spec) (outcome : Except String String) (rest : List Spec)
  | recordFatal (e : String)
  | raiseFatal
  | cancelFatal
  | finish (success : Bool)
  | raiseFailed
  | cancelFailed
  | done
  deriving DecidableEq

structure Task where
  job : BuildJob
  pc : TaskPc
  deriving DecidableEq

/-- The statement the main goroutine is about to execute, with the jobs still to be scheduled. -/
inductive MainPc where
  | schedule (rest : List BuildJob)
  | guardCtx (job : BuildJob) (rest : List BuildJob)
  | route (job : BuildJob) (rest : List BuildJob)
  | raiseFatal
  | poll (job : BuildJob) (rest : List BuildJob)
  | pick (job : BuildJob) (rest : List BuildJob)
  | pause (job : BuildJob) (rest : List BuildJob)
  | acquire (job : BuildJob) (rest : List BuildJob)
  | wait
  | checkFatal
  | checkCtx
  | checkFailed
  | returned (err : Option String)
  | panicked
  deriving DecidableEq

/-- The variables of a call, with the builds executed and the entries stored so far. -/
structure State where
  main : MainPc
  tasks : List Task := []
  failed : Bool := false
  fatalErr : Option String := none
  ctxDone : Bool := false
  opCtxErr : Option String := none
  executed : List (Spec × Except String String) := []
  stored : List Entry := []
  deriving DecidableEq

inductive Outcome where
  | ok
  | digest (d : String)
  | fail (e : String)
  | ctxDone
  deriving DecidableEq

inductive Action where
  | main (o : Outcome)
  | task (i : Nat) (o : Outcome)
  | callerDone (e : String)
  /-- Its end reaches the context of the batch. -/
  | inherit
  | interrupt
  deriving DecidableEq

namespace State

variable (opts : Options) (s : State)

def recordFatalErr (e : String) : State :=
  { s with fatalErr := s.fatalErr.or (some e) }

def routable (platform : String) : Bool :=
  (opts.platformAddrs.lookup platform).isSome || !opts.addrs.isEmpty

def running : Nat := (s.tasks.filter fun t => t.pc != .done).length

def mainStep : MainPc → Outcome → Option State
  | .schedule [], .ok => some { s with main := .wait }
  | .schedule (job :: rest), .ok =>
    some { s with main := if s.failed && opts.failfast then .wait else .guardCtx job rest }
  | .guardCtx job rest, .ok =>
    some { s with main := if s.ctxDone then .wait else .route job rest }
  | .route job rest, .ok =>
    some (if routable opts job.platform then { s with main := .poll job rest }
      else { s.recordFatalErr ("no BuildKit worker capacity for platform " ++ job.platform) with
        main := .raiseFatal })
  | .raiseFatal, .ok => some { s with failed := true, main := .wait }
  | .poll job rest, .ok => some { s with main := if s.ctxDone then .wait else .pick job rest }
  -- the pool has a slot for the job, or not
  | .pick job rest, .ok => some { s with main := .acquire job rest }
  | .pick job rest, .fail _ => some { s with main := .pause job rest }
  | .pause job rest, .ok => some { s with main := .poll job rest }
  | .pause _ _, .ctxDone => if s.ctxDone then some { s with main := .wait } else none
  | .acquire job rest, .ok =>
    if (s.running : Int) < opts.concurrency then
      some { s with tasks := s.tasks ++ [⟨job, .build job.specs⟩], main := .schedule rest }
    else none
  | .acquire _ _, .ctxDone => if s.ctxDone then some { s with main := .wait } else none
  | .wait, .ok => if s.running = 0 then some { s with main := .checkFatal } else none
  | .checkFatal, .ok =>
    some { s with main := if s.fatalErr.isSome then .returned s.fatalErr else .checkCtx }
  | .checkCtx, .ok =>
    some { s with main := if s.opCtxErr.isSome then .returned s.opCtxErr else .checkFailed }
  | .checkFailed, .ok =>
    some { s with main := .returned (if s.failed then some "one or more builds failed" else none) }
  | _, _ => none

def goto (i : Nat) (pc : TaskPc) : State :=
  { s with tasks := s.tasks.modify i fun t => { t with pc := pc } }

def taskStep (i : Nat) : TaskPc → Outcome → Option State
  | .build [], .ok => some (s.goto i (.finish true))
  | .build (spec :: rest), .digest d =>
    some { s.goto i (.persist spec (.ok d) rest) with executed := s.executed ++ [(spec, .ok d)] }
  | .build (spec :: rest), .fail e =>
    some { s.goto i (.persist spec (.error e) rest) with
      executed := s.executed ++ [(spec, .error e)] }
  | .persist spec outcome rest, .ok =>
    let entry := executeBuild spec outcome
    some { s.goto i (if entry.success then .build rest else .finish false) with
      stored := s.stored ++ [entry] }
  | .persist spec _ _, .fail e =>
    some (s.goto i (.recordFatal ("store result for " ++ spec.target ++ ": " ++ e)))
  | .recordFatal e, .ok => some ((s.recordFatalErr e).goto i .raiseFatal)
  | .raiseFatal, .ok => some { s.goto i .cancelFatal with failed := true }
  | .cancelFatal, .ok => some { s.goto i .done with ctxDone := true }
  | .finish success, .ok => some (s.goto i (if success then .done else .raiseFailed))
  | .raiseFailed, .ok =>
    some { s.goto i (if opts.failfast then .cancelFailed else .done) with failed := true }
  | .cancelFailed, .ok => some { s.goto i .done with ctxDone := true }
  | _, _ => none

def step : Action → Option State
  | .main o => mainStep opts s s.main o
  | .task i o => (s.tasks[i]?).bind fun t => taskStep opts s i t.pc o
  | .callerDone e =>
    if opts.callerCtx then some { s with opCtxErr := s.opCtxErr.or (some e) } else none
  | .inherit => if s.opCtxErr.isSome then some { s with ctxDone := true } else none
  | .interrupt => if opts.callerCtx then none else some { s with ctxDone := true }

/-- `RunBuild` up to the scheduling loop. -/
def start (x : Outside) : State :=
  { main :=
      match loaded opts x with
      | .error e => .returned (some e)
      | .ok specs =>
        if specs.isEmpty then
          .returned (if opts.target != "" then
            some ("build target " ++ x.quote opts.target ++
              " did not match any image metadata for format " ++
              x.quote (normalizeBuildFormatValue x.toLibrary opts.buildFormat)) else none)
        else if (groupBuildSpecs specs).isEmpty then .returned none
        else
          match x.newStore with
          | .error e => .returned (some e)
          | .ok () => if opts.concurrency < 0 then .panicked else .schedule (groupBuildSpecs specs) }

end State

def runBuild (opts : Options) (x : Outside) : Automaton State Action Unit where
  init := State.start opts x
  step s a := (State.step opts s a).map fun s' => (s', ())

end KovaService.Batch
