import KovaService.Controller.Lifecycle
import KovaService.Http.Create
import KovaService.Lib.Run
import KovaService.System.Cluster

/-!
The service as a whole: any number of controller and API processes over one cluster.

A `Choice` settles what a request's answer leaves open, among the answers the cluster allows at that
instant.  A read may fail, but says `notFound` only of an absent object.  A mutation may be refused
without effect, but says `alreadyExists` only of a taken name; a sender that stops waiting learns an
error that does not tell whether the mutation commits.  Checks, clocks, contexts, exports, source
inspections and registry lookups may answer anything.
-/

namespace KovaService.System

open Lib Api Ledger Runner

variable {α : Type}

/-- One installation: what all its processes share. -/
structure World where
  ext : Ext
  genesis : Option Genesis
  /-- The configuration the two ledgers were created with. -/
  cfg : Config
  ledgerUID : UID
  queueUID : UID
  /-- Start-up refuses limits that the ledgers cannot hold. -/
  capacity : capacitySupported cfg.maxActiveJobs cfg.maxActiveJobsPerRequester cfg.workerSlots
  queueLimits : queueLimitsSupported cfg.maxQueuedJobs cfg.maxQueuedJobsPerRequester
  /-- Runner status answers are arbitrary instead of those of the modelled daemon. -/
  arbitraryRunner : Bool := false

inductive Choice where
  | ok
  | fail (e : Err)
  | assign (uid : UID) (now : Time)
  | version (b : KovaBuild)
  | builds (bs : List KovaBuild)
  | pods (ps : List Pod)
  | receipt (r : Option Receipt) (e : Err)
  | time (t : Time)
  | text (s : String)
  | flag (b : Bool)
  | state (st : BuildState)
  | targets (ts : List TargetSpec)
  | exported (x : Export)
  | resolved (digest platform : String)

namespace Choice

variable (s : Cluster)

def outcome : Choice → Option (Ans Unit)
  | .ok => some (.ok ())
  | .fail e => some (.error e)
  | _ => none

def fetched (value : Ans α) : Choice → Option (Ans α)
  | .ok => some value
  | .fail e => if e.isNotFound then none else some (.error e)
  | _ => none

/-- An answer the cluster does not determine, or any error. -/
def either (pick : Choice → Option α) : Choice → Option (Ans α)
  | .fail e => some (.error e)
  | c => (pick c).map .ok

def cached (versions : List KovaBuild) (name : String) : Choice → Option KovaBuild
  | .version b => if b ∈ versions ∧ b.name = name then some b else none
  | _ => none

def asBuilds (all : Multiset KovaBuild) : Choice → Option (List KovaBuild)
  | .builds bs => if (bs : Multiset KovaBuild) = all then some bs else none
  | _ => none

def asPods (all : Multiset Pod) : Choice → Option (List Pod)
  | .pods ps => if (ps : Multiset Pod) = all then some ps else none
  | _ => none

/-- The honest state of a runner, or an arbitrary one where that is allowed. -/
def asState (arbitrary : Bool) (honest : Option BuildState) : Choice → Option BuildState
  | .ok => honest
  | .state st => if arbitrary then some st else none
  | _ => none

def asTargets : Choice → Option (List TargetSpec)
  | .targets ts => some ts
  | _ => none

def asExport : Choice → Option Export
  | .exported x => some x
  | _ => none

def asResolved : Choice → Option (String × String)
  | .resolved digest platform => some (digest, platform)
  | _ => none

def asText : Choice → Option String
  | .text a => some a
  | _ => none

def asFlag : Choice → Option Bool
  | .flag b => some b
  | _ => none

def asTime : Choice → Option Time
  | .time t => some t
  | _ => none

/-- A mutation of an existing object: its effect, or a refusal without one. -/
def performed (effect : Cluster × Ans α) :
    Choice → Option (Cluster × Ans α)
  | .ok => some effect
  | .fail e => if e.isNotFound then none else some (s, .error e)
  | _ => none

/-- A Create with a new UID, or a refusal that does not claim a taken name. -/
def createdAs (effect : UID → Time → Cluster × Ans α) :
    Choice → Option (Cluster × Ans α)
  | .assign uid now => if uid = "" ∨ uid ∈ s.uids then none else some (effect uid now)
  | .fail e => if e.isNotFound || e.isAlreadyExists then none else some (s, .error e)
  | _ => none

def deletedAt (effect : Time → Cluster × Ans α) :
    Choice → Option (Cluster × Ans α)
  | .time now => some (effect now)
  | .fail e => if e.isNotFound then none else some (s, .error e)
  | _ => none

/-- The Delete of a Pod, with a grace period or without. -/
def terminated (effect : Option Time → Cluster × Ans α) :
    Choice → Option (Cluster × Ans α)
  | .ok => some (effect none)
  | c => c.deletedAt s fun now => effect (some now)

/-- The Create of a receipt; the client may hand back an empty object with an error. -/
def receiptCreated (r : Receipt) :
    Choice → Option (Cluster × (Option Receipt × Option Err))
  | .assign uid _ =>
    if uid = "" ∨ uid ∈ s.uids then none
    else (s.createReceipt r uid).map fun p => (p.1, (some p.2, none))
  | .receipt o e =>
    if e.isNotFound || e.isAlreadyExists != (s.receipts.lookup r.name).isSome ||
        o.any fun r => r.name != "" then none
    else some (s, (o, some e))
  | _ => none

/-- A command in a container: its effect, or any error, or any state where that is allowed. -/
def executed (effect : Option (Cluster × α)) (other : Choice → Option α) :
    Choice → Option (Cluster × Ans α)
  | .ok => effect.map fun p => (p.1, .ok p.2)
  | .fail e => some (s, .error e)
  | c => (other c).map fun a => (s, .ok a)

def minted : Choice → Option (Cluster × Ans String)
  | .text a =>
    if lowerHex a 32 = true ∧ a ∉ s.nonces then
      some ({ s with nonces := insert a s.nonces }, .ok a)
    else none
  | .fail e => some (s, .error e)
  | _ => none

end Choice

/-- An error after which the sender does not know whether its mutation commits. -/
def unknownOutcome (e : Err) : Bool :=
  e.reason.all fun r => r == .tooManyRequests || r == .other

namespace World

variable (w : World)

def found (kind name : String) : Option α → Ans α
  | some a => .ok a
  | none => Cluster.notFound kind name

def reply (s : Cluster) : (q : Request) → Choice → Option (Cluster × Answer q)
  | .getLedger, c => (c.fetched (.ok s.ledger)).map fun a => (s, a)
  | .putLedger _ _ patch rv next, c => c.performed s (s.putLedger patch rv next)
  | .getQueue, c => (c.fetched (.ok s.queue)).map fun a => (s, a)
  | .putQueue _ _ patch rv next, c => c.performed s (s.putQueue patch rv next)
  | .cachedBuild name, c => (c.either (Choice.cached s.versions name)).map fun a => (s, a)
  | .getBuild name, c =>
    (c.fetched (found "kovabuilds" name (s.builds.lookup name))).map fun a => (s, a)
  | .listBuilds, c =>
    (c.either (Choice.asBuilds (s.builds.entries.map Sigma.snd))).map fun a => (s, a)
  | .createBuild b, c => c.createdAs s (s.createBuild b)
  | .updateBuild b, c => c.performed s (s.updateBuild b)
  | .updateStatus b, c => c.performed s (s.updateStatus b)
  | .patchAnnotations b, c => c.performed s (s.patchAnnotations b)
  | .deleteBuild name uid, c => c.deletedAt s (s.deleteBuild name uid)
  | .getPod name, c => (c.fetched (found "pods" name (s.pods.lookup name))).map fun a => (s, a)
  | .listPods, c => (c.either (Choice.asPods (s.pods.entries.map Sigma.snd))).map fun a => (s, a)
  | .createPod p, c => c.createdAs s fun uid _ => s.createPod p uid
  | .deletePod name uid, c => c.terminated s (s.deletePod name uid)
  | .getReceipt name, c =>
    (c.fetched (found "configmaps" name (s.receipts.lookup name))).map fun a => (s, a)
  | .createReceipt r, c => c.receiptCreated s r
  | .deleteReceipt name uid, c => c.performed s (s.deleteReceipt name uid)
  | .genesisCheck, c => c.outcome.map fun a => (s, a)
  | .receiptNamespace, c => c.outcome.map fun a => (s, a)
  | .execStatus pod uid, c =>
    (c.either (Choice.asState w.arbitraryRunner
      ((s.target pod uid).map fun x => x.2.handleBuildStatus))).map fun a => (s, a)
  | .execInspect .., c => (c.either Choice.asTargets).map fun a => (s, a)
  | .execSubmit pod uid requestID, c =>
    c.executed s (s.submit pod uid requestID) (Choice.asState w.arbitraryRunner none)
  | .execCancel pod uid, c =>
    c.executed s ((s.cancelRunner pod uid).map fun s => (s, ())) fun _ => none
  | .execExport .., c => (c.either Choice.asExport).map fun a => (s, a)
  | .resolve .., c => (c.either Choice.asResolved).map fun a => (s, a)
  | .nonce, c => c.minted s
  | .jobID, c => (c.either Choice.asText).map fun a => (s, a)
  | .now, c => c.asTime.map fun a => (s, a)
  | .ctxErr, c => c.outcome.map fun a => (s, a)
  | .wait _, c => c.outcome.map fun a => (s, a)
  | .tryBegin, c => (c.either Choice.asFlag).map fun a => (s, a)
  | .verificationSlot, c => c.asFlag.map fun a => (s, a)
  | .authorize, c => c.outcome.map fun a => (s, a)
  | .mark _, _ => some (s, ())

end World

/-- The requests that change the store and travel there on their own. -/
def wired : Request → Bool
  | .putLedger .. | .putQueue .. | .createBuild _ | .updateBuild _ | .updateStatus _
  | .patchAnnotations _ | .deleteBuild .. | .createPod _ | .deletePod .. | .createReceipt _
  | .deleteReceipt .. | .execSubmit .. | .execCancel .. => true
  | _ => false

/-- Commands in a container may be repeated on their way. -/
def repeatable : Request → Bool
  | .execSubmit .. | .execCancel .. => true
  | _ => false

def Choice.givenUp : Choice → Option (Ans α)
  | .fail e => if unknownOutcome e then some (.error e) else none
  | _ => none

def lost : (q : Request) → Choice → Option (Answer q)
  | .createReceipt _, .receipt o e =>
    if unknownOutcome e && o.all fun r => r.name == "" then some (o, some e) else none
  | .putLedger .., c => c.givenUp
  | .putQueue .., c => c.givenUp
  | .createBuild _, c => c.givenUp
  | .updateBuild _, c => c.givenUp
  | .updateStatus _, c => c.givenUp
  | .patchAnnotations _, c => c.givenUp
  | .deleteBuild .., c => c.givenUp
  | .createPod _, c => c.givenUp
  | .deletePod .., c => c.givenUp
  | .deleteReceipt .., c => c.givenUp
  | .execSubmit .., c => c.givenUp
  | .execCancel .., c => c.givenUp
  | _, _ => none

inductive EnvAction where
  | createBuild (b : KovaBuild) (uid : UID) (now : Time)
  | deleteBuild (name : String) (now : Time)
  | cancelBuild (name : String) (text : String)
  | podStatus (name : String) (status : PodStatus)
  | podTerminating (name : String) (now : Time)
  | podGone (name : String)
  | runner (uid : UID) (e : Daemon.Event)
  | retire (uid : UID) (requestID : String)

/-- A build made without the HTTP API has no link to the queue ledger. -/
def unlinked (b : KovaBuild) : Bool :=
  b.annotations.queueIntent == "" && b.annotations.queueReceiptUID == "" &&
    b.annotations.queueReceiptDigest == "" && b.annotations.queueReceiptSettledUID == ""

def env (s : Cluster) : EnvAction → Option Cluster
  | .createBuild b uid now =>
    if uid = "" ∨ uid ∈ s.uids ∨ unlinked b = false ∨ (s.builds.lookup b.name).isSome then none
    else some (s.createBuild b uid now).1
  | .deleteBuild name now => (s.builds.lookup name).map fun b => s.beginDelete b now
  | .cancelBuild name text =>
    (s.builds.lookup name).bind fun b =>
      if text = "" ∨ b.cancellationRequested then none
      else some (s.settleBuild { b with annotations := { b.annotations with
        cancellationRequestedAt := text } }).1
  | .podStatus name status =>
    (s.pods.lookup name).map fun p =>
      { s with pods := s.pods.insert name { p with status := status } }
  | .podTerminating name now =>
    (s.pods.lookup name).map fun p =>
      { s with pods := s.pods.insert name { p with deletionTimestamp := some now } }
  | .podGone name => some { s with pods := s.pods.erase name }
  | .runner uid e => s.advanceDaemon uid e
  | .retire uid requestID => s.retireDaemon uid requestID

/-- A piece of work of one process, under its own configuration. -/
inductive Job where
  | reconcile (cfg : Config) (coordinator : Bool) (name : String)
  | create (cfg : Config) (p : Http.Principal) (body : Except Err Http.CreateBuildRequest)
  | cancel (cfg : Config) (name : String)

namespace World

variable (w : World)

def reconciler (cfg : Config) (coordinator : Bool) : Controller.Reconciler where
  ext := w.ext
  cfg := cfg
  genesis := w.genesis
  coordinator := coordinator

def server (cfg : Config) : Http.Server where
  ext := w.ext
  cfg := cfg
  genesis := w.genesis

def jobK : Job → K Unit
  | .reconcile cfg coordinator name => (w.reconciler cfg coordinator).reconcile name
  | .create cfg p body => (w.server cfg).handleCreateBuild p body
  | .cancel cfg name => (w.server cfg).handleCancelBuild name

/-- The service: its requests, its cluster, and the programs its processes run. -/
def service : Semantics Request Answer Cluster Choice EnvAction Job where
  wired := wired
  repeatable := repeatable
  reply := w.reply
  lost := lost
  env := env
  job j := (w.jobK j).run >>= fun _ => .ret ()

/-- The cluster after both ledgers were initialized, before any build. -/
def initial : Cluster where
  ledger :=
    { uid := w.ledgerUID, resourceVersion := 1
      data := if w.genesis.isSome then .genesisEmpty w.cfg else .freshReservations w.cfg }
  queue :=
    { uid := w.queueUID, resourceVersion := 2
      data :=
        if w.genesis.isSome then .genesisEmpty w.cfg.maxQueuedJobs w.cfg.maxQueuedJobsPerRequester
        else .freshState w.cfg.maxQueuedJobs w.cfg.maxQueuedJobsPerRequester }
  builds := ∅
  pods := ∅
  receipts := ∅
  daemons := ∅
  versions := []
  clock := 2
  uids := {w.ledgerUID, w.queueUID}
  nonces := ∅
  runs := []

/-- An execution of the service: every interleaving of any number of processes. -/
abbrev Execution := Run w.service w.initial

end World

end KovaService.System
