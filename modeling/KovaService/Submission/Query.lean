import KovaService.Lib.Bytes
import KovaService.Lib.Search
import KovaService.Lib.UrlQuery
import KovaService.Submission.Options

/-!
The two ends of the hop from the controller to the runner: `BuildQuery` of `runnerexec.go` writes a
build's options as a query string, `buildOptionsFromQuery` of `daemon/query.go` reads them.

The keys of a query and the platforms of an address map are visited in the order of their first
occurrence and in sorted order; Go's order over a map is arbitrary, which only decides the error that
is reported first.
-/

namespace KovaService.Submission

open Lib Text Api
open Url (Values)

def requestID (ns : String) (build : KovaBuild) : String :=
  if build.uid != "" then build.uid else ns ++ "/" ++ build.name

def setString (values : Values) (key value : String) : Values :=
  if trimSpace value != "" then values.set key value else values

def platformPairs (platformAddrs : StringMap) : List String :=
  (sortedNames platformAddrs.keys).map fun platform =>
    platform ++ "=" ++ (platformAddrs.lookup platform).getD ""

/-- The concurrency the runner is asked for: the allocation, once there is one. -/
def submittedConcurrency (build : KovaBuild) : Int :=
  if build.status.allocatedConcurrency > 0 then build.status.allocatedConcurrency
  else build.spec.build.concurrency

/-- The values of `BuildQuery` before they are encoded. -/
def buildValues (ns : String) (build : KovaBuild) (platformAddrs : StringMap)
    (plainHTTPRegistries : List String) : Values :=
  let values := Values.set [] "request-id" (requestID ns build)
  let values := (platformPairs platformAddrs).foldl (fun v pair => v.add "platform-addr" pair) values
  let values :=
    plainHTTPRegistries.foldl (fun v registry => v.add "registry-plain-http" registry) values
  let opts := build.spec.build
  let values := setString values "format" opts.format
  let values := setString values "oom-cooldown" opts.oomCooldown
  let concurrency := submittedConcurrency build
  let values := if concurrency > 0 then values.set "concurrency" (itoa concurrency) else values
  let values := if opts.timeout > 0 then values.set "timeout" (itoa opts.timeout) else values
  let values := if opts.failFast then values.set "fail-fast" "true" else values
  let values := if opts.verbose then values.set "verbose" "true" else values
  opts.vars.foldl (fun v value => v.add "var" value) values

def buildQuery (ns : String) (build : KovaBuild) (platformAddrs : StringMap)
    (plainHTTPRegistries : List String) : List Char :=
  (buildValues ns build platformAddrs plainHTTPRegistries).encode

/-- The part of `batch.Options` a build query sets. -/
structure Options where
  addrs : List Addr
  addrsRaw : String
  platformAddrs : List (String × List Addr)
  platformAddrsRaw : StringMap
  concurrency : Int
  failfast : Bool
  buildFormat : String
  oomCooldown : Int
  resultPath : String
  logsPath : String
  vars : StringMap
  timeout : Int
  verbose : Bool
  target : String
  platform : String
  registryPlainHTTP : List String

def defaultBuildkitOOMCooldown : Int := 2 * 60 * 1000000000

variable (x : Libraries)

def repeatable (key : String) : Bool :=
  key == "var" || key == "target" || key == "platform-addr" || key == "registry-plain-http"

def onlyOnce (key : String) : String :=
  "query parameter " ++ x.quote key ++ " must be specified at most once"

def validateQueryKeys (q : Values) (allowed : List String) : Except String Unit :=
  q.keys.forM fun key =>
    if !allowed.contains key then .error ("unsupported query parameter " ++ x.quote key)
    else if repeatable key then .ok ()
    else rejectIf ((q.get key).length > 1) (onlyOnce x key)

def queryValue (q : Values) (key : String) : Except String (Option String) :=
  match q.get key with
  | [] => .ok none
  | [value] => .ok (some value)
  | _ => .error (onlyOnce x key)

def queryBoolStrict (q : Values) (key : String) (default : Bool) : Except String Bool := do
  match ← queryValue x q key with
  | none => pure default
  | some v =>
    let v := x.toLower (trimSpace v)
    if ["", "1", "true", "yes"].contains v then pure true
    else if ["0", "false", "no"].contains v then pure false
    else throw ("query parameter " ++ x.quote key ++ " must be a boolean")

def queryIntStrict (q : Values) (key : String) (default min : Int) : Except String Int := do
  match ← queryValue x q key with
  | none => pure default
  | some v =>
    if trimSpace v == "" then pure default
    else
      match atoi v with
      | none => throw ("query parameter " ++ x.quote key ++ " must be an integer")
      | some n =>
        if n < min then
          throw ("query parameter " ++ x.quote key ++ " must be greater than or equal to " ++
            itoa min)
        else pure n

def queryDurationStrict (q : Values) (key : String) (default min : Int) : Except String Int := do
  match ← queryValue x q key with
  | none => pure default
  | some v =>
    if trimSpace v == "" then pure default
    else
      match x.parseDuration v with
      | none => throw ("query parameter " ++ x.quote key ++ " must be a duration")
      | some d =>
        if d < min then
          throw ("query parameter " ++ x.quote key ++ " must be greater than or equal to " ++
            x.durationString min)
        else pure d

def plainHTTPRegistryHost (value : String) : Except String String :=
  let host := trimSpace value
  let invalid := "registry-plain-http values must be registry hosts without a scheme or path"
  if host == "" then .error invalid
  else
    match x.newRegistry host with
    | .error e => .error (invalid ++ ": " ++ e)
    | .ok () => .ok host

def plainHTTPRegistryHosts (values : List String) : Except String (List String) :=
  values.mapM (plainHTTPRegistryHost x)

/-- The addresses of the `addrs` parameter, or of the daemon's default. -/
def addrsFromQuery (q : Values) (defaultAddrs : String) : Except String (String × List Addr) := do
  let given := (← queryValue x q "addrs").getD ""
  let addrsValue := if trimSpace given == "" then defaultAddrs else given
  if trimSpace addrsValue == "" then pure (addrsValue, [])
  else pure (addrsValue, ← parseAddrs x addrsValue)

/-- The address pools of the `platform-addr` parameters, as they are written. -/
def platformValuesFromQuery (q : Values) : Except String StringMap :=
  match parsePlatformAddresses x (q.get "platform-addr") with
  | .ok platformValues => .ok platformValues
  | .error e => if (q.get "platform-addr").length > 0 then .error e else .ok ∅

def platformPool (platformValues : StringMap) (platform : String) :
    Except String (String × List Addr) :=
  match parseAddrs x ((platformValues.lookup platform).getD "") with
  | .error e => .error ("platform " ++ platform ++ ": " ++ e)
  | .ok parsed => .ok (platform, parsed)

def platformPools (platformValues : StringMap) : Except String (List (String × List Addr)) :=
  (sortedNames platformValues.keys).mapM (platformPool x platformValues)

def setCooldown (cooldown : Int) (addrs : List Addr) : List Addr :=
  addrs.map fun addr => { addr with cooldown }

def unlessBlank (value : String) (normalize : String → Except String String) :
    Except String String :=
  if trimSpace value == "" then .ok value else normalize value

def buildQueryKeys : List String :=
  ["addrs", "platform-addr", "platform", "concurrency", "fail-fast", "format", "oom-cooldown",
    "registry-plain-http", "request-id", "timeout", "verbose", "target", "var"]

def buildOptionsFromQuery (q : Values) (defaultAddrs resultDB logsFile : String) :
    Except String Options := do
  validateQueryKeys x q buildQueryKeys
  let (addrsValue, addrs) ← addrsFromQuery x q defaultAddrs
  let platformValues ← platformValuesFromQuery x q
  let platformAddrs ← platformPools x platformValues
  rejectIf (addrs.isEmpty && platformAddrs.isEmpty) "BuildKit platform addresses are required"
  let concurrency ← queryIntStrict x q "concurrency" 1 1
  rejectIf (concurrency > maxBuildConcurrency)
    ("query parameter " ++ x.quote "concurrency" ++ " must be less than or equal to " ++
      itoa maxBuildConcurrency)
  let timeout ← queryIntStrict x q "timeout" 300 0
  let oomCooldown ← queryDurationStrict x q "oom-cooldown" defaultBuildkitOOMCooldown 0
  let failFast ← queryBoolStrict x q "fail-fast" false
  let format ← queryValue x q "format"
  let format := normalizeBuildFormatValue x (format.getD "")
  discard (parseBuildFormats x format)
  let verbose ← queryBoolStrict x q "verbose" false
  let target ← queryValue x q "target"
  let platform ← queryValue x q "platform"
  let platform ← unlessBlank (platform.getD "") (normalizePlatform x)
  let target ← unlessBlank (target.getD "") (normalizeLogicalTarget x)
  let vars ← parseBuildVariables x (q.get "var")
  let registryPlainHTTP ← plainHTTPRegistryHosts x (q.get "registry-plain-http")
  pure
    { addrs := setCooldown oomCooldown addrs
      addrsRaw := addrsValue
      platformAddrs := platformAddrs.map fun (platform, pool) =>
        (platform, setCooldown oomCooldown pool)
      platformAddrsRaw := platformValues
      concurrency, failfast := failFast, buildFormat := format, oomCooldown
      resultPath := resultDB, logsPath := logsFile
      vars, timeout, verbose, target, platform, registryPlainHTTP }

def second : Int := 1000000000

/-- The limit `executeBuild` puts on one target; the product is one of `int64` nanoseconds. -/
def Options.targetLimit (opts : Options) : Option Int :=
  if opts.timeout > 0 then some (Bytes.int64 (opts.timeout * second)) else none

end KovaService.Submission
