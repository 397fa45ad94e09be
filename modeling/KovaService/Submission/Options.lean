import Mathlib.Data.Finmap
import KovaService.Lib.Contract
import KovaService.Api.Target

/-!
The options both ends of a submission parse: the platform pools of `buildcontract`, the variables of
`source`, `sourcebundle.Validate` and the addresses of `scheduler`.

`Libraries` adds the functions of Go and of its network libraries that stay uninterpreted.
-/

namespace KovaService.Submission

open Lib Text Api

structure ParsedURL where
  scheme : String
  host : String
  user : Bool
  rawQuery : String
  fragment : String
  deriving DecidableEq

structure Libraries extends Library where
  parseDuration : String → Option Int
  durationString : Int → String
  parseURL : String → Option ParsedURL
  newDigest : String → Except String String
  newRegistry : String → Except String Unit
  splitHostPort : String → Option (String × String)
  joinHostPort : String → String → String
  parseIP : String → Option String
  lookupHost : String → Option (List String)

instance : Coe Libraries Library := ⟨Libraries.toLibrary⟩

variable (x : Libraries)

abbrev StringMap := Finmap fun _ : String => String

def addPlatformAddress (result : StringMap) (raw : String) : Except String StringMap :=
  match cut '=' (trimSpace raw).toList with
  | none => .error ("platform address " ++ x.quote raw ++ " must use platform=buildkit-address")
  | some (platform, address) =>
    let address := trimSpace (String.ofList address)
    if address == "" then
      .error ("platform address " ++ x.quote raw ++ " must use platform=buildkit-address")
    else do
      let normalized ← normalizePlatform x (String.ofList platform)
      rejectIf (result.lookup normalized).isSome
        ("platform " ++ x.quote normalized ++ " has more than one address pool")
      pure (result.insert normalized address)

def parsePlatformAddresses (values : List String) : Except String StringMap := do
  let result ← values.foldlM (addPlatformAddress x) ∅
  rejectIf (result.keys.card == 0) "at least one platform address is required"
  pure result

def isVariableChar (c : Char) : Bool := c.isAlphanum || c == '_'

/-- The pattern `^KOVA_[A-Za-z0-9_]+$`. -/
def buildVariableName (key : List Char) : Bool :=
  "KOVA_".toList.isPrefixOf key && 5 < key.length && (key.drop 5).all isVariableChar

def addBuildVariable (buildVars : StringMap) (item : String) : Except String StringMap :=
  match cut '=' item.toList with
  | none => .error ("invalid --var " ++ x.quote item ++ ", expected KEY=value")
  | some (key, value) =>
    if key != trim key || !buildVariableName key then
      .error ("invalid --var " ++ x.quote item ++ ", key must match KOVA_[A-Za-z0-9_]+")
    else if (buildVars.lookup (String.ofList key)).isSome then
      .error ("build variable " ++ x.quote (String.ofList key) ++ " is duplicated")
    else .ok (buildVars.insert (String.ofList key) (String.ofList value))

def parseBuildVariables (items : List String) : Except String StringMap :=
  items.foldlM (addBuildVariable x) ∅

def isHexChar (c : Char) : Bool :=
  c.isDigit || ('a' ≤ c && c ≤ 'f') || ('A' ≤ c && c ≤ 'F')

def validDigest (value : String) : Bool :=
  "sha256:".toList.isPrefixOf value.toList && value.utf8ByteSize == 71 &&
    (value.toList.drop 7).all isHexChar && value == x.toLower value

def trimStart (start s : String) : String :=
  if start.toList.isPrefixOf s.toList then String.ofList (s.toList.drop start.length) else s

def ParsedURL.bare (u : ParsedURL) : Bool := !u.user && u.rawQuery == "" && u.fragment == ""

def validateSource (uri digest : String) : Except String Unit :=
  if !validDigest x digest then .error "source digest must be a lowercase sha256 digest"
  else
    match x.parseURL (trimSpace uri) with
    | none => .error "source URI must be an absolute oci:// or https:// URI"
    | some parsed =>
      if parsed.host == "" then .error "source URI must be an absolute oci:// or https:// URI"
      else if parsed.scheme == "https" then
        if parsed.bare then .ok ()
        else .error "HTTPS source URI must not contain credentials, a query, or a fragment"
      else if parsed.scheme == "oci" then
        if !parsed.bare then
          .error "OCI source URI must not contain credentials, a query, or a fragment"
        else
          match x.newDigest (trimStart "oci://" uri) with
          | .error _ => .error "OCI source URI must be pinned by manifest digest"
          | .ok ref =>
            if contains "@sha256:" ref then .ok ()
            else .error "OCI source URI must be pinned by manifest digest"
      else .error "source URI scheme must be oci or https"

structure Addr where
  original : String
  addr : String
  nodeIP : String
  cooldown : Int := 0
  deriving DecidableEq

def nodeIPFromAddr (addr : String) : String :=
  match x.splitHostPort (trimStart "tcp://" (trimSpace addr)) with
  | none => ""
  | some (host, _) => (x.parseIP host).getD ""

/-- The endpoints of one part of an address list. -/
def resolveAddr (part : String) : List Addr :=
  if part == "" then []
  else
    let addr := if contains "://" part then part else "tcp://" ++ part
    match x.splitHostPort (trimStart "tcp://" addr) with
    | none => [{ original := part, addr, nodeIP := nodeIPFromAddr x addr }]
    | some (host, port) =>
      match x.parseIP host with
      | some ip => [{ original := part, addr, nodeIP := ip }]
      | none =>
        match x.lookupHost host with
        | none => [{ original := part, addr, nodeIP := nodeIPFromAddr x addr }]
        | some ips => ips.map fun ip =>
          { original := part, addr := "tcp://" ++ x.joinHostPort ip port, nodeIP := ip }

def parseAddrs (s : String) : Except String (List Addr) :=
  if trimSpace s == "" then .error "--addrs is required"
  else
    let addrs := (s.toList.splitOn ',').flatMap fun part => resolveAddr x (String.ofList (trim part))
    if addrs.isEmpty then .error "no valid buildkitd addresses"
    else .ok (addrs.mergeSort fun a b => a.addr ≤ b.addr)

theorem addPlatformAddress_pair {result : StringMap} {platform address : String}
    (hp : platform = platformLinuxAMD64 ∨ platform = platformLinuxARM64)
    (ha : trimSpace address = address) (hne : address ≠ "")
    (hnew : result.lookup platform = none) :
    addPlatformAddress x result (platform ++ "=" ++ address) =
      .ok (result.insert platform address) := by
  have hplatform : trimSpace platform = platform ∧ '=' ∉ platform.toList ∧ platform ≠ "" := by
    rcases hp with rfl | rfl <;> decide
  have heq : trimSpace (platform ++ "=") = platform ++ "=" :=
    trimSpace_append hplatform.1 (by decide) hplatform.2.2 (by decide)
  have htrim : trimSpace (platform ++ "=" ++ address) = platform ++ "=" ++ address :=
    trimSpace_append heq ha (by simp) hne
  have hlist : (platform ++ "=" ++ address).toList = platform.toList ++ '=' :: address.toList := by
    simp
  unfold addPlatformAddress
  rw [htrim, hlist, cut_append hplatform.2.1]
  simp [ha, hne, normalizePlatform_supported x hp, hnew, rejectIf, bind, Except.bind, pure,
    Except.pure]

end KovaService.Submission
