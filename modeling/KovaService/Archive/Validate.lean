import KovaService.Archive.Headers

/-!
`ValidateBuildArchive`: the headers, the top-level directories with their required files, and a
first reading of all contents.
-/

namespace KovaService.Archive

open Lib Lib.Path Exec

structure BuildArchiveTopLevel where
  name : Element
  children : List Element
  rootFile : Bool
  deriving DecidableEq

def BuildArchiveTopLevel.hasDockerfile (e : BuildArchiveTopLevel) : Bool :=
  e.children.contains dockerfileName

def BuildArchiveTopLevel.hasMetadata (e : BuildArchiveTopLevel) : Bool :=
  e.children.contains metadataName

def updateTop (top : Element) (f : BuildArchiveTopLevel → BuildArchiveTopLevel) :
    List BuildArchiveTopLevel → List BuildArchiveTopLevel
  | [] => [f ⟨top, [], false⟩]
  | e :: rest => if e.name = top then f e :: rest else e :: updateTop top f rest

def noteMember (file : Member) (tops : List BuildArchiveTopLevel) :
    List Element → List BuildArchiveTopLevel
  | [] => tops
  | [top] => updateTop top (fun e => { e with rootFile := e.rootFile || !file.isDir }) tops
  | top :: child :: _ => updateTop top (fun e => { e with children := e.children.insert child }) tops

structure SeenMembers where
  seenPaths : List (List Char)
  topLevels : List BuildArchiveTopLevel

def addMember (s : SeenMembers) (file : Member) : Except Err SeenMembers :=
  match validateBuildArchivePath file.name with
  | .error e => .error e
  | .ok cleaned =>
    if cleaned = [] then .ok s
    else if cleaned ∈ s.seenPaths then
      .error (invalidBuildArchive (.text ("zip contains duplicate path " ++ quoted cleaned)))
    else .ok ⟨s.seenPaths ++ [cleaned], noteMember file s.topLevels (cleaned.splitOn '/')⟩

def sortNames (l : List Element) : List Element := l.insertionSort fun a b => ¬ b < a

def limitBuildArchiveList (values : List String) (limit : Nat) : List String :=
  if values.length ≤ limit then values
  else values.take limit ++ ["... and " ++ toString (values.length - limit) ++ " more"]

/-- What an image directory lacks, and the first three of its children. -/
def describeInvalid (e : BuildArchiveTopLevel) : String :=
  let missing := (if e.hasDockerfile then [] else ["Dockerfile"]) ++
    if e.hasMetadata then [] else ["metadata.json"]
  let childPreview := ((sortNames e.children).take 3).map String.ofList
  String.ofList e.name ++ " (missing " ++ " and ".intercalate missing ++
    (if childPreview = [] then "" else ", contains " ++ ", ".intercalate childPreview) ++ ")"

def countTopLevels (topLevels : List BuildArchiveTopLevel) : Except Err Nat :=
  let sorted := topLevels.insertionSort fun a b => ¬ b.name < a.name
  let directories := sorted.filter (!·.rootFile)
  let rootFiles := (sorted.filter (·.rootFile)).map fun e => String.ofList e.name
  let invalidDirs := (directories.filter fun e => !(e.hasDockerfile && e.hasMetadata)).map
    describeInvalid
  let validCount := (directories.filter fun e => e.hasDockerfile && e.hasMetadata).length
  if topLevels = [] then
    .error (invalidBuildArchive
      (.text "zip archive is empty or does not contain any image directories"))
  else if rootFiles ≠ [] then
    .error (invalidBuildArchive (.text
      ("zip root must contain only image directories, found root file entries: " ++
        ", ".intercalate (limitBuildArchiveList rootFiles 5))))
  else if invalidDirs ≠ [] then
    .error (invalidBuildArchive (.text
      ("zip root must directly contain image directories with Dockerfile and metadata.json; " ++
        "invalid top-level directories: " ++
        "; ".intercalate (limitBuildArchiveList invalidDirs 5))))
  else if validCount = 0 then
    .error (invalidBuildArchive (.text "zip archive does not contain any valid image directories"))
  else .ok validCount

def countImages (files : List Member) : Except Err Nat :=
  match files.foldlM addMember ⟨[], []⟩ with
  | .error e => .error e
  | .ok s => countTopLevels s.topLevels

/-- `copyExpanded`: the number of bytes copied and the error. -/
def copyExpanded (m : Member) (remaining : Nat) : Work (Nat × Option Err) := do
  let limit ← toInt64 remaining
  let limit ← addInt64 limit 1
  let c : Copied limit ← ask (.copy m limit)
  let n ← toUInt64 c.written
  pure (c.written, if remaining < n then some .expandedTooLarge else c.err)

def capped (limit : Option (Nat × Err)) (remaining : Nat) : Nat :=
  match limit with
  | some (n, _) => if n < remaining then n else remaining
  | none => remaining

/-- The error of a copy that has exceeded a bound: the limit of the file, or the budget. -/
def copyError (limit : Option (Nat × Err)) (remaining : Nat) (e : Err) : Err :=
  match limit with
  | some (n, tooLarge) => if e.isExpandedTooLarge ∧ remaining = n then tooLarge else e
  | none => e

def validateMember (maxExpandedBytes expanded : Nat) (file : Member) : Work Nat :=
  if file.isDir then pure expanded
  else do
    let cleaned ← ofExcept (validateBuildArchivePath file.name)
    let remaining ← sub64 maxExpandedBytes expanded
    let limit := requiredBuildFileLimit cleaned
    let opened : Option Err ← ask (.openMember file)
    orFail (opened.map (memberError file.name))
    let copied ← copyExpanded file (capped limit remaining)
    let closeErr : Option Err ← ask (.closeMember file)
    orFail (copied.2.map fun e =>
      memberError file.name (copyError limit (capped limit remaining) e))
    orFail (closeErr.map (memberError file.name))
    let n ← toUInt64 copied.1
    add64 expanded n

def validateArchiveContents (files : List Member) (maxExpandedBytes : Nat) : Work Nat :=
  files.foldlM (validateMember maxExpandedBytes) 0

def validateBuildArchiveWithBudget (zip : ArchiveFile) (budget : ArchiveBudget) : Work Nat := do
  failIf (budget.compressedBytes < zip.bytes.length) .archiveTooLarge
  ofExcept ((checkZipEntryCount zip.bytes budget.entries).mapError ofZipError)
  let files ← ofExcept zip.opened
  checkArchiveHeaders files budget
  let validCount ← ofExcept (countImages files)
  let _ ← validateArchiveContents files budget.expandedBytes
  pure validCount

def validateBuildArchive (zip : ArchiveFile) : Work Nat := do
  let r ← (validateBuildArchiveWithBudget zip defaultArchiveBudget).attempt
  match r with
  | .ok n => pure n
  | .error e => throw (classifyBuildArchiveError e)

end KovaService.Archive
