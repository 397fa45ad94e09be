import KovaService.Archive.Validate

/-!
`ExtractZip`: every member is written below a staging directory, which gets its final name at the
end.
-/

namespace KovaService.Archive

open Lib Lib.Path Exec

def isNotExist : Err → Bool
  | .outside notExist _ => notExist
  | _ => false

def removeError (e : Option Err) : Option Err := e.filter (!isNotExist ·)

def longTarget (m : Member) : Err :=
  .text ("symlink " ++ String.ofList m.name ++ " target exceeds 4 KiB")

def extractSymlink (budget expanded : Nat) (f : Member) (cleaned : List Char) : Work Nat := do
  failIf (maxArchiveSymlinkTargetBytes < f.uncompressedSize64) (longTarget f)
  let opened : Option Err ← ask (.openMember f)
  orFail opened
  let remaining ← sub64 budget expanded
  let next ← add64 remaining 1
  let readLimit ← toInt64 (if next < maxArchiveSymlinkTargetBytes + 1 then next
    else maxArchiveSymlinkTargetBytes + 1)
  let linkTarget : ReadText readLimit ← ask (.readAll f readLimit)
  let closeErr : Option Err ← ask (.closeMember f)
  orFail linkTarget.err
  let n ← toUInt64 (textSize linkTarget.text)
  let left ← sub64 budget expanded
  failIf (left < n) .expandedTooLarge
  failIf (maxArchiveSymlinkTargetBytes < textSize linkTarget.text) (longTarget f)
  orFail closeErr
  let expanded ← add64 expanded n
  let safeTarget ← ofExcept (resolveArchiveSymlinkTarget cleaned linkTarget.text)
  let made : Option Err ← ask (.mkdirAll (dir cleaned))
  orFail made
  let removed : Option Err ← ask (.remove cleaned)
  orFail (removeError removed)
  let linked : Option Err ← ask (.symlink safeTarget cleaned)
  orFail linked
  pure expanded

def extractFile (budget expanded : Nat) (f : Member) (cleaned : List Char) : Work Nat := do
  let made : Option Err ← ask (.mkdirAll (dir cleaned))
  orFail made
  let out : Option Err ← ask (.openFile cleaned)
  orFail out
  let opened : Option Err ← ask (.openMember f)
  match opened with
  | some e => do
    let _ : Option Err ← ask .closeFile
    throw e
  | none => do
    let remaining ← sub64 budget expanded
    let limit := requiredBuildFileLimit cleaned
    let copied ← copyExpanded f (capped limit remaining)
    let closeReadErr : Option Err ← ask (.closeMember f)
    let closeWriteErr : Option Err ← ask .closeFile
    orFail (copied.2.map fun e =>
      match limit with
      | some (n, tooLarge) =>
        if e.isExpandedTooLarge ∧ capped limit remaining = n then memberError f.name tooLarge else e
      | none => e)
    orFail closeReadErr
    orFail closeWriteErr
    let n ← toUInt64 copied.1
    add64 expanded n

def extractMember (budget expanded : Nat) (f : Member) : Work Nat := do
  let cleaned ← ofExcept (validateBuildArchivePath f.name)
  if cleaned = [] then pure expanded
  else if f.isDir then do
    let made : Option Err ← ask (.mkdirAll cleaned)
    orFail made
    pure expanded
  else if f.isSymlink then extractSymlink budget expanded f cleaned
  else extractFile budget expanded f cleaned

def extractZipWithBudget (zip : ArchiveFile) (budget : ArchiveBudget) : Work Unit := do
  failIf (budget.compressedBytes < zip.bytes.length) .archiveTooLarge
  ofExcept ((checkZipEntryCount zip.bytes budget.entries).mapError ofZipError)
  let files ← ofExcept zip.opened
  checkArchiveHeaders files budget
  let staged : Option Err ← ask .stage
  orFail staged
  let _ ← files.foldlM (extractMember budget.expandedBytes) 0
  let renamed : Option Err ← ask .rename
  orFail renamed

def extractZip (zip : ArchiveFile) : Work Unit := extractZipWithBudget zip defaultArchiveBudget

end KovaService.Archive
