import KovaService.Lib.Path
import KovaService.Lib.Text
import KovaService.Lib.Trace
import KovaService.Archive.Preflight

/-!
The members of a source archive and the check of their headers.

The functions that read or write members are programs over requests, so that whatever a member
decompresses to and whatever the file system answers is an arbitrary answer.  Every machine
operation on a size is a request as well: it computes modulo its width, and the trace of a run shows
whether it was exact.
-/

namespace KovaService.Archive

open Lib Lib.Path

inductive Err where
  | archiveTooLarge
  | expandedTooLarge
  | tooManyEntries
  | dockerfileTooLarge
  | metadataTooLarge
  | zip (e : ZipError)
  /-- An error of the operating system or of a library. -/
  | outside (notExist : Bool) (message : String)
  | text (message : String)
  | invalid (e : Err)
  | wrap (before : String) (e : Err)
  deriving DecidableEq

namespace Err

def isInvalid : Err → Bool
  | .invalid _ => true
  | .wrap _ e => e.isInvalid
  | _ => false

def isExpandedTooLarge : Err → Bool
  | .expandedTooLarge => true
  | .invalid e => e.isExpandedTooLarge
  | .wrap _ e => e.isExpandedTooLarge
  | _ => false

def isKnown : Err → Bool
  | .archiveTooLarge | .expandedTooLarge | .tooManyEntries | .dockerfileTooLarge
  | .metadataTooLarge | .invalid _ | .zip .format | .zip .tooManyEntries | .zip .checksum
  | .zip .algorithm => true
  | .wrap _ e => e.isKnown
  | _ => false

end Err

def invalidBuildArchive (e : Err) : Err := if e.isInvalid then e else .invalid e

def classifyBuildArchiveError (e : Err) : Err := if e.isKnown then invalidBuildArchive e else e

def ofZipError : ZipError → Err
  | .tooManyEntries => .tooManyEntries
  | e => .zip e

def quoted (p : List Char) : String := "\"" ++ String.ofList p ++ "\""

def memberError (name : List Char) (e : Err) : Err :=
  .wrap ("source archive member " ++ quoted name ++ ": ") e

inductive FileType where
  | regular
  | directory
  | symlink
  | other
  deriving DecidableEq

structure Member where
  name : List Char
  fileType : FileType
  uncompressedSize64 : Nat
  deriving DecidableEq

namespace Member

/-- `FileInfo().IsDir()`: a name that ends in a slash makes a directory. -/
def isDir (m : Member) : Bool := m.fileType == .directory || m.name.getLast? == some '/'

def isSymlink (m : Member) : Bool := m.fileType == .symlink

def isRegular (m : Member) : Bool := m.fileType == .regular && m.name.getLast? != some '/'

end Member

def textSize (t : List Char) : Nat := (t.map Char.utf8Size).sum

inductive Arith where
  | sub (a b : Nat)
  | add (a b : Nat)
  | signed (a : Nat)
  | addSigned (a b : Int)
  | unsigned (a : Int)
  deriving DecidableEq

def Arith.Exact : Arith → Prop
  | .sub a b => b ≤ a ∧ a < 2 ^ 64
  | .add a b => a + b < 2 ^ 64
  | .signed a => a < 2 ^ 63
  | .addSigned a b => -(2 ^ 63) ≤ a + b ∧ a + b < 2 ^ 63
  | .unsigned a => 0 ≤ a ∧ a < 2 ^ 64

inductive Request where
  | arith (op : Arith)
  | openMember (m : Member)
  | copy (m : Member) (limit : Int)
  | readAll (m : Member) (limit : Int)
  | closeMember (m : Member)
  | stage
  | mkdirAll (path : List Char)
  | remove (path : List Char)
  | symlink (target path : List Char)
  | openFile (path : List Char)
  | closeFile
  | rename

structure Copied (limit : Int) where
  read : Nat
  written : Nat
  err : Option Err
  read_le : read ≤ limit.toNat
  written_le : written ≤ read
  complete : err = none → written = read

structure ReadText (limit : Int) where
  text : List Char
  err : Option Err
  size_le : textSize text ≤ limit.toNat

def Answer : Request → Type
  | .arith _ => Unit
  | .copy _ limit => Copied limit
  | .readAll _ limit => ReadText limit
  | _ => Option Err

abbrev Work : Type → Type := Exec Request Answer Unit Err

abbrev History : Type := List (Event Request Answer)

open Exec

def ask (q : Request) : Work (Answer q) := request q

def ofExcept {α : Type} : Except Err α → Work α
  | .ok a => pure a
  | .error e => throw e

def orFail : Option Err → Work Unit
  | none => pure ()
  | some e => throw e

def sub64 (a b : Nat) : Work Nat := do
  let _ ← ask (.arith (.sub a b))
  pure ((2 ^ 64 + a - b) % 2 ^ 64)

def add64 (a b : Nat) : Work Nat := do
  let _ ← ask (.arith (.add a b))
  pure ((a + b) % 2 ^ 64)

def toInt64 (a : Nat) : Work Int := do
  let _ ← ask (.arith (.signed a))
  pure (Bytes.int64 a)

def addInt64 (a b : Int) : Work Int := do
  let _ ← ask (.arith (.addSigned a b))
  pure (Bytes.int64 (a + b))

def toUInt64 (a : Int) : Work Nat := do
  let _ ← ask (.arith (.unsigned a))
  pure (a % 2 ^ 64).toNat

def unslash (p : List Char) : List Char := p.map fun c => if c = '\\' then '/' else c

def validateBuildArchivePath (name : List Char) : Except Err (List Char) :=
  let normalized := unslash (Text.trim name)
  if normalized = [] then .ok []
  else if normalized.head? = some '/' then
    .error (invalidBuildArchive (.text ("zip contains absolute path " ++ quoted name)))
  else
    let cleaned := clean normalized
    if cleaned = dot then .ok []
    else if cleaned = dotdot ∨ (dotdot ++ ['/']).isPrefixOf cleaned then
      .error (invalidBuildArchive (.text ("zip contains invalid path " ++ quoted name)))
    else .ok cleaned

def resolveArchiveSymlinkTarget (name target : List Char) : Except Err (List Char) :=
  let normalized := unslash (Text.trim target)
  if normalized = [] then
    .error (.text ("symlink " ++ String.ofList name ++ " has empty target"))
  else if normalized.head? = some '/' then
    .error (.text ("symlink " ++ String.ofList name ++ " points to absolute path " ++
      quoted target))
  else
    let cleanedName := clean (unslash name)
    let buildRoot := (cleanedName.splitOn '/').headD []
    let resolved := clean (joinClean (dir cleanedName) normalized)
    if resolved ≠ buildRoot ∧ ¬ (buildRoot ++ ['/']).isPrefixOf resolved then
      .error (.text ("symlink " ++ String.ofList name ++ " points outside the build context: " ++
        quoted target))
    else .ok (clean normalized)

def Member.path (m : Member) : List Element :=
  match validateBuildArchivePath m.name with
  | .ok cleaned => elements cleaned
  | .error _ => []

theorem elements_nil : elements [] = [] := by decide

theorem isPrefixOf_join (k : Nat) (names : List Element) :
    (dotdot ++ ['/']).isPrefixOf (join (List.replicate (k + 1) dotdot ++ names)) ∨
      join (List.replicate (k + 1) dotdot ++ names) = dotdot := by
  rw [List.replicate_succ, List.cons_append]
  cases List.replicate k dotdot ++ names with
  | nil => exact .inr rfl
  | cons s l => exact .inl (by simp [join, List.intercalate, dotdot, List.isPrefixOf])

variable {cleaned : List Char}

theorem validateBuildArchivePath_ok {name : List Char}
    (h : validateBuildArchivePath name = .ok cleaned) :
    cleaned = join (elements cleaned) ∧ ∀ s ∈ elements cleaned, Name s := by
  have empty : ([] : List Char) = join (elements []) ∧ ∀ s ∈ elements [], Name s := by
    rw [elements_nil]
    exact ⟨rfl, by simp⟩
  unfold validateBuildArchivePath at h
  dsimp only at h
  generalize unslash (Text.trim name) = normalized at h
  split_ifs at h with h₁ h₂ h₃ h₄
  · injection h with h
    exact h ▸ empty
  · injection h with h
    exact h ▸ empty
  · injection h with h
    obtain ⟨k, names, heq, hn⟩ :=
      normalize_spec fun s => slash_notMem_of_splitOn (p := normalized)
    have hel := elements_clean h₂
    have hclean := clean_relative h₂
    rw [heq] at hel hclean
    rw [not_or] at h₄
    cases k with
    | zero =>
      rw [List.replicate_zero, List.nil_append] at hel hclean
      by_cases hnil : names = []
      · rw [if_pos hnil] at hclean
        exact absurd hclean h₃
      · rw [if_neg hnil] at hclean
        rw [← h, hel]
        exact ⟨hclean, hn⟩
    | succ k =>
      -- a parent step in front is refused
      rw [if_neg (by simp)] at hclean
      rcases isPrefixOf_join k names with hp | hp
      · exact absurd (hclean ▸ hp) h₄.2
      · exact absurd (hclean.trans hp) h₄.1

theorem path_eq {m : Member} (h : validateBuildArchivePath m.name = .ok cleaned) :
    m.path = elements cleaned := by
  rw [Member.path, h]

theorem path_names (m : Member) : ∀ s ∈ m.path, Name s := by
  unfold Member.path
  split
  · next cleaned h => exact (validateBuildArchivePath_ok h).2
  · simp

theorem cleaned_eq {m : Member} (h : validateBuildArchivePath m.name = .ok cleaned) :
    cleaned = join m.path :=
  path_eq h ▸ (validateBuildArchivePath_ok h).1

end KovaService.Archive
