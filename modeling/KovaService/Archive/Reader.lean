import KovaService.Lib.Bytes

/-!
How Go's `archive/zip` opens a file: the end record and its zip64 variant, the base offset, and the
loop over the headers of the central directory.

Only the directory is read here.  A member is kept as the position of its header.
-/

namespace KovaService.Archive

open Lib.Bytes

variable (bytes : List UInt8)

def directoryHeaderSignature : Nat := 0x02014b50

def directoryEndSignature : Nat := 0x06054b50

def directory64EndSignature : Nat := 0x06064b50

def directory64LocSignature : Nat := 0x07064b50

def maxInt64 : Nat := 2 ^ 63 - 1

inductive ZipError where
  | format
  | tooManyEntries
  | eof
  | unexpectedEOF
  | commentLength
  | checksum
  | algorithm
  deriving DecidableEq

structure Needs where
  uncompressed : Bool
  compressed : Bool
  headerOffset : Bool
  deriving DecidableEq

def Needs.count (needs : Needs) : Nat :=
  needs.uncompressed.toNat + needs.compressed.toNat + needs.headerOffset.toNat

def Needs.none : Needs := ⟨false, false, false⟩

/-- The loop `parseExtras` of `readDirectoryHeader`.  Only the zip64 field can be malformed. -/
def parseExtras (needs : Needs) (extra : List UInt8) : Except ZipError Needs :=
  if extra.length < 4 then .ok needs
  else
    let size := u16 extra 2
    let rest := extra.drop 4
    if rest.length < size then .ok needs
    else if u16 extra 0 = 0x0001 then
      if size < 8 * needs.count then .error .format
      else parseExtras Needs.none (rest.drop size)
    else parseExtras needs (rest.drop size)
termination_by extra.length
decreasing_by all_goals simp only [List.length_drop]; omega

def headerTail (pos : Nat) : Nat :=
  u16 bytes (pos + 28) + u16 bytes (pos + 30) + u16 bytes (pos + 32)

def headerNeeds (pos : Nat) : Needs where
  uncompressed := u32 bytes (pos + 24) == 0xffffffff
  compressed := u32 bytes (pos + 20) == 0xffffffff
  headerOffset := u32 bytes (pos + 42) == 0xffffffff

def headerExtra (pos : Nat) : List UInt8 :=
  (bytes.drop (pos + 46 + u16 bytes (pos + 28))).take (u16 bytes (pos + 30))

/-- `readDirectoryHeader` on a reader that stands at `pos`; the position behind the header. -/
def readDirectoryHeader (pos : Nat) : Except ZipError Nat :=
  if bytes.length ≤ pos then .error .eof
  else if bytes.length < pos + 46 then .error .unexpectedEOF
  else if u32 bytes pos ≠ directoryHeaderSignature then .error .format
  else if bytes.length < pos + 46 + headerTail bytes pos then
    -- `io.ReadFull` tells an empty read from a short one
    if bytes.length = pos + 46 then .error .eof else .error .unexpectedEOF
  else
    match parseExtras (headerNeeds bytes pos) (headerExtra bytes pos) with
    | .error e => .error e
    | .ok needs =>
      if needs.compressed || needs.headerOffset then .error .format
      else .ok (pos + 46 + headerTail bytes pos)

variable {pos : Nat} {next : Nat}

theorem readDirectoryHeader_ok {bytes : List UInt8} (h : readDirectoryHeader bytes pos = .ok next) :
    u32 bytes pos = directoryHeaderSignature ∧ next = pos + 46 + headerTail bytes pos ∧
      next ≤ bytes.length := by
  unfold readDirectoryHeader at h
  split_ifs at h with h₁ h₂ h₃ h₄ h₅
  split at h
  · cases h
  · split_ifs at h with h₆
    injection h with h
    subst h
    exact ⟨not_not.mp h₃, rfl, Nat.le_of_not_lt h₄⟩

/-- The loop over the headers from `pos` on: the members read and the error that ends it. -/
def readDirectoryHeaders (bytes : List UInt8) (pos : Nat) : List Nat × ZipError :=
  match _h : readDirectoryHeader bytes pos with
  | .error e => ([], e)
  | .ok next =>
    let rest := readDirectoryHeaders bytes next
    (pos :: rest.1, rest.2)
termination_by bytes.length - pos
decreasing_by
  have := readDirectoryHeader_ok _h
  omega

theorem readDirectoryHeaders_error {bytes : List UInt8} {e : ZipError}
    (h : readDirectoryHeader bytes pos = .error e) : readDirectoryHeaders bytes pos = ([], e) := by
  rw [readDirectoryHeaders]
  split
  · next e' h' =>
    rw [h] at h'
    injection h' with h'
    rw [h']
  · next next' h' =>
    rw [h] at h'
    cases h'

theorem readDirectoryHeaders_ok {bytes : List UInt8}
    (h : readDirectoryHeader bytes pos = .ok next) :
    readDirectoryHeaders bytes pos =
      (pos :: (readDirectoryHeaders bytes next).1, (readDirectoryHeaders bytes next).2) := by
  rw [readDirectoryHeaders]
  split
  · next e h' =>
    rw [h] at h'
    cases h'
  · next next' h' =>
    rw [h] at h'
    injection h' with h'
    rw [h']

theorem readDirectoryHeaders_stop {bytes : List UInt8}
    (h : u32 bytes pos ≠ directoryHeaderSignature) : (readDirectoryHeaders bytes pos).1 = [] := by
  cases hr : readDirectoryHeader bytes pos with
  | error e => rw [readDirectoryHeaders_error hr]
  | ok next => exact absurd (readDirectoryHeader_ok hr).1 h

/-- At least `n` complete headers follow one another from `pos` on. -/
def HeaderChain (bytes : List UInt8) : Nat → Nat → Prop
  | _, 0 => True
  | pos, n + 1 => ∃ next, readDirectoryHeader bytes pos = .ok next ∧ HeaderChain bytes next n

theorem headerChain_iff {bytes : List UInt8} {n : Nat} :
    HeaderChain bytes pos n ↔ n ≤ (readDirectoryHeaders bytes pos).1.length := by
  induction n generalizing pos with
  | zero => simp [HeaderChain]
  | succ n ih =>
    cases h : readDirectoryHeader bytes pos with
    | error e => simp [HeaderChain, h, readDirectoryHeaders_error h]
    | ok next => simp [HeaderChain, h, readDirectoryHeaders_ok h, ih]

/-- `findSignatureInBlock` on the candidates below `n`. -/
def findSignatureInBlock (b : List UInt8) : Nat → Option Nat
  | 0 => none
  | n + 1 =>
    if u32 b n = directoryEndSignature then
      -- a truncated comment ends the search
      if b.length < u16 b (n + 20) + 22 + n then none else some n
    else findSignatureInBlock b n

def findInBlock (start : Nat) : Option Nat :=
  let b := bytes.drop start
  (findSignatureInBlock b (b.length - 21)).map (start + ·)

@[irreducible] def findDirectoryEnd : Option Nat :=
  match findInBlock bytes (bytes.length - min bytes.length 1024) with
  | some e => some e
  | none =>
    if bytes.length ≤ 1024 then none
    else findInBlock bytes (bytes.length - min bytes.length (65 * 1024))

structure DirectoryEnd where
  directoryRecords : Nat
  directorySize : Nat
  directoryOffset : Nat
  deriving DecidableEq

/-- `findDirectory64End`; an offset that is negative as `int64` is ignored by the caller. -/
def findDirectory64End (directoryEndOffset : Nat) : Option Nat :=
  if directoryEndOffset < 20 then none
  else
    let loc := directoryEndOffset - 20
    if u32 bytes loc ≠ directory64LocSignature then none
    else if u32 bytes (loc + 4) ≠ 0 then none
    else if u32 bytes (loc + 16) ≠ 1 then none
    else if maxInt64 < u64 bytes (loc + 8) then none
    else some (u64 bytes (loc + 8))

def readDirectory64End (offset : Nat) : Except ZipError DirectoryEnd :=
  if bytes.length < offset + 56 then .error .eof
  else if u32 bytes offset ≠ directory64EndSignature then .error .format
  else .ok ⟨u64 bytes (offset + 32), u64 bytes (offset + 40), u64 bytes (offset + 48)⟩

/-- The fields that count for the end record at `e`, and where the record they come from starts. -/
def resolveDirectoryEnd (e : Nat) : Except ZipError (DirectoryEnd × Nat) :=
  let d : DirectoryEnd := ⟨u16 bytes (e + 10), u32 bytes (e + 12), u32 bytes (e + 16)⟩
  if d.directoryRecords = 0xffff ∨ d.directorySize = 0xffff ∨ d.directoryOffset = 0xffffffff then
    match findDirectory64End bytes e with
    | none => .ok (d, e)
    | some p => (readDirectory64End bytes p).map (·, p)
  else .ok (d, e)

/-- `readDirectoryEnd`: the directory and the base offset. -/
def readDirectoryEnd : Except ZipError (DirectoryEnd × Int) :=
  match findDirectoryEnd bytes with
  | none => .error .format
  | some e =>
    if bytes.length < e + 22 + u16 bytes (e + 20) then .error .commentLength
    else
      match resolveDirectoryEnd bytes e with
      | .error err => .error err
      | .ok (d, directoryEndOffset) =>
        if maxInt64 < d.directorySize ∨ maxInt64 < d.directoryOffset then .error .format
        else
          let baseOffset :=
            int64 (int64 (directoryEndOffset - d.directorySize) - d.directoryOffset)
          let o := int64 (baseOffset + d.directoryOffset)
          if o < 0 ∨ (bytes.length : Int) ≤ o then .error .format
          else if 0 < baseOffset ∧ (readDirectoryHeader bytes d.directoryOffset).isOk then
            .ok (d, 0)
          else .ok (d, baseOffset)

structure Opened where
  files : List Nat
  error : Option ZipError
  deriving DecidableEq

/-- `Reader.init`: the members materialized, also when it fails. -/
def Reader.init : Opened :=
  match readDirectoryEnd bytes with
  | .error e => ⟨[], some e⟩
  | .ok (d, baseOffset) =>
    let read := readDirectoryHeaders bytes (int64 (baseOffset + d.directoryOffset)).toNat
    if read.2 = .eof then ⟨read.1, some .eof⟩
    else if read.1.length % 65536 ≠ d.directoryRecords % 65536 then ⟨read.1, some read.2⟩
    else ⟨read.1, none⟩

theorem init_files_error {bytes : List UInt8} {e : ZipError}
    (h : readDirectoryEnd bytes = .error e) : (Reader.init bytes).files = [] := by
  rw [Reader.init, h]

theorem init_files_ok {bytes : List UInt8} {d : DirectoryEnd} {baseOffset : Int}
    (h : readDirectoryEnd bytes = .ok (d, baseOffset)) : (Reader.init bytes).files =
      (readDirectoryHeaders bytes (int64 (baseOffset + d.directoryOffset)).toNat).1 := by
  rw [Reader.init, h]
  dsimp only
  split_ifs <;> rfl

end KovaService.Archive
