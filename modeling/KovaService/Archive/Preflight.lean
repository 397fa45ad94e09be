import KovaService.Archive.Reader

/-!
`checkZipEntryCount`, the preflight that counts the headers of the central directory before
`archive/zip` materializes its members.

The preflight walks the directory that ends at the end record.  The reader trusts the stated offset
when a header sits there, and the two agree on the number of members only when nothing lies between
the directory stated and the record that states it.
-/

namespace KovaService.Archive

open Lib.Bytes

variable {bytes : List UInt8}

/-- The search for the end record among the candidates below `n`: one whose comment does not fit is
passed over. -/
def findEnd (tail : List UInt8) : Nat → Option Nat
  | 0 => none
  | n + 1 =>
    if u32 tail n ≠ directoryEndSignature then findEnd tail n
    else if n + 22 + u16 tail (n + 20) ≤ tail.length then some n
    else findEnd tail n

structure Directory where
  count : Nat
  directorySize : Nat
  directoryEnd : Nat
  deriving DecidableEq

def Directory.directoryStart (dir : Directory) : Nat := dir.directoryEnd - dir.directorySize

/-- The zip64 branch of `checkZipEntryCount`. -/
def locateDirectory64 (bytes : List UInt8) (endOffset : Nat) : Except ZipError Directory :=
  if endOffset < 20 then .error .format
  else
    let locator := bytes.drop (endOffset - 20)
    if u32 locator 0 ≠ directory64LocSignature then .error .format
    else
      let zip64Offset := u64 locator 8
      if bytes.length < 56 ∨ bytes.length - 56 < zip64Offset then .error .format
      else
        let zip64End := bytes.drop zip64Offset
        if u32 zip64End 0 ≠ directory64EndSignature then .error .format
        else .ok ⟨u64 zip64End 32, u64 zip64End 40, zip64Offset⟩

def tailSize (bytes : List UInt8) : Nat := min bytes.length (22 + 65535)

def findEndFrom (bytes : List UInt8) (start : Nat) : Option Nat :=
  let tail := bytes.drop start
  (findEnd tail (tail.length - 21)).map (start + ·)

@[irreducible] def findEndOffset (bytes : List UInt8) : Option Nat :=
  findEndFrom bytes (bytes.length - tailSize bytes)

def locateDirectory (bytes : List UInt8) : Except ZipError Directory :=
  match findEndOffset bytes with
  | none => .error .format
  | some endOffset =>
    let record := bytes.drop endOffset
    let count := u16 record 10
    let directorySize := u32 record 12
    if count = 0xffff ∨ directorySize = 0xffffffff ∨ u32 record 16 = 0xffffffff then
      locateDirectory64 bytes endOffset
    else .ok ⟨count, directorySize, endOffset⟩

def entryBytes (bytes : List UInt8) (start size offset : Nat) : Except ZipError Nat :=
  if size < offset + 46 then .error .eof
  else if u32 bytes (start + offset) ≠ directoryHeaderSignature then .error .format
  else if size - offset < 46 + headerTail bytes (start + offset) then .error .format
  else .ok (46 + headerTail bytes (start + offset))

/-- The loop over the directory; `room` more entries are within the limit. -/
def walkDirectory (bytes : List UInt8) (start size : Nat) : Nat → Nat → Nat → Except ZipError Nat
  | room, offset, found =>
    if size ≤ offset then .ok found
    else
      match entryBytes bytes start size offset with
      | .error e => .error e
      | .ok n =>
        match room with
        | 0 => .error .tooManyEntries
        | room + 1 => walkDirectory bytes start size room (offset + n) (found + 1)

def checkZipEntryCount (bytes : List UInt8) (maxEntries : Nat) : Except ZipError Unit :=
  match locateDirectory bytes with
  | .error e => .error e
  | .ok dir =>
    if maxEntries < dir.count then .error .tooManyEntries
    else if dir.directoryEnd < dir.directorySize then .error .format
    else
      match walkDirectory bytes dir.directoryStart dir.directorySize maxEntries 0 0 with
      | .error e => .error e
      | .ok found => if found ≠ dir.count then .error .format else .ok ()

theorem entryBytes_ok {start size offset n : Nat} (h : entryBytes bytes start size offset = .ok n) :
    n = 46 + headerTail bytes (start + offset) ∧ offset + n ≤ size := by
  unfold entryBytes at h
  split_ifs at h with h₁ h₂ h₃
  injection h with h
  exact ⟨h.symm, by omega⟩

/-- The reader stops no later than the walk, for it follows the same headers up to a place where no
header starts. -/
theorem walkDirectory_run {start size : Nat}
    (stop : u32 bytes (start + size) ≠ directoryHeaderSignature) {room offset found n : Nat}
    (hoff : offset ≤ size) (h : walkDirectory bytes start size room offset found = .ok n) :
    found + (readDirectoryHeaders bytes (start + offset)).1.length ≤ n := by
  induction room generalizing offset found with
  | zero =>
    unfold walkDirectory at h
    split_ifs at h with hend
    · injection h with h
      rw [readDirectoryHeaders_stop (by rwa [Nat.le_antisymm hoff hend])]
      exact Nat.le_of_eq h
    · split at h <;> cases h
  | succ room ih =>
    unfold walkDirectory at h
    split_ifs at h with hend
    · injection h with h
      rw [readDirectoryHeaders_stop (by rwa [Nat.le_antisymm hoff hend])]
      exact Nat.le_of_eq h
    · split at h
      · cases h
      next k hk =>
      obtain ⟨hlen, hfit⟩ := entryBytes_ok hk
      have rest := ih hfit h
      cases hr : readDirectoryHeader bytes (start + offset) with
      | error e =>
        rw [readDirectoryHeaders_error hr, List.length_nil]
        omega
      | ok next =>
        obtain ⟨-, hnext, -⟩ := readDirectoryHeader_ok hr
        have hpos : next = start + (offset + k) := by omega
        rw [readDirectoryHeaders_ok hr, List.length_cons, hpos]
        omega

theorem findEnd_spec {tail : List UInt8} {n k : Nat} (h : findEnd tail n = some k) :
    k < n ∧ u32 tail k = directoryEndSignature ∧ k + 22 + u16 tail (k + 20) ≤ tail.length ∧
      ∀ i, k < i → i < n → u32 tail i = directoryEndSignature →
        tail.length < i + 22 + u16 tail (i + 20) := by
  induction n with
  | zero => cases h
  | succ n ih =>
    unfold findEnd at h
    split_ifs at h with hsig hfit
    · obtain ⟨hlt, hk, hc, later⟩ := ih h
      refine ⟨by omega, hk, hc, fun i hki hi hi' => ?_⟩
      rcases Nat.lt_succ_iff_lt_or_eq.mp hi with hi | rfl
      · exact later i hki hi hi'
      · exact absurd hi' hsig
    · injection h with h
      subst h
      exact ⟨by omega, not_not.mp hsig, hfit, fun i hki hi => by omega⟩
    · obtain ⟨hlt, hk, hc, later⟩ := ih h
      refine ⟨by omega, hk, hc, fun i hki hi hi' => ?_⟩
      rcases Nat.lt_succ_iff_lt_or_eq.mp hi with hi | rfl
      · exact later i hki hi hi'
      · omega

/-- The last end record in the file whose comment fits. -/
structure EndRecord (bytes : List UInt8) (e : Nat) : Prop where
  signature : u32 bytes e = directoryEndSignature
  comment : e + 22 + u16 bytes (e + 20) ≤ bytes.length
  last : ∀ i, e < i → i + 22 ≤ bytes.length → u32 bytes i = directoryEndSignature →
    bytes.length < i + 22 + u16 bytes (i + 20)

variable {e : Nat}

theorem EndRecord.le {e' : Nat} (h : EndRecord bytes e) (h' : EndRecord bytes e') : e' ≤ e := by
  by_contra hlt
  have hfit := h'.comment
  have hover := h.last e' (by omega) (by omega) h'.signature
  omega

theorem findEndOffset_spec (h : findEndOffset bytes = some e) :
    EndRecord bytes e ∧ bytes.length ≤ e + 65557 := by
  unfold findEndOffset at h
  have hs : bytes.length - tailSize bytes ≤ bytes.length := Nat.sub_le _ _
  have hnear : bytes.length ≤ bytes.length - tailSize bytes + 65557 := by
    unfold tailSize
    omega
  generalize bytes.length - tailSize bytes = s at h hs hnear
  obtain ⟨k, hk, rfl⟩ := Option.map_eq_some_iff.mp h
  obtain ⟨hlt, hsig, hfit, later⟩ := findEnd_spec hk
  rw [List.length_drop] at hlt hfit later
  rw [u32_drop] at hsig
  rw [u16_drop] at hfit
  refine ⟨⟨hsig, ?_, fun i hi hlen hi' => ?_⟩, by omega⟩
  · rw [Nat.add_assoc s k 20]
    omega
  · have hsi : s + (i - s) = i := by omega
    have hover := later (i - s) (by omega) (by omega) (by rwa [u32_drop, hsi])
    rw [u16_drop, ← Nat.add_assoc, hsi] at hover
    omega

variable {dir : Directory}

theorem locateDirectory64_stop {endOffset : Nat} (h : locateDirectory64 bytes endOffset = .ok dir) :
    u32 bytes dir.directoryEnd = directory64EndSignature := by
  unfold locateDirectory64 at h
  dsimp only at h
  split_ifs at h with h₁ h₂ h₃ h₄
  injection h with h
  subst h
  rwa [u32_drop, Nat.add_zero, not_not] at h₄

theorem locateDirectory_stop (h : locateDirectory bytes = .ok dir) :
    u32 bytes dir.directoryEnd ≠ directoryHeaderSignature := by
  rw [locateDirectory] at h
  cases he : findEndOffset bytes with
  | none =>
    rw [he] at h
    exact absurd h (by simp)
  | some endOffset =>
    rw [he] at h
    dsimp only at h
    split_ifs at h with h64
    · rw [locateDirectory64_stop h]
      decide
    · injection h with h
      subst h
      rw [(findEndOffset_spec he).1.signature]
      decide

theorem findEndOffset_of_accepted {limit : Nat} (h : checkZipEntryCount bytes limit = .ok ()) :
    ∃ e, findEndOffset bytes = some e := by
  cases he : findEndOffset bytes with
  | none => simp [checkZipEntryCount, locateDirectory, he] at h
  | some e => exact ⟨e, rfl⟩

theorem run_of_accepted {limit : Nat} (h : checkZipEntryCount bytes limit = .ok ())
    (hdir : locateDirectory bytes = .ok dir) :
    dir.directorySize ≤ dir.directoryEnd ∧
      (readDirectoryHeaders bytes dir.directoryStart).1.length ≤ limit := by
  rw [checkZipEntryCount, hdir] at h
  dsimp only at h
  split_ifs at h with hcount hsize
  cases hfound : walkDirectory bytes dir.directoryStart dir.directorySize limit 0 0 with
  | error e =>
    rw [hfound] at h
    exact absurd h (by simp)
  | ok found =>
    rw [hfound] at h
    dsimp only at h
    split_ifs at h with heq
    have hsize := Nat.le_of_not_lt hsize
    have hstart : dir.directoryStart + dir.directorySize = dir.directoryEnd :=
      Nat.sub_add_cancel hsize
    have stop : u32 bytes (dir.directoryStart + dir.directorySize) ≠ directoryHeaderSignature :=
      hstart ▸ locateDirectory_stop hdir
    have run := walkDirectory_run stop (Nat.zero_le _) hfound
    rw [Nat.add_zero] at run
    exact ⟨hsize, by omega⟩

/-- No record starts behind this one, not even a truncated one, which the reader would stop at. -/
def Final (bytes : List UInt8) (e : Nat) : Prop :=
  ∀ i, e < i → i + 22 ≤ bytes.length → u32 bytes i ≠ directoryEndSignature

theorem findSignatureInBlock_iff {b : List UInt8} {n k : Nat} :
    findSignatureInBlock b n = some k ↔ k < n ∧ u32 b k = directoryEndSignature ∧
      k + 22 + u16 b (k + 20) ≤ b.length ∧
      ∀ i, k < i → i < n → u32 b i ≠ directoryEndSignature := by
  induction n with
  | zero => simp [findSignatureInBlock]
  | succ n ih =>
    unfold findSignatureInBlock
    by_cases hsig : u32 b n = directoryEndSignature
    · rw [if_pos hsig]
      constructor
      · intro h
        split_ifs at h with hfit
        obtain rfl : n = k := Option.some.inj h
        exact ⟨by omega, hsig, by omega, fun i hi hn => by omega⟩
      · rintro ⟨hk, -, hfit, hlater⟩
        obtain rfl : k = n := by
          by_contra hne
          exact hlater n (by omega) (by omega) hsig
        rw [if_neg (by omega)]
    · rw [if_neg hsig, ih]
      constructor
      · rintro ⟨hk, hs, hfit, hlater⟩
        refine ⟨by omega, hs, hfit, fun i hi hn => ?_⟩
        rcases Nat.lt_succ_iff_lt_or_eq.mp hn with hn | rfl
        · exact hlater i hi hn
        · exact hsig
      · rintro ⟨hk, hs, hfit, hlater⟩
        refine ⟨?_, hs, hfit, fun i hi hn => hlater i hi (by omega)⟩
        by_contra hle
        obtain rfl : k = n := by omega
        exact hsig hs

theorem findInBlock_iff {start : Nat} : findInBlock bytes start = some e ↔
    start ≤ e ∧ u32 bytes e = directoryEndSignature ∧
      e + 22 + u16 bytes (e + 20) ≤ bytes.length ∧ Final bytes e := by
  unfold findInBlock
  simp only [Option.map_eq_some_iff, findSignatureInBlock_iff, u32_drop, u16_drop, List.length_drop]
  constructor
  · rintro ⟨k, ⟨hk, hs, hfit, hlater⟩, rfl⟩
    refine ⟨by omega, hs, by rw [Nat.add_assoc start k 20]; omega, fun i hi hlen => ?_⟩
    have hsi : start + (i - start) = i := by omega
    exact hsi ▸ hlater (i - start) (by omega) (by omega)
  · rintro ⟨hle, hs, hfit, hfinal⟩
    obtain ⟨k, rfl⟩ := Nat.exists_eq_add_of_le hle
    rw [Nat.add_assoc start k 20] at hfit
    exact ⟨k, ⟨by omega, hs, by omega, fun i hi hn => hfinal _ (by omega) (by omega)⟩, rfl⟩

theorem findDirectoryEnd_ok (h : findDirectoryEnd bytes = some e) :
    EndRecord bytes e ∧ Final bytes e := by
  have hblock : ∃ start, findInBlock bytes start = some e := by
    unfold findDirectoryEnd at h
    split at h
    · next hfound => exact ⟨_, h ▸ hfound⟩
    · split_ifs at h
      exact ⟨_, h⟩
  obtain ⟨start, hstart⟩ := hblock
  obtain ⟨-, hs, hfit, hfinal⟩ := findInBlock_iff.mp hstart
  exact ⟨⟨hs, hfit, fun i hi hlen hsig => absurd hsig (hfinal i hi hlen)⟩, hfinal⟩

theorem findDirectoryEnd_final (he : EndRecord bytes e) (hnear : bytes.length ≤ e + 65557)
    (hfinal : Final bytes e) : findDirectoryEnd bytes = some e := by
  have hblock : ∀ start, start ≤ e → findInBlock bytes start = some e := fun start hstart =>
    findInBlock_iff.mpr ⟨hstart, he.signature, he.comment, hfinal⟩
  unfold findDirectoryEnd
  split
  · next e' hfound =>
    obtain ⟨-, hs, hfit, hfinal'⟩ := findInBlock_iff.mp hfound
    have hother : EndRecord bytes e' := ⟨hs, hfit, fun i hi hlen h => absurd h (hfinal' i hi hlen)⟩
    rw [Nat.le_antisymm (he.le hother) (hother.le he)]
  · next hnone =>
    have hbefore : e < bytes.length - min bytes.length 1024 := by
      by_contra hin
      rw [hblock _ (by omega)] at hnone
      cases hnone
    rw [if_neg (by omega), hblock _ (by omega)]

/-- What the file states of its directory, in a record at `place` that both parsers go by. -/
inductive States (bytes : List UInt8) (e : Nat) : DirectoryEnd → Nat → Prop
  | plain (hcount : u16 bytes (e + 10) ≠ 0xffff)
      (hsize : u32 bytes (e + 12) ≠ 0xffff ∧ u32 bytes (e + 12) ≠ 0xffffffff)
      (hoffset : u32 bytes (e + 16) ≠ 0xffffffff) :
      States bytes e ⟨u16 bytes (e + 10), u32 bytes (e + 12), u32 bytes (e + 16)⟩ e
  | zip64 {loc place : Nat} (hloc : e = loc + 20)
      (hescape : u16 bytes (e + 10) = 0xffff ∨ u32 bytes (e + 16) = 0xffffffff)
      (hsignature : u32 bytes loc = directory64LocSignature)
      (hdisk : u32 bytes (loc + 4) = 0) (hdisks : u32 bytes (loc + 16) = 1)
      (hplace : u64 bytes (loc + 8) = place) (hfits : place + 56 ≤ bytes.length)
      (hrecord : u32 bytes place = directory64EndSignature) :
      States bytes e ⟨u64 bytes (place + 32), u64 bytes (place + 40), u64 bytes (place + 48)⟩ place

variable {d : DirectoryEnd} {place : Nat}

theorem States.place_lt (h : States bytes e d place) (he : EndRecord bytes e) :
    place < bytes.length := by
  have hfit := he.comment
  cases h <;> omega

theorem States.resolve (h : States bytes e d place) (hlen : bytes.length < 2 ^ 63) :
    resolveDirectoryEnd bytes e = .ok (d, place) := by
  unfold resolveDirectoryEnd
  cases h with
  | plain hcount hsize hoffset => simp [hcount, hsize.1, hoffset]
  | @zip64 loc _ hloc hescape hsignature hdisk hdisks hplace hfits hrecord =>
    subst hloc
    have hfind : findDirectory64End bytes (loc + 20) = some place := by
      simp only [findDirectory64End, Nat.add_sub_cancel, hsignature, hdisk, hdisks, hplace]
      rw [if_neg (by omega), if_neg (by simp), if_neg (by simp), if_neg (by simp),
        if_neg (by unfold maxInt64; omega)]
    rw [if_pos (hescape.imp id .inr), hfind]
    simp only [readDirectory64End]
    rw [if_neg (by omega), if_neg (by simpa using hrecord)]
    rfl

theorem States.locate (h : States bytes e d place) (he : findEndOffset bytes = some e) :
    locateDirectory bytes = .ok ⟨d.directoryRecords, d.directorySize, place⟩ := by
  unfold locateDirectory
  rw [he]
  simp only [u16_drop, u32_drop]
  cases h with
  | plain hcount hsize hoffset => simp [hcount, hsize.2, hoffset]
  | zip64 hloc hescape hsignature hdisk hdisks hplace hfits hrecord =>
    subst hloc
    rw [if_pos (hescape.imp id .inr), locateDirectory64, if_neg (by omega)]
    simp only [Nat.add_sub_cancel, u32_drop, u64_drop, Nat.add_zero, hsignature, hplace, hrecord]
    rw [if_neg (by simp), if_neg (by omega), if_neg (by simp)]

section Opened

variable (hlen : bytes.length < 2 ^ 63) (he : EndRecord bytes e)
  (hnear : bytes.length ≤ e + 65557) (hs : States bytes e d place)
  (hsize : d.directorySize ≤ place)

include hlen he hnear hs hsize

/-- The reader starts at the stated offset if a header sits there and the directory would end before
the record, and else where the preflight does. -/
theorem init_files_states (hfinal : Final bytes e) (hoffset : d.directoryOffset ≤ maxInt64) :
    (Reader.init bytes).files = (readDirectoryHeaders bytes
      (if d.directoryOffset + d.directorySize < place ∧
          (readDirectoryHeader bytes d.directoryOffset).isOk
        then d.directoryOffset else place - d.directorySize)).1 := by
  have hplace := hs.place_lt he
  have hcomment := he.comment
  have hbase : int64 (int64 (place - d.directorySize) - d.directoryOffset) =
      place - d.directorySize - d.directoryOffset := by
    unfold maxInt64 at hoffset
    rw [int64_eq (x := (place : Int) - d.directorySize) (by omega) (by omega),
      int64_eq (by omega) (by omega)]
  have hstart : int64 (place - d.directorySize - d.directoryOffset + d.directoryOffset) =
      place - d.directorySize := by
    rw [Int.sub_add_cancel, int64_eq (by omega) (by omega)]
  have hgap : (0 : Int) < place - d.directorySize - d.directoryOffset ↔
      d.directoryOffset + d.directorySize < place := by omega
  have hread : readDirectoryEnd bytes = .ok (d, if d.directoryOffset + d.directorySize < place ∧
      (readDirectoryHeader bytes d.directoryOffset).isOk = true then 0
      else place - d.directorySize - d.directoryOffset) := by
    unfold readDirectoryEnd
    rw [findDirectoryEnd_final he hnear hfinal]
    dsimp only
    rw [if_neg (by omega), hs.resolve hlen]
    dsimp only
    rw [if_neg (by unfold maxInt64 at hoffset ⊢; omega), hbase, hstart, if_neg (by omega)]
    simp only [hgap]
    split_ifs <;> rfl
  rw [init_files_ok hread]
  split_ifs
  · rw [Int.zero_add, int64_eq (by omega) (by unfold maxInt64 at hoffset; omega), Int.toNat_natCast]
  · rw [hstart, ← Int.natCast_sub hsize, Int.toNat_natCast]

end Opened

theorem init_files_truncated (he : EndRecord bytes e) (h : ¬ Final bytes e) :
    (Reader.init bytes).files = [] := by
  cases hfind : findDirectoryEnd bytes with
  | none =>
    refine init_files_error (e := .format) ?_
    rw [readDirectoryEnd, hfind]
  | some e' =>
    obtain ⟨he', hfinal⟩ := findDirectoryEnd_ok hfind
    rw [Nat.le_antisymm (he'.le he) (he.le he')] at h
    exact absurd hfinal h

theorem init_files_beyond (hlen : bytes.length < 2 ^ 63) (he : EndRecord bytes e)
    (hnear : bytes.length ≤ e + 65557) (hs : States bytes e d place) (hfinal : Final bytes e)
    (hoffset : maxInt64 < d.directoryOffset) : (Reader.init bytes).files = [] := by
  refine init_files_error (e := .format) ?_
  have hcomment := he.comment
  unfold readDirectoryEnd
  rw [findDirectoryEnd_final he hnear hfinal]
  dsimp only
  rw [if_neg (by omega), hs.resolve hlen]
  dsimp only
  rw [if_pos (.inr hoffset)]

/-- Three headers under an end record that states one header at offset 0.  The preflight walks the
last header, the reader starts at the first. -/
def threeHeaders : List UInt8 :=
  let header : List UInt8 := [0x50, 0x4b, 0x01, 0x02] ++ List.replicate 42 0
  header ++ header ++ header ++
    [0x50, 0x4b, 0x05, 0x06, 0, 0, 0, 0, 1, 0, 1, 0, 46, 0, 0, 0, 0, 0, 0, 0, 0, 0]

theorem threeHeaders_end : EndRecord threeHeaders 138 where
  signature := by decide +kernel
  comment := by decide +kernel
  last i hi hlen := absurd hlen (by rw [show threeHeaders.length = 160 from rfl]; omega)

theorem threeHeaders_states : States threeHeaders 138 ⟨1, 46, 0⟩ 138 :=
  @States.plain threeHeaders 138 (by decide +kernel) (by decide +kernel) (by decide +kernel)

end KovaService.Archive
