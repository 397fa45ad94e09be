import Mathlib.Data.List.Forall2
import KovaService.Lib.Occurrence

/-!
The bounded buffer for the output of a build command (`internal/batch/command_output.go`).

The buffer keeps the latest output and remembers whether a connection was refused.  It looks for the
phrase in each new chunk and in a small window around the boundary to what came before; `Sound` ties
that window to the whole stream, so the chunks do not matter.
-/

namespace KovaService.Batch

open Lib.Occurrence

def maxBuildOutputBytes : Nat := 1048576

def connectionRefusedHint : List UInt8 :=
  [99, 111, 110, 110, 101, 99, 116, 105, 111, 110, 32, 114, 101, 102, 117, 115, 101, 100]

structure BoundedTailBuffer where
  data : List UInt8 := []
  truncated : Bool := false
  sawConnectionRefused : Bool := false
deriving DecidableEq

/-- ASCII letters in lower case; every other byte is unchanged. -/
def fold (value : UInt8) : UInt8 := if 65 ≤ value ∧ value ≤ 90 then value + 32 else value

def matched : List UInt8 → List UInt8 → Bool
  | [], _ => true
  | _ :: _, [] => false
  | expected :: pattern, value :: data => fold value == expected && matched pattern data

def containsASCIIFold (pattern : List UInt8) : List UInt8 → Bool
  | [] => matched pattern []
  | value :: data => matched pattern (value :: data) || containsASCIIFold pattern data

theorem matched_iff (pattern data : List UInt8) :
    matched pattern data ↔ pattern <+: data.map fold := by
  induction pattern generalizing data with
  | nil => simp [matched]
  | cons expected pattern ih =>
    cases data with
    | nil => simp [matched]
    | cons value data =>
      rw [matched, Bool.and_eq_true, beq_iff_eq, ih, List.map_cons, List.cons_prefix_cons, eq_comm]

theorem containsASCIIFold_iff (pattern data : List UInt8) :
    containsASCIIFold pattern data ↔ pattern <:+: data.map fold := by
  induction data with
  | nil => rw [containsASCIIFold, matched_iff, List.map_nil, List.prefix_nil, List.infix_nil]
  | cons value data ih =>
    rw [containsASCIIFold, Bool.or_eq_true, ih, matched_iff, List.map_cons, List.infix_cons_iff]

/-- The same byte, or the same ASCII letter in the other case. -/
def EqualFold (lower value : UInt8) : Prop :=
  value = lower ∨ 97 ≤ lower ∧ lower ≤ 122 ∧ value = lower - 32

theorem eq_fold_iff {lower value : UInt8} (h : ¬ (65 ≤ lower ∧ lower ≤ 90)) :
    lower = fold value ↔ EqualFold lower value := by
  unfold fold EqualFold
  split <;> grind

theorem infix_fold_iff {pattern data : List UInt8} (h : ∀ c ∈ pattern, ¬ (65 ≤ c ∧ c ≤ 90)) :
    pattern <:+: data.map fold ↔ ∃ text, text <:+: data ∧ List.Forall₂ EqualFold pattern text := by
  have heq (text : List UInt8) : pattern = text.map fold ↔ List.Forall₂ EqualFold pattern text := by
    induction pattern generalizing text with
    | nil => simp
    | cons c pattern ih =>
      obtain ⟨hc, hp⟩ := List.forall_mem_cons.mp h
      cases text with
      | nil => simp
      | cons v text =>
        rw [List.map_cons, List.cons.injEq, List.forall₂_cons, eq_fold_iff hc, ih hp]
  simp only [List.infix_map_iff, heq]

variable {stream : List UInt8}

namespace BoundedTailBuffer

variable (b : BoundedTailBuffer) (p : List UInt8)

/-- The bytes around the boundary between what is kept and a new chunk. -/
def boundary : List UInt8 :=
  let previous := min b.data.length (connectionRefusedHint.length - 1)
  let incoming := min p.length (connectionRefusedHint.length - 1)
  b.data.drop (b.data.length - previous) ++ p.take incoming

def write : BoundedTailBuffer :=
  let saw := b.sawConnectionRefused || containsASCIIFold connectionRefusedHint (b.boundary p) ||
    containsASCIIFold connectionRefusedHint p
  let written := p.length
  if written ≥ maxBuildOutputBytes then
    ⟨p.drop (written - maxBuildOutputBytes), true, saw⟩
  else
    let discard : Int := b.data.length + written - maxBuildOutputBytes
    if discard > 0 then ⟨b.data.drop discard.toNat ++ p, true, saw⟩
    else ⟨b.data ++ p, b.truncated, saw⟩

def after (writes : List (List UInt8)) : BoundedTailBuffer := writes.foldl write {}

def Refused (stream : List UInt8) : Prop := connectionRefusedHint <:+: stream.map fold

structure Sound (b : BoundedTailBuffer) (stream : List UInt8) : Prop where
  data : b.data = lastOf maxBuildOutputBytes stream
  saw : b.sawConnectionRefused ↔ Refused stream

variable {b : BoundedTailBuffer}

theorem boundary_eq (h : b.data = lastOf maxBuildOutputBytes stream) (p : List UInt8) :
    b.boundary p = lastOf (connectionRefusedHint.length - 1) stream ++
      p.take (connectionRefusedHint.length - 1) := by
  have hprevious : b.data.drop (b.data.length - min b.data.length (connectionRefusedHint.length - 1))
      = lastOf (connectionRefusedHint.length - 1) b.data := by
    rw [lastOf]
    congr 1
    omega
  have hincoming : p.take (min p.length (connectionRefusedHint.length - 1)) =
      p.take (connectionRefusedHint.length - 1) := by
    rw [List.take_eq_take_iff]
    omega
  rw [boundary, hprevious, hincoming, h, lastOf_lastOf (by decide)]

theorem write_saw :
    (b.write p).sawConnectionRefused = (b.sawConnectionRefused ||
      containsASCIIFold connectionRefusedHint (b.boundary p) ||
      containsASCIIFold connectionRefusedHint p) := by
  unfold write
  dsimp only
  split
  · rfl
  · split <;> rfl

theorem write_data : (b.write p).data = lastOf maxBuildOutputBytes (b.data ++ p) := by
  unfold write
  dsimp only
  split
  · next hlong => rw [lastOf_append_long _ _ hlong, lastOf]
  · rw [lastOf_append _ _ (by omega), lastOf]
    split
    · next hdiscard =>
      rw [show (b.data.length + p.length - maxBuildOutputBytes : Int).toNat =
        b.data.length - (maxBuildOutputBytes - p.length) by omega]
    · rw [show b.data.length - (maxBuildOutputBytes - p.length) = 0 by omega, List.drop_zero]

theorem Sound.write (h : b.Sound stream) (p : List UInt8) :
    (b.write p).Sound (stream ++ p) where
  data := by
    rw [write_data, h.data, lastOf_append_lastOf]
  saw := by
    rw [write_saw, Refused, List.map_append, infix_append_iff (by decide), ← map_lastOf,
      ← List.map_take, ← List.map_append, ← boundary_eq h.data, Bool.or_eq_true, Bool.or_eq_true,
      h.saw, containsASCIIFold_iff, containsASCIIFold_iff, Refused]
    tauto

theorem sound_foldl (h : b.Sound stream) (writes : List (List UInt8)) :
    (writes.foldl BoundedTailBuffer.write b).Sound
      (stream ++ writes.flatten) := by
  induction writes generalizing b stream with
  | nil => simpa using h
  | cons p writes ih => simpa [List.append_assoc] using ih (h.write p)

theorem after_sound (writes : List (List UInt8)) : (after writes).Sound writes.flatten := by
  have hempty : Sound {} [] := ⟨by simp [lastOf], by simp [Refused, connectionRefusedHint]⟩
  simpa [after] using sound_foldl hempty writes

/-- The buffer depends on the stream only: it keeps the last bytes of it and has seen the phrase
exactly when it occurs anywhere, in whatever chunks the stream came. -/
theorem after_tail (writes : List (List UInt8)) :
    (after writes).data =
        writes.flatten.drop (writes.flatten.length - min writes.flatten.length maxBuildOutputBytes) ∧
      ((after writes).sawConnectionRefused ↔
        connectionRefusedHint <:+: writes.flatten.map fold) ∧
      ((after writes).sawConnectionRefused ↔ ∃ text, text <:+: writes.flatten ∧
        List.Forall₂ EqualFold connectionRefusedHint text) ∧
      (after writes).data = (after [writes.flatten]).data ∧
      (after writes).sawConnectionRefused = (after [writes.flatten]).sawConnectionRefused := by
  have h := after_sound writes
  have hone : (after [writes.flatten]).Sound writes.flatten := by
    simpa using after_sound [writes.flatten]
  refine ⟨?_, h.saw, h.saw.trans (infix_fold_iff (by decide +kernel)), h.data.trans hone.data.symm, ?_⟩
  · rw [h.data, lastOf, show writes.flatten.length - maxBuildOutputBytes =
      writes.flatten.length - min writes.flatten.length maxBuildOutputBytes by omega]
  · rw [Bool.eq_iff_iff, h.saw, hone.saw]

end BoundedTailBuffer

end KovaService.Batch
