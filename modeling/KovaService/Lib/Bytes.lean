import Mathlib.Algebra.Group.Int.Defs
import Mathlib.Algebra.Group.Nat.Defs
import Mathlib.Data.List.Basic

/-!
Numbers of the machine: 64-bit signed arithmetic, and little-endian numbers in a sequence of bytes.
A position behind the end reads as zero, so every reader has to compare lengths before it trusts a
number.
-/

namespace KovaService.Lib.Bytes

def int64 (x : Int) : Int := x.bmod (2 ^ 64)

theorem int64_eq {x : Int} (h₀ : -(2 ^ 63) ≤ x) (h₁ : x < 2 ^ 63) : int64 x = x :=
  Int.bmod_eq_of_le (by omega) (by omega)

theorem int64_lt (x : Int) : int64 x < 2 ^ 63 :=
  Int.bmod_lt (by omega)

variable (b : List UInt8) (i : Nat)

def byte : Nat := (b.getD i 0).toNat

def u16 : Nat := byte b i + 2 ^ 8 * byte b (i + 1)

def u32 : Nat := u16 b i + 2 ^ 16 * u16 b (i + 2)

def u64 : Nat := u32 b i + 2 ^ 32 * u32 b (i + 4)

theorem byte_drop (k i : Nat) : byte (b.drop k) i = byte b (k + i) := by
  rw [byte, byte, List.getD_eq_getElem?_getD, List.getElem?_drop, List.getD_eq_getElem?_getD]

theorem u16_drop (k i : Nat) : u16 (b.drop k) i = u16 b (k + i) := by
  simp only [u16, byte_drop, Nat.add_assoc]

theorem u32_drop (k i : Nat) : u32 (b.drop k) i = u32 b (k + i) := by
  simp only [u32, u16_drop, Nat.add_assoc]

theorem u64_drop (k i : Nat) : u64 (b.drop k) i = u64 b (k + i) := by
  simp only [u64, u32_drop, Nat.add_assoc]

end KovaService.Lib.Bytes
