import Mathlib.Data.Nat.Basic
import Mathlib.Tactic.Ring

/- Fixed-width unsigned arithmetic on Nat. A value is a natural number below the
   modulus; addition and subtraction wrap, as the C operators on these types do. -/
namespace MachineWord

def uint64Max : Nat := 18446744073709551615

def int64Max : Nat := 9223372036854775807

def int32Max : Nat := 2147483647

def u64 (n : Nat) : Nat := n % 18446744073709551616

def addU64 (a b : Nat) : Nat := u64 (a + b)

def subU64 (a b : Nat) : Nat :=
  if b ≤ a then u64 (a - b) else u64 (a + 18446744073709551616 - b)

theorem u64_of_le {n : Nat} (h : n ≤ uint64Max) : u64 n = n := by
  simp only [u64, uint64Max] at *
  omega

theorem u64_le (n : Nat) : u64 n ≤ uint64Max := by
  simp only [u64, uint64Max]
  omega

theorem addU64_of_le {a b : Nat} (h : a + b ≤ uint64Max) : addU64 a b = a + b :=
  u64_of_le h

theorem subU64_of_le {a b : Nat} (h : b ≤ a) (bound : a ≤ uint64Max) :
    subU64 a b = a - b := by
  rw [subU64, if_pos h]
  exact u64_of_le (Nat.le_trans (Nat.sub_le a b) bound)

/-- A shifted accumulator passes a truncating range guard exactly when the
    shifted sum still fits, so the guarded step never wraps. -/
theorem guarded_shift_iff {value digit base : Nat} (positive : 0 < base)
    (small : digit ≤ uint64Max) :
    ¬ value > (uint64Max - digit) / base ↔ value * base + digit ≤ uint64Max := by
  rw [Nat.not_lt, Nat.le_div_iff_mul_le positive]
  omega

end MachineWord
