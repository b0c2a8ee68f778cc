import Mathlib.Data.Int.Basic
import Mathlib.Tactic.NormNum

/-!
# Fixed-width integers of C

Conversions to `int` and `unsigned int` of 32 bits, as they happen when a value
is assigned, returned or compared with a value of the other kind.
-/

namespace FixedWidth

set_option autoImplicit false

def toInt32 (value : Int) : Int := value.bmod (2 ^ 32)

def toUInt32 (value : Int) : Nat := (value % 2 ^ 32).toNat

theorem to_int32_eq {value : Int} (low : -2 ^ 31 ≤ value) (high : value < 2 ^ 31) :
    toInt32 value = value := by
  rw [toInt32, Int.bmod_eq_of_le (by omega) (by omega)]

theorem to_int32_lt (value : Int) : toInt32 value < 2 ^ 31 := by
  rw [toInt32, Int.bmod_def]
  split_ifs <;> omega

/-- An `unsigned int` keeps its value in the lower half of its range. -/
theorem to_int32_unsigned {value : Nat} (bound : value < 2 ^ 32) :
    toInt32 value = if value < 2 ^ 31 then (value : Int) else value - 2 ^ 32 := by
  rw [toInt32, Int.bmod_def]
  split_ifs <;> omega

theorem to_uint32_eq {value : Nat} (bound : value < 2 ^ 32) : toUInt32 value = value := by
  rw [toUInt32]
  omega

end FixedWidth
