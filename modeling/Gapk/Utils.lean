import Gapk.Library.BitBuffer
import Mathlib.Data.Nat.Bitwise

/-!
# Bit accessors

The accessors of `utils.h`: `msb` numbers the bits of a byte from the most
significant one on, `lsb` from the least significant one on. A bit to put is any
`int`, and every non-zero value counts as one.
-/

namespace Gapk.Utils

open CheckedMemory BitBuffer

set_option autoImplicit false

/-- The body that the two getters share. -/
def getBit (buf : Buf) (posByte posBit : Nat) : Exec Nat := do
  let byte ← load buf posByte
  pure ((byte.toNat >>> posBit) &&& 1)

/-- The body that the two putters share. -/
def putBit (buf : Buf) (posByte posBit : Nat) (bit : Int) : Exec Buf := do
  let byte ← load buf posByte
  let mask := BitVec.ofNat 8 (1 <<< posBit)
  store buf posByte (if bit ≠ 0 then byte ||| mask else byte &&& ~~~mask)

def msbGetBit (buf : Buf) (bn : Nat) : Exec Nat := getBit buf (bn >>> 3) (7 - (bn &&& 7))

def msbPutBit (buf : Buf) (bn : Nat) (bit : Int) : Exec Buf :=
  putBit buf (bn >>> 3) (7 - (bn &&& 7)) bit

def lsbGetBit (buf : Buf) (bn : Nat) : Exec Nat := getBit buf (bn >>> 3) (bn &&& 7)

def lsbPutBit (buf : Buf) (bn : Nat) (bit : Int) : Exec Buf :=
  putBit buf (bn >>> 3) (bn &&& 7) bit

private theorem shift_and_one (byte : Byte) (place : Nat) :
    (byte.toNat >>> place) &&& 1 = (byte.getLsbD place).toNat := by
  rw [Nat.and_one_is_mod, Nat.shiftRight_eq_div_pow]
  unfold BitVec.getLsbD
  rw [Nat.testBit_eq_decide_div_mod_eq]
  rcases Nat.mod_two_eq_zero_or_one (byte.toNat / 2 ^ place) with even | odd
  · simp [even]
  · simp [odd]

private theorem byte_position (bn : Nat) : bn >>> 3 = bn / 8 :=
  Nat.shiftRight_eq_div_pow bn 3

private theorem bit_position (bn : Nat) : bn &&& 7 = bn % 8 :=
  Nat.and_two_pow_sub_one_eq_mod bn 3

private theorem mask_eq (posBit : Nat) : BitVec.ofNat 8 (1 <<< posBit) = BitVec.twoPow 8 posBit := by
  rw [BitVec.twoPow_eq]
  apply BitVec.eq_of_toNat_eq
  simp [Nat.one_shiftLeft]

private theorem get_bit_eq {buf : Buf} {index : Nat} (bound : index < 8 * buf.length) :
    getBit buf (index / 8) (7 - index % 8) = .ok (bitAt buf index).toNat := by
  rw [getBit, load_eq (by omega : index / 8 < buf.length)]
  simp only [exec_bind_ok, exec_pure, shift_and_one, bitAt]

private theorem put_bit_eq {buf : Buf} {index : Nat} (bit : Int)
    (bound : index < 8 * buf.length) :
    putBit buf (index / 8) (7 - index % 8) bit = .ok (setBit buf index (decide (bit ≠ 0))) := by
  have stored : index / 8 < buf.length := by omega
  rw [putBit, load_eq stored, exec_bind_ok, mask_eq, store_eq _ stored, setBit]
  by_cases one : bit ≠ 0 <;> simp [one]

theorem msb_get_bit_eq {buf : Buf} {bn : Nat} (bound : bn < 8 * buf.length) :
    msbGetBit buf bn = .ok (bitAt buf bn).toNat := by
  rw [msbGetBit, byte_position, bit_position, get_bit_eq bound]

theorem msb_put_bit_eq {buf : Buf} {bn : Nat} (bit : Int) (bound : bn < 8 * buf.length) :
    msbPutBit buf bn bit = .ok (setBit buf bn (decide (bit ≠ 0))) := by
  rw [msbPutBit, byte_position, bit_position, put_bit_eq bit bound]

private theorem lsb_position (bn : Nat) :
    bn >>> 3 = lsbIndex bn / 8 ∧ bn &&& 7 = 7 - lsbIndex bn % 8 := by
  rw [byte_position, bit_position, lsbIndex]
  omega

theorem lsb_get_bit_eq {buf : Buf} {bn : Nat} (bound : bn < 8 * buf.length) :
    lsbGetBit buf bn = .ok (bitAt buf (lsbIndex bn)).toNat := by
  rw [lsbGetBit, (lsb_position bn).1, (lsb_position bn).2, get_bit_eq (lsb_index_lt bound)]

theorem lsb_put_bit_eq {buf : Buf} {bn : Nat} (bit : Int) (bound : bn < 8 * buf.length) :
    lsbPutBit buf bn bit = .ok (setBit buf (lsbIndex bn) (decide (bit ≠ 0))) := by
  rw [lsbPutBit, (lsb_position bn).1, (lsb_position bn).2, put_bit_eq bit (lsb_index_lt bound)]

/-- Putting a bit that was got stores that bit. -/
@[simp] theorem decide_bit_ne_zero (bit : Bool) : decide (((bit.toNat : Nat) : Int) ≠ 0) = bit := by
  cases bit <;> rfl

end Gapk.Utils
