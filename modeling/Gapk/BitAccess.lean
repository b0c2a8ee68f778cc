import Gapk.Utils
import Mathlib.Data.Set.Function

/-!
# Laws of the bit accessors

Both numberings of the bits of a buffer are the numbering of its bit view and a
one-to-one map of indices, so their laws are the same. A loop that puts one bit
after the other through an injective map leaves exactly these bits behind,
whatever the order of its rounds.
-/

namespace Gapk.BitAccess

open CheckedMemory BitBuffer
open Gapk.Utils

set_option autoImplicit false

/-- A getter and a putter with the place of their bits in the bit view. -/
structure Accessor where
  get : Buf → Nat → Exec Nat
  put : Buf → Nat → Int → Exec Buf
  index : Nat → Nat
  indexInjective : Function.Injective index
  indexLt : ∀ {bn count : Nat}, bn < 8 * count → index bn < 8 * count
  getEq : ∀ {buf : Buf} {bn : Nat}, bn < 8 * buf.length →
    get buf bn = .ok (bitAt buf (index bn)).toNat
  putEq : ∀ {buf : Buf} {bn : Nat} (bit : Int), bn < 8 * buf.length →
    put buf bn bit = .ok (setBit buf (index bn) (decide (bit ≠ 0)))

def msbAccess : Accessor where
  get := msbGetBit
  put := msbPutBit
  index := id
  indexInjective := Function.injective_id
  indexLt := id
  getEq := msb_get_bit_eq
  putEq := msb_put_bit_eq

def lsbAccess : Accessor where
  get := lsbGetBit
  put := lsbPutBit
  index := lsbIndex
  indexInjective := lsb_index_injective
  indexLt := lsb_index_lt
  getEq := lsb_get_bit_eq
  putEq := lsb_put_bit_eq

/-- Puts the values to their places, in the order of the list. The loop
`for (k = 0; k < count; k++)` has the order `List.range count`. -/
def putBits (put : Buf → Nat → Int → Exec Buf) (place : Nat → Nat) (values : Nat → Int)
    (order : List Nat) (buf : Buf) : Exec Buf :=
  order.foldlM (fun buf k => put buf (place k) (values k)) buf

def putValue (bit : Int) : Nat := if bit ≠ 0 then 1 else 0

/-- The laws that converters rely on: a bit that was put is found, and no other
bit changes, for a single bit and for a loop. -/
structure BitLaws (get : Buf → Nat → Exec Nat) (put : Buf → Nat → Int → Exec Buf) : Prop where
  single : ∀ (buf : Buf) (bn : Nat) (bit : Int), bn < 8 * buf.length →
    ∃ out, put buf bn bit = .ok out ∧ out.length = buf.length ∧
      get out bn = .ok (putValue bit) ∧
      ∀ other < 8 * buf.length, other ≠ bn →
        ∃ kept, get buf other = .ok kept ∧ get out other = .ok kept
  loop : ∀ (buf : Buf) (count : Nat) (place : Nat → Nat) (values : Nat → Int) (order : List Nat),
    (∀ k < count, place k < 8 * buf.length) → Set.InjOn place {k | k < count} →
    order.Perm (List.range count) →
    ∃ out, putBits put place values order buf = .ok out ∧ out.length = buf.length ∧
      (∀ k < count, get out (place k) = .ok (putValue (values k))) ∧
      ∀ other < 8 * buf.length, (∀ k < count, place k ≠ other) →
        ∃ kept, get buf other = .ok kept ∧ get out other = .ok kept

namespace Accessor

variable (access : Accessor)

private theorem decide_to_nat (bit : Int) : (decide (bit ≠ 0)).toNat = putValue bit := by
  unfold putValue
  by_cases zero : bit = 0 <;> simp [zero]

def bitWrites (place : Nat → Nat) (values : Nat → Int) (order : List Nat) : List (Nat × Bool) :=
  order.map fun k => (access.index (place k), decide (values k ≠ 0))

theorem put_bits_eq {place : Nat → Nat} (values : Nat → Int) (order : List Nat) (buf : Buf)
    (inside : ∀ k ∈ order, place k < 8 * buf.length) :
    putBits access.put place values order buf =
      .ok (writeBits (access.bitWrites place values order) buf) := by
  induction order generalizing buf with
  | nil => rfl
  | cons k order ih =>
      have first := access.putEq (values k) (inside k (by simp))
      have rest := ih (setBit buf (access.index (place k)) (decide (values k ≠ 0))) (by
        intro other member
        rw [set_bit_length]
        exact inside other (List.mem_cons_of_mem _ member))
      rw [putBits, List.foldlM_cons, first, exec_bind_ok]
      exact rest

theorem get_kept {buf out : Buf} {other : Nat} (bound : other < 8 * buf.length)
    (size : out.length = buf.length)
    (same : bitAt out (access.index other) = bitAt buf (access.index other)) :
    ∃ kept, access.get buf other = .ok kept ∧ access.get out other = .ok kept := by
  refine ⟨_, access.getEq bound, ?_⟩
  rw [access.getEq (by rwa [size]), same]

theorem get_put {buf : Buf} {bn : Nat} (bit : Int) (bound : bn < 8 * buf.length) :
    ∃ out, access.put buf bn bit = .ok out ∧ out.length = buf.length ∧
      access.get out bn = .ok (putValue bit) ∧
      ∀ other < 8 * buf.length, other ≠ bn →
        ∃ kept, access.get buf other = .ok kept ∧ access.get out other = .ok kept := by
  have size := set_bit_length buf (access.index bn) (decide (bit ≠ 0))
  refine ⟨_, access.putEq bit bound, size, ?_, ?_⟩
  · rw [access.getEq (by rwa [size]), bit_at_set_bit _ _ (access.indexLt bound), if_pos rfl,
      decide_to_nat]
  · intro other otherBound different
    apply access.get_kept otherBound size
    rw [bit_at_set_bit _ _ (access.indexLt bound), if_neg]
    intro same
    exact different (access.indexInjective same)

/-- A loop of puts through an injective map. All writes to the place of a round
are that round's own, so its bit ends with its value. -/
theorem get_put_bits {buf : Buf} {count : Nat} {place : Nat → Nat} (values : Nat → Int)
    {order : List Nat} (inside : ∀ k < count, place k < 8 * buf.length)
    (injective : Set.InjOn place {k | k < count}) (rounds : order.Perm (List.range count)) :
    ∃ out, putBits access.put place values order buf = .ok out ∧ out.length = buf.length ∧
      (∀ k < count, access.get out (place k) = .ok (putValue (values k))) ∧
      ∀ other < 8 * buf.length, (∀ k < count, place k ≠ other) →
        ∃ kept, access.get buf other = .ok kept ∧ access.get out other = .ok kept := by
  have round : ∀ k, k ∈ order ↔ k < count := by
    intro k
    rw [rounds.mem_iff, List.mem_range]
  have run := access.put_bits_eq values order buf (by
    intro k member
    exact inside k ((round k).mp member))
  have size := write_bits_length (access.bitWrites place values order) buf
  have writesInside : ∀ write ∈ access.bitWrites place values order,
      write.1 < 8 * buf.length := by
    intro write member
    obtain ⟨k, inOrder, rfl⟩ := List.mem_map.mp member
    exact access.indexLt (inside k ((round k).mp inOrder))
  refine ⟨_, run, size, ?_, ?_⟩
  · intro k bound
    rw [access.getEq (by rw [size]; exact inside k bound), ← decide_to_nat]
    congr 2
    apply bit_at_write_bits writesInside
    · intro write member here
      obtain ⟨other, inOrder, rfl⟩ := List.mem_map.mp member
      have samePlace := access.indexInjective here
      rw [injective ((round other).mp inOrder) bound samePlace]
    · left
      exact List.mem_map.mpr ⟨_, List.mem_map.mpr ⟨k, (round k).mpr bound, rfl⟩, rfl⟩
  · intro other bound unused
    apply access.get_kept bound size
    apply bit_at_write_bits_of_not_mem writesInside
    intro written
    obtain ⟨write, member, here⟩ := List.mem_map.mp written
    obtain ⟨k, inOrder, rfl⟩ := List.mem_map.mp member
    exact unused k ((round k).mp inOrder) (access.indexInjective here)

theorem laws : BitLaws access.get access.put where
  single _ _ bit bound := access.get_put bit bound
  loop _ _ _ values _ inside injective rounds :=
    access.get_put_bits values inside injective rounds

end Accessor

/-- Complementing the three low bits of an index stays in the byte and turns the
place in the byte round. -/
theorem xor_seven_position (bn : Nat) :
    (bn ^^^ 7) >>> 3 = bn >>> 3 ∧ 7 - ((bn ^^^ 7) &&& 7) = bn &&& 7 := by
  constructor
  · rw [Nat.shiftRight_xor_distrib, show 7 >>> 3 = 0 from rfl, Nat.xor_zero]
  · have turned : ∀ place < 8, 7 - (place ^^^ 7) = place := by decide
    rw [Nat.and_xor_distrib_right, Nat.and_self]
    apply turned
    rw [Nat.and_two_pow_sub_one_eq_mod bn 3]
    exact Nat.mod_lt _ (by decide)

/-- The accessors of `utils.h`: a put bit is found, no other bit changes, loops
through injective maps write exactly their bits, and the two numberings differ
in the three low bits of the index. -/
theorem msb_lsb_accessor_laws :
    BitLaws msbGetBit msbPutBit ∧ BitLaws lsbGetBit lsbPutBit ∧
    ∀ (buf : Buf) (bn : Nat) (bit : Int),
      lsbGetBit buf bn = msbGetBit buf (bn ^^^ 7) ∧
      lsbPutBit buf bn bit = msbPutBit buf (bn ^^^ 7) bit := by
  refine ⟨msbAccess.laws, lsbAccess.laws, ?_⟩
  intro buf bn bit
  have position := xor_seven_position bn
  constructor
  · rw [msbGetBit, position.1, position.2, lsbGetBit]
  · rw [msbPutBit, position.1, position.2, lsbPutBit]

end Gapk.BitAccess
