import Gapk.Library.CheckedMemory
import Mathlib.Data.List.GetD

/-!
# Bits of a byte buffer

A buffer seen as a string of bits, numbered from the most significant bit of its
first byte on. Single-bit updates, sequences of updates and bit layouts (which
bit of one buffer goes where in another one) are characterised by what they do
to this view, so that buffers are compared bit by bit and never byte by byte.
-/

namespace BitBuffer

open CheckedMemory

set_option autoImplicit false

def bitAt (buf : Buf) (index : Nat) : Bool :=
  (buf.getD (index / 8) 0).getLsbD (7 - index % 8)

def setBit (buf : Buf) (index : Nat) (bit : Bool) : Buf :=
  let mask := BitVec.twoPow 8 (7 - index % 8)
  let old := buf.getD (index / 8) 0
  buf.set (index / 8) (if bit then old ||| mask else old &&& ~~~mask)

def zeros (count : Nat) : Buf := List.replicate count 0

@[simp] theorem zeros_length (count : Nat) : (zeros count).length = count := by
  simp [zeros]

@[simp] theorem bit_at_zeros (count index : Nat) : bitAt (zeros count) index = false := by
  unfold bitAt zeros
  by_cases bound : index / 8 < count
  · rw [List.getD_replicate _ bound]
    exact BitVec.getLsbD_zero
  · rw [List.getD_eq_default _ _ (by simpa using bound)]
    exact BitVec.getLsbD_zero

theorem memset_zeros {dst : Buf} {count : Nat} (size : dst.length = count) :
    memset dst 0x00 count = .ok (zeros count) := memset_whole 0 size

theorem bit_at_out {buf : Buf} {index : Nat} (outside : 8 * buf.length ≤ index) :
    bitAt buf index = false := by
  unfold bitAt
  rw [List.getD_eq_default _ _ (by omega)]
  exact BitVec.getLsbD_zero

/-- Buffers of one size are equal as soon as their bits are. -/
theorem buf_eq_of_bits {left right : Buf} (size : left.length = right.length)
    (bits : ∀ index < 8 * left.length, bitAt left index = bitAt right index) :
    left = right := by
  apply List.ext_getElem size
  intro position inLeft inRight
  apply BitVec.eq_of_getLsbD_eq
  intro place bound
  have same := bits (8 * position + (7 - place)) (by omega)
  have byteIndex : (8 * position + (7 - place)) / 8 = position := by omega
  have bitIndex : 7 - (8 * position + (7 - place)) % 8 = place := by omega
  simpa only [bitAt, byteIndex, bitIndex, List.getD_eq_getElem _ _ inLeft,
    List.getD_eq_getElem _ _ inRight] using same

@[simp] theorem set_bit_length (buf : Buf) (index : Nat) (bit : Bool) :
    (setBit buf index bit).length = buf.length := by
  simp [setBit]

/-- A single-bit update changes that bit and no other one. Another bit of the
same byte is kept by the mask, a bit of another byte by the byte store. -/
theorem bit_at_set_bit {buf : Buf} {index : Nat} (bit : Bool) (tested : Nat)
    (bound : index < 8 * buf.length) :
    bitAt (setBit buf index bit) tested = if tested = index then bit else bitAt buf tested := by
  have stored : index / 8 < buf.length := by omega
  by_cases sameByte : tested / 8 = index / 8
  · have samePlace : tested = index ↔ 7 - index % 8 = 7 - tested % 8 := by omega
    have inByte : 7 - tested % 8 < 8 := by omega
    simp only [bitAt, setBit, sameByte]
    rw [List.getD_eq_getElem _ _ (by simpa using stored), List.getElem_set_self]
    cases bit with
    | true =>
        simp only [if_true, BitVec.getLsbD_or, BitVec.getLsbD_twoPow, samePlace]
        by_cases same : 7 - index % 8 = 7 - tested % 8 <;> simp [same, inByte]
    | false =>
        simp only [Bool.false_eq_true, if_false, BitVec.getLsbD_and, BitVec.getLsbD_not,
          BitVec.getLsbD_twoPow, samePlace]
        by_cases same : 7 - index % 8 = 7 - tested % 8 <;> simp [same, inByte]
  · have different : tested ≠ index := by
      intro same
      exact sameByte (by rw [same])
    simp only [bitAt, setBit, if_neg different, List.getD_eq_getElem?_getD]
    rw [List.getElem?_set_ne (Ne.symm sameByte)]

theorem bit_at_set_zero (buf : Buf) (position index : Nat) :
    bitAt (buf.set position 0) index = if index / 8 = position then false else bitAt buf index := by
  simp only [bitAt, List.getD_eq_getElem?_getD]
  split_ifs with here
  · rw [← here]
    by_cases inside : index / 8 < buf.length
    · rw [List.getElem?_set_self inside]
      exact BitVec.getLsbD_zero
    · rw [List.getElem?_eq_none (by simpa using inside)]
      exact BitVec.getLsbD_zero
  · rw [List.getElem?_set_ne (Ne.symm here)]

/-- The bit updates of a loop, in their order. -/
def writeBits (writes : List (Nat × Bool)) (buf : Buf) : Buf :=
  writes.foldl (fun buf write => setBit buf write.1 write.2) buf

@[simp] theorem write_bits_length (writes : List (Nat × Bool)) (buf : Buf) :
    (writeBits writes buf).length = buf.length := by
  induction writes generalizing buf with
  | nil => rfl
  | cons write writes ih =>
      exact (ih (setBit buf write.1 write.2)).trans (set_bit_length buf write.1 write.2)

theorem write_bits_append (left right : List (Nat × Bool)) (buf : Buf) :
    writeBits (left ++ right) buf = writeBits right (writeBits left buf) :=
  List.foldl_append

theorem bit_at_write_bits_of_not_mem {writes : List (Nat × Bool)} {buf : Buf}
    (bound : ∀ write ∈ writes, write.1 < 8 * buf.length) {index : Nat}
    (untouched : index ∉ writes.map Prod.fst) :
    bitAt (writeBits writes buf) index = bitAt buf index := by
  induction writes generalizing buf with
  | nil => rfl
  | cons write writes ih =>
      simp only [List.map_cons, List.mem_cons, not_or] at untouched
      have inside := bound write (by simp)
      have boundNext : ∀ other ∈ writes, other.1 < 8 * (setBit buf write.1 write.2).length := by
        intro other member
        rw [set_bit_length]
        exact bound other (List.mem_cons_of_mem _ member)
      have rest := ih boundNext untouched.2
      rw [show writeBits (write :: writes) buf =
          writeBits writes (setBit buf write.1 write.2) from rfl, rest,
        bit_at_set_bit write.2 index inside, if_neg untouched.1]

/-- When all writes to a bit agree, that bit ends with their value: it is either
written by the rest of the loop or it has the value already. -/
theorem bit_at_write_bits {writes : List (Nat × Bool)} {buf : Buf}
    (bound : ∀ write ∈ writes, write.1 < 8 * buf.length) {index : Nat} {bit : Bool}
    (agree : ∀ write ∈ writes, write.1 = index → write.2 = bit)
    (written : index ∈ writes.map Prod.fst ∨ bitAt buf index = bit) :
    bitAt (writeBits writes buf) index = bit := by
  induction writes generalizing buf with
  | nil => simpa [writeBits] using written
  | cons write writes ih =>
      have inside := bound write (by simp)
      have boundNext : ∀ other ∈ writes, other.1 < 8 * (setBit buf write.1 write.2).length := by
        intro other member
        rw [set_bit_length]
        exact bound other (List.mem_cons_of_mem _ member)
      refine ih boundNext ?_ ?_
      · intro other member
        exact agree other (List.mem_cons_of_mem _ member)
      · rw [bit_at_set_bit write.2 index inside]
        by_cases here : index = write.1
        · right
          rw [if_pos here]
          exact agree write (by simp) here.symm
        · rw [if_neg here]
          simpa [here] using written

/-- Sets the given bits to zero. -/
def clearBits (indices : List Nat) (buf : Buf) : Buf :=
  writeBits (indices.map fun index => (index, false)) buf

@[simp] theorem clear_bits_length (indices : List Nat) (buf : Buf) :
    (clearBits indices buf).length = buf.length := write_bits_length _ _

theorem bit_at_clear_bits {indices : List Nat} {buf : Buf}
    (bound : ∀ index ∈ indices, index < 8 * buf.length) (tested : Nat) :
    bitAt (clearBits indices buf) tested =
      if tested ∈ indices then false else bitAt buf tested := by
  have dests : (indices.map fun index => (index, false)).map Prod.fst = indices := by
    simp [Function.comp_def]
  have inside : ∀ write ∈ indices.map (fun index => (index, false)),
      write.1 < 8 * buf.length := by
    intro write member
    obtain ⟨index, indexMember, rfl⟩ := List.mem_map.mp member
    exact bound index indexMember
  split_ifs with cleared
  · refine bit_at_write_bits inside ?_ (Or.inl (by rwa [dests]))
    intro write member _
    obtain ⟨index, _, rfl⟩ := List.mem_map.mp member
    rfl
  · exact bit_at_write_bits_of_not_mem inside (by rwa [dests])

private theorem set_bit_cons (byte : Byte) (buf : Buf) (index : Nat) (bit : Bool) :
    setBit (byte :: buf) (8 + index) bit = byte :: setBit buf index bit := by
  have position : (8 + index) / 8 = index / 8 + 1 := by omega
  have place : (8 + index) % 8 = index % 8 := by omega
  simp only [setBit, position, place, List.getD_cons_succ, List.set_cons_succ]

/-- Bits behind a first byte. -/
theorem clear_bits_cons (indices : List Nat) (byte : Byte) (buf : Buf) :
    clearBits (indices.map (8 + ·)) (byte :: buf) = byte :: clearBits indices buf := by
  induction indices generalizing buf with
  | nil => rfl
  | cons index indices ih =>
      rw [List.map_cons]
      exact (congrArg (clearBits _) (set_bit_cons byte buf index false)).trans (ih _)

/-- Numbering from the least significant bit of each byte on: the three low bits
of the index are complemented. -/
def lsbIndex (index : Nat) : Nat := index / 8 * 8 + (7 - index % 8)

theorem lsb_index_lsb_index (index : Nat) : lsbIndex (lsbIndex index) = index := by
  unfold lsbIndex
  omega

theorem lsb_index_injective : Function.Injective lsbIndex := by
  intro left right same
  rw [← lsb_index_lsb_index left, same, lsb_index_lsb_index]

theorem lsb_index_lt {index count : Nat} (bound : index < 8 * count) :
    lsbIndex index < 8 * count := by
  unfold lsbIndex
  omega

end BitBuffer
