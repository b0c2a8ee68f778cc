import Gapk.Library.BitBuffer
import Mathlib.Data.Nat.Bitwise

/-!
# Fields of different widths, packed back to back

A record of numbers is written as consecutive bit fields, most significant bit
first. Every bit below the total width belongs to exactly one place of one
field, so what a packing loop wrote is known bit by bit, and unpacking gives
each number back up to its field width.
-/

namespace FieldPacking

open CheckedMemory BitBuffer

set_option autoImplicit false

/-- The number read from `width` bits, the first one the most significant. -/
def fieldValue (bits : Nat → Bool) (start : Nat) : Nat → Nat
  | 0 => 0
  | width + 1 => 2 * fieldValue bits start width + (bits (start + width)).toNat

theorem field_value_lt (bits : Nat → Bool) (start width : Nat) :
    fieldValue bits start width < 2 ^ width := by
  induction width with
  | zero => simp [fieldValue]
  | succ width ih =>
      have last := Bool.toNat_lt (bits (start + width))
      rw [fieldValue, Nat.pow_succ]
      omega

theorem test_bit_field_value (bits : Nat → Bool) (start width place : Nat) :
    (fieldValue bits start width).testBit place =
      (decide (place < width) && bits (start + (width - 1 - place))) := by
  induction width generalizing place with
  | zero => simp [fieldValue]
  | succ width ih =>
      have half : (2 * fieldValue bits start width + (bits (start + width)).toNat) / 2 =
          fieldValue bits start width := by
        have last := Bool.toNat_lt (bits (start + width))
        omega
      cases place with
      | zero =>
          rw [fieldValue, Nat.testBit_zero]
          cases lastBit : bits (start + width) <;> simp [lastBit]
      | succ place =>
          rw [fieldValue, Nat.testBit_succ, half, ih place]
          have sameIndex : width - 1 - place = width + 1 - 1 - (place + 1) := by omega
          simp only [sameIndex, Nat.add_lt_add_iff_right]

/-- A number is what its own bits read back as, up to the width. -/
theorem field_value_test_bits (value start width : Nat) (bits : Nat → Bool)
    (same : ∀ place < width, bits (start + place) = value.testBit (width - 1 - place)) :
    fieldValue bits start width = value % 2 ^ width := by
  apply Nat.eq_of_testBit_eq
  intro place
  rw [test_bit_field_value, Nat.testBit_mod_two_pow]
  by_cases bound : place < width
  · have involution : width - 1 - (width - 1 - place) = place := by omega
    rw [same (width - 1 - place) (by omega), involution]
  · simp [bound]

/-- The first bit of a field. -/
def fieldStart (widths : List Nat) (field : Nat) : Nat := (widths.take field).sum

theorem field_start_succ {widths : List Nat} {field : Nat} (bound : field < widths.length) :
    fieldStart widths (field + 1) = fieldStart widths field + widths.getD field 0 := by
  rw [fieldStart, List.take_succ_eq_append_getElem bound, List.sum_append,
    List.getD_eq_getElem _ _ bound]
  simp [fieldStart]

theorem field_start_mono (widths : List Nat) {left right : Nat} (order : left ≤ right) :
    fieldStart widths left ≤ fieldStart widths right := by
  obtain ⟨more, rfl⟩ := Nat.exists_eq_add_of_le order
  induction more with
  | zero => exact Nat.le_refl _
  | succ more ih =>
      have previous := ih (by omega)
      by_cases bound : left + more < widths.length
      · rw [← Nat.add_assoc, field_start_succ bound]
        omega
      · have allTaken : fieldStart widths (left + (more + 1)) = fieldStart widths (left + more) := by
          rw [fieldStart, fieldStart, List.take_of_length_le (by omega),
            List.take_of_length_le (by omega)]
        rwa [allTaken]

theorem field_end_le_sum {widths : List Nat} {field : Nat} (bound : field < widths.length) :
    fieldStart widths field + widths.getD field 0 ≤ widths.sum := by
  rw [← field_start_succ bound]
  have whole : fieldStart widths widths.length = widths.sum := by simp [fieldStart]
  rw [← whole]
  exact field_start_mono widths bound

/-- Two places of the packed record are the same bit only as the same place of
the same field: a later field starts where the earlier one has ended. -/
theorem field_place_unique {widths : List Nat} {left right leftPlace rightPlace : Nat}
    (leftBound : left < widths.length) (rightBound : right < widths.length)
    (leftInside : leftPlace < widths.getD left 0) (rightInside : rightPlace < widths.getD right 0)
    (same : fieldStart widths left + leftPlace = fieldStart widths right + rightPlace) :
    left = right ∧ leftPlace = rightPlace := by
  have leftEnd := field_start_succ leftBound
  have rightEnd := field_start_succ rightBound
  rcases Nat.lt_trichotomy left right with before | rfl | after
  · have later := field_start_mono widths (Nat.succ_le_of_lt before)
    rw [Nat.succ_eq_add_one] at later
    omega
  · exact ⟨rfl, by omega⟩
  · have later := field_start_mono widths (Nat.succ_le_of_lt after)
    rw [Nat.succ_eq_add_one] at later
    omega

theorem exists_field_place (widths : List Nat) (index : Nat) (bound : index < widths.sum) :
    ∃ field < widths.length, ∃ place < widths.getD field 0,
      index = fieldStart widths field + place := by
  induction widths generalizing index with
  | nil => simp at bound
  | cons width widths ih =>
      by_cases first : index < width
      · exact ⟨0, by simp, index, by simpa using first, by simp [fieldStart]⟩
      · rw [List.sum_cons] at bound
        obtain ⟨field, inside, place, placeInside, same⟩ := ih (index - width) (by omega)
        refine ⟨field + 1, by simpa using inside, place, by simpa using placeInside, ?_⟩
        simp only [fieldStart, List.take_succ_cons, List.sum_cons] at same ⊢
        omega

/-- The writes of one field. -/
def fieldWrites (start width value : Nat) : List (Nat × Bool) :=
  (List.range width).map fun place => (start + place, value.testBit (width - 1 - place))

/-- All writes of a record, field after field. -/
def packWrites (widths values : List Nat) (count : Nat) : List (Nat × Bool) :=
  (List.range count).flatMap fun field =>
    fieldWrites (fieldStart widths field) (widths.getD field 0) (values.getD field 0)

theorem pack_writes_succ (widths values : List Nat) (count : Nat) :
    packWrites widths values (count + 1) = packWrites widths values count ++
      fieldWrites (fieldStart widths count) (widths.getD count 0) (values.getD count 0) := by
  simp only [packWrites, List.range_succ, List.flatMap_append, List.flatMap_singleton]

def packFields (widths values : List Nat) (dst : Buf) : Buf :=
  writeBits (packWrites widths values widths.length) dst

theorem pack_fields_append {widths values : List Nat} (more : List Nat) (dst : Buf)
    (size : values.length = widths.length) :
    packFields widths (values ++ more) dst = packFields widths values dst := by
  unfold packFields packWrites
  congr 1
  apply List.flatMap_congr
  intro field member
  have inside : field < values.length := by
    rw [size]
    exact List.mem_range.mp member
  rw [List.getD_append _ _ _ _ inside]

def unpackFields (widths : List Nat) (bits : Nat → Bool) : List Nat :=
  (List.range widths.length).map fun field =>
    fieldValue bits (fieldStart widths field) (widths.getD field 0)

@[simp] theorem pack_fields_length (widths values : List Nat) (dst : Buf) :
    (packFields widths values dst).length = dst.length := write_bits_length _ _

@[simp] theorem unpack_fields_length (widths : List Nat) (bits : Nat → Bool) :
    (unpackFields widths bits).length = widths.length := by
  simp [unpackFields]

theorem unpack_fields_getD {widths : List Nat} {bits : Nat → Bool} {field : Nat}
    (bound : field < widths.length) :
    (unpackFields widths bits).getD field 0 =
      fieldValue bits (fieldStart widths field) (widths.getD field 0) := by
  rw [List.getD_eq_getElem _ _ (by simpa using bound)]
  simp [unpackFields]

theorem mem_pack_writes {widths values : List Nat} {count : Nat} {write : Nat × Bool} :
    write ∈ packWrites widths values count ↔ ∃ field < count, ∃ place < widths.getD field 0,
      write = (fieldStart widths field + place,
        (values.getD field 0).testBit (widths.getD field 0 - 1 - place)) := by
  simp only [packWrites, fieldWrites, List.mem_flatMap, List.mem_map, List.mem_range]
  constructor
  · rintro ⟨field, bound, place, inside, rfl⟩
    exact ⟨field, bound, place, inside, rfl⟩
  · rintro ⟨field, bound, place, inside, rfl⟩
    exact ⟨field, bound, place, inside, rfl⟩

/-- The packed record, bit by bit. -/
theorem bit_at_pack_fields {widths values : List Nat} {dst : Buf}
    (room : widths.sum ≤ 8 * dst.length) {field place : Nat} (bound : field < widths.length)
    (inside : place < widths.getD field 0) :
    bitAt (packFields widths values dst) (fieldStart widths field + place) =
      (values.getD field 0).testBit (widths.getD field 0 - 1 - place) := by
  refine bit_at_write_bits ?_ ?_ (Or.inl ?_)
  · intro write member
    obtain ⟨other, otherBound, otherPlace, otherInside, rfl⟩ := mem_pack_writes.mp member
    have fieldEnd := field_end_le_sum otherBound
    simp only
    omega
  · intro write member sameIndex
    obtain ⟨other, otherBound, otherPlace, otherInside, rfl⟩ := mem_pack_writes.mp member
    obtain ⟨rfl, rfl⟩ := field_place_unique otherBound bound otherInside inside sameIndex
    rfl
  · exact List.mem_map.mpr ⟨_, mem_pack_writes.mpr ⟨field, bound, place, inside, rfl⟩, rfl⟩

/-- Fields that fill a buffer leave nothing of what it held before. -/
theorem pack_fields_congr (widths values : List Nat) {left right : Buf}
    (leftSize : 8 * left.length = widths.sum) (rightSize : 8 * right.length = widths.sum) :
    packFields widths values left = packFields widths values right := by
  apply buf_eq_of_bits (by rw [pack_fields_length, pack_fields_length]; omega)
  intro index bound
  rw [pack_fields_length, leftSize] at bound
  obtain ⟨field, fieldBound, place, inside, rfl⟩ := exists_field_place widths index bound
  rw [bit_at_pack_fields (by omega) fieldBound inside,
    bit_at_pack_fields (by omega) fieldBound inside]

/-- Each number without the bits that its field has no room for. -/
def reduceFields (widths values : List Nat) : List Nat :=
  List.zipWith (fun width value => value % 2 ^ width) widths values

/-- Unpacking a packed record reduces each number to its field width. -/
theorem unpack_pack_fields {widths values : List Nat} {dst : Buf}
    (room : widths.sum ≤ 8 * dst.length) (enough : widths.length ≤ values.length) :
    unpackFields widths (bitAt (packFields widths values dst)) = reduceFields widths values := by
  apply List.ext_getElem
  · simp only [unpack_fields_length, reduceFields, List.length_zipWith]
    omega
  · intro field unpacked _
    have bound : field < widths.length := by rwa [unpack_fields_length] at unpacked
    have given : field < values.length := by omega
    rw [← List.getD_eq_getElem _ 0, unpack_fields_getD bound,
      field_value_test_bits (values.getD field 0) _ _ _ fun _ => bit_at_pack_fields room bound]
    simp only [reduceFields, List.getElem_zipWith, List.getD_eq_getElem _ _ bound,
      List.getD_eq_getElem _ _ given]

/-- Packing the fields of a buffer into a buffer of exactly their size gives
that buffer back, whatever was there before. -/
theorem pack_unpack_fields (widths : List Nat) {src dst : Buf}
    (srcSize : 8 * src.length = widths.sum) (dstSize : 8 * dst.length = widths.sum) :
    packFields widths (unpackFields widths (bitAt src)) dst = src := by
  apply buf_eq_of_bits (by rw [pack_fields_length]; omega)
  intro index bound
  rw [pack_fields_length, dstSize] at bound
  obtain ⟨field, fieldBound, place, inside, rfl⟩ := exists_field_place widths index bound
  rw [bit_at_pack_fields (by omega) fieldBound inside, unpack_fields_getD fieldBound,
    test_bit_field_value]
  have involution : widths.getD field 0 - 1 - (widths.getD field 0 - 1 - place) = place := by
    omega
  have placed : widths.getD field 0 - 1 - place < widths.getD field 0 := by omega
  rw [involution, decide_eq_true placed, Bool.true_and]

end FieldPacking
