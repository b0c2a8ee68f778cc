import Gapk.Library.BitBuffer
import Mathlib.Data.List.Perm.Basic
import Mathlib.Data.List.Nodup
import Mathlib.Data.List.Range

/-!
# Bit layouts

A layout lists which bit of a source buffer goes to which bit of a destination
buffer, never using a bit twice on either side. Placing bits by a layout and
then by the reversed layout keeps exactly the source bits that the layout uses.
That one fact is the round trip of every permuting frame format, and it also
says which frames a layout with missing bits still transports.
-/

namespace BitLayout

open CheckedMemory BitBuffer

set_option autoImplicit false

/-- Moves are pairs of a destination bit and a source bit. -/
structure Layout (srcLen dstLen : Nat) where
  moves : List (Nat × Nat)
  dstNodup : (moves.map Prod.fst).Nodup
  srcNodup : (moves.map Prod.snd).Nodup
  dstBound : ∀ move ∈ moves, move.1 < 8 * dstLen
  srcBound : ∀ move ∈ moves, move.2 < 8 * srcLen

namespace Layout

variable {srcLen dstLen : Nat} (layout : Layout srcLen dstLen)

def targets : List Nat := layout.moves.map Prod.fst

def sources : List Nat := layout.moves.map Prod.snd

def place (src dst : Buf) : Buf :=
  writeBits (layout.moves.map fun move => (move.1, bitAt src move.2)) dst

def reverse : Layout dstLen srcLen where
  moves := layout.moves.map Prod.swap
  dstNodup := by simpa [Function.comp_def] using layout.srcNodup
  srcNodup := by simpa [Function.comp_def] using layout.dstNodup
  dstBound := by
    intro move member
    obtain ⟨original, originalMember, rfl⟩ := List.mem_map.mp member
    exact layout.srcBound original originalMember
  srcBound := by
    intro move member
    obtain ⟨original, originalMember, rfl⟩ := List.mem_map.mp member
    exact layout.dstBound original originalMember

@[simp] theorem place_length (src dst : Buf) : (layout.place src dst).length = dst.length :=
  write_bits_length _ _

@[simp] theorem reverse_targets : layout.reverse.targets = layout.sources := by
  simp [targets, sources, reverse, Function.comp_def]

@[simp] theorem reverse_sources : layout.reverse.sources = layout.targets := by
  simp [targets, sources, reverse, Function.comp_def]

@[simp] theorem reverse_reverse : layout.reverse.reverse = layout := by
  cases layout
  simp [reverse]

private theorem writes_bound {src dst : Buf} (size : dst.length = dstLen) :
    ∀ write ∈ layout.moves.map (fun move => (move.1, bitAt src move.2)),
      write.1 < 8 * dst.length := by
  intro write member
  obtain ⟨move, moveMember, rfl⟩ := List.mem_map.mp member
  rw [size]
  exact layout.dstBound move moveMember

/-- A target bit receives its source bit. Two moves to one target are the same
move, so nothing overwrites it later. -/
theorem bit_at_place {src dst : Buf} (size : dst.length = dstLen) {move : Nat × Nat}
    (member : move ∈ layout.moves) :
    bitAt (layout.place src dst) move.1 = bitAt src move.2 := by
  refine bit_at_write_bits (layout.writes_bound size) ?_ (Or.inl ?_)
  · intro write writeMember sameTarget
    obtain ⟨other, otherMember, rfl⟩ := List.mem_map.mp writeMember
    have sameMove := List.inj_on_of_nodup_map layout.dstNodup otherMember member sameTarget
    rw [sameMove]
  · exact List.mem_map.mpr ⟨_, List.mem_map.mpr ⟨move, member, rfl⟩, rfl⟩

theorem bit_at_place_of_not_target {src dst : Buf} (size : dst.length = dstLen) {index : Nat}
    (free : index ∉ layout.targets) :
    bitAt (layout.place src dst) index = bitAt dst index := by
  apply bit_at_write_bits_of_not_mem (layout.writes_bound size)
  simpa [targets, Function.comp_def] using free

/-- Placing and placing back keeps the used source bits. -/
theorem bit_at_reverse_place {src mid out : Buf} (midSize : mid.length = dstLen)
    (outSize : out.length = srcLen) (index : Nat) :
    bitAt (layout.reverse.place (layout.place src mid) out) index =
      if index ∈ layout.sources then bitAt src index else bitAt out index := by
  split_ifs with used
  · obtain ⟨move, member, rfl⟩ := List.mem_map.mp used
    have back : move.swap ∈ layout.reverse.moves := List.mem_map.mpr ⟨move, member, rfl⟩
    exact (layout.reverse.bit_at_place outSize back).trans (layout.bit_at_place midSize member)
  · exact layout.reverse.bit_at_place_of_not_target outSize (by simpa using used)

/-- The round trip is exact if and only if the bits that the layout does not
use are already right in the output buffer. -/
theorem reverse_place_eq_iff {src mid out : Buf} (srcSize : src.length = srcLen)
    (midSize : mid.length = dstLen) (outSize : out.length = srcLen) :
    layout.reverse.place (layout.place src mid) out = src ↔
      ∀ index < 8 * srcLen, index ∉ layout.sources → bitAt out index = bitAt src index := by
  constructor
  · intro same index _ unused
    have kept : bitAt (layout.reverse.place (layout.place src mid) out) index = _ :=
      layout.bit_at_reverse_place midSize outSize index
    rw [same, if_neg unused] at kept
    exact kept.symm
  · intro unused
    apply buf_eq_of_bits (by rw [place_length, outSize, srcSize])
    intro index bound
    rw [place_length, outSize] at bound
    rw [layout.bit_at_reverse_place midSize outSize index]
    split_ifs with used
    · rfl
    · exact unused index bound used

theorem reverse_place_zeros {src mid : Buf} (srcSize : src.length = srcLen)
    (midSize : mid.length = dstLen)
    (unused : ∀ index < 8 * srcLen, index ∉ layout.sources → bitAt src index = false) :
    layout.reverse.place (layout.place src mid) (zeros srcLen) = src := by
  rw [layout.reverse_place_eq_iff srcSize midSize (zeros_length srcLen)]
  intro index bound free
  rw [bit_at_zeros, unused index bound free]

/-- The other way round, the bits outside the targets are cleared. -/
theorem place_reverse_place (unused : List Nat) {dst : Buf} (size : dst.length = dstLen)
    (free : ∀ index < 8 * dstLen, index ∈ unused ↔ index ∉ layout.targets)
    (bound : ∀ index ∈ unused, index < 8 * dstLen) :
    layout.place (layout.reverse.place dst (zeros srcLen)) (zeros dstLen) =
      clearBits unused dst := by
  apply buf_eq_of_bits (by rw [place_length, zeros_length, clear_bits_length, size])
  intro index inside
  rw [place_length, zeros_length] at inside
  have kept : bitAt (layout.reverse.reverse.place (layout.reverse.place dst (zeros srcLen))
      (zeros dstLen)) index = _ :=
    layout.reverse.bit_at_reverse_place (zeros_length srcLen) (zeros_length dstLen) index
  rw [reverse_reverse, reverse_sources, bit_at_zeros] at kept
  rw [kept, bit_at_clear_bits (by rwa [size])]
  by_cases target : index ∈ layout.targets
  · rw [if_pos target, if_neg (fun member => (free index inside).mp member target)]
  · rw [if_neg target, if_pos ((free index inside).mpr target)]

/-- What the destination held before matters only outside the targets. -/
theorem place_congr {src left right : Buf} (leftSize : left.length = dstLen)
    (rightSize : right.length = dstLen)
    (free : ∀ index < 8 * dstLen, index ∉ layout.targets → bitAt left index = bitAt right index) :
    layout.place src left = layout.place src right := by
  apply buf_eq_of_bits (by simp [leftSize, rightSize])
  intro index bound
  rw [place_length, leftSize] at bound
  by_cases target : index ∈ layout.targets
  · obtain ⟨move, member, rfl⟩ := List.mem_map.mp target
    rw [layout.bit_at_place leftSize member, layout.bit_at_place rightSize member]
  · rw [layout.bit_at_place_of_not_target leftSize target,
      layout.bit_at_place_of_not_target rightSize target, free index bound target]

/-- Clearing the bits outside the targets is as good as clearing the buffer. -/
theorem place_precleared {src dst : Buf} (size : dst.length = dstLen)
    (cleared : ∀ index < 8 * dstLen, index ∉ layout.targets → bitAt dst index = false) :
    layout.place src dst = layout.place src (zeros dstLen) := by
  apply layout.place_congr size (zeros_length dstLen)
  intro index bound free
  rw [cleared index bound free, bit_at_zeros]

/-- A counting loop that copies at most one bit in each round is a placement. -/
theorem for_loop_place (count : Nat) (step : Nat → Option (Nat × Nat))
    (moves : layout.moves = (List.range count).filterMap step)
    (body : Nat → Buf → Exec Buf) {src dst : Buf}
    (bodyEq : ∀ index < count, ∀ reached : Buf, reached.length = dst.length →
      body index reached = .ok (match step index with
        | some move => setBit reached move.1 (bitAt src move.2)
        | none => reached)) :
    forLoop count body dst = .ok (layout.place src dst) := by
  rw [for_loop_eq_foldl body (fun reached => reached.length = dst.length)
    (fun index reached => match step index with
      | some move => setBit reached move.1 (bitAt src move.2)
      | none => reached) count dst rfl]
  · rw [place, writeBits, moves, List.foldl_map, List.foldl_filterMap]
    congr 2
    funext reached index
    cases step index <;> rfl
  · intro index bound reached size
    refine ⟨bodyEq index bound reached size, ?_⟩
    cases step index with
    | none => exact size
    | some move => rw [set_bit_length, size]

/-- A layout from a loop that may skip rounds. -/
def ofSteps (count : Nat) (step : Nat → Option (Nat × Nat))
    (dstInjective : ∀ left < count, ∀ right < count, ∀ a ∈ step left, ∀ b ∈ step right,
      a.1 = b.1 → left = right)
    (srcInjective : ∀ left < count, ∀ right < count, ∀ a ∈ step left, ∀ b ∈ step right,
      a.2 = b.2 → left = right)
    (bounds : ∀ index < count, ∀ move ∈ step index, move.1 < 8 * dstLen ∧ move.2 < 8 * srcLen) :
    Layout srcLen dstLen where
  moves := (List.range count).filterMap step
  dstNodup := by
    rw [List.map_filterMap, List.Nodup, List.pairwise_filterMap]
    refine List.nodup_range.imp_of_mem ?_
    intro left right leftMember rightMember different a aStep b bStep same
    obtain ⟨leftMove, leftEq, rfl⟩ := Option.map_eq_some_iff.mp aStep
    obtain ⟨rightMove, rightEq, rfl⟩ := Option.map_eq_some_iff.mp bStep
    exact different (dstInjective left (List.mem_range.mp leftMember) right
      (List.mem_range.mp rightMember) leftMove leftEq rightMove rightEq same)
  srcNodup := by
    rw [List.map_filterMap, List.Nodup, List.pairwise_filterMap]
    refine List.nodup_range.imp_of_mem ?_
    intro left right leftMember rightMember different a aStep b bStep same
    obtain ⟨leftMove, leftEq, rfl⟩ := Option.map_eq_some_iff.mp aStep
    obtain ⟨rightMove, rightEq, rfl⟩ := Option.map_eq_some_iff.mp bStep
    exact different (srcInjective left (List.mem_range.mp leftMember) right
      (List.mem_range.mp rightMember) leftMove leftEq rightMove rightEq same)
  dstBound := by
    intro move member
    obtain ⟨index, indexMember, stepEq⟩ := List.mem_filterMap.mp member
    exact (bounds index (List.mem_range.mp indexMember) move stepEq).1
  srcBound := by
    intro move member
    obtain ⟨index, indexMember, stepEq⟩ := List.mem_filterMap.mp member
    exact (bounds index (List.mem_range.mp indexMember) move stepEq).2

end Layout

/-- A table of `count` entries that lists each of the indices below `count` once. -/
structure BitOrder (count : Nat) where
  table : List Nat
  perm : table.Perm (List.range count)

namespace BitOrder

variable {count : Nat} (order : BitOrder count)

def entry (index : Nat) : Nat := order.table.getD index 0

def identity (count : Nat) : BitOrder count := ⟨List.range count, List.Perm.refl _⟩

def ofInjective {count : Nat} (entry : Nat → Nat) (bound : ∀ index < count, entry index < count)
    (injective : ∀ left < count, ∀ right < count, entry left = entry right → left = right) :
    BitOrder count where
  table := (List.range count).map entry
  perm := by
    have nodup : ((List.range count).map entry).Nodup := by
      refine List.Nodup.map_on ?_ List.nodup_range
      intro left leftMember right rightMember same
      exact injective left (List.mem_range.mp leftMember) right (List.mem_range.mp rightMember) same
    apply (List.subperm_of_subset nodup _).perm_of_length_le (by simp)
    intro value member
    obtain ⟨index, inside, rfl⟩ := List.mem_map.mp member
    exact List.mem_range.mpr (bound index (List.mem_range.mp inside))

theorem table_length : order.table.length = count := by
  rw [order.perm.length_eq, List.length_range]

theorem entry_eq_getElem {index : Nat} (inside : index < order.table.length) :
    order.entry index = order.table[index] :=
  List.getD_eq_getElem _ _ inside

theorem entry_lt {index : Nat} (bound : index < count) : order.entry index < count := by
  rw [order.entry_eq_getElem (by rwa [order.table_length])]
  exact List.mem_range.mp (order.perm.subset (List.getElem_mem _))

theorem entry_injective {left right : Nat} (leftBound : left < count) (rightBound : right < count)
    (same : order.entry left = order.entry right) : left = right := by
  have nodup : order.table.Nodup := order.perm.nodup_iff.mpr List.nodup_range
  rw [order.entry_eq_getElem (by rwa [order.table_length]),
    order.entry_eq_getElem (by rwa [order.table_length])] at same
  exact (List.Nodup.getElem_inj_iff nodup).mp same

theorem entry_surjective {value : Nat} (bound : value < count) :
    ∃ index < count, order.entry index = value := by
  have member : value ∈ order.table := order.perm.symm.subset (List.mem_range.mpr bound)
  obtain ⟨index, inside, same⟩ := List.getElem_of_mem member
  exact ⟨index, by rwa [order.table_length] at inside, by rw [order.entry_eq_getElem inside, same]⟩

@[simp] theorem entry_identity {index : Nat} (bound : index < count) :
    (identity count).entry index = index := by
  rw [entry_eq_getElem _ (by rwa [table_length])]
  simp [identity]

/-- Entry `index` of the table goes to `slot index`. -/
def layout {srcLen dstLen : Nat} (slot : Nat → Nat)
    (slotInjective : ∀ left < count, ∀ right < count, slot left = slot right → left = right)
    (slotBound : ∀ index < count, slot index < 8 * dstLen) (fits : count ≤ 8 * srcLen) :
    Layout srcLen dstLen :=
  Layout.ofSteps count (fun index => some (slot index, order.entry index))
    (by
      rintro left leftBound right rightBound _ ⟨⟩ _ ⟨⟩ same
      exact slotInjective left leftBound right rightBound same)
    (by
      rintro left leftBound right rightBound _ ⟨⟩ _ ⟨⟩ same
      exact order.entry_injective leftBound rightBound same)
    (by
      rintro index bound _ ⟨⟩
      exact ⟨slotBound index bound, Nat.lt_of_lt_of_le (order.entry_lt bound) fits⟩)

section Layout

variable {srcLen dstLen : Nat} (slot : Nat → Nat)
  (slotInjective : ∀ left < count, ∀ right < count, slot left = slot right → left = right)
  (slotBound : ∀ index < count, slot index < 8 * dstLen) (fits : count ≤ 8 * srcLen)

theorem layout_moves :
    (order.layout slot slotInjective slotBound fits).moves =
      (List.range count).filterMap fun index => some (slot index, order.entry index) := rfl

theorem reverse_layout_moves :
    (order.layout slot slotInjective slotBound fits).reverse.moves =
      (List.range count).filterMap fun index => some (order.entry index, slot index) := by
  show (order.layout slot slotInjective slotBound fits).moves.map Prod.swap = _
  rw [layout_moves, List.map_filterMap]
  rfl

theorem mem_layout_moves {index : Nat} (bound : index < count) :
    (slot index, order.entry index) ∈ (order.layout slot slotInjective slotBound fits).moves :=
  List.mem_filterMap.mpr ⟨index, List.mem_range.mpr bound, rfl⟩

theorem bit_at_layout_place {src dst : Buf} (size : dst.length = dstLen) {index : Nat}
    (bound : index < count) :
    bitAt ((order.layout slot slotInjective slotBound fits).place src dst) (slot index) =
      bitAt src (order.entry index) := by
  have member := order.mem_layout_moves slot slotInjective slotBound fits bound
  rw [(order.layout slot slotInjective slotBound fits).bit_at_place size member]

theorem bit_at_layout_reverse_place {src dst : Buf} (size : dst.length = srcLen) {index : Nat}
    (bound : index < count) :
    bitAt ((order.layout slot slotInjective slotBound fits).reverse.place src dst)
      (order.entry index) = bitAt src (slot index) := by
  have member := order.mem_layout_moves slot slotInjective slotBound fits bound
  have swapped : (order.entry index, slot index) ∈
      (order.layout slot slotInjective slotBound fits).reverse.moves :=
    List.mem_map.mpr ⟨_, member, rfl⟩
  rw [(order.layout slot slotInjective slotBound fits).reverse.bit_at_place size swapped]

/-- A whole table uses the first `count` source bits, in some order. -/
theorem mem_layout_sources (index : Nat) :
    index ∈ (order.layout slot slotInjective slotBound fits).sources ↔ index < count := by
  constructor
  · intro member
    obtain ⟨move, moveMember, rfl⟩ := List.mem_map.mp member
    obtain ⟨entry, entryMember, ⟨⟩⟩ := List.mem_filterMap.mp moveMember
    exact order.entry_lt (List.mem_range.mp entryMember)
  · intro bound
    obtain ⟨entry, entryBound, rfl⟩ := order.entry_surjective bound
    exact List.mem_map.mpr
      ⟨_, order.mem_layout_moves slot slotInjective slotBound fits entryBound, rfl⟩

theorem mem_layout_targets (index : Nat) :
    index ∈ (order.layout slot slotInjective slotBound fits).targets ↔
      ∃ entry < count, slot entry = index := by
  constructor
  · intro member
    obtain ⟨move, moveMember, rfl⟩ := List.mem_map.mp member
    obtain ⟨entry, entryMember, ⟨⟩⟩ := List.mem_filterMap.mp moveMember
    exact ⟨entry, List.mem_range.mp entryMember, rfl⟩
  · rintro ⟨entry, entryBound, rfl⟩
    exact List.mem_map.mpr
      ⟨_, order.mem_layout_moves slot slotInjective slotBound fits entryBound, rfl⟩

end Layout

end BitOrder

end BitLayout
