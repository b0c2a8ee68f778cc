import Gapk.BitOrders
import Gapk.Formats
import Gapk.Utils

/-!
# Racal 6103E TCH recordings

The recordings number the bits of a byte from the least significant one on. The
HR layout is chosen by the two voicing bits of the frame itself.
-/

namespace Gapk.FmtRacal

open CheckedMemory BitBuffer BitLayout
open Gapk.BitOrders Gapk.Formats Gapk.Utils

set_option autoImplicit false

abbrev racalHrLen : Nat := 14
abbrev racalFrLen : Nat := 33
abbrev racalEfrLen : Nat := 31

section HalfRate

variable (voicedOrder unvoicedOrder : BitOrder 112)

def racalHrFromCanon : FmtConvCb := fun dst src srcLen => do
  require (srcLen = hrCanonLen)
  let voiced := ((← msbGetBit src 34) <<< 1) ||| (← msbGetBit src 35)
  let bitMapping := if voiced ≠ 0 then voicedOrder else unvoicedOrder
  let dst ← forLoop 112 (fun i dst => do
    let si := bitMapping.entry i
    let di := i
    lsbPutBit dst di (← msbGetBit src si)) dst
  pure (racalHrLen, dst)

def racalHrToCanon : FmtConvCb := fun dst src srcLen => do
  require (srcLen = hrCanonLen)
  let voiced := ((← lsbGetBit src 94) <<< 1) ||| (← lsbGetBit src 93)
  let bitMapping := if voiced ≠ 0 then voicedOrder else unvoicedOrder
  let dst ← forLoop 112 (fun i dst => do
    let si := i
    let di := bitMapping.entry i
    msbPutBit dst di (← lsbGetBit src si)) dst
  pure (racalHrLen, dst)

def fmtRacalHr : FormatDesc where
  type := .racalHr
  codecType := .hr
  name := "racal-hr"
  frameLen := racalHrLen
  convFromCanon := racalHrFromCanon voicedOrder unvoicedOrder
  convToCanon := racalHrToCanon voicedOrder unvoicedOrder
  headerLen := 0
  header := []

end HalfRate

section FullRate

variable (order : BitOrder 260)

def racalFrFromCanon : FmtConvCb := fun dst src srcLen => do
  require (srcLen = frCanonLen)
  let dst ← store dst 32 0x00
  let dst ← forLoop 260 (fun i dst => do
    let si := order.entry i
    let di := i
    lsbPutBit dst di (← msbGetBit src si)) dst
  pure (racalFrLen, dst)

def racalFrToCanon : FmtConvCb := fun dst src srcLen => do
  require (srcLen = racalFrLen)
  let dst ← store dst 32 0x00
  let dst ← forLoop 260 (fun i dst => do
    let si := i
    let di := order.entry i
    msbPutBit dst di (← lsbGetBit src si)) dst
  pure (frCanonLen, dst)

def fmtRacalFr : FormatDesc where
  type := .racalFr
  codecType := .fr
  name := "racal-fr"
  frameLen := racalFrLen
  convFromCanon := racalFrFromCanon order
  convToCanon := racalFrToCanon order
  headerLen := 0
  header := []

end FullRate

def racalEfrFromCanon : FmtConvCb := fun dst src srcLen => do
  require (srcLen = efrCanonLen)
  let dst ← store dst 30 0x00
  let dst ← forLoop 244 (fun i dst => do lsbPutBit dst i (← msbGetBit src i)) dst
  pure (racalEfrLen, dst)

def racalEfrToCanon : FmtConvCb := fun dst src srcLen => do
  require (srcLen = racalEfrLen)
  let dst ← store dst 30 0x00
  let dst ← forLoop 244 (fun i dst => do msbPutBit dst i (← lsbGetBit src i)) dst
  pure (efrCanonLen, dst)

def fmtRacalEfr : FormatDesc where
  type := .racalEfr
  codecType := .efr
  name := "racal-efr"
  frameLen := racalEfrLen
  convFromCanon := racalEfrFromCanon
  convToCanon := racalEfrToCanon
  headerLen := 0
  header := []

/-- Where a recording has the bits of the table. The source and the destination
have the same size here. -/
def racalLayout {count : Nat} (len : Nat) (fits : count ≤ 8 * len) (order : BitOrder count) :
    Layout len len :=
  order.layout lsbIndex
    (by
      intro left _ right _ same
      exact lsb_index_injective same)
    (by
      intro index bound
      exact lsb_index_lt (Nat.lt_of_lt_of_le bound fits))
    fits

section Loops

variable {count len : Nat} (fits : count ≤ 8 * len) (order : BitOrder count) {src dst : Buf}
  (srcSize : src.length = len) (dstSize : dst.length = len)

include srcSize dstSize

theorem racal_from_canon_loop :
    forLoop count (fun i dst => do lsbPutBit dst i (← msbGetBit src (order.entry i))) dst =
      .ok ((racalLayout len fits order).place src dst) := by
  apply Layout.for_loop_place _ count _ (order.layout_moves _ _ _ _)
  intro i bound reached size
  have entry := order.entry_lt bound
  rw [msb_get_bit_eq (by omega), exec_bind_ok, lsb_put_bit_eq _ (by omega), decide_bit_ne_zero]

theorem racal_to_canon_loop :
    forLoop count (fun i dst => do msbPutBit dst (order.entry i) (← lsbGetBit src i)) dst =
      .ok ((racalLayout len fits order).reverse.place src dst) := by
  apply Layout.for_loop_place _ count _ (order.reverse_layout_moves _ _ _ _)
  intro i bound reached size
  have entry := order.entry_lt bound
  rw [lsb_get_bit_eq (by omega), exec_bind_ok, msb_put_bit_eq _ (by omega), decide_bit_ne_zero]

end Loops

theorem mem_racal_targets {count len : Nat} (fits : count ≤ 8 * len) (order : BitOrder count)
    (index : Nat) : index ∈ (racalLayout len fits order).targets ↔ lsbIndex index < count := by
  refine (order.mem_layout_targets _ _ _ _ index).trans ?_
  constructor
  · rintro ⟨entry, bound, rfl⟩
    rwa [lsb_index_lsb_index]
  · intro bound
    exact ⟨lsbIndex index, bound, lsb_index_lsb_index index⟩

theorem mem_racal_sources {count len : Nat} (fits : count ≤ 8 * len) (order : BitOrder count)
    (index : Nat) : index ∈ (racalLayout len fits order).sources ↔ index < count :=
  order.mem_layout_sources _ _ _ _ index

/-- The bits of a recording that no entry of the table uses. -/
theorem racal_unused {count len : Nat} (fits : count ≤ 8 * len) (order : BitOrder count)
    {rest : List Nat} (member : ∀ index, index ∈ rest ↔ count ≤ index ∧ index < 8 * len)
    (index : Nat) (bound : index < 8 * len) :
    index ∈ rest.map lsbIndex ↔ index ∉ (racalLayout len fits order).targets := by
  rw [mem_racal_targets, Nat.not_lt, List.mem_map]
  constructor
  · rintro ⟨entry, inRest, rfl⟩
    rw [lsb_index_lsb_index]
    exact ((member entry).mp inRest).1
  · intro beyond
    exact ⟨lsbIndex index, (member _).mpr ⟨beyond, lsb_index_lt bound⟩, lsb_index_lsb_index index⟩

section Places

variable {count len : Nat} (fits : count ≤ 8 * len) (order : BitOrder count) {src dst : Buf}
  (size : dst.length = len) {entry : Nat} (bound : entry < count)

include size bound

theorem bit_at_racal_place :
    bitAt ((racalLayout len fits order).place src dst) (lsbIndex entry) =
      bitAt src (order.entry entry) :=
  order.bit_at_layout_place _ _ _ _ size bound

theorem bit_at_racal_reverse_place :
    bitAt ((racalLayout len fits order).reverse.place src dst) (order.entry entry) =
      bitAt src (lsbIndex entry) :=
  order.bit_at_layout_reverse_place _ _ _ _ size bound

end Places

abbrev racalFrLayout (order : BitOrder 260) : Layout 33 33 := racalLayout 33 fr_bits_fit order

theorem racal_fr_from_canon_converts (order : BitOrder 260) {src : Buf}
    (size : src.length = 33) :
    Converts (racalFrFromCanon order) src ((racalFrLayout order).place src (zeros 33)) := by
  intro dst dstSize
  rw [Layout.place_length, zeros_length] at dstSize
  have clearedSize : (dst.set 32 0).length = 33 := by rw [List.length_set, dstSize]
  rw [racalFrFromCanon, require_true size, exec_bind_ok, store_eq _ (by omega), exec_bind_ok,
    racal_from_canon_loop (by decide) order size clearedSize, exec_bind_ok,
    (racalFrLayout order).place_precleared clearedSize, Layout.place_length, zeros_length]
  · rfl
  · intro index bound free
    rw [mem_racal_targets, lsbIndex] at free
    rw [bit_at_set_zero, if_pos (by omega)]

theorem racal_fr_to_canon_converts (order : BitOrder 260) {src : Buf}
    (size : src.length = 33) :
    Converts (racalFrToCanon order) src ((racalFrLayout order).reverse.place src (zeros 33)) := by
  intro dst dstSize
  rw [Layout.place_length, zeros_length] at dstSize
  have clearedSize : (dst.set 32 0).length = 33 := by rw [List.length_set, dstSize]
  rw [racalFrToCanon, require_true size, exec_bind_ok, store_eq _ (by omega), exec_bind_ok,
    racal_to_canon_loop (by decide) order size clearedSize, exec_bind_ok,
    (racalFrLayout order).reverse.place_precleared clearedSize, Layout.place_length, zeros_length]
  · rfl
  · intro index bound free
    rw [Layout.reverse_targets, mem_racal_sources] at free
    rw [bit_at_set_zero, if_pos (by omega)]

/-- EFR recordings keep the canonical order of the bits. -/
abbrev racalEfrLayout : Layout 31 31 := racalLayout 31 efr_bits_fit (BitOrder.identity 244)

theorem racal_efr_from_canon_converts {src : Buf} (size : src.length = 31) :
    Converts racalEfrFromCanon src (racalEfrLayout.place src (zeros 31)) := by
  intro dst dstSize
  rw [Layout.place_length, zeros_length] at dstSize
  have clearedSize : (dst.set 30 0).length = 31 := by rw [List.length_set, dstSize]
  rw [racalEfrFromCanon, require_true size, exec_bind_ok, store_eq _ (by omega), exec_bind_ok,
    racalEfrLayout.for_loop_place 244 _ (BitOrder.layout_moves _ _ _ _ _), exec_bind_ok,
    racalEfrLayout.place_precleared clearedSize, Layout.place_length, zeros_length]
  · rfl
  · intro index bound free
    rw [mem_racal_targets, lsbIndex] at free
    rw [bit_at_set_zero, if_pos (by omega)]
  · intro i bound reached reachedSize
    rw [BitOrder.entry_identity bound, msb_get_bit_eq (by omega), exec_bind_ok,
      lsb_put_bit_eq _ (by omega), decide_bit_ne_zero]

theorem racal_efr_to_canon_converts {src : Buf} (size : src.length = 31) :
    Converts racalEfrToCanon src (racalEfrLayout.reverse.place src (zeros 31)) := by
  intro dst dstSize
  rw [Layout.place_length, zeros_length] at dstSize
  have clearedSize : (dst.set 30 0).length = 31 := by rw [List.length_set, dstSize]
  rw [racalEfrToCanon, require_true size, exec_bind_ok, store_eq _ (by omega), exec_bind_ok,
    racalEfrLayout.reverse.for_loop_place 244 _ (BitOrder.reverse_layout_moves _ _ _ _ _),
    exec_bind_ok, racalEfrLayout.reverse.place_precleared clearedSize, Layout.place_length,
    zeros_length]
  · rfl
  · intro index bound free
    rw [Layout.reverse_targets, mem_racal_sources] at free
    rw [bit_at_set_zero, if_pos (by omega)]
  · intro i bound reached reachedSize
    rw [BitOrder.entry_identity bound, lsb_get_bit_eq (by omega), exec_bind_ok,
      msb_put_bit_eq _ (by omega), decide_bit_ne_zero]

section HalfRateLayout

variable (voicedOrder unvoicedOrder : BitOrder 112)

abbrev racalHrLayout (order : BitOrder 112) : Layout 14 14 := racalLayout 14 hr_bits_fit order

theorem racal_hr_from_canon_converts {src : Buf} (size : src.length = 14) :
    Converts (racalHrFromCanon voicedOrder unvoicedOrder) src
      ((racalHrLayout (voicingOrder voicedOrder unvoicedOrder (bitAt src 34) (bitAt src 35))).place
        src (zeros 14)) := by
  intro dst dstSize
  rw [Layout.place_length, zeros_length] at dstSize
  rw [racalHrFromCanon, require_true size, exec_bind_ok, msb_get_bit_eq (by omega), exec_bind_ok,
    msb_get_bit_eq (by omega), exec_bind_ok]
  simp only [voicing_ne_zero]
  rw [← voicingOrder, racal_from_canon_loop (by decide) _ size dstSize, exec_bind_ok,
    (racalHrLayout _).place_precleared dstSize, Layout.place_length, zeros_length]
  · rfl
  · intro index bound free
    rw [mem_racal_targets, lsbIndex] at free
    omega

theorem racal_hr_to_canon_converts {src : Buf} (size : src.length = 14) :
    Converts (racalHrToCanon voicedOrder unvoicedOrder) src
      ((racalHrLayout (voicingOrder voicedOrder unvoicedOrder
        (bitAt src (lsbIndex 94)) (bitAt src (lsbIndex 93)))).reverse.place src (zeros 14)) := by
  intro dst dstSize
  rw [Layout.place_length, zeros_length] at dstSize
  rw [racalHrToCanon, require_true size, exec_bind_ok, lsb_get_bit_eq (by omega), exec_bind_ok,
    lsb_get_bit_eq (by omega), exec_bind_ok]
  simp only [voicing_ne_zero]
  rw [← voicingOrder, racal_to_canon_loop (by decide) _ size dstSize, exec_bind_ok,
    (racalHrLayout _).reverse.place_precleared dstSize, Layout.place_length, zeros_length]
  · rfl
  · intro index bound free
    rw [Layout.reverse_targets, mem_racal_sources] at free
    omega

end HalfRateLayout

end Gapk.FmtRacal
