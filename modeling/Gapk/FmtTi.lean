import Gapk.BitOrders
import Gapk.Formats
import Gapk.Utils

/-!
# TI Calypso / Locosto buffer format

The buffers hold the bits in channel coder order, with four unused bits between
two classes of bits. For EFR the table ranges over the input of the channel
coder, which is the speech frame with repeated bits and a CRC in between.
-/

namespace Gapk.FmtTi

open CheckedMemory BitBuffer BitLayout
open Gapk.BitOrders Gapk.Formats Gapk.Utils

set_option autoImplicit false

abbrev tiLen : Nat := 33

section HalfRate

variable (voicedOrder unvoicedOrder : BitOrder 112)

def tiHrFromCanon : FmtConvCb := fun dst src srcLen => do
  require (srcLen = hrCanonLen)
  let dst ← memset dst 0x00 tiLen
  let voiced := ((← msbGetBit src 34) <<< 1) ||| (← msbGetBit src 35)
  let bitMapping := if voiced ≠ 0 then voicedOrder else unvoicedOrder
  let dst ← forLoop 112 (fun i dst => do
    let si := bitMapping.entry i
    let di := if i ≥ 95 then i + 4 else i
    msbPutBit dst di (← msbGetBit src si)) dst
  pure (tiLen, dst)

def tiHrToCanon : FmtConvCb := fun dst src srcLen => do
  require (srcLen = tiLen)
  let voiced := ((← msbGetBit src 94) <<< 1) ||| (← msbGetBit src 93)
  let bitMapping := if voiced ≠ 0 then voicedOrder else unvoicedOrder
  let dst ← forLoop 112 (fun i dst => do
    let si := if i ≥ 95 then i + 4 else i
    let di := bitMapping.entry i
    msbPutBit dst di (← msbGetBit src si)) dst
  pure (hrCanonLen, dst)

def fmtTiHr : FormatDesc where
  type := .tiHr
  codecType := .hr
  name := "ti-hr"
  frameLen := tiLen
  convFromCanon := tiHrFromCanon voicedOrder unvoicedOrder
  convToCanon := tiHrToCanon voicedOrder unvoicedOrder
  headerLen := 0
  header := []

end HalfRate

section FullRate

variable (order : BitOrder 260)

def tiFrFromCanon : FmtConvCb := fun dst src srcLen => do
  require (srcLen = frCanonLen)
  let dst ← store dst 23 0x00
  let dst ← store dst 22 0x00
  let dst ← forLoop 260 (fun i dst => do
    let si := order.entry i
    let di := if i ≥ 182 then i + 4 else i
    msbPutBit dst di (← msbGetBit src si)) dst
  pure (tiLen, dst)

def tiFrToCanon : FmtConvCb := fun dst src srcLen => do
  require (srcLen = tiLen)
  let dst ← store dst 32 0x00
  let dst ← forLoop 260 (fun i dst => do
    let si := if i ≥ 182 then i + 4 else i
    let di := order.entry i
    msbPutBit dst di (← msbGetBit src si)) dst
  pure (frCanonLen, dst)

def fmtTiFr : FormatDesc where
  type := .tiFr
  codecType := .fr
  name := "ti-fr"
  frameLen := tiLen
  convFromCanon := tiFrFromCanon order
  convToCanon := tiFrToCanon order
  headerLen := 0
  header := []

end FullRate

section EnhancedFullRate

/-- Where a bit of the channel coder input is in the speech frame; nothing for
the repeated bits and the CRC, where the loops of the source `continue`. -/
def speechBit (coderBit : Nat) : Option Nat :=
  if coderBit < 71 then some coderBit
  else if coderBit < 73 then none
  else if coderBit < 123 then some (coderBit - 2)
  else if coderBit < 125 then none
  else if coderBit < 178 then some (coderBit - 4)
  else if coderBit < 180 then none
  else if coderBit < 230 then some (coderBit - 6)
  else if coderBit < 232 then none
  else if coderBit < 252 then some (coderBit - 8)
  else none

variable (order : BitOrder 260)

def tiEfrFromCanon : FmtConvCb := fun dst src srcLen => do
  require (srcLen = efrCanonLen)
  let dst ← memset dst 0x00 33
  let dst ← forLoop 244 (fun i dst => do
    let tsi := order.entry i
    let di := if i ≥ 182 then i + 4 else i
    match speechBit tsi with
    | some si => msbPutBit dst di (← msbGetBit src si)
    | none => pure dst) dst
  pure (tiLen, dst)

def tiEfrToCanon : FmtConvCb := fun dst src srcLen => do
  require (srcLen = tiLen)
  let dst ← memset dst 0x00 efrCanonLen
  let dst ← forLoop 244 (fun i dst => do
    let si := if i ≥ 182 then i + 4 else i
    let tdi := order.entry i
    match speechBit tdi with
    | some di => msbPutBit dst di (← msbGetBit src si)
    | none => pure dst) dst
  pure (efrCanonLen, dst)

def fmtTiEfr : FormatDesc where
  type := .tiEfr
  codecType := .efr
  name := "ti-efr"
  frameLen := tiLen
  convFromCanon := tiEfrFromCanon order
  convToCanon := tiEfrToCanon order
  headerLen := 0
  header := []

end EnhancedFullRate

/-- The place of entry `i` in a buffer with four unused bits from `gap` on. -/
def tiSlot (gap i : Nat) : Nat := if i ≥ gap then i + 4 else i

theorem ti_slot_injective {gap left right : Nat} (same : tiSlot gap left = tiSlot gap right) :
    left = right := by
  unfold tiSlot at same
  split_ifs at same <;> omega

theorem ti_slot_lt {gap i count : Nat} (bound : i < count) : tiSlot gap i < count + 4 := by
  unfold tiSlot
  split_ifs <;> omega

def tiLayout {count : Nat} (gap canonLen : Nat) (fits : count ≤ 8 * canonLen)
    (room : count + 4 ≤ 8 * 33) (order : BitOrder count) : Layout canonLen 33 :=
  order.layout (tiSlot gap)
    (by
      intro left _ right _ same
      exact ti_slot_injective same)
    (by
      intro i bound
      exact Nat.lt_of_lt_of_le (ti_slot_lt bound) room)
    fits

/-- The slots behind the gap still fit into the buffer. -/
theorem ti_fr_room : 260 + 4 ≤ 8 * 33 := by decide

theorem ti_hr_room : 112 + 4 ≤ 8 * 33 := by decide

section Layouts

variable {count gap canonLen : Nat} (fits : count ≤ 8 * canonLen) (room : count + 4 ≤ 8 * 33)
  (order : BitOrder count)

theorem mem_ti_sources (index : Nat) :
    index ∈ (tiLayout gap canonLen fits room order).sources ↔ index < count :=
  order.mem_layout_sources _ _ _ _ index

/-- The buffer bits in use: all but the gap and what follows the last entry. -/
theorem mem_ti_targets (within : gap ≤ count) (index : Nat) :
    index ∈ (tiLayout gap canonLen fits room order).targets ↔
      index < gap ∨ (gap + 4 ≤ index ∧ index < count + 4) := by
  refine (order.mem_layout_targets _ _ _ _ index).trans ?_
  constructor
  · rintro ⟨entry, bound, rfl⟩
    unfold tiSlot
    split_ifs <;> omega
  · rintro (low | high)
    · exact ⟨index, by omega, by simp [tiSlot, Nat.not_le.mpr low]⟩
    · refine ⟨index - 4, by omega, ?_⟩
      rw [tiSlot, if_pos (by omega)]
      omega

variable {src dst : Buf}

theorem bit_at_ti_place (size : dst.length = 33) {entry : Nat} (bound : entry < count) :
    bitAt ((tiLayout gap canonLen fits room order).place src dst) (tiSlot gap entry) =
      bitAt src (order.entry entry) :=
  order.bit_at_layout_place _ _ _ _ size bound

theorem bit_at_ti_reverse_place (size : dst.length = canonLen) {entry : Nat}
    (bound : entry < count) :
    bitAt ((tiLayout gap canonLen fits room order).reverse.place src dst) (order.entry entry) =
      bitAt src (tiSlot gap entry) :=
  order.bit_at_layout_reverse_place _ _ _ _ size bound

theorem ti_from_canon_loop (srcSize : src.length = canonLen) (dstSize : dst.length = 33) :
    forLoop count (fun i dst => do
      msbPutBit dst (if i ≥ gap then i + 4 else i) (← msbGetBit src (order.entry i))) dst =
      .ok ((tiLayout gap canonLen fits room order).place src dst) := by
  apply Layout.for_loop_place _ count _ (order.layout_moves _ _ _ _)
  intro i bound reached size
  have entry := order.entry_lt bound
  have slot : tiSlot gap i < count + 4 := ti_slot_lt bound
  rw [msb_get_bit_eq (by omega), exec_bind_ok, ← tiSlot, msb_put_bit_eq _ (by omega),
    decide_bit_ne_zero]

theorem ti_to_canon_loop (srcSize : src.length = 33) (dstSize : dst.length = canonLen) :
    forLoop count (fun i dst => do
      msbPutBit dst (order.entry i) (← msbGetBit src (if i ≥ gap then i + 4 else i))) dst =
      .ok ((tiLayout gap canonLen fits room order).reverse.place src dst) := by
  apply Layout.for_loop_place _ count _ (order.reverse_layout_moves _ _ _ _)
  intro i bound reached size
  have entry := order.entry_lt bound
  have slot : tiSlot gap i < count + 4 := ti_slot_lt bound
  rw [← tiSlot, msb_get_bit_eq (by omega), exec_bind_ok, msb_put_bit_eq _ (by omega),
    decide_bit_ne_zero]

end Layouts

abbrev tiFrLayout (order : BitOrder 260) : Layout 33 33 :=
  tiLayout 182 33 fr_bits_fit ti_fr_room order

theorem ti_fr_from_canon_converts (order : BitOrder 260) {src : Buf} (size : src.length = 33) :
    Converts (tiFrFromCanon order) src ((tiFrLayout order).place src (zeros 33)) := by
  intro dst dstSize
  rw [Layout.place_length, zeros_length] at dstSize
  have clearedSize : ((dst.set 23 0).set 22 0).length = 33 := by
    rw [List.length_set, List.length_set, dstSize]
  rw [tiFrFromCanon, require_true size, exec_bind_ok, store_eq _ (by omega), exec_bind_ok,
    store_eq _ (by rw [List.length_set]; omega), exec_bind_ok,
    ti_from_canon_loop (by decide) (by decide) order size clearedSize, exec_bind_ok,
    (tiFrLayout order).place_precleared clearedSize, Layout.place_length, zeros_length]
  · rfl
  · intro index bound free
    rw [mem_ti_targets (by decide) (by decide) order (by decide)] at free
    rw [bit_at_set_zero, bit_at_set_zero]
    split_ifs with low high
    · rfl
    · rfl
    · omega

theorem ti_fr_to_canon_converts (order : BitOrder 260) {src : Buf} (size : src.length = 33) :
    Converts (tiFrToCanon order) src ((tiFrLayout order).reverse.place src (zeros 33)) := by
  intro dst dstSize
  rw [Layout.place_length, zeros_length] at dstSize
  have clearedSize : (dst.set 32 0).length = 33 := by rw [List.length_set, dstSize]
  rw [tiFrToCanon, require_true size, exec_bind_ok, store_eq _ (by omega), exec_bind_ok,
    ti_to_canon_loop (by decide) (by decide) order size clearedSize, exec_bind_ok,
    (tiFrLayout order).reverse.place_precleared clearedSize, Layout.place_length, zeros_length]
  · rfl
  · intro index bound free
    rw [Layout.reverse_targets, mem_ti_sources] at free
    rw [bit_at_set_zero, if_pos (by omega)]

section HalfRateLayout

variable (voicedOrder unvoicedOrder : BitOrder 112)

abbrev tiHrLayout (order : BitOrder 112) : Layout 14 33 :=
  tiLayout 95 14 hr_bits_fit ti_hr_room order

theorem ti_hr_from_canon_converts {src : Buf} (size : src.length = 14) :
    Converts (tiHrFromCanon voicedOrder unvoicedOrder) src
      ((tiHrLayout (voicingOrder voicedOrder unvoicedOrder (bitAt src 34) (bitAt src 35))).place
        src (zeros 33)) := by
  intro dst dstSize
  rw [Layout.place_length, zeros_length] at dstSize
  rw [tiHrFromCanon, require_true size, exec_bind_ok, memset_zeros dstSize, exec_bind_ok,
    msb_get_bit_eq (by omega), exec_bind_ok, msb_get_bit_eq (by omega), exec_bind_ok]
  simp only [voicing_ne_zero]
  rw [← voicingOrder, ti_from_canon_loop (by decide) (by decide) _ size (zeros_length 33),
    exec_bind_ok, Layout.place_length, zeros_length]
  rfl

theorem ti_hr_to_canon_converts {src : Buf} (size : src.length = 33) :
    Converts (tiHrToCanon voicedOrder unvoicedOrder) src
      ((tiHrLayout (voicingOrder voicedOrder unvoicedOrder
        (bitAt src 94) (bitAt src 93))).reverse.place src (zeros 14)) := by
  intro dst dstSize
  rw [Layout.place_length, zeros_length] at dstSize
  rw [tiHrToCanon, require_true size, exec_bind_ok, msb_get_bit_eq (by omega), exec_bind_ok,
    msb_get_bit_eq (by omega), exec_bind_ok]
  simp only [voicing_ne_zero]
  rw [← voicingOrder, ti_to_canon_loop (by decide) (by decide) _ size dstSize, exec_bind_ok,
    (tiHrLayout _).reverse.place_precleared dstSize, Layout.place_length, zeros_length]
  · rfl
  · intro index bound free
    rw [Layout.reverse_targets, mem_ti_sources] at free
    omega

end HalfRateLayout

/-- The place of a speech bit in the channel coder input. -/
def coderBit (speech : Nat) : Nat :=
  if speech < 71 then speech
  else if speech < 121 then speech + 2
  else if speech < 174 then speech + 4
  else if speech < 224 then speech + 6
  else speech + 8

theorem speech_bit_eq_some {coder speech : Nat} :
    speechBit coder = some speech ↔ speech < 244 ∧ coder = coderBit speech := by
  constructor
  · intro found
    simp only [speechBit, ite_eq_iff, Option.some_inj, reduceCtorEq, and_false, false_or, or_false]
      at found
    unfold coderBit
    -- One case for each of the five runs of speech bits.
    rcases found with ⟨_, rfl⟩ | ⟨_, _, ⟨_, rfl⟩ | ⟨_, _, ⟨_, rfl⟩ | ⟨_, _, ⟨_, rfl⟩ | ⟨_, _, _, rfl⟩⟩⟩⟩
    · rw [if_pos (by omega)]
      omega
    · rw [if_neg (by omega), if_pos (by omega)]
      omega
    · rw [if_neg (by omega), if_neg (by omega), if_pos (by omega)]
      omega
    · rw [if_neg (by omega), if_neg (by omega), if_neg (by omega), if_pos (by omega)]
      omega
    · rw [if_neg (by omega), if_neg (by omega), if_neg (by omega), if_neg (by omega)]
      omega
  · rintro ⟨bound, rfl⟩
    unfold coderBit
    split_ifs
    · rw [speechBit, if_pos (by omega)]
    · rw [speechBit, if_neg (by omega), if_neg (by omega), if_pos (by omega), Nat.add_sub_cancel]
    · rw [speechBit, if_neg (by omega), if_neg (by omega), if_neg (by omega), if_neg (by omega),
        if_pos (by omega), Nat.add_sub_cancel]
    · rw [speechBit, if_neg (by omega), if_neg (by omega), if_neg (by omega), if_neg (by omega),
        if_neg (by omega), if_neg (by omega), if_pos (by omega), Nat.add_sub_cancel]
    · rw [speechBit, if_neg (by omega), if_neg (by omega), if_neg (by omega), if_neg (by omega),
        if_neg (by omega), if_neg (by omega), if_neg (by omega), if_neg (by omega),
        if_pos (by omega), Nat.add_sub_cancel]

section EnhancedFullRateLayout

variable (order : BitOrder 260)

/-- The bit that round `i` of both loops copies. -/
def tiEfrStep (i : Nat) : Option (Nat × Nat) :=
  (speechBit (order.entry i)).map fun speech => (tiSlot 182 i, speech)

theorem mem_ti_efr_step {i : Nat} {move : Nat × Nat} :
    move ∈ tiEfrStep order i ↔ move.1 = tiSlot 182 i ∧ speechBit (order.entry i) = some move.2 := by
  rw [tiEfrStep, Option.mem_def, Option.map_eq_some_iff]
  constructor
  · rintro ⟨speech, found, rfl⟩
    exact ⟨rfl, found⟩
  · rintro ⟨slot, found⟩
    exact ⟨move.2, found, by rw [← slot]⟩

def tiEfrLayout : Layout 31 33 :=
  Layout.ofSteps 244 (tiEfrStep order)
    (by
      intro left _ right _ a aStep b bStep same
      rw [((mem_ti_efr_step order).mp aStep).1, ((mem_ti_efr_step order).mp bStep).1] at same
      exact ti_slot_injective same)
    (by
      intro left leftBound right rightBound a aStep b bStep same
      have fromLeft := speech_bit_eq_some.mp ((mem_ti_efr_step order).mp aStep).2
      have fromRight := speech_bit_eq_some.mp ((mem_ti_efr_step order).mp bStep).2
      apply order.entry_injective (by omega) (by omega)
      rw [fromLeft.2, fromRight.2, same])
    (by
      intro i bound move step
      obtain ⟨slot, found⟩ := (mem_ti_efr_step order).mp step
      have slotBound : tiSlot 182 i < 244 + 4 := ti_slot_lt bound
      have speech := (speech_bit_eq_some.mp found).1
      omega)

/-- The speech bits that the loops copy: those of the first 244 table entries. -/
theorem mem_ti_efr_sources (speech : Nat) :
    speech ∈ (tiEfrLayout order).sources ↔
      ∃ i < 244, speechBit (order.entry i) = some speech := by
  constructor
  · intro member
    obtain ⟨move, moveMember, rfl⟩ := List.mem_map.mp member
    obtain ⟨i, inside, step⟩ := List.mem_filterMap.mp moveMember
    exact ⟨i, List.mem_range.mp inside, ((mem_ti_efr_step order).mp step).2⟩
  · rintro ⟨i, inside, found⟩
    have step : (tiSlot 182 i, speech) ∈ tiEfrStep order i :=
      (mem_ti_efr_step order).mpr ⟨rfl, found⟩
    exact List.mem_map.mpr
      ⟨_, List.mem_filterMap.mpr ⟨i, List.mem_range.mpr inside, step⟩, rfl⟩

/-- The other speech bits are those of the last sixteen entries. -/
theorem not_mem_ti_efr_sources {speech : Nat} (bound : speech < 244) :
    speech ∉ (tiEfrLayout order).sources ↔
      ∃ i, 244 ≤ i ∧ i < 260 ∧ speechBit (order.entry i) = some speech := by
  have inTable : coderBit speech < 260 := by
    unfold coderBit
    split_ifs <;> omega
  rw [mem_ti_efr_sources]
  constructor
  · intro unused
    obtain ⟨i, inside, entry⟩ := order.entry_surjective inTable
    have found : speechBit (order.entry i) = some speech :=
      speech_bit_eq_some.mpr ⟨bound, entry⟩
    refine ⟨i, ?_, inside, found⟩
    by_contra early
    exact unused ⟨i, by omega, found⟩
  · rintro ⟨i, late, inside, found⟩ ⟨earlier, early, foundEarlier⟩
    have same := order.entry_injective (by omega) inside
      ((speech_bit_eq_some.mp foundEarlier).2.trans (speech_bit_eq_some.mp found).2.symm)
    omega

theorem ti_efr_from_canon_converts {src : Buf} (size : src.length = 31) :
    Converts (tiEfrFromCanon order) src ((tiEfrLayout order).place src (zeros 33)) := by
  intro dst dstSize
  rw [Layout.place_length, zeros_length] at dstSize
  rw [tiEfrFromCanon, require_true size, exec_bind_ok, memset_zeros dstSize, exec_bind_ok,
    (tiEfrLayout order).for_loop_place 244 (tiEfrStep order) rfl, exec_bind_ok,
    Layout.place_length, zeros_length]
  · rfl
  · intro i bound reached reachedSize
    have slot : tiSlot 182 i < 244 + 4 := ti_slot_lt bound
    rw [zeros_length] at reachedSize
    simp only [tiEfrStep]
    rw [← tiSlot]
    cases found : speechBit (order.entry i) with
    | none => rfl
    | some speech =>
        have speechBound := (speech_bit_eq_some.mp found).1
        simp only [Option.map_some]
        rw [msb_get_bit_eq (by omega), exec_bind_ok, msb_put_bit_eq _ (by omega),
          decide_bit_ne_zero]

theorem ti_efr_to_canon_converts {src : Buf} (size : src.length = 33) :
    Converts (tiEfrToCanon order) src ((tiEfrLayout order).reverse.place src (zeros 31)) := by
  intro dst dstSize
  rw [Layout.place_length, zeros_length] at dstSize
  rw [tiEfrToCanon, require_true size, exec_bind_ok, memset_zeros dstSize, exec_bind_ok,
    (tiEfrLayout order).reverse.for_loop_place 244 (fun i => (tiEfrStep order i).map Prod.swap),
    exec_bind_ok, Layout.place_length, zeros_length]
  · rfl
  · exact List.map_filterMap
  · intro i bound reached reachedSize
    have slot : tiSlot 182 i < 244 + 4 := ti_slot_lt bound
    rw [zeros_length] at reachedSize
    simp only [tiEfrStep]
    rw [← tiSlot]
    cases found : speechBit (order.entry i) with
    | none => rfl
    | some speech =>
        have speechBound := (speech_bit_eq_some.mp found).1
        simp only [Option.map_some, Prod.swap_prod_mk]
        rw [msb_get_bit_eq (by omega), exec_bind_ok, msb_put_bit_eq _ (by omega),
          decide_bit_ne_zero]

end EnhancedFullRateLayout

end Gapk.FmtTi
