import Gapk.BitOrders
import Gapk.Formats
import Gapk.Library.FixedWidth
import Gapk.Utils

/-!
# AMR formats

Classic `.amr` files, which contain EFR here, and the two formats of AMR frames
proper, whose frames have no fixed length.
-/

namespace Gapk.FmtAmr

open CheckedMemory BitBuffer BitLayout FixedWidth
open Gapk.BitOrders Gapk.Formats Gapk.Utils

set_option autoImplicit false

section AmrEfr

abbrev efrLen : Nat := 32

variable (order : BitOrder 244)

def amrEfrFromCanon : FmtConvCb := fun dst src srcLen => do
  require (srcLen = efrCanonLen)
  let dst ← store dst 0 0x3c
  let dst ← store dst 31 0x00
  let dst ← forLoop 244 (fun i dst => do
    let si := order.entry i
    let di := i
    let bit ← msbGetBit src si
    withOffset 1 dst (fun dst => msbPutBit dst di bit)) dst
  pure (efrLen, dst)

def amrEfrToCanon : FmtConvCb := fun dst src srcLen => do
  require (srcLen = efrLen)
  if (← load src 0) ≠ 0x3c then
    return (-1, dst)
  let dst ← store dst 30 0x00
  let dst ← forLoop 244 (fun i dst => do
    let si := i
    let di := order.entry i
    msbPutBit dst di (← msbGetBit (src.drop 1) si)) dst
  pure (efrCanonLen, dst)

def fmtAmrEfr : FormatDesc where
  type := .amrEfr
  codecType := .efr
  name := "amr-efr"
  frameLen := efrLen
  convFromCanon := amrEfrFromCanon order
  convToCanon := amrEfrToCanon order
  headerLen := 6
  -- "#!AMR" and a line feed
  header := [0x23, 0x21, 0x41, 0x4d, 0x52, 0x0a]

end AmrEfr

def amrOpencoreFromCanon : FmtConvCb := fun dst src srcLen => do
  let dst ← memcpy dst 0 src 0 srcLen
  pure (toInt32 srcLen, dst)

def amrOpencoreToCanon : FmtConvCb := fun dst src srcLen => do
  let dst ← memcpy dst 0 src 0 srcLen
  pure (toInt32 srcLen, dst)

def fmtAmrOpencore : FormatDesc where
  type := .amrOpencore
  codecType := .amr
  name := "amr-opencore"
  frameLen := 0
  convFromCanon := amrOpencoreFromCanon
  convToCanon := amrOpencoreToCanon
  headerLen := 0
  header := []

/-- The AMR SID frame of TS 126 101, 4.2.3. -/
def silence : Buf := [0x80, 0x44, 0x00, 0x00, 0x00, 0x00, 0x00]

def rtpAmrFromCanon : FmtConvCb := fun dst src srcLen => do
  let dst ← store dst 0 0xf0
  let dst ← memcpy dst 1 src 0 srcLen
  pure (toInt32 (srcLen + 1), dst)

-- An empty payload makes the copy length wrap around, like in the source.
def rtpAmrToCanon : FmtConvCb := fun dst src srcLen => do
  let quality ← load src 1
  let src' := if quality &&& 0x04 = 0 then silence else src
  let srcLen' := if quality &&& 0x04 = 0 then silence.length else srcLen
  let dst ← memcpy dst 0 src' 1 (toUInt32 (srcLen' - 1))
  pure (toInt32 (srcLen' - 1), dst)

def fmtRtpAmr : FormatDesc where
  type := .rtpAmr
  codecType := .amr
  name := "rtp-amr"
  frameLen := 0
  convFromCanon := rtpAmrFromCanon
  convToCanon := rtpAmrToCanon
  headerLen := 0
  header := []

section AmrEfrLayout

variable (order : BitOrder 244)

def amrEfrLayout : Layout 31 31 :=
  order.layout id
    (by
      intro left _ right _ same
      exact same)
    (by
      intro i bound
      exact Nat.lt_of_lt_of_le bound efr_bits_fit)
    efr_bits_fit

theorem mem_amr_efr_targets (index : Nat) :
    index ∈ (amrEfrLayout order).targets ↔ index < 244 := by
  refine (order.mem_layout_targets _ _ _ _ index).trans ?_
  constructor
  · rintro ⟨entry, bound, rfl⟩
    exact bound
  · intro bound
    exact ⟨index, bound, rfl⟩

theorem mem_amr_efr_sources (index : Nat) :
    index ∈ (amrEfrLayout order).sources ↔ index < 244 :=
  order.mem_layout_sources _ _ _ _ index

theorem amr_efr_from_canon_converts {src : Buf} (size : src.length = 31) :
    Converts (amrEfrFromCanon order) src (0x3c :: (amrEfrLayout order).place src (zeros 31)) := by
  intro dst dstSize
  rw [List.length_cons, Layout.place_length, zeros_length] at dstSize
  obtain ⟨first, tail, rfl⟩ : ∃ first tail, dst = first :: tail :=
    List.exists_cons_of_length_eq_add_one dstSize
  have tailSize : (tail.set 30 0x00).length = 31 := by
    rw [List.length_set]
    simpa using dstSize
  have inner : forLoop 244 (fun i dst => do
      msbPutBit dst i (← msbGetBit src (order.entry i))) (tail.set 30 0x00) =
      .ok ((amrEfrLayout order).place src (tail.set 30 0x00)) := by
    apply Layout.for_loop_place _ 244 _ (order.layout_moves _ _ _ _)
    intro i bound reached size
    have entry := order.entry_lt bound
    rw [msb_get_bit_eq (by omega), exec_bind_ok, msb_put_bit_eq _ (by omega), decide_bit_ne_zero]
    rfl
  have bodies : ∀ i < 244, ∀ buf : Buf,
      (do
        let bit ← msbGetBit src (order.entry i)
        withOffset 1 buf (fun dst => msbPutBit dst i bit)) =
      withOffset 1 buf (fun dst => do msbPutBit dst i (← msbGetBit src (order.entry i))) := by
    intro i bound buf
    have entry := order.entry_lt bound
    rw [msb_get_bit_eq (by omega)]
    rfl
  have outer : forLoop 244 (fun i dst => do
      let bit ← msbGetBit src (order.entry i)
      withOffset 1 dst (fun dst => msbPutBit dst i bit)) (0x3c :: tail.set 30 0x00) =
      .ok (0x3c :: (amrEfrLayout order).place src (tail.set 30 0x00)) := by
    have behind := for_loop_with_offset 244 1
      (fun i dst => do msbPutBit dst i (← msbGetBit src (order.entry i))) [0x3c] (tail.set 30 0x00)
      rfl
    rw [inner, exec_bind_ok, List.singleton_append, List.singleton_append] at behind
    rw [for_loop_congr _ _ 244 _ bodies, behind]
  rw [amrEfrFromCanon, require_true size, exec_bind_ok, store_eq _ (by omega), exec_bind_ok,
    store_eq _ (by rw [List.length_set]; omega), exec_bind_ok, List.set_cons_zero,
    List.set_cons_succ, outer, exec_bind_ok, (amrEfrLayout order).place_precleared tailSize,
    List.length_cons, Layout.place_length, zeros_length]
  · rfl
  · intro index bound free
    rw [mem_amr_efr_targets] at free
    rw [bit_at_set_zero, if_pos (by omega)]

theorem amr_efr_to_canon_converts {payload : Buf} (size : payload.length = 31) :
    Converts (amrEfrToCanon order) (0x3c :: payload)
      ((amrEfrLayout order).reverse.place payload (zeros 31)) := by
  intro dst dstSize
  rw [Layout.place_length, zeros_length] at dstSize
  have srcSize : ((0x3c : Byte) :: payload).length = efrLen := by rw [List.length_cons, size]
  have clearedSize : (dst.set 30 0).length = 31 := by rw [List.length_set, dstSize]
  rw [amrEfrToCanon, require_true srcSize, exec_bind_ok, load_eq (by simp), exec_bind_ok,
    List.getD_cons_zero, if_neg (by simp), store_eq _ (by omega), exec_bind_ok,
    (amrEfrLayout order).reverse.for_loop_place 244 _ (order.reverse_layout_moves _ _ _ _),
    exec_bind_ok, (amrEfrLayout order).reverse.place_precleared clearedSize, Layout.place_length,
    zeros_length]
  · rfl
  · intro index bound free
    rw [Layout.reverse_targets, mem_amr_efr_sources] at free
    rw [bit_at_set_zero, if_pos (by omega)]
  · intro i bound reached reachedSize
    have entry := order.entry_lt bound
    simp only [List.drop_one, List.tail_cons]
    rw [msb_get_bit_eq (by omega), exec_bind_ok,
      msb_put_bit_eq _ (by omega), decide_bit_ne_zero]
    rfl

/-- A frame that is not of mode 12.2 is refused. -/
theorem amr_efr_to_canon_refuses {src dst : Buf} (size : src.length = 32)
    (mode : src.getD 0 0 ≠ 0x3c) : amrEfrToCanon order dst src 32 = .ok (-1, dst) := by
  rw [amrEfrToCanon, require_true rfl, exec_bind_ok, load_eq (by omega), exec_bind_ok,
    if_pos mode]
  rfl

end AmrEfrLayout

end Gapk.FmtAmr
