import Gapk.Formats

/-!
# Frames shifted by a nibble

The `.gsm` file format and the RTP payload of EFR both put a magic nibble in
front of the canonical frame and shift the frame by four bits. The two loops are
the same up to the magic and the length, and so are their bits.
-/

namespace Gapk.NibbleShift

open CheckedMemory BitBuffer

set_option autoImplicit false

/-- `dst[0] = (magic << 4) | (src[0] >> 4)`, then `dst[i] = (src[i-1] << 4) | (src[i] >> 4)`. -/
def shiftIn (magic : Byte) (len : Nat) (dst src : Buf) : Exec Buf := do
  let first ← load src 0
  let dst ← store dst 0 ((magic <<< 4) ||| (first >>> 4))
  forLoop (len - 1) (fun round dst => do
    let i := round + 1
    let previous ← load src (i - 1)
    let current ← load src i
    store dst i ((previous <<< 4) ||| (current >>> 4))) dst

/-- `dst[i] = (src[i] << 4) | (src[i+1] >> 4)`, then `dst[len-1] = src[len-1] << 4`. -/
def shiftOut (len : Nat) (dst src : Buf) : Exec Buf := do
  let dst ← forLoop (len - 1) (fun i dst => do
    let current ← load src i
    let next ← load src (i + 1)
    store dst i ((current <<< 4) ||| (next >>> 4))) dst
  let last ← load src (len - 1)
  store dst (len - 1) (last <<< 4)

def shifted (magic : Byte) (src : Buf) : Buf :=
  ((magic <<< 4) ||| (src.getD 0 0 >>> 4)) ::
    (List.range (src.length - 1)).map fun round =>
      (src.getD round 0 <<< 4) ||| (src.getD (round + 1) 0 >>> 4)

def unshifted (src : Buf) : Buf :=
  (List.range src.length).map fun i => (src.getD i 0 <<< 4) ||| (src.getD (i + 1) 0 >>> 4)

theorem shifted_length (magic : Byte) {src : Buf} (nonempty : 0 < src.length) :
    (shifted magic src).length = src.length := by
  simp only [shifted, List.length_cons, List.length_map, List.length_range]
  omega

@[simp] theorem unshifted_length (src : Buf) : (unshifted src).length = src.length := by
  simp [unshifted]

theorem shift_in_eq (magic : Byte) {dst src : Buf} (nonempty : 0 < src.length)
    (size : dst.length = src.length) :
    shiftIn magic src.length dst src = .ok (shifted magic src) := by
  unfold shiftIn
  rw [load_eq nonempty, exec_bind_ok, store_eq _ (by omega), exec_bind_ok]
  rw [for_loop_store (fun round => (src.getD round 0 <<< 4) ||| (src.getD (round + 1) 0 >>> 4)) 1
    (src.length - 1)]
  · have front : (dst.set 0 ((magic <<< 4) ||| (src.getD 0 0 >>> 4))).take 1 =
        [(magic <<< 4) ||| (src.getD 0 0 >>> 4)] := by
      cases dst with
      | nil => simp only [List.length_nil] at size; omega
      | cons head tail => rfl
    have rest : (dst.set 0 ((magic <<< 4) ||| (src.getD 0 0 >>> 4))).drop
        (1 + (src.length - 1)) = [] := by
      apply List.drop_eq_nil_of_le
      rw [List.length_set]
      omega
    rw [front, rest, List.append_nil]
    rfl
  · rw [List.length_set]
    omega
  · intro round bound reached _
    simp only [Nat.add_sub_cancel]
    rw [load_eq (by omega : round < src.length), exec_bind_ok,
      load_eq (by omega : round + 1 < src.length), exec_bind_ok, Nat.add_comm 1 round]

theorem shift_out_eq {dst src : Buf} (nonempty : 0 < src.length)
    (size : dst.length = src.length) :
    shiftOut src.length dst src = .ok (unshifted src) := by
  unfold shiftOut
  rw [for_loop_store (fun i => (src.getD i 0 <<< 4) ||| (src.getD (i + 1) 0 >>> 4)) 0
    (src.length - 1)]
  · rw [exec_bind_ok, load_eq (by omega), exec_bind_ok, store_eq]
    · obtain ⟨last, whole⟩ : ∃ last, src.length = last + 1 := ⟨src.length - 1, by omega⟩
      have past : src[last + 1]? = none := List.getElem?_eq_none (by omega)
      have room : (dst.drop last).length = 1 := by
        rw [List.length_drop]
        omega
      obtain ⟨old, tail⟩ := List.length_eq_one_iff.mp room
      simp only [whole, Nat.add_sub_cancel, List.take_zero, List.nil_append, Nat.zero_add, tail]
      rw [List.set_append_right _ _ (by simp), unshifted, whole, List.range_succ, List.map_append]
      simp [past]
    · simp only [List.take_zero, List.nil_append, List.length_append, List.length_map,
        List.length_range, List.length_drop]
      omega
  · omega
  · intro i bound reached _
    rw [load_eq (by omega : i < src.length), exec_bind_ok,
      load_eq (by omega : i + 1 < src.length), exec_bind_ok, Nat.zero_add]

private theorem get_lsb_nibbles (high low : Byte) (place : Nat) (bound : place < 8) :
    ((high <<< 4) ||| (low >>> 4)).getLsbD place =
      if 4 ≤ place then high.getLsbD (place - 4) else low.getLsbD (4 + place) := by
  rw [BitVec.getLsbD_or, BitVec.getLsbD_shiftLeft, BitVec.getLsbD_ushiftRight]
  split_ifs with upper
  · have beyond : low.getLsbD (4 + place) = false := BitVec.getLsbD_of_ge _ _ (by omega)
    simp [bound, Nat.not_lt.mpr upper, beyond]
  · simp [Nat.lt_of_not_le upper]

theorem bit_at_magic_cons (magic first : Byte) (rest : Buf) (index : Nat) :
    bitAt (((magic <<< 4) ||| (first &&& 0x0f)) :: rest) index =
      if index < 4 then magic.getLsbD (3 - index) else bitAt (first :: rest) index := by
  have lowNibble : ∀ place < 8, (0x0f : Byte).getLsbD (7 - place) = decide (4 ≤ place) := by
    decide
  unfold bitAt
  rcases byteCase : index / 8 with _ | position
  · have inFirst : index % 8 = index := by omega
    rw [List.getD_cons_zero, List.getD_cons_zero, inFirst, BitVec.getLsbD_or,
      BitVec.getLsbD_shiftLeft, BitVec.getLsbD_and, lowNibble index (by omega)]
    by_cases inMagic : index < 4
    · have upper : ¬7 - index < 4 := by omega
      have masked : ¬4 ≤ index := by omega
      have place : 7 - index - 4 = 3 - index := by omega
      simp only [inMagic, upper, masked, place, (by omega : 7 - index < 8), decide_true,
        decide_false, Bool.not_false, Bool.true_and, Bool.and_false, Bool.or_false, if_true]
    · have lower : 7 - index < 4 := by omega
      have kept : 4 ≤ index := by omega
      simp only [inMagic, lower, kept, decide_true, Bool.not_true, Bool.and_true, Bool.and_false,
        Bool.false_and, Bool.false_or, if_false]
  · rw [List.getD_cons_succ, List.getD_cons_succ, if_neg (by omega : ¬index < 4)]

theorem bit_at_shifted (magic : Byte) {src : Buf} (index : Nat) (bound : index < 8 * src.length) :
    bitAt (shifted magic src) index =
      if index < 4 then magic.getLsbD (3 - index) else bitAt src (index - 4) := by
  have place : 7 - index % 8 < 8 := by omega
  unfold bitAt
  rcases byteCase : index / 8 with _ | round
  · have inFirst : index % 8 = index := by omega
    rw [shifted, List.getD_cons_zero, get_lsb_nibbles _ _ _ place, inFirst]
    by_cases inMagic : index < 4
    · rw [if_pos (by omega), if_pos inMagic, show 7 - index - 4 = 3 - index by omega]
    · rw [if_neg (by omega), if_neg inMagic, show (index - 4) / 8 = 0 by omega,
        show 4 + (7 - index) = 7 - (index - 4) % 8 by omega]
  · have inside : round < ((List.range (src.length - 1)).map fun round =>
        (src.getD round 0 <<< 4) ||| (src.getD (round + 1) 0 >>> 4)).length := by
      rw [List.length_map, List.length_range]
      omega
    rw [shifted, List.getD_cons_succ, List.getD_eq_getElem _ _ inside, List.getElem_map,
      List.getElem_range, get_lsb_nibbles _ _ _ place, if_neg (by omega : ¬index < 4)]
    by_cases upper : index % 8 < 4
    · rw [if_pos (by omega), show (index - 4) / 8 = round by omega,
        show 7 - index % 8 - 4 = 7 - (index - 4) % 8 by omega]
    · rw [if_neg (by omega), show (index - 4) / 8 = round + 1 by omega,
        show 4 + (7 - index % 8) = 7 - (index - 4) % 8 by omega]

theorem bit_at_unshifted (src : Buf) (index : Nat) :
    bitAt (unshifted src) index = bitAt src (index + 4) := by
  by_cases bound : index < 8 * src.length
  · have place : 7 - index % 8 < 8 := by omega
    have inside : index / 8 < ((List.range src.length).map fun i =>
        (src.getD i 0 <<< 4) ||| (src.getD (i + 1) 0 >>> 4)).length := by
      rw [List.length_map, List.length_range]
      omega
    unfold bitAt
    rw [unshifted, List.getD_eq_getElem _ _ inside, List.getElem_map, List.getElem_range,
      get_lsb_nibbles _ _ _ place]
    by_cases upper : index % 8 < 4
    · rw [if_pos (by omega), show (index + 4) / 8 = index / 8 by omega,
        show 7 - index % 8 - 4 = 7 - (index + 4) % 8 by omega]
    · rw [if_neg (by omega), show (index + 4) / 8 = index / 8 + 1 by omega,
        show 4 + (7 - index % 8) = 7 - (index + 4) % 8 by omega]
  · rw [bit_at_out (by rw [unshifted_length]; omega), bit_at_out (by omega)]

/-- Shifting in and out again loses the last nibble of the frame only. -/
theorem unshifted_shifted (magic : Byte) {src : Buf} (nonempty : 0 < src.length)
    (padding : ∀ index, 8 * src.length - 4 ≤ index → bitAt src index = false) :
    unshifted (shifted magic src) = src := by
  have size := shifted_length magic nonempty
  apply buf_eq_of_bits (by rw [unshifted_length, size])
  intro index bound
  rw [unshifted_length, size] at bound
  rw [bit_at_unshifted]
  by_cases speech : index + 4 < 8 * src.length
  · rw [bit_at_shifted magic _ speech, if_neg (by omega), Nat.add_sub_cancel]
  · rw [bit_at_out (by omega), padding index (by omega)]

/-- Shifting out and in again replaces the first nibble by the magic. -/
theorem bit_at_shifted_unshifted (magic : Byte) (src : Buf) (index : Nat)
    (bound : index < 8 * src.length) :
    bitAt (shifted magic (unshifted src)) index =
      if index < 4 then magic.getLsbD (3 - index) else bitAt src index := by
  rw [bit_at_shifted magic index (by rwa [unshifted_length])]
  split_ifs with inMagic
  · rfl
  · rw [bit_at_unshifted, Nat.sub_add_cancel (by omega)]

end Gapk.NibbleShift
