import Gapk.FmtRtp

/-!
# EFR frames in RTP payloads

The payload keeps all 244 speech bits behind its magic nibble. Only one canonical
frame is written as the payload that the reader takes for a damaged one, and this
frame comes back as silence.
-/

namespace Gapk.RtpEfr

open CheckedMemory BitBuffer
open Gapk.Formats Gapk.NibbleShift Gapk.FmtRtp

set_option autoImplicit false

def withMagic (payload : Buf) : Buf :=
  payload.modifyHead fun first => (efrMagic <<< 4) ||| (first &&& 0x0f)

theorem with_magic_length (payload : Buf) : (withMagic payload).length = payload.length :=
  List.length_modifyHead

theorem bit_at_with_magic {payload : Buf} (nonempty : 0 < payload.length) (index : Nat) :
    bitAt (withMagic payload) index =
      if index < 4 then efrMagic.getLsbD (3 - index) else bitAt payload index := by
  obtain ⟨first, rest, rfl⟩ := List.exists_cons_of_length_pos nonempty
  exact bit_at_magic_cons efrMagic first rest index

theorem shifted_unshifted {payload : Buf} (nonempty : 0 < payload.length) :
    shifted efrMagic (unshifted payload) = withMagic payload := by
  have size : (shifted efrMagic (unshifted payload)).length = payload.length := by
    rw [shifted_length _ (by rwa [unshifted_length]), unshifted_length]
  apply buf_eq_of_bits (by rw [size, with_magic_length])
  intro index bound
  rw [size] at bound
  rw [bit_at_shifted_unshifted _ _ _ bound, bit_at_with_magic nonempty]

/-- What the reader produces ends in a zero nibble. -/
theorem exists_unshifted {payload : Buf} (size : payload.length = 31) :
    ∃ canon : CanonFrame 31 244, canon.bytes = unshifted payload := by
  apply CanonFrame.exists_bytes (by rw [unshifted_length, size])
  intro index beyond
  rw [bit_at_unshifted, bit_at_out (by omega)]

theorem canon_unshifted_shifted (canon : CanonFrame 31 244) :
    unshifted (shifted efrMagic canon.bytes) = canon.bytes := by
  apply unshifted_shifted efrMagic (by rw [canon.size]; decide)
  intro index beyond
  exact canon.padding index (by rw [canon.size] at beyond; omega)

/-- The packing forgets nothing, so only one frame becomes the damaged packet. -/
theorem shifted_eq_damaged_iff (canon : CanonFrame 31 244) :
    shifted efrMagic canon.bytes = damagedPacket ↔ canon.bytes = zeros 31 := by
  constructor
  · intro damaged
    calc canon.bytes = unshifted (shifted efrMagic canon.bytes) :=
          (canon_unshifted_shifted canon).symm
      _ = unshifted damagedPacket := by rw [damaged]
      _ = zeros 31 := by decide
  · intro silent
    rw [silent]
    decide

theorem rtp_efr_to_canon_wrong_length {payload : Buf} (wrong : payload.length ≠ 31) :
    Converts rtpEfrToCanon payload (zeros 31) := by
  intro dst dstSize
  rw [zeros_length] at dstSize
  rw [rtpEfrToCanon, if_pos wrong, efrCanonLen, memset_zeros dstSize, zeros_length]
  rfl

theorem rtp_efr_reads_any (payload : Buf) :
    ∃ canon : CanonFrame 31 244, Converts rtpEfrToCanon payload canon.bytes := by
  by_cases size : payload.length = 31
  · obtain ⟨canon, same⟩ := exists_unshifted (concealed_length size)
    exact ⟨canon, same ▸ rtp_efr_to_canon_converts size⟩
  · obtain ⟨canon, same⟩ : ∃ canon : CanonFrame 31 244, canon.bytes = zeros 31 :=
      CanonFrame.exists_bytes (zeros_length 31) fun index _ => bit_at_zeros 31 index
    exact ⟨canon, same ▸ rtp_efr_to_canon_wrong_length size⟩

/-- A canonical frame comes back through a payload, except for the all-zero one,
and for no other one does the reader substitute anything. -/
theorem rtp_efr_canon_back (canon : CanonFrame 31 244) :
    ∃ payload : RawFrame 31, Converts rtpEfrFromCanon canon.bytes payload.bytes ∧
      (payload.bytes = damagedPacket ↔ canon.bytes = zeros 31) ∧
      Converts rtpEfrToCanon payload.bytes
        (if canon.bytes = zeros 31 then unshifted silence else canon.bytes) := by
  have forth := rtp_efr_from_canon_converts canon.size
  have size : (shifted efrMagic canon.bytes).length = 31 := by
    rw [shifted_length _ (by rw [canon.size]; decide), canon.size]
  have back := rtp_efr_to_canon_converts size
  have damaged := shifted_eq_damaged_iff canon
  refine ⟨⟨_, size⟩, forth, damaged, ?_⟩
  split_ifs with zero
  · rw [concealed, if_pos (damaged.mpr zero).symm] at back
    exact back
  · rw [concealed, if_neg (fun same => zero (damaged.mp same.symm)),
      canon_unshifted_shifted canon] at back
    exact back

/-- A payload comes back with the magic in its top nibble, except for the damaged one. -/
theorem rtp_efr_payload_back (payload : RawFrame 31) (whole : payload.bytes ≠ damagedPacket) :
    ∃ canon : CanonFrame 31 244, Converts rtpEfrToCanon payload.bytes canon.bytes ∧
      Converts rtpEfrFromCanon canon.bytes (withMagic payload.bytes) := by
  obtain ⟨canon, same⟩ := exists_unshifted payload.size
  have read := rtp_efr_to_canon_converts payload.size
  rw [concealed, if_neg (Ne.symm whole), ← same] at read
  have written := rtp_efr_from_canon_converts canon.size
  rw [same, shifted_unshifted (by rw [payload.size]; decide), ← same] at written
  exact ⟨canon, read, written⟩

/-- The conversion is exact in both directions up to the damaged packet and the
magic, and whatever is read ends in a zero nibble. -/
theorem rtp_efr_exact_up_to_damaged :
    (∃ silent : CanonFrame 31 244, silent.bytes ≠ zeros 31 ∧
      Converts rtpEfrToCanon silence silent.bytes ∧
      ∀ canon : CanonFrame 31 244, ∃ payload : RawFrame 31,
        Converts rtpEfrFromCanon canon.bytes payload.bytes ∧
        (payload.bytes = damagedPacket ↔ canon.bytes = zeros 31) ∧
        Converts rtpEfrToCanon payload.bytes
          (if canon.bytes = zeros 31 then silent.bytes else canon.bytes)) ∧
    (∀ payload : RawFrame 31, payload.bytes ≠ damagedPacket → ∃ canon : CanonFrame 31 244,
      Converts rtpEfrToCanon payload.bytes canon.bytes ∧
      Converts rtpEfrFromCanon canon.bytes (withMagic payload.bytes)) ∧
    (∀ payload : Buf, payload.length ≠ 31 → Converts rtpEfrToCanon payload (zeros 31)) ∧
    (∀ payload : Buf, ∃ canon : CanonFrame 31 244,
      Converts rtpEfrToCanon payload canon.bytes) := by
  refine ⟨?_, rtp_efr_payload_back, fun _ => rtp_efr_to_canon_wrong_length, rtp_efr_reads_any⟩
  obtain ⟨silent, same⟩ := exists_unshifted (rfl : silence.length = 31)
  have read := rtp_efr_to_canon_converts (rfl : silence.length = 31)
  have kept : concealed silence = silence := by decide
  rw [kept, ← same] at read
  refine ⟨silent, by rw [same]; decide, read, ?_⟩
  intro canon
  rw [same]
  exact rtp_efr_canon_back canon

end Gapk.RtpEfr
