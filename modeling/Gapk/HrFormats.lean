import Gapk.FmtHrRef
import Gapk.FmtRacal
import Gapk.FmtRtp
import Gapk.FmtTi
import Gapk.FormatFamily

/-!
# Half Rate formats

The layout of an HR frame depends on two voicing bits of the frame itself. Both
tables leave these bits at the same two places, so a reader finds the layout
that the writer has chosen.
-/

namespace Gapk.HrFormats

open CheckedMemory BitBuffer BitLayout FieldPacking HostWords
open Gapk.BitOrders Gapk.Formats Gapk.FormatFamily
open Gapk.FmtHrRef Gapk.FmtRacal Gapk.FmtRtp Gapk.FmtTi

set_option autoImplicit false

inductive HrFormat where
  | racalHr
  | tiHr
  | hrRefDec
  | hrRefEnc
  | rtpHrEtsi
  | rtpHrIetf
  deriving DecidableEq, Repr

section Tables

variable (host : Endian) (orders : HrOrders)

def hrDesc : HrFormat → FormatDesc
  | .racalHr => fmtRacalHr orders.voiced orders.unvoiced
  | .tiHr => fmtTiHr orders.voiced orders.unvoiced
  | .hrRefDec => fmtHrRefDec host
  | .hrRefEnc => fmtHrRefEnc host
  | .rtpHrEtsi => fmtRtpHrEtsi
  | .rtpHrIetf => fmtRtpHrIetf

private theorem exists_hr_canon {bytes : Buf} (size : bytes.length = 14) :
    ∃ canon : CanonFrame 14 112, canon.bytes = bytes := by
  apply CanonFrame.exists_bytes size
  intro index beyond
  exact bit_at_out (by omega)

private theorem mem_hr_rest (index : Nat) : index ∈ [] ↔ 112 ≤ index ∧ index < 8 * 14 := by
  simp only [List.not_mem_nil, false_iff]
  omega

/-- Entries 93 and 94 of either table are the voicing bits. -/
def racalHrLaidOut : LaidOut (BitOrder 112) 14 112 14 where
  fromCanon := racalHrFromCanon orders.voiced orders.unvoiced
  toCanon := racalHrToCanon orders.voiced orders.unvoiced
  layout order := racalHrLayout order
  ofCanon canon := orders.chosen (bitAt canon 34) (bitAt canon 35)
  ofFrame frame := orders.chosen (bitAt frame (lsbIndex 94)) (bitAt frame (lsbIndex 93))
  unused := []
  sources order := mem_racal_sources hr_bits_fit order
  free order := racal_unused hr_bits_fit order mem_hr_rest
  inside := by simp
  found := by
    intro canon
    rw [bit_at_racal_place _ _ (zeros_length 14) (by decide : 94 < 112),
      bit_at_racal_place _ _ (zeros_length 14) (by decide : 93 < 112)]
    exact orders.chosen_at_places (orders.chosen_places _ _) (bitAt canon)
  kept := by
    intro frame
    have places := orders.chosen_places (bitAt frame (lsbIndex 94)) (bitAt frame (lsbIndex 93))
    refine (orders.chosen_at_places places _).symm.trans ?_
    rw [bit_at_racal_reverse_place _ _ (zeros_length 14) (by decide : 94 < 112),
      bit_at_racal_reverse_place _ _ (zeros_length 14) (by decide : 93 < 112)]
  writes _ size := racal_hr_from_canon_converts orders.voiced orders.unvoiced size
  reads _ size := racal_hr_to_canon_converts orders.voiced orders.unvoiced size

/-- The bits of a TI buffer that no entry of the HR table uses. -/
def tiHrUnused : List Nat :=
  (List.range 264).filter fun index => !(index ≤ 94 || (99 ≤ index && index ≤ 115))

def tiHrLaidOut : LaidOut (BitOrder 112) 14 112 33 where
  fromCanon := tiHrFromCanon orders.voiced orders.unvoiced
  toCanon := tiHrToCanon orders.voiced orders.unvoiced
  layout order := tiHrLayout order
  ofCanon canon := orders.chosen (bitAt canon 34) (bitAt canon 35)
  ofFrame frame := orders.chosen (bitAt frame (tiSlot 95 94)) (bitAt frame (tiSlot 95 93))
  unused := tiHrUnused
  sources order := mem_ti_sources hr_bits_fit ti_hr_room order
  free := by
    intro order index bound
    rw [mem_ti_targets _ _ _ (by decide)]
    simp only [tiHrUnused, List.mem_filter, List.mem_range, Bool.not_eq_true', Bool.or_eq_false_iff,
      Bool.and_eq_false_iff, decide_eq_false_iff_not]
    omega
  inside := by
    intro index member
    exact List.mem_range.mp (List.mem_filter.mp member).1
  found := by
    intro canon
    rw [bit_at_ti_place _ _ _ (zeros_length 33) (by decide : 94 < 112),
      bit_at_ti_place _ _ _ (zeros_length 33) (by decide : 93 < 112)]
    exact orders.chosen_at_places (orders.chosen_places _ _) (bitAt canon)
  kept := by
    intro frame
    have places :=
      orders.chosen_places (bitAt frame (tiSlot 95 94)) (bitAt frame (tiSlot 95 93))
    refine (orders.chosen_at_places places _).symm.trans ?_
    rw [bit_at_ti_reverse_place _ _ _ (zeros_length 14) (by decide : 94 < 112),
      bit_at_ti_reverse_place _ _ _ (zeros_length 14) (by decide : 93 < 112)]
  writes _ size := ti_hr_from_canon_converts orders.voiced orders.unvoiced size
  reads _ size := ti_hr_to_canon_converts orders.voiced orders.unvoiced size

theorem hr_words_voicing (canon : Buf) (flags : List Nat) :
    decide ((hrWords canon ++ flags).getD 5 0 ≠ 0) = (bitAt canon 34 || bitAt canon 35) := by
  have field := hr_params_voicing_field (bitAt canon 34 || bitAt canon 35)
  rw [Bool.eq_iff_iff, decide_eq_true_iff,
    List.getD_append _ _ _ _ (by rw [hr_words_length]; decide), hrWords,
    unpack_fields_getD (by rw [hr_params_length]; decide), field.1, field.2]
  simp only [fieldValue, Nat.add_zero, Nat.reduceAdd]
  cases bitAt canon 34 <;> cases bitAt canon 35 <;> decide

/-- Trailing flag words do not disturb the parameters. -/
theorem hr_canon_hr_words {canon : Buf} (size : canon.length = 14) (flags : List Nat) :
    hrCanon (hrWords canon ++ flags) = canon := by
  rw [hrCanon, hr_words_voicing,
    pack_fields_append flags _ (by rw [hr_words_length, hr_params_length]), hrWords]
  exact pack_unpack_fields _ (by rw [size, hr_params_sum]) (by rw [zeros_length, hr_params_sum])

theorem hr_words_bounded (canon : Buf) : ∀ word ∈ hrWords canon, word < 65536 := by
  intro word member
  obtain ⟨field, inside, rfl⟩ := List.mem_map.mp member
  rw [List.mem_range, hr_params_length] at inside
  have narrow := hr_params_le (bitAt canon 34 || bitAt canon 35) inside
  calc fieldValue (bitAt canon) _ _ < 2 ^ _ := field_value_lt _ _ _
    _ ≤ 2 ^ 11 := Nat.pow_le_pow_right (by decide) narrow
    _ < 65536 := by decide

/-- The two formats of parameter words differ in the flag words behind them. -/
theorem hr_ref_from_to_canon {canon : Buf} (size : canon.length = 14) (flags : List Nat)
    (bounded : ∀ flag ∈ flags, flag < 65536) {fromCanon toCanon : FmtConvCb} {frameLen : Nat}
    (whole : frameLen = 2 * (18 + flags.length))
    (writes : Converts fromCanon canon (wordsBuf host (hrWords canon ++ flags)))
    (reads : ∀ words : List Nat, words.length = 18 + flags.length →
      (∀ word ∈ words, word < 65536) → Converts toCanon (wordsBuf host words) (hrCanon words)) :
    ∃ frame : RawFrame frameLen, Converts fromCanon canon frame.bytes ∧
      Converts toCanon frame.bytes canon := by
  have count : (hrWords canon ++ flags).length = 18 + flags.length := by
    rw [List.length_append, hr_words_length]
  have back := reads _ count (List.forall_mem_append.mpr ⟨hr_words_bounded canon, bounded⟩)
  rw [hr_canon_hr_words size] at back
  have frameSize : (wordsBuf host (hrWords canon ++ flags)).length = frameLen := by
    rw [words_buf_length, count, whole]
  exact ⟨⟨_, frameSize⟩, writes, back⟩

theorem hr_from_to_canon (format : HrFormat) (canon : CanonFrame 14 112) :
    ∃ frame : RawFrame (hrDesc host orders format).frameLen,
      Converts (hrDesc host orders format).convFromCanon canon.bytes frame.bytes ∧
      Converts (hrDesc host orders format).convToCanon frame.bytes canon.bytes := by
  have size := canon.size
  cases format with
  | racalHr => exact (racalHrLaidOut orders).from_to_canon canon
  | tiHr => exact (tiHrLaidOut orders).from_to_canon canon
  | hrRefDec =>
      exact hr_ref_from_to_canon host size [0, 0, 0, 0] (by decide) rfl
        (hr_ref_dec_from_canon_converts host size) fun _ => hr_ref_dec_to_canon_converts host
  | hrRefEnc =>
      exact hr_ref_from_to_canon host size [0, 0] (by decide) rfl
        (hr_ref_enc_from_canon_converts host size) fun _ => hr_ref_enc_to_canon_converts host
  | rtpHrEtsi =>
      exact ⟨⟨canon.bytes, size⟩, rtp_hr_etsi_from_canon_converts size,
        rtp_hr_etsi_to_canon_converts size⟩
  | rtpHrIetf =>
      have frameSize : ((0 : Byte) :: canon.bytes).length = 15 := by rw [List.length_cons, size]
      exact ⟨⟨0 :: canon.bytes, frameSize⟩, rtp_hr_ietf_from_canon_converts size,
        rtp_hr_ietf_to_canon_converts frameSize⟩

theorem hr_reads_any (format : HrFormat)
    (frame : RawFrame (hrDesc host orders format).frameLen) :
    ∃ canon : CanonFrame 14 112,
      Converts (hrDesc host orders format).convToCanon frame.bytes canon.bytes := by
  obtain ⟨bytes, size⟩ := frame
  cases format with
  | racalHr =>
      obtain ⟨canon, reads, _⟩ := (racalHrLaidOut orders).to_from_canon ⟨bytes, size⟩
      exact ⟨canon, reads⟩
  | tiHr =>
      obtain ⟨canon, reads, _⟩ := (tiHrLaidOut orders).to_from_canon ⟨bytes, size⟩
      exact ⟨canon, reads⟩
  | hrRefDec =>
      obtain ⟨words, count, bounded, rfl⟩ := exists_words host 22 bytes size
      obtain ⟨canon, same⟩ := exists_hr_canon (hr_canon_length words)
      exact ⟨canon, same ▸ hr_ref_dec_to_canon_converts host count bounded⟩
  | hrRefEnc =>
      obtain ⟨words, count, bounded, rfl⟩ := exists_words host 20 bytes size
      obtain ⟨canon, same⟩ := exists_hr_canon (hr_canon_length words)
      exact ⟨canon, same ▸ hr_ref_enc_to_canon_converts host count bounded⟩
  | rtpHrEtsi =>
      have payloadSize : bytes.length = 14 := size
      obtain ⟨canon, rfl⟩ := exists_hr_canon payloadSize
      exact ⟨canon, rtp_hr_etsi_to_canon_converts payloadSize⟩
  | rtpHrIetf =>
      have payloadSize : bytes.length = 15 := size
      have reads := rtp_hr_ietf_to_canon_converts payloadSize
      obtain ⟨canon, same⟩ : ∃ canon : CanonFrame 14 112, canon.bytes = bytes.tail :=
        exists_hr_canon (by rw [List.length_tail, payloadSize])
      rw [← same] at reads
      exact ⟨canon, reads⟩

def hrFormats : LosslessFormats HrFormat where
  desc := hrDesc host orders
  canonLen := 14
  speechBits := 112
  roundTrip := hr_from_to_canon host orders
  readsAny := hr_reads_any host orders

/-- HR formats give back every canonical frame, voiced or not, and make
conversions independent of the path. Racal frames survive a conversion to
canonical and back, TI buffers do so up to the bits that HR does not use. -/
theorem hr_formats_lossless_path_independent :
    (∀ format (canon : CanonFrame 14 112),
      ∃ frame : RawFrame (hrDesc host orders format).frameLen,
        Converts (hrDesc host orders format).convFromCanon canon.bytes frame.bytes ∧
        Converts (hrDesc host orders format).convToCanon frame.bytes canon.bytes) ∧
    (∀ source via target (frame : RawFrame (hrDesc host orders source).frameLen),
      ∃ between out : Buf,
        ConvertsVia (hrDesc host orders source) (hrDesc host orders via) frame.bytes between ∧
        ConvertsVia (hrDesc host orders via) (hrDesc host orders target) between out ∧
        ConvertsVia (hrDesc host orders source) (hrDesc host orders target) frame.bytes out) ∧
    (∀ frame : RawFrame 14, ∃ canon : CanonFrame 14 112,
      Converts (hrDesc host orders .racalHr).convToCanon frame.bytes canon.bytes ∧
      Converts (hrDesc host orders .racalHr).convFromCanon canon.bytes frame.bytes) ∧
    (∀ frame : RawFrame 33, ∃ canon : CanonFrame 14 112,
      Converts (hrDesc host orders .tiHr).convToCanon frame.bytes canon.bytes ∧
      Converts (hrDesc host orders .tiHr).convFromCanon canon.bytes
        (clearBits tiHrUnused frame.bytes)) := by
  refine ⟨hr_from_to_canon host orders, ?_, ?_, ?_⟩
  · exact (hrFormats host orders).path_independent
  · exact (racalHrLaidOut orders).to_from_canon
  · exact (tiHrLaidOut orders).to_from_canon

end Tables

end Gapk.HrFormats
