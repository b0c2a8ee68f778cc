import Gapk.FmtAmr
import Gapk.FmtRacal
import Gapk.FmtTi
import Gapk.FormatFamily

/-!
# Enhanced Full Rate formats

The two file formats keep all 244 speech bits, in different bit numberings. The
TI buffer holds the bits of the channel coder input, and both loops of its format
stop after 244 of the 260 table entries. The speech bits of the last sixteen
entries are neither written nor read back.
-/

namespace Gapk.EfrFormats

open CheckedMemory BitBuffer BitLayout
open Gapk.Formats Gapk.FormatFamily
open Gapk.FmtAmr Gapk.FmtRacal Gapk.FmtTi

set_option autoImplicit false

/-- A canonical frame survives the TI buffer, whatever the output buffers held. -/
def TiEfrKeeps (order : BitOrder 260) (canon : CanonFrame 31 244) : Prop :=
  ∃ frame : RawFrame 33,
    Converts (fmtTiEfr order).convFromCanon canon.bytes frame.bytes ∧
    Converts (fmtTiEfr order).convToCanon frame.bytes canon.bytes

/-- Only the speech bits that the loops copy come back. -/
theorem ti_efr_keeps_iff_copied (order : BitOrder 260) (canon : CanonFrame 31 244) :
    TiEfrKeeps order canon ↔
      ∀ speech < 244, speech ∉ (tiEfrLayout order).sources → bitAt canon.bytes speech = false := by
  have written := ti_efr_from_canon_converts order canon.size
  have writtenSize : ((tiEfrLayout order).place canon.bytes (zeros 33)).length = 33 := by
    rw [Layout.place_length, zeros_length]
  have read := ti_efr_to_canon_converts order writtenSize
  have readSize : ((tiEfrLayout order).reverse.place ((tiEfrLayout order).place canon.bytes
      (zeros 33)) (zeros 31)).length = 31 := by
    rw [Layout.place_length, zeros_length]
  have exact_iff := (tiEfrLayout order).reverse_place_eq_iff canon.size (zeros_length 33)
    (zeros_length 31)
  constructor
  · rintro ⟨frame, forth, back⟩ speech bound lost
    have frameEq : frame.bytes = (tiEfrLayout order).place canon.bytes (zeros 33) :=
      Converts.unique forth written (by rw [frame.size, writtenSize])
    rw [frameEq] at back
    have canonEq := Converts.unique read back (by rw [readSize, canon.size])
    have kept := exact_iff.mp canonEq speech (by omega) lost
    rw [← kept, bit_at_zeros]
  · intro silent
    have canonEq : (tiEfrLayout order).reverse.place ((tiEfrLayout order).place canon.bytes
        (zeros 33)) (zeros 31) = canon.bytes := by
      rw [exact_iff]
      intro index _ lost
      rw [bit_at_zeros]
      by_cases speech : index < 244
      · exact (silent index speech lost).symm
      · exact (canon.padding index (by omega)).symm
    rw [canonEq] at read
    obtain ⟨frame, same⟩ := RawFrame.exists_bytes writtenSize
    rw [← same] at written read
    exact ⟨frame, written, read⟩

/-- A frame comes back if and only if the speech bits that the last sixteen
table entries carry are zero in it. -/
theorem ti_efr_keeps_iff_tail_silent (order : BitOrder 260) (canon : CanonFrame 31 244) :
    TiEfrKeeps order canon ↔
      ∀ entry, 244 ≤ entry → entry < 260 → ∀ speech ∈ speechBit (order.entry entry),
        bitAt canon.bytes speech = false := by
  rw [ti_efr_keeps_iff_copied]
  constructor
  · intro silent entry late inside speech found
    have bound := (speech_bit_eq_some.mp found).1
    exact silent speech bound ((not_mem_ti_efr_sources order bound).mpr ⟨entry, late, inside, found⟩)
  · intro silent speech bound lost
    obtain ⟨entry, late, inside, found⟩ := (not_mem_ti_efr_sources order bound).mp lost
    exact silent entry late inside speech found

def lateBitFrame : CanonFrame 31 244 where
  bytes := setBit (zeros 31) 236 true
  size := by rw [set_bit_length, zeros_length]
  padding := by
    intro index beyond
    rw [bit_at_set_bit true index (by rw [zeros_length]; decide), if_neg (by omega), bit_at_zeros]

/-- With the table in natural order, entry 244 carries speech bit 236. -/
theorem ti_efr_loses_late_bit :
    ¬∀ (order : BitOrder 260) (canon : CanonFrame 31 244), TiEfrKeeps order canon := by
  intro keeps
  have silent := (ti_efr_keeps_iff_copied (.identity 260) lateBitFrame).mp
    (keeps (.identity 260) lateBitFrame) 236 (by decide)
  have lost : 236 ∉ (tiEfrLayout (.identity 260)).sources := by
    rw [not_mem_ti_efr_sources _ (by decide)]
    exact ⟨244, by decide, by decide, by rw [BitOrder.entry_identity (by decide)]; rfl⟩
  have set : bitAt lateBitFrame.bytes 236 = true := by
    rw [lateBitFrame, bit_at_set_bit true 236 (by rw [zeros_length]; decide), if_pos rfl]
  rw [silent lost] at set
  exact Bool.false_ne_true set

/-- A format of EFR files that loses nothing but its padding bits. It reads
exactly the frames of its mode, and refuses the others with a negative value. -/
structure KeepsSpeech (format : FormatDesc) (ofMode : Buf → Prop) (padding : List Nat) :
    Prop where
  canonBack : ∀ canon : CanonFrame 31 244, ∃ frame : RawFrame format.frameLen,
    Converts format.convFromCanon canon.bytes frame.bytes ∧
    Converts format.convToCanon frame.bytes canon.bytes
  reads : ∀ (frame : RawFrame format.frameLen) (dst : Buf), dst.length = 31 →
    ∃ rv out, format.convToCanon dst frame.bytes format.frameLen = .ok (rv, out) ∧
      (0 ≤ rv ↔ ofMode frame.bytes)
  frameBack : ∀ frame : RawFrame format.frameLen, ofMode frame.bytes →
    ∃ canon : CanonFrame 31 244, Converts format.convToCanon frame.bytes canon.bytes ∧
      Converts format.convFromCanon canon.bytes (clearBits padding frame.bytes)

theorem KeepsSpeech.detour {format other : FormatDesc} {ofMode ofOther : Buf → Prop}
    {padding paddingOther : List Nat} (keeps : KeepsSpeech format ofMode padding)
    (keepsOther : KeepsSpeech other ofOther paddingOther) (frame : RawFrame format.frameLen)
    (mode : ofMode frame.bytes) :
    ∃ between, ConvertsVia format other frame.bytes between ∧
      ConvertsVia other format between (clearBits padding frame.bytes) := by
  obtain ⟨canon, read, written⟩ := keeps.frameBack frame mode
  obtain ⟨between, writtenOther, readOther⟩ := keepsOther.canonBack canon
  exact ⟨between.bytes, ⟨canon.bytes, read, writtenOther⟩, ⟨canon.bytes, readOther, written⟩⟩

private theorem mem_efr_rest (index : Nat) :
    index ∈ [244, 245, 246, 247] ↔ 244 ≤ index ∧ index < 8 * 31 := by
  simp only [List.mem_cons, List.not_mem_nil, or_false]
  omega

def racalEfrLaidOut : LaidOut Unit 31 244 31 where
  fromCanon := racalEfrFromCanon
  toCanon := racalEfrToCanon
  layout _ := racalEfrLayout
  ofCanon _ := ()
  ofFrame _ := ()
  unused := [244, 245, 246, 247].map lsbIndex
  sources _ := mem_racal_sources efr_bits_fit _
  free _ := racal_unused efr_bits_fit _ mem_efr_rest
  inside := by decide
  found _ := rfl
  kept _ := rfl
  writes _ size := racal_efr_from_canon_converts size
  reads _ size := racal_efr_to_canon_converts size

theorem racal_efr_keeps_speech :
    KeepsSpeech fmtRacalEfr (fun _ => True) ([244, 245, 246, 247].map lsbIndex) where
  canonBack := racalEfrLaidOut.from_to_canon
  reads := by
    intro frame dst dstSize
    have read := racal_efr_to_canon_converts frame.size dst (by
      rw [Layout.place_length, zeros_length, dstSize])
    rw [frame.size] at read
    exact ⟨_, _, read, iff_of_true (Int.natCast_nonneg _) trivial⟩
  frameBack frame _ := racalEfrLaidOut.to_from_canon frame

def Mode122 (frame : Buf) : Prop := frame.getD 0 0 = 0x3c

theorem amr_efr_keeps_speech (order : BitOrder 244) :
    KeepsSpeech (fmtAmrEfr order) Mode122 [252, 253, 254, 255] where
  canonBack := by
    intro canon
    have forth := amr_efr_from_canon_converts order canon.size
    have payloadSize : ((amrEfrLayout order).place canon.bytes (zeros 31)).length = 31 := by
      rw [Layout.place_length, zeros_length]
    have back := amr_efr_to_canon_converts order payloadSize
    rw [CanonFrame.layout_round_trip (amrEfrLayout order) (mem_amr_efr_sources order) canon] at back
    exact ⟨⟨_, by rw [List.length_cons, payloadSize]; rfl⟩, forth, back⟩
  reads := by
    rintro ⟨bytes, size⟩ dst dstSize
    by_cases mode : Mode122 bytes
    · obtain ⟨first, payload, rfl⟩ : ∃ first payload, bytes = first :: payload :=
        List.exists_cons_of_length_eq_add_one size
      obtain rfl : first = 0x3c := mode
      have payloadSize : payload.length = 31 := Nat.succ.inj size
      have read := amr_efr_to_canon_converts order payloadSize dst (by
        rw [Layout.place_length, zeros_length, dstSize])
      rw [size] at read
      exact ⟨_, _, read, iff_of_true (Int.natCast_nonneg _) rfl⟩
    · exact ⟨-1, dst, amr_efr_to_canon_refuses order size mode,
        iff_of_false (by decide) mode⟩
  frameBack := by
    rintro ⟨bytes, size⟩ mode
    obtain ⟨first, payload, rfl⟩ : ∃ first payload, bytes = first :: payload :=
      List.exists_cons_of_length_eq_add_one size
    obtain rfl : first = 0x3c := mode
    have payloadSize : payload.length = 31 := Nat.succ.inj size
    obtain ⟨canon, same⟩ := CanonFrame.exists_layout (amrEfrLayout order)
      (mem_amr_efr_sources order) payload
    have read := amr_efr_to_canon_converts order payloadSize
    have written := amr_efr_from_canon_converts order canon.size
    have cleared := (amrEfrLayout order).place_reverse_place [244, 245, 246, 247] payloadSize (by
      intro index bound
      rw [mem_amr_efr_targets]
      simp only [List.mem_cons, List.not_mem_nil, or_false]
      omega) (by decide)
    rw [← same] at read cleared
    rw [cleared, ← clear_bits_cons] at written
    exact ⟨canon, read, written⟩

/-- Both file formats keep the speech bits, and so does each on the way through
the other one. -/
theorem efr_files_lossless (order : BitOrder 244) :
    KeepsSpeech (fmtAmrEfr order) Mode122 [252, 253, 254, 255] ∧
    KeepsSpeech fmtRacalEfr (fun _ => True) ([244, 245, 246, 247].map lsbIndex) ∧
    (∀ frame : RawFrame 31, ∃ between,
      ConvertsVia fmtRacalEfr (fmtAmrEfr order) frame.bytes between ∧
      ConvertsVia (fmtAmrEfr order) fmtRacalEfr between
        (clearBits ([244, 245, 246, 247].map lsbIndex) frame.bytes)) ∧
    (∀ frame : RawFrame 32, Mode122 frame.bytes → ∃ between,
      ConvertsVia (fmtAmrEfr order) fmtRacalEfr frame.bytes between ∧
      ConvertsVia fmtRacalEfr (fmtAmrEfr order) between
        (clearBits [252, 253, 254, 255] frame.bytes)) := by
  have amr := amr_efr_keeps_speech order
  have racal := racal_efr_keeps_speech
  refine ⟨amr, racal, ?_, ?_⟩
  · intro frame
    exact racal.detour amr frame trivial
  · intro frame mode
    exact amr.detour racal frame mode

end Gapk.EfrFormats
