import Gapk.FmtGsm
import Gapk.FmtRacal
import Gapk.FmtTi
import Gapk.FormatFamily

/-!
# Full Rate formats

The three FR formats are a nibble shift and two bit layouts of the 260 speech
bits. None of them loses a bit, so conversions between them do not depend on
the path.
-/

namespace Gapk.FrFormats

open CheckedMemory BitBuffer BitLayout
open Gapk.Formats Gapk.FormatFamily Gapk.NibbleShift
open Gapk.FmtGsm Gapk.FmtRacal Gapk.FmtTi

set_option autoImplicit false

inductive FrFormat where
  | gsm
  | racalFr
  | tiFr
  deriving DecidableEq, Repr

/-- A frame with its non-speech bits as the writer of the format leaves them. -/
def normalise : FrFormat → Buf → Buf
  | .gsm, frame => frame.set 0 (0xd0 ||| (frame.getD 0 0 &&& 0x0f))
  | .racalFr, frame => clearBits ([260, 261, 262, 263].map lsbIndex) frame
  | .tiFr, frame => clearBits [182, 183, 184, 185] frame

section Order

variable (order : BitOrder 260)

def frDesc : FrFormat → FormatDesc
  | .gsm => fmtGsm
  | .racalFr => fmtRacalFr order
  | .tiFr => fmtTiFr order

theorem fr_frame_len (format : FrFormat) : (frDesc order format).frameLen = 33 := by
  cases format <;> rfl

private theorem mem_fr_rest (index : Nat) :
    index ∈ [260, 261, 262, 263] ↔ 260 ≤ index ∧ index < 8 * 33 := by
  simp only [List.mem_cons, List.not_mem_nil, or_false]
  omega

def racalFrLaidOut : LaidOut Unit 33 260 33 where
  fromCanon := racalFrFromCanon order
  toCanon := racalFrToCanon order
  layout _ := racalFrLayout order
  ofCanon _ := ()
  ofFrame _ := ()
  unused := [260, 261, 262, 263].map lsbIndex
  sources _ := mem_racal_sources fr_bits_fit order
  free _ := racal_unused fr_bits_fit order mem_fr_rest
  inside := by decide
  found _ := rfl
  kept _ := rfl
  writes _ size := racal_fr_from_canon_converts order size
  reads _ size := racal_fr_to_canon_converts order size

def tiFrLaidOut : LaidOut Unit 33 260 33 where
  fromCanon := tiFrFromCanon order
  toCanon := tiFrToCanon order
  layout _ := tiFrLayout order
  ofCanon _ := ()
  ofFrame _ := ()
  unused := [182, 183, 184, 185]
  sources _ := mem_ti_sources fr_bits_fit ti_fr_room order
  free := by
    intro _ index bound
    rw [mem_ti_targets _ _ _ (by decide)]
    simp only [List.mem_cons, List.not_mem_nil, or_false]
    omega
  inside := by decide
  found _ := rfl
  kept _ := rfl
  writes _ size := ti_fr_from_canon_converts order size
  reads _ size := ti_fr_to_canon_converts order size

theorem fr_from_to_canon (format : FrFormat) (canon : CanonFrame 33 260) :
    ∃ frame : RawFrame 33,
      Converts (frDesc order format).convFromCanon canon.bytes frame.bytes ∧
      Converts (frDesc order format).convToCanon frame.bytes canon.bytes := by
  have size := canon.size
  cases format with
  | gsm =>
      have frameSize : (shifted gsmMagic canon.bytes).length = 33 := by
        rw [shifted_length gsmMagic (by omega), size]
      have back := gsm_to_canon_converts frameSize
      rw [unshifted_shifted gsmMagic (by omega) (by
        intro index beyond
        exact canon.padding index (by omega))] at back
      obtain ⟨frame, same⟩ := RawFrame.exists_bytes frameSize
      rw [← same] at back
      exact ⟨frame, same ▸ gsm_from_canon_converts size, back⟩
  | racalFr => exact (racalFrLaidOut order).from_to_canon canon
  | tiFr => exact (tiFrLaidOut order).from_to_canon canon

private theorem bit_at_normalise_gsm {frame : Buf} (size : frame.length = 33) (index : Nat) :
    bitAt (normalise .gsm frame) index =
      if index < 4 then gsmMagic.getLsbD (3 - index) else bitAt frame index := by
  obtain ⟨first, rest, rfl⟩ := List.exists_cons_of_length_pos (by omega : 0 < frame.length)
  exact bit_at_magic_cons gsmMagic first rest index

theorem fr_to_from_canon (format : FrFormat) (frame : RawFrame 33) :
    ∃ canon : CanonFrame 33 260,
      Converts (frDesc order format).convToCanon frame.bytes canon.bytes ∧
      Converts (frDesc order format).convFromCanon canon.bytes
        (normalise format frame.bytes) := by
  have size := frame.size
  cases format with
  | gsm =>
      have canonSize : (unshifted frame.bytes).length = 33 := by rw [unshifted_length, size]
      have normalised : shifted gsmMagic (unshifted frame.bytes) = normalise .gsm frame.bytes := by
        have shiftedSize : (shifted gsmMagic (unshifted frame.bytes)).length = 33 := by
          rw [shifted_length _ (by omega), canonSize]
        apply buf_eq_of_bits (by rw [shiftedSize, normalise, List.length_set, size])
        intro index bound
        rw [bit_at_shifted_unshifted gsmMagic frame.bytes index (by omega),
          bit_at_normalise_gsm size]
      obtain ⟨canon, same⟩ : ∃ canon : CanonFrame 33 260, canon.bytes = unshifted frame.bytes := by
        apply CanonFrame.exists_bytes canonSize
        intro index beyond
        rw [bit_at_unshifted, bit_at_out (by omega)]
      have back := gsm_to_canon_converts size
      have forth := gsm_from_canon_converts canonSize
      rw [normalised] at forth
      rw [← same] at back forth
      exact ⟨canon, back, forth⟩
  | racalFr => exact (racalFrLaidOut order).to_from_canon frame
  | tiFr => exact (tiFrLaidOut order).to_from_canon frame

def frFormats : LosslessFormats FrFormat where
  desc := frDesc order
  canonLen := 33
  speechBits := 260
  roundTrip := by
    intro format canon
    rw [fr_frame_len]
    exact fr_from_to_canon order format canon
  readsAny := by
    intro format
    rw [fr_frame_len]
    intro frame
    obtain ⟨canon, reads, _⟩ := fr_to_from_canon order format frame
    exact ⟨canon, reads⟩

/-- FR formats give back every canonical frame, normalise every frame of their
own to its speech bits, and make conversions independent of the path. -/
theorem fr_formats_lossless_path_independent :
    (∀ format (canon : CanonFrame 33 260), ∃ frame : RawFrame 33,
      Converts (frDesc order format).convFromCanon canon.bytes frame.bytes ∧
      Converts (frDesc order format).convToCanon frame.bytes canon.bytes) ∧
    (∀ format (frame : RawFrame 33), ∃ canon : CanonFrame 33 260,
      Converts (frDesc order format).convToCanon frame.bytes canon.bytes ∧
      Converts (frDesc order format).convFromCanon canon.bytes
        (normalise format frame.bytes)) ∧
    (∀ source via target (frame : RawFrame 33), ∃ between out : Buf,
      ConvertsVia (frDesc order source) (frDesc order via) frame.bytes between ∧
      ConvertsVia (frDesc order via) (frDesc order target) between out ∧
      ConvertsVia (frDesc order source) (frDesc order target) frame.bytes out) := by
  refine ⟨fr_from_to_canon order, fr_to_from_canon order, ?_⟩
  intro source via target frame
  have size : frame.bytes.length = (frDesc order source).frameLen := by
    rw [fr_frame_len, frame.size]
  exact (frFormats order).path_independent source via target ⟨frame.bytes, size⟩

end Order

end Gapk.FrFormats
