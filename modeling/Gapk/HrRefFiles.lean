import Gapk.FmtHrRef

/-!
# Reference HR files, field by field

The writer of the canonical frame looks at the whole word of the voicing decision
and stores its two low bits, the reader has only these two bits. Both take the
same layout unless the word has nothing but higher bits set, and then all words
come back reduced to their fields.
-/

namespace Gapk.HrRefFiles

open CheckedMemory BitBuffer FieldPacking HostWords
open Gapk.Formats Gapk.FmtHrRef

set_option autoImplicit false

structure HrRefFrame (count : Nat) where
  words : List Nat
  size : words.length = count
  bounded : ∀ word ∈ words, word < 65536

/-- The field widths that the words are written with. -/
def writtenLayout (words : List Nat) : List Nat := hrParams (decide (words.getD 5 0 ≠ 0))

/-- The field widths that a reader of the canonical frame selects. -/
def selectedLayout (canon : Buf) : List Nat := hrParams (bitAt canon 34 || bitAt canon 35)

/-- The words are written with the layout that a reader selects, and come back
reduced to the widths of this layout, with cleared flag words. -/
def DecodedByField (host : Endian) (fmt : FormatDesc) (flags : Nat) (words : List Nat) : Prop :=
  ∃ canon : Buf, canon.length = 14 ∧
    Converts fmt.convToCanon (wordsBuf host words) canon ∧
    writtenLayout words = selectedLayout canon ∧
    Converts fmt.convFromCanon canon (wordsBuf host
      (reduceFields (selectedLayout canon) words ++ List.replicate flags 0))

theorem hr_params_injective {left right : Bool} (same : hrParams left = hrParams right) :
    left = right := by
  revert left right
  decide

theorem hr_canon_voicing (words : List Nat) :
    (bitAt (hrCanon words) 34 || bitAt (hrCanon words) 35) =
      decide (words.getD 5 0 % 4 ≠ 0) := by
  let voiced := decide (words.getD 5 0 ≠ 0)
  have field := hr_params_voicing_field voiced
  have room : (hrParams voiced).sum ≤ 8 * (zeros 14).length := by
    rw [hr_params_sum, zeros_length]
  have sixth : 5 < (hrParams voiced).length := by
    rw [hr_params_length]
    decide
  have stored : ∀ place < 2, bitAt (hrCanon words) (34 + place) =
      (words.getD 5 0).testBit (2 - 1 - place) := by
    intro place inside
    rw [← field.1, ← field.2]
    exact bit_at_pack_fields room sixth (by rwa [field.2])
  refine (congrArg₂ or (stored 0 (by decide)) (stored 1 (by decide))).trans ?_
  rw [Nat.testBit_eq_decide_div_mod_eq, Nat.testBit_eq_decide_div_mod_eq, ← Bool.decide_or]
  apply decide_eq_decide.mpr
  omega

theorem written_eq_selected_iff (words : List Nat) :
    writtenLayout words = selectedLayout (hrCanon words) ↔
      words.getD 5 0 = 0 ∨ words.getD 5 0 % 4 ≠ 0 := by
  rw [writtenLayout, selectedLayout, hr_canon_voicing]
  constructor
  · intro same
    have decided := decide_eq_decide.mp (hr_params_injective same)
    omega
  · intro kept
    have decided : words.getD 5 0 ≠ 0 ↔ words.getD 5 0 % 4 ≠ 0 := by omega
    rw [decide_eq_decide.mpr decided]

theorem hr_words_hr_canon {words : List Nat} (enough : 18 ≤ words.length)
    (same : writtenLayout words = selectedLayout (hrCanon words)) :
    hrWords (hrCanon words) = reduceFields (selectedLayout (hrCanon words)) words := by
  rw [hrWords, ← selectedLayout, ← same, hrCanon, ← writtenLayout]
  apply unpack_pack_fields
  · rw [writtenLayout, hr_params_sum, zeros_length]
  · rwa [writtenLayout, hr_params_length]

theorem decoded_by_field_iff (host : Endian) (fmt : FormatDesc) (flags : Nat) {words : List Nat}
    (enough : 18 ≤ words.length)
    (reads : Converts fmt.convToCanon (wordsBuf host words) (hrCanon words))
    (writes : Converts fmt.convFromCanon (hrCanon words)
      (wordsBuf host (hrWords (hrCanon words) ++ List.replicate flags 0))) :
    DecodedByField host fmt flags words ↔ words.getD 5 0 = 0 ∨ words.getD 5 0 % 4 ≠ 0 := by
  rw [← written_eq_selected_iff]
  constructor
  · rintro ⟨canon, size, converts, same, _⟩
    have canonEq := converts.unique reads (by rw [size, hr_canon_length])
    rwa [canonEq] at same
  · intro same
    rw [hr_words_hr_canon enough same] at writes
    exact ⟨hrCanon words, hr_canon_length words, reads, same, writes⟩

/-- Reference files are decoded field by field exactly if the voicing word is zero
or has one of its two low bits set. -/
theorem hr_ref_decoded_iff_voicing_kept (host : Endian) :
    (∀ frame : HrRefFrame 22, DecodedByField host (fmtHrRefDec host) 4 frame.words ↔
      frame.words.getD 5 0 = 0 ∨ frame.words.getD 5 0 % 4 ≠ 0) ∧
    (∀ frame : HrRefFrame 20, DecodedByField host (fmtHrRefEnc host) 2 frame.words ↔
      frame.words.getD 5 0 = 0 ∨ frame.words.getD 5 0 % 4 ≠ 0) := by
  constructor
  · intro frame
    have size := frame.size
    exact decoded_by_field_iff host (fmtHrRefDec host) 4 (by omega)
      (hr_ref_dec_to_canon_converts host size frame.bounded)
      (hr_ref_dec_from_canon_converts host (hr_canon_length _))
  · intro frame
    have size := frame.size
    exact decoded_by_field_iff host (fmtHrRefEnc host) 2 (by omega)
      (hr_ref_enc_to_canon_converts host size frame.bounded)
      (hr_ref_enc_from_canon_converts host (hr_canon_length _))

/-- A voicing word of four and a lag of one: written voiced and read unvoiced. -/
def lostVoicing : List Nat := [0, 0, 0, 0, 0, 4, 1] ++ List.replicate 15 0

theorem hr_ref_dec_loses_lag :
    (∃ canon : Buf, canon.length = 14 ∧
      Converts (fmtHrRefDec .little).convToCanon (wordsBuf .little lostVoicing) canon ∧
      writtenLayout lostVoicing ≠ selectedLayout canon ∧
      Converts (fmtHrRefDec .little).convFromCanon canon
        (wordsBuf .little ([0, 0, 0, 0, 0, 0, 0, 64] ++ List.replicate 14 0))) ∧
    ¬DecodedByField .little (fmtHrRefDec .little) 4 lostVoicing := by
  have reads := hr_ref_dec_to_canon_converts .little (rfl : lostVoicing.length = 22) (by decide)
  have writes := hr_ref_dec_from_canon_converts .little (hr_canon_length lostVoicing)
  have words : hrWords (hrCanon lostVoicing) = [0, 0, 0, 0, 0, 0, 0, 64] ++ List.replicate 10 0 := by
    decide +kernel
  constructor
  · refine ⟨_, hr_canon_length lostVoicing, reads, by decide +kernel, ?_⟩
    rw [words] at writes
    exact writes
  · intro decoded
    have enough : 18 ≤ lostVoicing.length := by decide
    have kept : lostVoicing.getD 5 0 = 0 ∨ lostVoicing.getD 5 0 % 4 ≠ 0 :=
      (decoded_by_field_iff .little (fmtHrRefDec .little) 4 enough reads writes).mp decoded
    exact absurd kept (by decide)

end Gapk.HrRefFiles
