import Gapk.BitOrders
import Gapk.Formats
import Gapk.Library.FieldPacking
import Gapk.Library.HostWords
import Gapk.Utils

/-!
# 3GPP reference HR vocoder file formats

A frame is a list of 16-bit words of the host, eighteen parameters and some flag
words. In the canonical frame the parameters are fields of different widths,
packed back to back, and the voicing decision chooses one of two sets of widths.
-/

namespace Gapk.FmtHrRef

open CheckedMemory BitBuffer FieldPacking HostWords
open Gapk.BitOrders Gapk.Formats Gapk.Utils

set_option autoImplicit false

def paramsUnvoiced : List Nat :=
  [5, 11, 9, 8, 1, 2, 7, 7, 5, 7, 7, 5, 7, 7, 5, 7, 7, 5]

def paramsVoiced : List Nat :=
  [5, 11, 9, 8, 1, 2, 8, 9, 5, 4, 9, 5, 4, 9, 5, 4, 9, 5]

def hrParams (voiced : Bool) : List Nat := if voiced then paramsVoiced else paramsUnvoiced

section Host

variable (host : Endian)

def hrRefFromCanon (hrRef canon : Buf) : Exec (Int × Buf) := do
  let voiced := ((← msbGetBit canon 34) <<< 1) ||| (← msbGetBit canon 35)
  let params := if voiced ≠ 0 then paramsVoiced else paramsUnvoiced
  let (_, hrRef) ← forLoop 18 (fun i (j, hrRef) => do
    let l := params.getD i 0
    let w ← forLoop l (fun k w => do
      pure (((w <<< 1) ||| (← msbGetBit canon (j + k))) % 65536)) 0
    let hrRef ← storeWord host hrRef i w
    pure (j + l, hrRef)) (0, hrRef)
  pure (0, hrRef)

def hrRefToCanon (canon hrRef : Buf) : Exec (Int × Buf) := do
  let voiced ← loadWord host hrRef 5
  let params := if voiced ≠ 0 then paramsVoiced else paramsUnvoiced
  let (_, canon) ← forLoop 18 (fun i (j, canon) => do
    let l := params.getD i 0
    let w ← loadWord host hrRef i
    let canon ← forLoop l (fun k canon =>
      msbPutBit canon (j + k) ((w &&& (1 <<< (l - k - 1)) : Nat) : Int)) canon
    pure (j + l, canon)) (0, canon)
  pure (0, canon)

def hrRefDecFromCanon : FmtConvCb := fun dst src srcLen => do
  require (srcLen = hrCanonLen)
  let (rv, dst) ← hrRefFromCanon host dst src
  if rv ≠ 0 then pure (rv, dst) else
    let dst ← storeWord host dst 18 0
    let dst ← storeWord host dst 19 0
    let dst ← storeWord host dst 20 0
    let dst ← storeWord host dst 21 0
    pure (hrRefDecLen, dst)

def hrRefDecToCanon : FmtConvCb := fun dst src srcLen => do
  require (srcLen = hrRefDecLen)
  let (rv, dst) ← hrRefToCanon host dst src
  if rv ≠ 0 then pure (rv, dst) else pure (hrCanonLen, dst)

def hrRefEncFromCanon : FmtConvCb := fun dst src srcLen => do
  require (srcLen = hrCanonLen)
  let (rv, dst) ← hrRefFromCanon host dst src
  if rv ≠ 0 then pure (rv, dst) else
    let dst ← storeWord host dst 18 0
    let dst ← storeWord host dst 19 0
    pure (hrRefEncLen, dst)

def hrRefEncToCanon : FmtConvCb := fun dst src srcLen => do
  require (srcLen = hrRefEncLen)
  let (rv, dst) ← hrRefToCanon host dst src
  if rv ≠ 0 then pure (rv, dst) else pure (hrCanonLen, dst)

def fmtHrRefDec : FormatDesc where
  type := .hrRefDec
  codecType := .hr
  name := "hr-ref-dec"
  frameLen := hrRefDecLen
  convFromCanon := hrRefDecFromCanon host
  convToCanon := hrRefDecToCanon host
  headerLen := 0
  header := []

def fmtHrRefEnc : FormatDesc where
  type := .hrRefEnc
  codecType := .hr
  name := "hr-ref-enc"
  frameLen := hrRefEncLen
  convFromCanon := hrRefEncFromCanon host
  convToCanon := hrRefEncToCanon host
  headerLen := 0
  header := []

end Host

theorem hr_params_length (voiced : Bool) : (hrParams voiced).length = 18 := by
  cases voiced <;> rfl

theorem hr_params_sum (voiced : Bool) : (hrParams voiced).sum = 112 := by
  cases voiced <;> rfl

theorem hr_params_le (voiced : Bool) {field : Nat} (bound : field < 18) :
    (hrParams voiced).getD field 0 ≤ 11 := by
  have all : ∀ voiced : Bool, ∀ width ∈ hrParams voiced, width ≤ 11 := by decide
  rw [List.getD_eq_getElem _ _ (by rwa [hr_params_length])]
  exact all voiced _ (List.getElem_mem _)

/-- The voicing decision is the sixth field, canonical bits 34 and 35, in both
sets of widths. -/
theorem hr_params_voicing_field (voiced : Bool) :
    fieldStart (hrParams voiced) 5 = 34 ∧ (hrParams voiced).getD 5 0 = 2 := by
  cases voiced <;> exact ⟨rfl, rfl⟩

theorem hr_field_fits (voiced : Bool) {field : Nat} (bound : field < 18) :
    fieldStart (hrParams voiced) field + (hrParams voiced).getD field 0 ≤ 112 := by
  have fits := field_end_le_sum (by rwa [hr_params_length] : field < (hrParams voiced).length)
  rwa [hr_params_sum] at fits

/-- The word that the inner loop of the reader collects; a field has at most 11
bits, so nothing is lost in the 16 bits of the word. -/
theorem read_field_loop {canon : Buf} {start width : Nat} (size : canon.length = 14)
    (fits : start + width ≤ 112) (narrow : width ≤ 11) :
    forLoop width (fun k w => do
      pure (((w <<< 1) ||| (← msbGetBit canon (start + k))) % 65536)) 0 =
      .ok (fieldValue (bitAt canon) start width) := by
  obtain ⟨final, run, value⟩ := for_loop_invariant
    (fun k w => do pure (((w <<< 1) ||| (← msbGetBit canon (start + k))) % 65536))
    (fun k w => w = fieldValue (bitAt canon) start k) width 0 rfl (by
      rintro k bound w rfl
      refine ⟨_, by rw [msb_get_bit_eq (by omega), exec_bind_ok, exec_pure], ?_⟩
      have small := field_value_lt (bitAt canon) start k
      have power : 2 ^ k ≤ 2 ^ 10 := Nat.pow_le_pow_right (by decide) (by omega)
      have last := Bool.toNat_lt (bitAt canon (start + k))
      rw [fieldValue, Nat.shiftLeft_eq, Nat.pow_one, Nat.mul_comm,
        ← Nat.two_pow_add_eq_or_of_lt (i := 1) (by omega), Nat.pow_one, Nat.mod_eq_of_lt (by omega)])
  rw [run, value]

private theorem and_shift_ne_zero (word place : Nat) :
    decide ((((word &&& (1 <<< place) : Nat) : Int)) ≠ 0) = word.testBit place := by
  rw [Nat.one_shiftLeft, Nat.and_two_pow]
  cases word.testBit place <;> simp

theorem write_field_loop {canon : Buf} {start width : Nat} (word : Nat)
    (fits : start + width ≤ 8 * canon.length) :
    forLoop width (fun k canon =>
      msbPutBit canon (start + k) ((word &&& (1 <<< (width - k - 1)) : Nat) : Int)) canon =
      .ok (writeBits (fieldWrites start width word) canon) := by
  rw [for_loop_eq_foldl _ (fun reached => reached.length = canon.length)
    (fun k reached => setBit reached (start + k) (word.testBit (width - 1 - k))) width canon rfl]
  · rw [writeBits, fieldWrites, List.foldl_map]
  · intro k bound reached size
    rw [msb_put_bit_eq _ (by omega), and_shift_ne_zero, Nat.sub_right_comm]
    exact ⟨rfl, by rw [set_bit_length, size]⟩

private theorem params_eq (condition : Prop) [Decidable condition] (voiced : Bool)
    (same : condition ↔ voiced = true) :
    (if condition then paramsVoiced else paramsUnvoiced) = hrParams voiced := by
  cases voiced with
  | true => rw [if_pos (same.mpr rfl)]; rfl
  | false => rw [if_neg (fun holds => Bool.false_ne_true (same.mp holds))]; rfl

section Frames

variable (host : Endian)

/-- The eighteen parameter words of a canonical frame. -/
def hrWords (canon : Buf) : List Nat :=
  unpackFields (hrParams (bitAt canon 34 || bitAt canon 35)) (bitAt canon)

theorem hr_words_length (canon : Buf) : (hrWords canon).length = 18 := by
  rw [hrWords, unpack_fields_length, hr_params_length]

theorem hr_ref_from_canon_eq {canon dst : Buf} (size : canon.length = 14)
    (room : 36 ≤ dst.length) :
    hrRefFromCanon host dst canon = .ok (0, wordsBuf host (hrWords canon) ++ dst.drop 36) := by
  rw [hrRefFromCanon, msb_get_bit_eq (by omega), exec_bind_ok, msb_get_bit_eq (by omega),
    exec_bind_ok]
  simp only [params_eq _ _ (voicing_ne_zero (bitAt canon 34) (bitAt canon 35))]
  generalize chosen : (bitAt canon 34 || bitAt canon 35) = voiced
  have words : hrWords canon = unpackFields (hrParams voiced) (bitAt canon) := by
    rw [hrWords, chosen]
  have fields := hr_params_length voiced
  obtain ⟨final, run, value⟩ := for_loop_invariant
    (fun i (state : Nat × Buf) => do
      let w ← forLoop ((hrParams voiced).getD i 0) (fun k w => do
        pure (((w <<< 1) ||| (← msbGetBit canon (state.1 + k))) % 65536)) 0
      let hrRef ← storeWord host state.2 i w
      pure (state.1 + (hrParams voiced).getD i 0, hrRef))
    (fun i state => state = (fieldStart (hrParams voiced) i,
      wordsBuf host ((hrWords canon).take i) ++ dst.drop (2 * i))) 18 (0, dst)
    (by simp [fieldStart, wordsBuf]) (by
      rintro i bound state rfl
      have taken : ((hrWords canon).take i).length = i := by
        rw [List.length_take, hr_words_length]
        omega
      have tail : 2 ≤ (dst.drop (2 * i)).length := by
        rw [List.length_drop]
        omega
      have stored := store_word_append host ((hrWords canon).take i)
        ((hrWords canon).getD i 0) (dst.drop (2 * i)) tail
      rw [taken] at stored
      refine ⟨_, by
        rw [read_field_loop size (hr_field_fits voiced bound) (hr_params_le voiced bound),
          exec_bind_ok, ← unpack_fields_getD (by omega), ← words, stored, exec_bind_ok,
          exec_pure], ?_⟩
      have inside : i < (hrWords canon).length := by rwa [hr_words_length]
      rw [field_start_succ (by omega), List.take_succ_eq_append_getElem inside,
        List.getD_eq_getElem _ _ inside, List.drop_drop]
      rfl)
  have whole : (hrWords canon).take 18 = hrWords canon :=
    List.take_of_length_le (by rw [hr_words_length])
  rw [whole] at value
  refine (congrArg (fun loop => loop >>= fun (state : Nat × Buf) =>
    (pure ((0 : Int), state.2) : Exec (Int × Buf))) run).trans ?_
  rw [value]
  rfl

theorem hr_ref_to_canon_eq {words : List Nat} {dst : Buf} (enough : 18 ≤ words.length)
    (bounded : ∀ word ∈ words, word < 65536) (size : dst.length = 14) :
    hrRefToCanon host dst (wordsBuf host words) =
      .ok (0, packFields (hrParams (decide (words.getD 5 0 ≠ 0))) words dst) := by
  have loaded : ∀ i < 18, loadWord host (wordsBuf host words) i = .ok (words.getD i 0) := by
    intro i bound
    have inside : i < words.length := by omega
    rw [load_word_words_buf host words i inside, List.getD_eq_getElem _ _ inside,
      Nat.mod_eq_of_lt (bounded _ (List.getElem_mem inside))]
  rw [hrRefToCanon, loaded 5 (by decide), exec_bind_ok]
  simp only [params_eq _ _ (decide_eq_true_iff (p := words.getD 5 0 ≠ 0)).symm]
  generalize decide (words.getD 5 0 ≠ 0) = voiced
  have fields := hr_params_length voiced
  obtain ⟨final, run, value⟩ := for_loop_invariant
    (fun i (state : Nat × Buf) => do
      let w ← loadWord host (wordsBuf host words) i
      let canon ← forLoop ((hrParams voiced).getD i 0) (fun k canon =>
        msbPutBit canon (state.1 + k)
          ((w &&& (1 <<< ((hrParams voiced).getD i 0 - k - 1)) : Nat) : Int)) state.2
      pure (state.1 + (hrParams voiced).getD i 0, canon))
    (fun i state => state = (fieldStart (hrParams voiced) i,
      writeBits (packWrites (hrParams voiced) words i) dst)) 18 (0, dst)
    (by simp [fieldStart, packWrites, writeBits]) (by
      rintro i bound state rfl
      have fits := hr_field_fits voiced bound
      refine ⟨_, by
        rw [loaded i bound, exec_bind_ok, write_field_loop _ (by
          rw [write_bits_length]
          omega), exec_bind_ok, exec_pure], ?_⟩
      rw [field_start_succ (by omega), pack_writes_succ, write_bits_append])
  refine (congrArg (fun loop => loop >>= fun (state : Nat × Buf) =>
    (pure ((0 : Int), state.2) : Exec (Int × Buf))) run).trans ?_
  rw [value, packFields, fields]
  rfl

/-- A flag word behind the parameters. -/
private theorem store_flag (src : Buf) (flags : List Nat) {rest : Buf} (room : 2 ≤ rest.length) :
    storeWord host (wordsBuf host (hrWords src ++ flags) ++ rest) (18 + flags.length) 0 =
      .ok (wordsBuf host (hrWords src ++ (flags ++ [0])) ++ rest.drop 2) := by
  have stored := store_word_append host (hrWords src ++ flags) 0 rest room
  rwa [List.length_append, hr_words_length, List.append_assoc] at stored

/-- The two flag words that both formats have. -/
private theorem store_first_flags (src : Buf) {dst : Buf} (room : 40 ≤ dst.length) {Out : Type}
    (rest : Buf → Exec Out) :
    (storeWord host (wordsBuf host (hrWords src) ++ dst.drop 36) 18 0 >>= fun dst =>
      storeWord host dst 19 0 >>= rest) =
      rest (wordsBuf host (hrWords src ++ [0, 0]) ++ dst.drop 40) := by
  have first := store_flag host src [] (by rw [List.length_drop]; omega : 2 ≤ (dst.drop 36).length)
  have second := store_flag host src [0] (by rw [List.length_drop]; omega : 2 ≤ (dst.drop 38).length)
  simp only [List.append_nil, List.drop_drop, List.length_nil, List.length_cons, Nat.add_zero,
    Nat.reduceAdd, List.nil_append, List.cons_append] at first second
  rw [first, exec_bind_ok, second, exec_bind_ok]

theorem hr_frame_length (src : Buf) (flags : List Nat) :
    (wordsBuf host (hrWords src ++ flags)).length = 36 + 2 * flags.length := by
  rw [words_buf_length, List.length_append, hr_words_length]
  omega

theorem hr_ref_dec_from_canon_converts {src : Buf} (size : src.length = 14) :
    Converts (hrRefDecFromCanon host) src (wordsBuf host (hrWords src ++ [0, 0, 0, 0])) := by
  intro dst dstSize
  have outSize : (wordsBuf host (hrWords src ++ [0, 0, 0, 0])).length = 44 := hr_frame_length ..
  rw [outSize] at dstSize
  have third := store_flag host src [0, 0]
    (by rw [List.length_drop]; omega : 2 ≤ (dst.drop 40).length)
  have fourth := store_flag host src [0, 0, 0]
    (by rw [List.length_drop]; omega : 2 ≤ (dst.drop 42).length)
  simp only [List.drop_drop, List.length_nil, List.length_cons, Nat.reduceAdd, List.nil_append,
    List.cons_append] at third fourth
  rw [hrRefDecFromCanon, require_true size, exec_bind_ok,
    hr_ref_from_canon_eq host size (by omega), exec_bind_ok]
  simp only [ne_eq, not_true_eq_false, if_false]
  rw [store_first_flags host src (by omega), third, exec_bind_ok, fourth, exec_bind_ok,
    List.drop_eq_nil_of_le (by omega), List.append_nil, outSize]
  rfl

theorem hr_ref_enc_from_canon_converts {src : Buf} (size : src.length = 14) :
    Converts (hrRefEncFromCanon host) src (wordsBuf host (hrWords src ++ [0, 0])) := by
  intro dst dstSize
  have outSize : (wordsBuf host (hrWords src ++ [0, 0])).length = 40 := hr_frame_length ..
  rw [outSize] at dstSize
  rw [hrRefEncFromCanon, require_true size, exec_bind_ok,
    hr_ref_from_canon_eq host size (by omega), exec_bind_ok]
  simp only [ne_eq, not_true_eq_false, if_false]
  rw [store_first_flags host src (by omega), List.drop_eq_nil_of_le (by omega), List.append_nil,
    outSize]
  rfl

/-- The canonical frame that the eighteen parameter words are packed into. -/
def hrCanon (words : List Nat) : Buf :=
  packFields (hrParams (decide (words.getD 5 0 ≠ 0))) words (zeros 14)

@[simp] theorem hr_canon_length (words : List Nat) : (hrCanon words).length = 14 := by
  rw [hrCanon, pack_fields_length, zeros_length]

theorem hr_ref_to_canon_run {words : List Nat} (enough : 18 ≤ words.length)
    (bounded : ∀ word ∈ words, word < 65536) {dst : Buf} (dstSize : dst.length = 14) :
    hrRefToCanon host dst (wordsBuf host words) = .ok (0, hrCanon words) := by
  rw [hr_ref_to_canon_eq host enough bounded dstSize, hrCanon,
    pack_fields_congr _ words (by rw [dstSize, hr_params_sum])
      (by rw [zeros_length, hr_params_sum] : 8 * (zeros 14).length = _)]

theorem hr_ref_dec_to_canon_converts {words : List Nat} (count : words.length = 22)
    (bounded : ∀ word ∈ words, word < 65536) :
    Converts (hrRefDecToCanon host) (wordsBuf host words) (hrCanon words) := by
  intro dst dstSize
  rw [hr_canon_length] at dstSize
  have srcSize : (wordsBuf host words).length = hrRefDecLen := by rw [words_buf_length, count]
  rw [hrRefDecToCanon, require_true srcSize, exec_bind_ok,
    hr_ref_to_canon_run host (by omega) bounded dstSize, exec_bind_ok, hr_canon_length]
  rfl

theorem hr_ref_enc_to_canon_converts {words : List Nat} (count : words.length = 20)
    (bounded : ∀ word ∈ words, word < 65536) :
    Converts (hrRefEncToCanon host) (wordsBuf host words) (hrCanon words) := by
  intro dst dstSize
  rw [hr_canon_length] at dstSize
  have srcSize : (wordsBuf host words).length = hrRefEncLen := by rw [words_buf_length, count]
  rw [hrRefEncToCanon, require_true srcSize, exec_bind_ok,
    hr_ref_to_canon_run host (by omega) bounded dstSize, exec_bind_ok, hr_canon_length]
  rfl

end Frames

end Gapk.FmtHrRef
