import Gapk.Formats
import Gapk.Library.HostWords

/-!
# Raw PCM samples

Files hold 16-bit samples in little-endian order. The canonical frame holds them
in the order of the host.
-/

namespace Gapk.FmtRawpcm

open CheckedMemory HostWords
open Gapk.Formats

set_option autoImplicit false

section Host

variable (host : Endian)

def rawpcmS16leFromCanon : FmtConvCb := fun dst src srcLen => do
  require (srcLen = pcmCanonLen)
  let dst ← forLoop 160 (fun i dst => do
    let w ← loadWord host src i
    let dst ← store dst (i <<< 1) (BitVec.ofNat 8 (w &&& 0xff))
    store dst ((i <<< 1) + 1) (BitVec.ofNat 8 ((w >>> 8) &&& 0xff))) dst
  pure (pcmCanonLen, dst)

def rawpcmS16leToCanon : FmtConvCb := fun dst src srcLen => do
  require (srcLen = pcmCanonLen)
  let dst ← forLoop 160 (fun i dst => do
    let high ← load src ((i <<< 1) + 1)
    let low ← load src (i <<< 1)
    storeWord host dst i ((high.toNat <<< 8) ||| low.toNat)) dst
  pure (pcmCanonLen, dst)

def fmtRawpcmS16le : FormatDesc where
  type := .rawpcmS16le
  codecType := .pcm
  name := "rawpcm-s16le"
  frameLen := pcmCanonLen
  convFromCanon := rawpcmS16leFromCanon host
  convToCanon := rawpcmS16leToCanon host
  headerLen := 0
  header := []

private theorem sample_bytes (word : Nat) :
    BitVec.ofNat 8 (word &&& 0xff) = lowByte word ∧
      BitVec.ofNat 8 ((word >>> 8) &&& 0xff) = highByte word := by
  have low : ∀ value : Nat, BitVec.ofNat 8 (value &&& 0xff) = BitVec.ofNat 8 value := by
    intro value
    apply BitVec.eq_of_toNat_eq
    rw [BitVec.toNat_ofNat, BitVec.toNat_ofNat,
      show value &&& 0xff = value % 2 ^ 8 from Nat.and_two_pow_sub_one_eq_mod value 8, Nat.mod_mod]
  refine ⟨low word, ?_⟩
  rw [low, Nat.shiftRight_eq_div_pow]
  rfl

variable {words : List Nat} (count : words.length = 160) (bounded : ∀ word ∈ words, word < 65536)

include count bounded

theorem rawpcm_from_canon_converts :
    Converts (rawpcmS16leFromCanon host) (wordsBuf host words) (wordsBuf .little words) := by
  intro dst dstSize
  rw [words_buf_length, count] at dstSize
  have srcSize : (wordsBuf host words).length = 320 := by rw [words_buf_length, count]
  rw [rawpcmS16leFromCanon, require_true srcSize, exec_bind_ok,
    for_loop_store_word .little (fun i => words.getD i 0) 160 _ _ (by omega), exec_bind_ok,
    List.drop_eq_nil_of_le (by omega), List.append_nil, ← count, map_getD_range, words_buf_length,
    count]
  · rfl
  · intro i bound reached _
    have inside : i < words.length := by omega
    rw [load_word_words_buf host words i inside, exec_bind_ok, (sample_bytes _).1,
      (sample_bytes _).2, Nat.mod_eq_of_lt (by
        rw [List.getD_eq_getElem _ _ inside]
        exact bounded _ (List.getElem_mem inside)), Nat.shiftLeft_eq, Nat.mul_comm]
    rfl

theorem rawpcm_to_canon_converts :
    Converts (rawpcmS16leToCanon host) (wordsBuf .little words) (wordsBuf host words) := by
  intro dst dstSize
  rw [words_buf_length, count] at dstSize
  have srcSize : (wordsBuf .little words).length = 320 := by rw [words_buf_length, count]
  rw [rawpcmS16leToCanon, require_true srcSize, exec_bind_ok,
    for_loop_store_word host (fun i => words.getD i 0) 160 _ _ (by omega), exec_bind_ok,
    List.drop_eq_nil_of_le (by omega), List.append_nil, ← count, map_getD_range, words_buf_length,
    count]
  · rfl
  · intro i bound reached _
    have inside : i < words.length := by omega
    have sample := load_word_words_buf .little words i inside
    rw [loadWord, load_eq (by omega), exec_bind_ok, load_eq (by omega), exec_bind_ok, exec_pure,
      Except.ok.injEq, Nat.mod_eq_of_lt (by
        rw [List.getD_eq_getElem _ _ inside]
        exact bounded _ (List.getElem_mem inside))] at sample
    rw [Nat.shiftLeft_eq, Nat.pow_one, Nat.mul_comm i 2, load_eq (by omega), exec_bind_ok,
      load_eq (by omega), exec_bind_ok, ← Nat.shiftLeft_add_eq_or_of_lt (BitVec.isLt _),
      ← sample, joinBytes, Nat.shiftLeft_eq, Nat.add_comm, Nat.mul_comm _ (2 ^ 8)]

end Host

end Gapk.FmtRawpcm
