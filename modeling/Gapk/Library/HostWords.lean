import Gapk.Library.CheckedMemory
import Mathlib.Data.List.GetD
import Mathlib.Tactic.Ring

/-!
# Words of the host in byte buffers

Casting a byte pointer to a pointer to 16-bit words reads and writes the bytes
in the order of the machine. A buffer of words is described by the list of
these words, for either byte order.
-/

namespace HostWords

open CheckedMemory

set_option autoImplicit false

/-- Byte order of the machine that runs the code. -/
inductive Endian where
  | little
  | big
  deriving DecidableEq, Repr

def lowByte (word : Nat) : Byte := BitVec.ofNat 8 word

def highByte (word : Nat) : Byte := BitVec.ofNat 8 (word / 256)

def wordBytes (host : Endian) (word : Nat) : Buf :=
  match host with
  | .little => [lowByte word, highByte word]
  | .big => [highByte word, lowByte word]

def joinBytes (host : Endian) (first second : Byte) : Nat :=
  match host with
  | .little => first.toNat + 256 * second.toNat
  | .big => 256 * first.toNat + second.toNat

/-- `((uint16_t *)buf)[index]`. -/
def loadWord (host : Endian) (buf : Buf) (index : Nat) : Exec Nat := do
  let first ← load buf (2 * index)
  let second ← load buf (2 * index + 1)
  pure (joinBytes host first second)

/-- `((uint16_t *)buf)[index] = word`. -/
def storeWord (host : Endian) (buf : Buf) (index word : Nat) : Exec Buf := do
  let buf ← store buf (2 * index) ((wordBytes host word).getD 0 0)
  store buf (2 * index + 1) ((wordBytes host word).getD 1 0)

def joinLong (host : Endian) (first second third fourth : Byte) : Nat :=
  match host with
  | .little => joinBytes .little first second + 65536 * joinBytes .little third fourth
  | .big => 65536 * joinBytes .big first second + joinBytes .big third fourth

/-- `((uint32_t *)buf)[index]`. -/
def loadLong (host : Endian) (buf : Buf) (index : Nat) : Exec Nat := do
  let first ← load buf (4 * index)
  let second ← load buf (4 * index + 1)
  let third ← load buf (4 * index + 2)
  let fourth ← load buf (4 * index + 3)
  pure (joinLong host first second third fourth)

/-- `((uint32_t *)buf)[index] = long`, as two words. -/
def storeLong (host : Endian) (buf : Buf) (index long : Nat) : Exec Buf :=
  match host with
  | .little => do
      let buf ← storeWord host buf (2 * index) long
      storeWord host buf (2 * index + 1) (long / 65536)
  | .big => do
      let buf ← storeWord host buf (2 * index) (long / 65536)
      storeWord host buf (2 * index + 1) long

/-- Network byte order of a word; the same function works both ways. -/
def ntohs (host : Endian) (word : Nat) : Nat :=
  match host with
  | .little => 256 * (word % 256) + word / 256
  | .big => word

def ntohl (host : Endian) (long : Nat) : Nat :=
  match host with
  | .little => 65536 * ntohs .little (long % 65536) + ntohs .little (long / 65536)
  | .big => long

/-- A buffer that holds exactly the given words. -/
def wordsBuf (host : Endian) (words : List Nat) : Buf := words.flatMap (wordBytes host)

@[simp] theorem word_bytes_length (host : Endian) (word : Nat) :
    (wordBytes host word).length = 2 := by
  cases host <;> rfl

@[simp] theorem words_buf_length (host : Endian) (words : List Nat) :
    (wordsBuf host words).length = 2 * words.length := by
  induction words with
  | nil => rfl
  | cons word words ih =>
      rw [wordsBuf, List.flatMap_cons, List.length_append, word_bytes_length, ← wordsBuf, ih,
        List.length_cons]
      ring

theorem words_buf_append (host : Endian) (left right : List Nat) :
    wordsBuf host (left ++ right) = wordsBuf host left ++ wordsBuf host right :=
  List.flatMap_append

theorem words_buf_singleton (host : Endian) (word : Nat) :
    wordsBuf host [word] = wordBytes host word := by
  simp [wordsBuf]

theorem join_word_bytes (host : Endian) (word : Nat) :
    joinBytes host ((wordBytes host word).getD 0 0) ((wordBytes host word).getD 1 0) =
      word % 65536 := by
  cases host <;>
    simp only [wordBytes, joinBytes, lowByte, highByte, List.getD_cons_zero, List.getD_cons_succ,
      BitVec.toNat_ofNat] <;>
    omega

/-- On every host a word in network order has its high byte first. -/
theorem ntohs_join_bytes (host : Endian) (first second : Byte) :
    ntohs host (joinBytes host first second) = 256 * first.toNat + second.toNat := by
  have firstBound := first.isLt
  have secondBound := second.isLt
  cases host with
  | little =>
      simp only [ntohs, joinBytes]
      omega
  | big => rfl

theorem ntohl_join_long (host : Endian) (first second third fourth : Byte) :
    ntohl host (joinLong host first second third fourth) =
      65536 * (256 * first.toNat + second.toNat) + (256 * third.toNat + fourth.toNat) := by
  have firstBound := first.isLt
  have secondBound := second.isLt
  have thirdBound := third.isLt
  have fourthBound := fourth.isLt
  cases host with
  | little =>
      simp only [ntohl, ntohs, joinLong, joinBytes]
      omega
  | big => rfl

/-- Storing a word replaces two bytes. -/
theorem store_word_at (host : Endian) (front : Buf) {index : Nat} (size : front.length = 2 * index)
    (first second : Byte) (rest : Buf) (word : Nat) :
    storeWord host (front ++ first :: second :: rest) index word =
      .ok (front ++ wordBytes host word ++ rest) := by
  rw [storeWord, store_eq _ (by simp only [List.length_append, List.length_cons]; omega),
    exec_bind_ok, store_eq _ (by
      simp only [List.length_set, List.length_append, List.length_cons]
      omega)]
  rw [List.set_append_right _ _ (by omega), size, Nat.sub_self, List.set_cons_zero,
    List.set_append_right _ _ (by omega), size, Nat.add_sub_cancel_left, List.set_cons_succ,
    List.set_cons_zero]
  cases host <;> simp [wordBytes]

/-- Storing the next word behind a list of words extends the list. -/
theorem store_word_append (host : Endian) (words : List Nat) (word : Nat) (rest : Buf)
    (room : 2 ≤ rest.length) :
    storeWord host (wordsBuf host words ++ rest) words.length word =
      .ok (wordsBuf host (words ++ [word]) ++ rest.drop 2) := by
  obtain ⟨first, second, tail, rfl⟩ : ∃ first second tail, rest = first :: second :: tail := by
    match rest, room with
    | first :: second :: tail, _ => exact ⟨first, second, tail, rfl⟩
  rw [store_word_at host _ (words_buf_length host words), words_buf_append, words_buf_singleton]
  rfl

def longBytes (host : Endian) (long : Nat) : Buf :=
  match host with
  | .little => wordBytes .little long ++ wordBytes .little (long / 65536)
  | .big => wordBytes .big (long / 65536) ++ wordBytes .big long

theorem store_long_at (host : Endian) (front : Buf) {index : Nat} (size : front.length = 4 * index)
    (first second third fourth : Byte) (rest : Buf) (long : Nat) :
    storeLong host (front ++ first :: second :: third :: fourth :: rest) index long =
      .ok (front ++ longBytes host long ++ rest) := by
  cases host with
  | little =>
      rw [storeLong, store_word_at .little _ (by omega), exec_bind_ok, store_word_at .little _ (by
        rw [List.length_append, word_bytes_length]
        omega), List.append_assoc front]
      rfl
  | big =>
      rw [storeLong, store_word_at .big _ (by omega), exec_bind_ok, store_word_at .big _ (by
        rw [List.length_append, word_bytes_length]
        omega), List.append_assoc front]
      rfl

/-- A word in network order is the same on the wire for every host. -/
theorem word_bytes_ntohs (host : Endian) {word : Nat} (bound : word < 2 ^ 16) :
    wordBytes host (ntohs host word) = wordBytes .big word := by
  cases host with
  | little =>
      have high : word / 256 < 256 := by omega
      have low : (256 * (word % 256) + word / 256) / 256 = word % 256 := by
        rw [Nat.mul_add_div (by decide), Nat.div_eq_of_lt high, Nat.add_zero]
      simp only [wordBytes, ntohs, lowByte, highByte, low, List.cons.injEq, and_true]
      constructor <;> apply BitVec.eq_of_toNat_eq <;> simp only [BitVec.toNat_ofNat] <;> omega
  | big => rfl

private theorem word_bytes_long (high low : Nat) :
    wordBytes .little (65536 * high + low) = wordBytes .little low := by
  simp only [wordBytes, lowByte, highByte, List.cons.injEq, and_true]
  constructor <;> apply BitVec.eq_of_toNat_eq <;> simp only [BitVec.toNat_ofNat] <;> omega

private theorem ntohs_lt {word : Nat} (bound : word < 65536) : ntohs .little word < 65536 := by
  simp only [ntohs]
  omega

theorem long_bytes_ntohl (host : Endian) {long : Nat} (bound : long < 2 ^ 32) :
    longBytes host (ntohl host long) = longBytes .big long := by
  cases host with
  | little =>
      have top : long / 65536 < 65536 := by omega
      have lowLong : wordBytes .big (long % 65536) = wordBytes .big long := by
        simp only [wordBytes, lowByte, highByte, List.cons.injEq, and_true]
        constructor <;> apply BitVec.eq_of_toNat_eq <;> simp only [BitVec.toNat_ofNat] <;> omega
      have upper : ntohl .little long / 65536 = ntohs .little (long % 65536) := by
        rw [ntohl, Nat.mul_add_div (by decide), Nat.div_eq_of_lt (ntohs_lt top), Nat.add_zero]
      rw [longBytes, upper, word_bytes_ntohs .little (by omega : long % 65536 < 2 ^ 16), lowLong, ntohl,
        word_bytes_long, word_bytes_ntohs .little top]
      rfl
  | big => rfl

/-- Reading a word back gives its low 16 bits. -/
theorem load_word_words_buf (host : Endian) (words : List Nat) (index : Nat)
    (bound : index < words.length) :
    loadWord host (wordsBuf host words) index = .ok (words.getD index 0 % 65536) := by
  induction words generalizing index with
  | nil => simp at bound
  | cons word words ih =>
      have size := words_buf_length host (word :: words)
      have split : wordsBuf host (word :: words) = wordBytes host word ++ wordsBuf host words := rfl
      cases index with
      | zero =>
          rw [loadWord, load_eq (by omega), exec_bind_ok, load_eq (by
            rw [size, List.length_cons]
            omega), exec_bind_ok, split, List.getD_append _ _ _ _ (by simp),
            List.getD_append _ _ _ _ (by simp), join_word_bytes]
          rfl
      | succ index =>
          have inside : index < words.length := by simpa using bound
          have tail := ih index inside
          have tailSize := words_buf_length host words
          rw [loadWord, load_eq (by omega), exec_bind_ok, load_eq (by omega), exec_bind_ok] at tail
          rw [loadWord, load_eq (by
              rw [size, List.length_cons]
              omega), exec_bind_ok, load_eq (by
              rw [size, List.length_cons]
              omega), exec_bind_ok, split,
            List.getD_append_right _ _ _ _ (by rw [word_bytes_length]; omega),
            List.getD_append_right _ _ _ _ (by rw [word_bytes_length]; omega), word_bytes_length,
            show 2 * (index + 1) - 2 = 2 * index by omega,
            show 2 * (index + 1) + 1 - 2 = 2 * index + 1 by omega, tail, List.getD_cons_succ]

/-- A loop that stores one computed word after the other. -/
theorem for_loop_store_word (host : Endian) (value : Nat → Nat) (count : Nat)
    (body : Nat → Buf → Exec Buf) (dst : Buf) (room : 2 * count ≤ dst.length)
    (step : ∀ index < count, ∀ reached : Buf, reached.length = dst.length →
      body index reached = storeWord host reached index (value index)) :
    forLoop count body dst =
      .ok (wordsBuf host ((List.range count).map value) ++ dst.drop (2 * count)) := by
  obtain ⟨final, run, holds⟩ := for_loop_invariant body
    (fun index reached => reached =
      wordsBuf host ((List.range index).map value) ++ dst.drop (2 * index))
    count dst (by simp [wordsBuf]) (by
      rintro index earlier reached rfl
      have size : (wordsBuf host ((List.range index).map value) ++
          dst.drop (2 * index)).length = dst.length := by
        rw [List.length_append, words_buf_length, List.length_map, List.length_range,
          List.length_drop]
        omega
      have stored := store_word_append host ((List.range index).map value) (value index)
        (dst.drop (2 * index)) (by rw [List.length_drop]; omega)
      rw [List.length_map, List.length_range, List.drop_drop] at stored
      refine ⟨_, (step index earlier _ size).trans stored, ?_⟩
      rw [List.range_succ, List.map_append, List.map_singleton]
      rfl)
  rw [run, holds]

theorem map_getD_range (words : List Nat) :
    (List.range words.length).map (fun index => words.getD index 0) = words := by
  apply List.ext_getElem (by simp)
  intro index _ inside
  rw [List.getElem_map, List.getElem_range, List.getD_eq_getElem _ _ inside]

/-- Any buffer of even size is the buffer of the words read from it. -/
theorem exists_words (host : Endian) (count : Nat) (buf : Buf) (size : buf.length = 2 * count) :
    ∃ words : List Nat, words.length = count ∧ (∀ word ∈ words, word < 65536) ∧
      wordsBuf host words = buf := by
  induction count generalizing buf with
  | zero => exact ⟨[], rfl, by simp, (List.eq_nil_of_length_eq_zero size).symm⟩
  | succ count ih =>
      match buf, size with
      | first :: second :: tail, size =>
          obtain ⟨words, length, bounded, same⟩ := ih tail (by
            simp only [List.length_cons] at size
            omega)
          refine ⟨joinBytes host first second :: words, by simp [length], ?_, ?_⟩
          · intro word member
            rcases List.mem_cons.mp member with rfl | later
            · have firstBound := first.isLt
              have secondBound := second.isLt
              cases host <;> simp only [joinBytes] <;> omega
            · exact bounded word later
          · have firstBound := first.isLt
            have secondBound := second.isLt
            have bytes : wordBytes host (joinBytes host first second) = [first, second] := by
              cases host with
              | little =>
                  have low : lowByte (first.toNat + 256 * second.toNat) = first := by
                    apply BitVec.eq_of_toNat_eq
                    rw [lowByte, BitVec.toNat_ofNat]
                    omega
                  have high : highByte (first.toNat + 256 * second.toNat) = second := by
                    apply BitVec.eq_of_toNat_eq
                    rw [highByte, BitVec.toNat_ofNat]
                    omega
                  simp only [joinBytes, wordBytes, low, high]
              | big =>
                  have low : lowByte (256 * first.toNat + second.toNat) = second := by
                    apply BitVec.eq_of_toNat_eq
                    rw [lowByte, BitVec.toNat_ofNat]
                    omega
                  have high : highByte (256 * first.toNat + second.toNat) = first := by
                    apply BitVec.eq_of_toNat_eq
                    rw [highByte, BitVec.toNat_ofNat]
                    omega
                  simp only [joinBytes, wordBytes, low, high]
            rw [wordsBuf, List.flatMap_cons, bytes, ← wordsBuf, same]
            rfl

end HostWords
