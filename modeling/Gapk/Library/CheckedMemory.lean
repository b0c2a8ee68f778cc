import Mathlib.Data.List.Basic

/-!
# Checked memory for C code

Byte buffers with the size they were allocated with. Every access is checked
against that size, and a violated `assert`, an access outside a buffer, a null
pointer and a use of freed memory are explicit outcomes. A result `.ok` thus
says that the run was defined and not only what it computed. Counting loops
come with the invariant rule that all proofs about loops go through.
-/

namespace CheckedMemory

set_option autoImplicit false

abbrev Byte := BitVec 8
abbrev Buf := List Byte

inductive Fault where
  | assertion
  | outOfBounds
  | nullPointer
  | useAfterFree
  deriving DecidableEq, Repr

abbrev Exec := Except Fault

@[simp] theorem exec_pure {Value : Type} (value : Value) :
    (pure value : Exec Value) = .ok value := rfl

@[simp] theorem exec_bind_ok {Value Result : Type} (value : Value)
    (next : Value → Exec Result) : ((.ok value : Exec Value) >>= next) = next value := rfl

@[simp] theorem exec_bind_error {Value Result : Type} (fault : Fault)
    (next : Value → Exec Result) :
    ((.error fault : Exec Value) >>= next) = .error fault := rfl

@[simp] theorem exec_throw {Value : Type} (fault : Fault) :
    (throw fault : Exec Value) = .error fault := rfl

/-- A defined run of a sequence is a defined run of both of its parts. -/
theorem exec_bind_eq_ok {Value Result : Type} (first : Exec Value)
    (next : Value → Exec Result) (result : Result) :
    first >>= next = .ok result ↔ ∃ value, first = .ok value ∧ next value = .ok result := by
  cases first with
  | error fault => simp
  | ok value => simp

/-- The `assert` macro of a build that keeps assertions. -/
def require (condition : Prop) [Decidable condition] : Exec Unit :=
  if condition then pure () else throw .assertion

theorem require_true {condition : Prop} [Decidable condition] (holds : condition) :
    require condition = .ok () := by
  simp [require, holds]

theorem require_false {condition : Prop} [Decidable condition] (fails : ¬condition) :
    require condition = .error .assertion := by
  simp [require, fails]

/-- Dereferencing a pointer that may be null. -/
def deref {Value : Type} (pointer : Option Value) : Exec Value :=
  match pointer with
  | some value => pure value
  | none => throw .nullPointer

@[simp] theorem deref_some {Value : Type} (value : Value) :
    deref (some value) = .ok value := rfl

@[simp] theorem deref_none {Value : Type} :
    deref (none : Option Value) = .error .nullPointer := rfl

def load (buf : Buf) (index : Nat) : Exec Byte :=
  if index < buf.length then pure (buf.getD index 0) else throw .outOfBounds

def store (buf : Buf) (index : Nat) (value : Byte) : Exec Buf :=
  if index < buf.length then pure (buf.set index value) else throw .outOfBounds

/-- `memset(dst, value, count)`. -/
def memset (dst : Buf) (value : Byte) (count : Nat) : Exec Buf :=
  if count ≤ dst.length then pure (List.replicate count value ++ dst.drop count)
  else throw .outOfBounds

/-- `memcpy(dst + dstOffset, src + srcOffset, count)`. -/
def memcpy (dst : Buf) (dstOffset : Nat) (src : Buf) (srcOffset count : Nat) : Exec Buf :=
  if dstOffset + count ≤ dst.length ∧ srcOffset + count ≤ src.length then
    pure (dst.take dstOffset ++ (src.drop srcOffset).take count ++
      dst.drop (dstOffset + count))
  else throw .outOfBounds

/-- The first `count` bytes, as a callee reads them through a pointer. -/
def readBytes (src : Buf) (count : Nat) : Exec Buf :=
  if count ≤ src.length then pure (src.take count) else throw .outOfBounds

/-- `!memcmp(left, right, count)`. -/
def memEqual (left right : Buf) (count : Nat) : Exec Bool :=
  if count ≤ left.length ∧ count ≤ right.length then
    pure (decide (left.take count = right.take count))
  else throw .outOfBounds

/-- Runs `body` on the memory that starts `offset` bytes into `buf`, as C does
when it passes `&buf[offset]`. -/
def withOffset (offset : Nat) (buf : Buf) (body : Buf → Exec Buf) : Exec Buf := do
  let tail ← body (buf.drop offset)
  pure (buf.take offset ++ tail)

theorem load_eq {buf : Buf} {index : Nat} (bound : index < buf.length) :
    load buf index = .ok (buf.getD index 0) := by
  simp [load, bound]

theorem store_eq {buf : Buf} {index : Nat} (value : Byte) (bound : index < buf.length) :
    store buf index value = .ok (buf.set index value) := by
  simp [store, bound]

theorem memset_eq {dst : Buf} {count : Nat} (value : Byte) (bound : count ≤ dst.length) :
    memset dst value count = .ok (List.replicate count value ++ dst.drop count) := by
  simp [memset, bound]

theorem read_bytes_eq {src : Buf} {count : Nat} (bound : count ≤ src.length) :
    readBytes src count = .ok (src.take count) := by
  simp [readBytes, bound]

/-- A `memset` that covers the whole buffer. -/
theorem memset_whole {dst : Buf} {count : Nat} (value : Byte) (size : dst.length = count) :
    memset dst value count = .ok (List.replicate count value) := by
  rw [memset_eq value (Nat.le_of_eq size.symm), List.drop_eq_nil_of_le (Nat.le_of_eq size),
    List.append_nil]

theorem memset_fault {dst : Buf} {count : Nat} (value : Byte) (outside : dst.length < count) :
    memset dst value count = .error .outOfBounds := by
  simp [memset, Nat.not_le.mpr outside]

theorem memcpy_eq {dst src : Buf} {dstOffset srcOffset count : Nat}
    (dstBound : dstOffset + count ≤ dst.length) (srcBound : srcOffset + count ≤ src.length) :
    memcpy dst dstOffset src srcOffset count =
      .ok (dst.take dstOffset ++ (src.drop srcOffset).take count ++
        dst.drop (dstOffset + count)) := by
  simp [memcpy, dstBound, srcBound]

/-- A `memcpy` to the start of a buffer. -/
theorem memcpy_front {dst src : Buf} {srcOffset count : Nat} (room : count ≤ dst.length)
    (inside : srcOffset + count ≤ src.length) :
    memcpy dst 0 src srcOffset count = .ok ((src.drop srcOffset).take count ++ dst.drop count) := by
  rw [memcpy_eq (by omega) inside, List.take_zero, List.nil_append, Nat.zero_add]

/-- A `memcpy` of one whole buffer over another one. -/
theorem memcpy_whole {dst src : Buf} {count : Nat} (dstSize : dst.length = count)
    (srcSize : src.length = count) : memcpy dst 0 src 0 count = .ok src := by
  rw [memcpy_front (by omega) (by omega), List.drop_zero, List.take_of_length_le (by omega),
    List.drop_eq_nil_of_le (by omega), List.append_nil]

theorem memcpy_fault {dst src : Buf} {dstOffset srcOffset count : Nat}
    (outside : dst.length < dstOffset + count) :
    memcpy dst dstOffset src srcOffset count = .error .outOfBounds := by
  simp [memcpy, Nat.not_le.mpr outside]

/-- A copy never changes the size of the buffer it writes to. -/
theorem memcpy_length {dst src out : Buf} {dstOffset srcOffset count : Nat}
    (copied : memcpy dst dstOffset src srcOffset count = .ok out) :
    out.length = dst.length := by
  unfold memcpy at copied
  split_ifs at copied with bounds
  cases copied
  simp only [List.length_append, List.length_take, List.length_drop]
  omega

/-- `for (index = 0; index < count; index++)` over an explicit loop state. -/
def forLoop {State : Type} (count : Nat) (body : Nat → State → Exec State)
    (state : State) : Exec State :=
  (List.range count).foldlM (fun state index => body index state) state

section Loop

variable {State : Type} (body : Nat → State → Exec State)

theorem for_loop_succ (count : Nat) (state : State) :
    forLoop (count + 1) body state = forLoop count body state >>= body count := by
  simp only [forLoop, List.range_succ, List.foldlM_append, List.foldlM_cons, List.foldlM_nil]
  cases (List.range count).foldlM (fun state index => body index state) state with
  | error fault => rfl
  | ok reached => exact bind_pure (body count reached)

/-- The invariant rule. `invariant index` holds before the body runs with that
index, so `invariant count` holds when the loop is left. -/
theorem for_loop_invariant (invariant : Nat → State → Prop) (count : Nat) (state : State)
    (start : invariant 0 state)
    (step : ∀ index < count, ∀ reached, invariant index reached →
      ∃ next, body index reached = .ok next ∧ invariant (index + 1) next) :
    ∃ final, forLoop count body state = .ok final ∧ invariant count final := by
  induction count with
  | zero => exact ⟨state, rfl, start⟩
  | succ count ih =>
      obtain ⟨reached, run, holds⟩ := ih (by
        intro index earlier
        exact step index (by omega))
      obtain ⟨next, last, holdsNext⟩ := step count (by omega) reached holds
      refine ⟨next, ?_, holdsNext⟩
      rw [for_loop_succ, run, exec_bind_ok, last]

theorem for_loop_congr {State : Type} (left right : Nat → State → Exec State) (count : Nat)
    (state : State) (same : ∀ index < count, ∀ reached, left index reached = right index reached) :
    forLoop count left state = forLoop count right state := by
  induction count with
  | zero => rfl
  | succ count ih =>
      rw [for_loop_succ, for_loop_succ, ih (by
        intro index earlier
        exact same index (by omega))]
      congr 1
      funext reached
      exact same count (by omega) reached

/-- A loop that only works behind an offset keeps what is in front of it. -/
theorem for_loop_with_offset (count offset : Nat) (step : Nat → Buf → Exec Buf)
    (front tail : Buf) (size : front.length = offset) :
    forLoop count (fun index buf => withOffset offset buf (step index)) (front ++ tail) =
      forLoop count step tail >>= fun tail => .ok (front ++ tail) := by
  subst size
  induction count with
  | zero => rfl
  | succ count ih =>
      rw [for_loop_succ, for_loop_succ, ih]
      cases forLoop count step tail with
      | error fault => rfl
      | ok reached =>
          simp only [exec_bind_ok]
          rw [withOffset, List.drop_left, List.take_left]
          rfl

/-- A loop whose body computes a known value at every state it meets is the
fold of these values. `meets` is what is known of the states on the way. -/
theorem for_loop_eq_foldl (meets : State → Prop) (value : Nat → State → State)
    (count : Nat) (state : State) (start : meets state)
    (step : ∀ index < count, ∀ reached, meets reached →
      body index reached = .ok (value index reached) ∧ meets (value index reached)) :
    forLoop count body state =
      .ok ((List.range count).foldl (fun state index => value index state) state) := by
  obtain ⟨final, run, holds⟩ := for_loop_invariant body
    (fun index reached => meets reached ∧
      reached = (List.range index).foldl (fun state index => value index state) state)
    count state ⟨start, rfl⟩ (by
      rintro index earlier reached ⟨known, rfl⟩
      obtain ⟨run, known⟩ := step index earlier _ known
      refine ⟨_, run, known, ?_⟩
      rw [List.range_succ, List.foldl_append]
      rfl)
  rw [run, holds.2]

end Loop

/-- A loop that stores one computed byte after the other. -/
theorem for_loop_store (value : Nat → Byte) (base count : Nat)
    (body : Nat → Buf → Exec Buf) (dst : Buf) (room : base + count ≤ dst.length)
    (step : ∀ index < count, ∀ reached : Buf, reached.length = dst.length →
      body index reached = store reached (base + index) (value index)) :
    forLoop count body dst =
      .ok (dst.take base ++ (List.range count).map value ++ dst.drop (base + count)) := by
  obtain ⟨final, run, holds⟩ := for_loop_invariant body
    (fun index reached => reached =
      dst.take base ++ (List.range index).map value ++ dst.drop (base + index))
    count dst (by simp) (by
      rintro index earlier reached rfl
      have size : (dst.take base ++ (List.range index).map value ++
          dst.drop (base + index)).length = dst.length := by
        simp only [List.length_append, List.length_take, List.length_map, List.length_range,
          List.length_drop]
        omega
      refine ⟨_, (step index earlier _ size).trans (store_eq _ (by omega)), ?_⟩
      have front : (dst.take base ++ (List.range index).map value).length = base + index := by
        simp only [List.length_append, List.length_take, List.length_map, List.length_range]
        omega
      rw [List.set_append_right _ _ (by omega), front, Nat.sub_self,
        List.drop_eq_getElem_cons (by omega : base + index < dst.length), List.set_cons_zero,
        List.range_succ, List.map_append, List.map_singleton]
      simp [Nat.add_assoc])
  rw [run, holds]

end CheckedMemory
