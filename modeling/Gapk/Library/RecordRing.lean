import Mathlib.Algebra.BigOperators.Group.List.Basic
import Mathlib.Data.List.Induction

/-!
# Rings of records

A ring that advances its index before it stores. The slots up to the index hold
what was recorded since the index was last zero, behind the value that stood in
the first slot then.
-/

namespace RecordRing

set_option autoImplicit false

structure RingLog (Value : Type) where
  slots : List Value
  used : Nat

section Records

variable {Value : Type}

def fresh (capacity : Nat) (initial : Value) : RingLog Value := ⟨List.replicate capacity initial, 0⟩

def record (ring : RingLog Value) (value : Value) : RingLog Value :=
  let used := (ring.used + 1) % ring.slots.length
  ⟨ring.slots.set used value, used⟩

def recordAll (ring : RingLog Value) (values : List Value) : RingLog Value := values.foldl record ring

/-- The slots in front of the index. -/
def RingLog.front (ring : RingLog Value) : List Value := ring.slots.take ring.used

/-- What a ring holds that was fresh and has recorded these values. -/
structure Holds (capacity : Nat) (initial : Value) (values : List Value) (ring : RingLog Value) :
    Prop where
  size : ring.slots.length = capacity
  index : ring.used = values.length % capacity
  upTo : ring.slots.take (ring.used + 1) =
    (initial :: values).drop (values.length - values.length % capacity)

theorem Holds.used_lt {capacity : Nat} {initial : Value} {values : List Value} {ring : RingLog Value}
    (holds : Holds capacity initial values ring) (positive : 0 < capacity) :
    ring.used < ring.slots.length := by
  rw [holds.index, holds.size]
  exact Nat.mod_lt _ positive

theorem fresh_holds {capacity : Nat} (positive : 0 < capacity) (initial : Value) :
    Holds capacity initial [] (fresh capacity initial) where
  size := List.length_replicate
  index := (Nat.zero_mod capacity).symm
  upTo := by
    obtain ⟨rest, rfl⟩ := Nat.exists_eq_add_of_lt positive
    simp [fresh, List.replicate_succ]

theorem take_set_succ {slots : List Value} {index : Nat} (value : Value)
    (bound : index < slots.length) :
    (slots.set index value).take (index + 1) = slots.take index ++ [value] := by
  rw [List.take_succ_eq_append_getElem (by rwa [List.length_set]), List.getElem_set_self,
    List.take_set_of_le (Nat.le_refl _)]

/-- The index moves on by one slot, or back to the first one after the last. -/
theorem record_holds {capacity : Nat} {initial : Value} {values : List Value} {ring : RingLog Value}
    (positive : 0 < capacity) (holds : Holds capacity initial values ring) (value : Value) :
    Holds capacity initial (values ++ [value]) (record ring value) := by
  have wrapped : (ring.used + 1) % capacity = (values ++ [value]).length % capacity := by
    rw [holds.index, Nat.mod_add_mod, List.length_append, List.length_singleton]
  have bound := holds.used_lt positive
  rw [holds.size] at bound
  refine ⟨by rw [record, List.length_set, holds.size], by rw [record, holds.size, wrapped], ?_⟩
  have inside : (ring.used + 1) % capacity < ring.slots.length := by
    rw [holds.size]
    exact Nat.mod_lt _ positive
  simp only [record, holds.size]
  rw [take_set_succ value inside, ← wrapped, List.length_append, List.length_singleton]
  by_cases last : ring.used + 1 = capacity
  · rw [last, Nat.mod_self, List.take_zero, Nat.sub_zero, ← List.cons_append,
      List.drop_append_of_le_length (by simp)]
    simp
  · have moved : (ring.used + 1) % capacity = ring.used + 1 := Nat.mod_eq_of_lt (by omega)
    have start : values.length + 1 - (ring.used + 1) = values.length - values.length % capacity := by
      rw [Nat.add_sub_add_right, holds.index]
    rw [moved, holds.upTo, start, ← List.cons_append, List.drop_append_of_le_length]
    simp only [List.length_cons]
    omega

theorem record_all_holds {capacity : Nat} (positive : 0 < capacity) (initial : Value)
    (values : List Value) :
    Holds capacity initial values (recordAll (fresh capacity initial) values) := by
  induction values using List.reverseRecOn with
  | nil => exact fresh_holds positive initial
  | append_singleton values value ih =>
      rw [recordAll, List.foldl_append]
      exact record_holds positive ih value

/-- The value recorded last is at the index and not in front of it. -/
theorem Holds.front_eq {capacity : Nat} {initial : Value} {values : List Value} {ring : RingLog Value}
    (holds : Holds capacity initial values ring) (positive : 0 < capacity) :
    ring.front = ((initial :: values).drop (values.length - values.length % capacity)).dropLast := by
  rw [← holds.upTo, List.take_succ_eq_append_getElem (holds.used_lt positive),
    List.dropLast_concat, RingLog.front]

/-- The values that a ring of this capacity has room for. -/
def window (capacity : Nat) (values : List Value) : List Value :=
  values.drop (values.length - capacity)

theorem window_length (capacity : Nat) (values : List Value) :
    (window capacity values).length = min values.length capacity := by
  rw [window, List.length_drop]
  omega

theorem window_of_le {capacity : Nat} {values : List Value} (within : values.length ≤ capacity) :
    window capacity values = values := by
  rw [window, Nat.sub_eq_zero_of_le within, List.drop_zero]

end Records

/-- Before the first lap is over, what is in front of the index adds up to the
recorded values exactly if the last one does not count. -/
theorem front_sum_eq_iff {Value : Type} [AddGroup Value] {capacity : Nat} {values : List Value}
    {ring : RingLog Value} (holds : Holds capacity 0 values ring) (within : values.length < capacity)
    (nonempty : values ≠ []) :
    ring.front.sum = values.sum ↔ values.getLast? = some 0 := by
  obtain ⟨earlier, last, rfl⟩ := (List.eq_nil_or_concat values).resolve_left nonempty
  rw [holds.front_eq (by omega), Nat.mod_eq_of_lt within, Nat.sub_self, List.drop_zero,
    List.concat_eq_append, ← List.cons_append, List.dropLast_concat, List.getLast?_concat,
    List.sum_cons, zero_add, List.sum_append, List.sum_singleton, left_eq_add, Option.some_inj]

end RecordRing
