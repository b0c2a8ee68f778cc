import Mathlib.Data.List.Infix

/-!
# Blocks of a stream

The consecutive blocks of one length that a stream holds as a whole, and what
comes out of a conversion that stops at the first block it rejects.
-/

namespace Blocks

set_option autoImplicit false

variable {Element Output : Type}

/-- The whole blocks from the start on; what is left over is no block. -/
def blocks (len : Nat) (content : List Element) : List (List Element) :=
  (List.range (content.length / len)).map fun index => (content.drop (index * len)).take len

/-- The outputs in front of the first rejected input. -/
def untilRejected {Input : Type} (convert : Input → Option Output) : List Input → List Output
  | [] => []
  | input :: rest =>
      match convert input with
      | none => []
      | some output => output :: untilRejected convert rest

variable {len : Nat} {content : List Element}

theorem blocks_short (short : content.length < len) : blocks len content = [] := by
  rw [blocks, Nat.div_eq_of_lt short]
  rfl

theorem blocks_cons (positive : 0 < len) (whole : len ≤ content.length) :
    blocks len content = content.take len :: blocks len (content.drop len) := by
  have count : content.length / len = (content.drop len).length / len + 1 := by
    rw [List.length_drop, ← Nat.add_div_right _ positive, Nat.sub_add_cancel whole]
  rw [blocks, count, List.range_succ_eq_map, List.map_cons, List.map_map, Nat.zero_mul, List.drop_zero,
    blocks]
  congr 1
  apply List.map_congr_left
  intro index _
  rw [Function.comp, List.drop_drop, Nat.succ_eq_add_one, Nat.add_one_mul, Nat.add_comm]

theorem blocks_length (len : Nat) (content : List Element) :
    (blocks len content).length = content.length / len := by
  rw [blocks, List.length_map, List.length_range]

/-- More content never changes a block that is there. -/
theorem blocks_extend (positive : 0 < len) {longer : List Element} (grows : content <+: longer) :
    blocks len content <+: blocks len longer := by
  induction count : content.length using Nat.strongRecOn generalizing content longer with
  | ind size ih =>
      by_cases whole : len ≤ content.length
      · have fits := Nat.le_trans whole grows.length_le
        have same : content.take len = longer.take len := by
          rw [List.prefix_iff_eq_take.mp grows, List.take_take, Nat.min_eq_left whole]
        rw [blocks_cons positive whole, blocks_cons positive fits, same, List.prefix_cons_inj]
        apply ih (content.drop len).length ?_ (grows.drop len) rfl
        rw [List.length_drop]
        omega
      · rw [blocks_short (Nat.lt_of_not_le whole)]
        exact List.nil_prefix

/-- Parts of one length are the blocks of what they make up. -/
theorem blocks_flatten (positive : 0 < len) {parts : List (List Element)}
    (whole : ∀ part ∈ parts, part.length = len) : blocks len parts.flatten = parts := by
  induction parts with
  | nil => exact blocks_short positive
  | cons part rest ih =>
      obtain ⟨size, others⟩ := List.forall_mem_cons.mp whole
      have room : len ≤ (part ++ rest.flatten).length := by
        rw [List.length_append, size]
        exact Nat.le_add_right _ _
      rw [List.flatten_cons, blocks_cons positive room, List.take_left' size, List.drop_left' size,
        ih others]

theorem until_rejected_prefix {Input : Type} {convert : Input → Option Output} {inputs more : List Input}
    (longer : inputs <+: more) : untilRejected convert inputs <+: untilRejected convert more := by
  induction inputs generalizing more with
  | nil => exact List.nil_prefix
  | cons input rest ih =>
      obtain ⟨later, rfl⟩ := longer
      rw [List.cons_append, untilRejected, untilRejected]
      cases convert input with
      | none => exact List.nil_prefix
      | some output => exact (List.prefix_cons_inj output).mpr (ih (List.prefix_append rest later))

theorem until_rejected_length_le {Input : Type} (convert : Input → Option Output)
    (inputs : List Input) : (untilRejected convert inputs).length ≤ inputs.length := by
  induction inputs with
  | nil => exact Nat.le_refl 0
  | cons input rest ih =>
      rw [untilRejected]
      cases convert input with
      | none => exact Nat.zero_le _
      | some output => exact Nat.succ_le_succ ih

theorem mem_until_rejected {inputs : List (Option Output)} {output : Output}
    (member : output ∈ untilRejected id inputs) : some output ∈ inputs := by
  induction inputs with
  | nil => exact absurd member List.not_mem_nil
  | cons input rest ih =>
      cases input with
      | none => exact absurd member List.not_mem_nil
      | some first =>
          rcases List.mem_cons.mp member with rfl | later
          · exact List.mem_cons_self
          · exact List.mem_cons_of_mem _ (ih later)

theorem until_rejected_map_some (outputs : List Output) :
    untilRejected id (outputs.map some) = outputs := by
  induction outputs with
  | nil => rfl
  | cons output rest ih => exact congrArg (output :: ·) ih

theorem until_rejected_some (inputs : List Element) :
    untilRejected (fun input => some input) inputs = inputs := by
  induction inputs with
  | nil => rfl
  | cons input rest ih => rw [untilRejected, ih]

end Blocks
