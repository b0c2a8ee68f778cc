import Gapk.Library.Blocks
import Mathlib.Data.Option.Basic

/-!
# Pipelines of stages that can fail

A stage turns its inputs into outputs one by one, keeps a state between them, and
is over with the first input that it fails on. Stages in a row are a stage again:
the outputs of the row are those of its second part on the outputs of its first.
-/

namespace Pipeline

open Blocks

set_option autoImplicit false

/-- From its state and an input, the state afterwards and an output, or nothing. -/
abbrev Stage (State Input Output : Type) := State → Input → Option (State × Output)

section Runs

variable {State Input Output : Type} (stage : Stage State Input Output)

/-- The outputs in front of the first input that the stage fails on. -/
def outputs (state : State) : List Input → List Output
  | [] => []
  | input :: rest =>
      match stage state input with
      | none => []
      | some (after, output) => output :: outputs after rest

variable {stage} {state after : State} {input : Input} {output : Output}

theorem outputs_fails (fails : stage state input = none) (rest : List Input) :
    outputs stage state (input :: rest) = [] := by
  rw [outputs, fails]

theorem outputs_goes_on (works : stage state input = some (after, output)) (rest : List Input) :
    outputs stage state (input :: rest) = output :: outputs stage after rest := by
  rw [outputs, works]

theorem outputs_length_le (inputs : List Input) :
    (outputs stage state inputs).length ≤ inputs.length := by
  induction inputs generalizing state with
  | nil => exact Nat.le_refl 0
  | cons input rest ih =>
      cases result : stage state input with
      | none =>
          rw [outputs_fails result]
          exact Nat.zero_le _
      | some pair =>
          rw [outputs_goes_on result]
          exact Nat.succ_le_succ ih

/-- More inputs never change an output that is there. -/
theorem outputs_prefix {inputs more : List Input} (longer : inputs <+: more) :
    outputs stage state inputs <+: outputs stage state more := by
  induction inputs generalizing state more with
  | nil => exact List.nil_prefix
  | cons input rest ih =>
      obtain ⟨later, rfl⟩ := longer
      cases result : stage state input with
      | none =>
          rw [outputs_fails result]
          exact List.nil_prefix
      | some pair =>
          rw [List.cons_append, outputs_goes_on result, outputs_goes_on result]
          exact (List.prefix_cons_inj _).mpr (ih (List.prefix_append _ _))

/-- What holds of the output for every good input holds of all outputs of a run. -/
theorem outputs_all (fine : Input → Prop) (good : Output → Prop) (usable : State → Prop)
    (kept : ∀ state input after output, usable state → fine input →
      stage state input = some (after, output) → usable after ∧ good output)
    (start : usable state) {inputs : List Input} (all : ∀ input ∈ inputs, fine input) :
    ∀ output ∈ outputs stage state inputs, good output := by
  induction inputs generalizing state with
  | nil => exact List.forall_mem_nil _
  | cons input rest ih =>
      obtain ⟨first, others⟩ := List.forall_mem_cons.mp all
      cases result : stage state input with
      | none =>
          rw [outputs_fails result]
          exact List.forall_mem_nil _
      | some pair =>
          obtain ⟨still, holds⟩ := kept _ _ _ _ start first result
          rw [outputs_goes_on result]
          exact List.forall_mem_cons.mpr ⟨holds, ih still others⟩

end Runs

section Simulation

variable {Left Right Input Output : Type} {first : Stage Left Input Output}
  {second : Stage Right Input Output}

/-- Both stages fail, or both work, with one output and related states. -/
def Agree (related : Left → Right → Prop) (left : Option (Left × Output))
    (right : Option (Right × Output)) : Prop :=
  Option.Rel (fun afterLeft afterRight =>
    related afterLeft.1 afterRight.1 ∧ afterLeft.2 = afterRight.2) left right

/-- Stages that agree on related states have the same outputs. -/
theorem outputs_agree (related : Left → Right → Prop) (good : Input → Prop)
    (agree : ∀ left right input, related left right → good input →
      Agree related (first left input) (second right input))
    {left : Left} {right : Right} (start : related left right) {inputs : List Input}
    (all : ∀ input ∈ inputs, good input) :
    outputs first left inputs = outputs second right inputs := by
  induction inputs generalizing left right with
  | nil => rfl
  | cons input rest ih =>
      obtain ⟨fine, others⟩ := List.forall_mem_cons.mp all
      have step := agree left right input start fine
      rw [outputs, outputs]
      revert step
      cases first left input <;> cases second right input <;> intro step
      · rfl
      · cases step
      · cases step
      · cases step with
        | some both => exact congrArg₂ List.cons both.2 (ih both.1 others)

end Simulation

section Stateless

variable {State Input Output : Type} {stage : Stage State Input Output}

/-- Stages that undo each other, input by input, hand everything through. -/
theorem outputs_undone {Other : Type} {back : Stage Other Output Input} {state : State} {other : Other}
    (good : Input → Prop)
    (undone : ∀ input, good input →
      ∃ output, stage state input = some (state, output) ∧ back other output = some (other, input))
    {inputs : List Input} (all : ∀ input ∈ inputs, good input) :
    outputs back other (outputs stage state inputs) = inputs := by
  induction inputs with
  | nil => rfl
  | cons input rest ih =>
      obtain ⟨first, others⟩ := List.forall_mem_cons.mp all
      obtain ⟨output, there, again⟩ := undone input first
      rw [outputs_goes_on there, outputs_goes_on again, ih others]

end Stateless

section Composition

variable {First Second Input Middle Output : Type} (first : Stage First Input Middle)
  (second : Stage Second Middle Output)

/-- One stage behind the other. -/
def compose : Stage (First × Second) Input Output := fun states input =>
  (first states.1 input).bind fun firstDone =>
    (second states.2 firstDone.2).map fun secondDone => ((firstDone.1, secondDone.1), secondDone.2)

variable {first second}

theorem compose_eq_some {left leftAfter : First} {right rightAfter : Second} {input : Input}
    {output : Output} :
    compose first second (left, right) input = some ((leftAfter, rightAfter), output) ↔
      ∃ middle, first left input = some (leftAfter, middle) ∧
        second right middle = some (rightAfter, output) := by
  rw [compose, Option.bind_eq_some_iff]
  constructor
  · rintro ⟨⟨state, middle⟩, works, done⟩
    obtain ⟨⟨last, result⟩, ends, same⟩ := Option.map_eq_some_iff.mp done
    cases same
    exact ⟨middle, works, ends⟩
  · rintro ⟨middle, works, ends⟩
    exact ⟨_, works, Option.map_eq_some_iff.mpr ⟨_, ends, rfl⟩⟩

theorem compose_eq_none {left : First} {right : Second} {input : Input} :
    compose first second (left, right) input = none ↔
      first left input = none ∨
        ∃ after middle, first left input = some (after, middle) ∧ second right middle = none := by
  rw [compose]
  cases works : first left input with
  | none => simp
  | some done =>
      rw [Option.bind_some, Option.map_eq_none_iff]
      constructor
      · intro fails
        exact Or.inr ⟨done.1, done.2, rfl, fails⟩
      · rintro (none | ⟨after, middle, same, fails⟩)
        · cases none
        · cases same
          exact fails

variable (first second)

/-- The outputs of two stages in a row. -/
theorem outputs_compose (left : First) (right : Second) (inputs : List Input) :
    outputs (compose first second) (left, right) inputs =
      outputs second right (outputs first left inputs) := by
  induction inputs generalizing left right with
  | nil => rfl
  | cons input rest ih =>
      cases firstDone : first left input with
      | none =>
          have fails : compose first second (left, right) input = none := by
            rw [compose, firstDone]
            rfl
          rw [outputs_fails fails, outputs_fails firstDone]
          rfl
      | some middle =>
          rw [outputs_goes_on firstDone]
          cases secondDone : second right middle.2 with
          | none =>
              have fails : compose first second (left, right) input = none := by
                rw [compose, firstDone, Option.bind_some, secondDone]
                rfl
              rw [outputs_fails fails, outputs_fails secondDone]
          | some last =>
              have works : compose first second (left, right) input =
                  some ((middle.1, last.1), last.2) := by
                rw [compose, firstDone, Option.bind_some, secondDone]
                rfl
              rw [outputs_goes_on works, outputs_goes_on secondDone, ih]

end Composition

section Chains

variable {State Item : Type} (stage : Stage State Item Item)

/-- Any number of stages in a row, with the list of their states. -/
def chain : Stage (List State) Item Item
  | [], item => some ([], item)
  | state :: rest, item =>
      (stage state item).bind fun done =>
        (chain rest done.2).map fun others => (done.1 :: others.1, others.2)

theorem chain_append (front back : List State) (item : Item) :
    chain stage (front ++ back) item =
      (chain stage front item).bind fun done =>
        (chain stage back done.2).map fun others => (done.1 ++ others.1, others.2) := by
  induction front generalizing item with
  | nil =>
      rw [List.nil_append, chain, Option.bind_some]
      cases chain stage back item <;> rfl
  | cons state front ih =>
      rw [List.cons_append, chain, chain]
      cases stage state item with
      | none => rfl
      | some done =>
          rw [Option.bind_some, Option.bind_some, ih]
          cases chain stage front done.2 with
          | none => rfl
          | some others =>
              simp only [Option.bind_some, Option.map_some]
              cases chain stage back others.2 <;> rfl

/-- A chain is its back behind its front. -/
theorem outputs_chain_append (front back : List State) (inputs : List Item) :
    outputs (chain stage) (front ++ back) inputs =
      outputs (chain stage) back (outputs (chain stage) front inputs) := by
  rw [← outputs_compose]
  apply outputs_agree (fun whole parts => whole = parts.1 ++ parts.2) (fun _ => True) ?_ rfl
    fun _ _ => trivial
  intro whole parts input same _
  rw [same, chain_append, compose]
  cases chain stage parts.1 input with
  | none => exact Option.Rel.none
  | some done =>
      rw [Option.bind_some, Option.bind_some]
      cases chain stage parts.2 done.2 with
      | none => exact Option.Rel.none
      | some others => exact Option.Rel.some ⟨rfl, rfl⟩

/-- Chains of stages that agree pair by pair agree. -/
theorem chain_agree {related : State → State → Prop}
    (agree : ∀ left right item, related left right → Agree related (stage left item) (stage right item))
    {lefts rights : List State} (pairs : List.Forall₂ related lefts rights) (item : Item) :
    Agree (List.Forall₂ related) (chain stage lefts item) (chain stage rights item) := by
  induction pairs generalizing item with
  | nil => exact Option.Rel.some ⟨.nil, rfl⟩
  | @cons left right lefts rights first others ih =>
      have step := agree left right item first
      rw [chain, chain]
      revert step
      cases stage left item <;> cases stage right item <;> intro step
      · exact Option.Rel.none
      · cases step
      · cases step
      · rename_i leftDone rightDone
        cases step with
        | some both =>
            have rest := ih leftDone.2
            rw [Option.bind_some, Option.bind_some, ← both.2]
            revert rest
            cases chain stage lefts leftDone.2 <;> cases chain stage rights leftDone.2 <;> intro rest
            · exact Option.Rel.none
            · cases rest
            · cases rest
            · cases rest with
              | some all => exact Option.Rel.some ⟨.cons both.1 all.1, all.2⟩

end Chains

end Pipeline
