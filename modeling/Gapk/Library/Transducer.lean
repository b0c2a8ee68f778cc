import Gapk.Library.CheckedMemory

/-!
# Transducers

A machine with a state that answers every input with one output. A run is known
from its state after each prefix of the inputs, so two runs that meet in one state
agree from there on. A checked program that simulates each step of a transducer
simulates its runs.
-/

namespace Transducer

open CheckedMemory

set_option autoImplicit false

section Runs

variable {State Input Output : Type} (step : State → Input → State × Output)

def after (state : State) (inputs : List Input) : State :=
  inputs.foldl (fun state input => (step state input).1) state

def outputs (state : State) : List Input → List Output
  | [] => []
  | input :: inputs => (step state input).2 :: outputs (step state input).1 inputs

theorem after_append (state : State) (left right : List Input) :
    after step state (left ++ right) = after step (after step state left) right :=
  List.foldl_append

theorem outputs_append (state : State) (left right : List Input) :
    outputs step state (left ++ right) =
      outputs step state left ++ outputs step (after step state left) right := by
  induction left generalizing state with
  | nil => rfl
  | cons input left ih => exact congrArg ((step state input).2 :: ·) (ih (step state input).1)

/-- The state and the outputs around one step of a run. -/
theorem after_append_cons (state : State) (left : List Input) (input : Input)
    (right : List Input) :
    after step state (left ++ input :: right) =
      after step (step (after step state left) input).1 right := after_append step state left _

theorem outputs_append_cons (state : State) (left : List Input) (input : Input)
    (right : List Input) :
    outputs step state (left ++ input :: right) =
      outputs step state left ++ [(step (after step state left) input).2] ++
        outputs step (step (after step state left) input).1 right := by
  rw [outputs_append, List.append_assoc]
  rfl

@[simp] theorem outputs_length (state : State) (inputs : List Input) :
    (outputs step state inputs).length = inputs.length := by
  induction inputs generalizing state with
  | nil => rfl
  | cons input inputs ih => exact congrArg (· + 1) (ih (step state input).1)

/-- What holds of a state and is kept by the given inputs holds after them. -/
theorem after_invariant (holds : State → Prop) {state : State} {inputs : List Input}
    (start : holds state)
    (kept : ∀ input ∈ inputs, ∀ reached, holds reached → holds (step reached input).1) :
    holds (after step state inputs) := by
  induction inputs generalizing state with
  | nil => exact start
  | cons input inputs ih =>
      apply ih (kept input (by simp) state start)
      intro later member
      exact kept later (List.mem_cons_of_mem _ member)

/-- Runs of a program that simulates every step. The relation ties a state and the
outputs so far to the state of the program. -/
theorem simulates_run {Concrete : Type} (call : Concrete → Input → Exec Concrete)
    (related : State → List Output → Concrete → Prop)
    (simulates : ∀ state past concrete input, related state past concrete →
      ∃ next, call concrete input = .ok next ∧
        related (step state input).1 (past ++ [(step state input).2]) next)
    {state : State} (past : List Output) {concrete : Concrete} (inputs : List Input)
    (start : related state past concrete) :
    ∃ final, inputs.foldlM call concrete = .ok final ∧
      related (after step state inputs) (past ++ outputs step state inputs) final := by
  induction inputs generalizing state past concrete with
  | nil => exact ⟨concrete, rfl, by rwa [outputs, List.append_nil]⟩
  | cons input inputs ih =>
      obtain ⟨next, first, relatedNext⟩ := simulates state past concrete input start
      obtain ⟨final, rest, relatedFinal⟩ := ih _ relatedNext
      rw [List.append_assoc] at relatedFinal
      refine ⟨final, ?_, relatedFinal⟩
      rw [List.foldlM_cons, first, exec_bind_ok, rest]

end Runs

end Transducer
