import Mathlib.Data.List.Chain

/-!
# Labelled paths

Sequences of labels whose steps fit together: the target of one step is the
source of the next one. What each step preserves, a path preserves, and what
consecutive steps share holds between neighbours in the list of labels.
-/

namespace Paths

set_option autoImplicit false

section Paths

variable {Node Label : Type}

inductive Path (step : Node → Label → Node → Prop) : Node → List Label → Node → Prop where
  | nil (node : Node) : Path step node [] node
  | cons {source between target : Node} {label : Label} {rest : List Label}
      (first : step source label between) (others : Path step between rest target) :
      Path step source (label :: rest) target

variable {step : Node → Label → Node → Prop}

theorem path_singleton {source target : Node} {label : Label} (first : step source label target) :
    Path step source [label] target :=
  .cons first (.nil target)

theorem path_append {source between target : Node} {first second : List Label}
    (left : Path step source first between) (right : Path step between second target) :
    Path step source (first ++ second) target := by
  induction left with
  | nil node => exact right
  | cons head others ih => exact .cons head (ih right)

/-- What holds at the start and is preserved by every step holds at the end. -/
theorem path_invariant {invariant : Node → Prop}
    (preserved : ∀ source label target, step source label target → invariant source →
      invariant target)
    {source target : Node} {labels : List Label} (path : Path step source labels target)
    (initial : invariant source) : invariant target := by
  induction path with
  | nil node => exact initial
  | cons first others ih => exact ih (preserved _ _ _ first initial)

/-- A relation that links a step into a node with every step out of it links the
neighbours in a path, also with a label before and one behind the path. -/
theorem path_chain {link : Label → Label → Prop} (enters leaves : Label → Node → Prop)
    (linked : ∀ before node after, enters before node → leaves after node → link before after)
    (steps : ∀ source label target, step source label target →
      leaves label source ∧ enters label target)
    {source target : Node} {labels : List Label} (path : Path step source labels target)
    {first last : Label} (enter : enters first source) (leave : leaves last target) :
    (first :: (labels ++ [last])).IsChain link := by
  induction path generalizing first with
  | nil node => simpa using linked _ _ _ enter leave
  | cons head others ih =>
      obtain ⟨out, into⟩ := steps _ _ _ head
      rw [List.cons_append, List.isChain_cons_cons]
      exact ⟨linked _ _ _ enter out, ih into leave⟩

end Paths

end Paths
