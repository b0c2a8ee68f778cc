import Mathlib.Data.List.Basic

/-!
# Settings that are made one after the other

A fold over items that can be refused. Where every item is judged by itself, the
first refused one decides; where every item sets one field only, each field is as
the last item for it has set it.
-/

namespace LastWrite

set_option autoImplicit false

variable {State Item Key Value Error : Type} {step : State → Item → Except Error State}

theorem fold_cons_ok {state after : State} {item : Item} {rest : List Item}
    (folded : (item :: rest).foldlM step state = .ok after) :
    ∃ next, step state item = .ok next ∧ rest.foldlM step next = .ok after := by
  rw [List.foldlM_cons] at folded
  cases stepped : step state item with
  | error error =>
      rw [stepped] at folded
      cases folded
  | ok next =>
      rw [stepped] at folded
      exact ⟨next, rfl, folded⟩

/-- An item is refused or accepted in every state. -/
structure Judged (step : State → Item → Except Error State) (verdict : Item → Option Error) : Prop where
  refused : ∀ state item error, verdict item = some error → step state item = .error error
  accepted : ∀ state item, verdict item = none → ∃ after, step state item = .ok after

section Verdicts

variable {verdict : Item → Option Error} (judged : Judged step verdict)

include judged

theorem fold_refused {error : Error} {items : List Item} (first : items.findSome? verdict = some error)
    (state : State) : items.foldlM step state = .error error := by
  induction items generalizing state with
  | nil => cases first
  | cons item rest ih =>
      rw [List.foldlM_cons]
      rw [List.findSome?_cons] at first
      cases judgement : verdict item with
      | some other =>
          rw [judgement] at first
          cases first
          rw [judged.refused state item error judgement]
          rfl
      | none =>
          rw [judgement] at first
          obtain ⟨after, stepped⟩ := judged.accepted state item judgement
          rw [stepped]
          exact ih first after

theorem fold_accepted {items : List Item} (all : items.findSome? verdict = none) (state : State) :
    ∃ after, items.foldlM step state = .ok after := by
  induction items generalizing state with
  | nil => exact ⟨state, rfl⟩
  | cons item rest ih =>
      rw [List.findSome?_cons] at all
      cases judgement : verdict item with
      | some other =>
          rw [judgement] at all
          cases all
      | none =>
          rw [judgement] at all
          obtain ⟨after, stepped⟩ := judged.accepted state item judgement
          obtain ⟨last, folded⟩ := ih all after
          refine ⟨last, ?_⟩
          rw [List.foldlM_cons, stepped]
          exact folded

end Verdicts

section Fields

variable [DecidableEq Key] {key : Item → Key} {wanted : Key} {get : State → Value}
  {read : Item → Value}

/-- What the last of the wanted items says. -/
def lastOf (key : Item → Key) (wanted : Key) (read : Item → Value) (default : Value)
    (items : List Item) : Value :=
  (((items.filter fun item => key item = wanted).getLast?).map read).getD default

/-- A field that is set by the wanted items and by no others. -/
structure Sets (step : State → Item → Except Error State) (key : Item → Key) (wanted : Key)
    (get : State → Value) (read : Item → Value) : Prop where
  own : ∀ state item after, step state item = .ok after → key item = wanted → get after = read item
  others : ∀ state item after, step state item = .ok after → key item ≠ wanted → get after = get state

theorem last_of_cons (default : Value) (item : Item) (rest : List Item) :
    lastOf key wanted read default (item :: rest) =
      lastOf key wanted read (if key item = wanted then read item else default) rest := by
  rw [lastOf, lastOf, List.filter_cons]
  by_cases own : key item = wanted
  · simp only [own, decide_true, if_true, List.getLast?_cons]
    cases (rest.filter fun item => key item = wanted).getLast? <;> rfl
  · simp only [own, decide_false, if_false]
    rfl

theorem fold_last (sets : Sets step key wanted get read) {state after : State} {items : List Item}
    (folded : items.foldlM step state = .ok after) :
    get after = lastOf key wanted read (get state) items := by
  induction items generalizing state with
  | nil =>
      cases folded
      rfl
  | cons item rest ih =>
      obtain ⟨next, stepped, folded⟩ := fold_cons_ok folded
      rw [ih folded, last_of_cons]
      by_cases own : key item = wanted
      · rw [if_pos own, sets.own state item next stepped own]
      · rw [if_neg own, sets.others state item next stepped own]

theorem last_of_none {items : List Item} (none : ∀ item ∈ items, key item ≠ wanted) (default : Value) :
    lastOf key wanted read default items = default := by
  have empty : items.filter (fun item => key item = wanted) = [] := by
    apply List.filter_eq_nil_iff.mpr
    simpa using none
  rw [lastOf, empty]
  rfl

/-- With at most one item for each key, that item is the last. -/
theorem last_of_each {keys : List Key} (distinct : keys.Nodup) {make : Key → Option Item}
    (own : ∀ made item, make made = some item → key item = made) (member : wanted ∈ keys)
    (default : Value) :
    lastOf key wanted read default (keys.filterMap make) = ((make wanted).map read).getD default := by
  induction keys with
  | nil => cases member
  | cons first rest ih =>
      obtain ⟨fresh, distinct⟩ := List.nodup_cons.mp distinct
      by_cases isFirst : first = wanted
      · subst isFirst
        have later : ∀ item ∈ rest.filterMap make, key item ≠ first := by
          rintro item isItem rfl
          obtain ⟨made, isMade, makes⟩ := List.mem_filterMap.mp isItem
          rw [own made item makes] at fresh
          exact fresh isMade
        cases made : make first with
        | none =>
            rw [List.filterMap_cons_none made]
            exact last_of_none later default
        | some item =>
            rw [List.filterMap_cons_some made, last_of_cons, if_pos (own first item made)]
            exact last_of_none later _
      · have isLater := List.mem_of_ne_of_mem (Ne.symm isFirst) member
        cases made : make first with
        | none =>
            rw [List.filterMap_cons_none made]
            exact ih distinct isLater
        | some item =>
            rw [List.filterMap_cons_some made, last_of_cons,
              if_neg fun same => isFirst ((own first item made).symm.trans same)]
            exact ih distinct isLater

end Fields

/-- What every step keeps holds behind all of them. -/
theorem fold_keeps {holds : State → Prop}
    (kept : ∀ state item after, step state item = .ok after → holds state → holds after)
    {state after : State} {items : List Item} (folded : items.foldlM step state = .ok after)
    (start : holds state) : holds after := by
  induction items generalizing state with
  | nil =>
      cases folded
      exact start
  | cons item rest ih =>
      obtain ⟨next, stepped, folded⟩ := fold_cons_ok folded
      exact ih folded (kept state item next stepped start)

end LastWrite
