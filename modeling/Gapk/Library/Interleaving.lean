import Gapk.Library.CheckedMemory
import Mathlib.Logic.Function.Basic

/-!
# Interleaved calls on separate parties

Calls of several parties run one after the other on one shared state. Each party
also has a private machine that knows nothing of the others. When every call on
the shared state is a step of the machine of its own party and no step of any
other machine, a party sees in every interleaving what its machine alone does.
-/

namespace Interleaving

open CheckedMemory

set_option autoImplicit false

variable {Party Call Reply State Local : Type}

/-- The replies come with the party that made the call. -/
def runCalls (step : State → Party → Call → Exec (Reply × State)) :
    List (Party × Call) → State → Exec (List (Party × Reply) × State)
  | [], state => pure ([], state)
  | (party, call) :: rest, state => do
      let (reply, state) ← step state party call
      let (replies, state) ← runCalls step rest state
      pure ((party, reply) :: replies, state)

/-- `none` is a call that the machine does not allow in this state. -/
def runPrivate (act : Local → Call → Option (Reply × Local)) :
    List Call → Local → Option (List Reply × Local)
  | [], state => some ([], state)
  | call :: rest, state => do
      let (reply, state) ← act state call
      let (replies, state) ← runPrivate act rest state
      pure (reply :: replies, state)

variable [DecidableEq Party]

/-- The entries of one party, in their order. -/
def entriesOf {Entry : Type} (party : Party) (trace : List (Party × Entry)) :
    List (Party × Entry) :=
  trace.filter fun entry => entry.1 = party

def own {Entry : Type} (party : Party) (trace : List (Party × Entry)) : List Entry :=
  (entriesOf party trace).map Prod.snd

section Entries

variable {Entry : Type}

@[simp] theorem own_cons_same (party : Party) (entry : Entry) (rest : List (Party × Entry)) :
    own party ((party, entry) :: rest) = entry :: own party rest := by
  simp [own, entriesOf]

theorem own_cons_other {party other : Party} (distinct : other ≠ party) (entry : Entry)
    (rest : List (Party × Entry)) : own party ((other, entry) :: rest) = own party rest := by
  simp [own, entriesOf, distinct]

theorem own_entries_of (party : Party) (trace : List (Party × Entry)) :
    own party (entriesOf party trace) = own party trace := by
  rw [own, own, entriesOf, entriesOf, List.filter_filter]
  simp only [Bool.and_self]

theorem own_entries_of_other {party other : Party} (distinct : other ≠ party)
    (trace : List (Party × Entry)) : own other (entriesOf party trace) = [] := by
  rw [own, entriesOf, entriesOf, List.filter_filter, List.map_eq_nil_iff, List.filter_eq_nil_iff]
  intro entry _ both
  simp only [Bool.and_eq_true, decide_eq_true_eq] at both
  exact distinct (both.1.symm.trans both.2)

end Entries

/-- A call that the machine of its party allows is defined on the shared state.
It moves that machine and leaves the others where they are. -/
def Separates (step : State → Party → Call → Exec (Reply × State))
    (act : Local → Call → Option (Reply × Local))
    (represents : State → (Party → Local) → Prop) : Prop :=
  ∀ state locals party call reply moved, represents state locals →
    act (locals party) call = some (reply, moved) →
    ∃ next, step state party call = .ok (reply, next) ∧
      represents next (Function.update locals party moved)

variable {step : State → Party → Call → Exec (Reply × State)}
  {act : Local → Call → Option (Reply × Local)} {represents : State → (Party → Local) → Prop}

theorem run_private_step {call : Call} {rest : List Call} {state next final : Local}
    {reply : Reply} {others : List Reply} (first : act state call = some (reply, next))
    (later : runPrivate act rest next = some (others, final)) :
    runPrivate act (call :: rest) state = some (reply :: others, final) := by
  simp only [runPrivate, first, Option.bind_eq_bind, Option.bind_some, later, Option.pure_def]

theorem run_private_cons {call : Call} {rest : List Call} {state final : Local}
    {replies : List Reply} (run : runPrivate act (call :: rest) state = some (replies, final)) :
    ∃ reply next others, act state call = some (reply, next) ∧
      runPrivate act rest next = some (others, final) ∧ replies = reply :: others := by
  rw [runPrivate] at run
  obtain ⟨⟨reply, next⟩, first, later⟩ := Option.bind_eq_some_iff.mp run
  obtain ⟨⟨others, last⟩, tail, same⟩ := Option.bind_eq_some_iff.mp later
  cases same
  exact ⟨reply, next, others, first, tail, rfl⟩

/-- A trace in which every party keeps to its machine runs, and each party gets
the replies of its own machine. -/
theorem run_separates (separates : Separates step act represents) (trace : List (Party × Call)) :
    ∀ (state : State) (locals : Party → Local), represents state locals →
      (∀ party, ∃ result, runPrivate act (own party trace) (locals party) = some result) →
      ∃ replies next moved, runCalls step trace state = .ok (replies, next) ∧
        represents next moved ∧ ∀ party,
          runPrivate act (own party trace) (locals party) = some (own party replies, moved party) := by
  induction trace with
  | nil =>
      intro state locals represented _
      exact ⟨[], state, locals, rfl, represented, fun party => rfl⟩
  | cons entry rest ih =>
      obtain ⟨party, call⟩ := entry
      intro state locals represented allowed
      obtain ⟨⟨expected, final⟩, ownRun⟩ := allowed party
      rw [own_cons_same] at ownRun
      obtain ⟨reply, moved, others, acted, later, rfl⟩ := run_private_cons ownRun
      obtain ⟨next, stepped, kept⟩ :=
        separates state locals party call reply moved represented acted
      obtain ⟨replies, last, reached, run, keptAll, same⟩ := ih next _ kept (by
        intro other
        by_cases distinct : other = party
        · subst distinct
          exact ⟨_, by rwa [Function.update_self]⟩
        · obtain ⟨result, otherRun⟩ := allowed other
          rw [own_cons_other (Ne.symm distinct)] at otherRun
          exact ⟨result, by rwa [Function.update_of_ne distinct]⟩)
      refine ⟨(party, reply) :: replies, last, reached, ?_, keptAll, ?_⟩
      · rw [runCalls, stepped, exec_bind_ok]
        simp only [run, exec_bind_ok, exec_pure]
      · intro other
        by_cases distinct : other = party
        · subst distinct
          have tail := same other
          rw [Function.update_self] at tail
          rw [own_cons_same, own_cons_same]
          exact run_private_step acted tail
        · have tail := same other
          rw [Function.update_of_ne distinct] at tail
          rw [own_cons_other (Ne.symm distinct), own_cons_other (Ne.symm distinct)]
          exact tail

/-- What a party gets in a shared run it also gets when its own calls are all
that is run, from any state that represents the same machines. -/
theorem replies_isolated (separates : Separates step act represents)
    {state alone : State} {locals : Party → Local} (represented : represents state locals)
    (aloneRepresented : represents alone locals) (trace : List (Party × Call))
    (allowed : ∀ party, ∃ result,
      runPrivate act (own party trace) (locals party) = some result) :
    ∃ replies next, runCalls step trace state = .ok (replies, next) ∧
      ∀ party, ∃ aloneReplies aloneNext,
        runCalls step (entriesOf party trace) alone = .ok (aloneReplies, aloneNext) ∧
          own party aloneReplies = own party replies := by
  obtain ⟨replies, next, _, run, _, same⟩ :=
    run_separates separates trace state locals represented allowed
  refine ⟨replies, next, run, ?_⟩
  intro party
  obtain ⟨aloneReplies, aloneNext, _, aloneRun, _, aloneSame⟩ :=
    run_separates separates (entriesOf party trace) alone locals aloneRepresented (by
      intro other
      by_cases distinct : other = party
      · subst distinct
        rw [own_entries_of]
        exact allowed other
      · rw [own_entries_of_other distinct]
        exact ⟨_, rfl⟩)
  refine ⟨aloneReplies, aloneNext, aloneRun, ?_⟩
  have shared := same party
  have private_ := aloneSame party
  rw [own_entries_of, shared] at private_
  exact ((Prod.mk.inj (Option.some.inj private_)).1).symm

end Interleaving
