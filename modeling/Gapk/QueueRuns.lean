import Gapk.Procqueue

/-!
# Runs of a queue

Which calls an execution makes, and with what input. Buffers follow the type of
every item, and the lengths that are passed on at run time are those that the
call-backs return. What no function of C does is only asked of a call-back in the
states that its item comes to.
-/

namespace Gapk.QueueRuns

open CheckedMemory FixedWidth
open Gapk.Procqueue

set_option autoImplicit false

section Calls

variable {State World : Type}

/-- A queue made through its interface: items are added at the end, and fields of
items are assigned at any time. -/
inductive Built : Pq State World → Prop where
  | create (name : String) : Built (osmoGapkPqCreate name)
  | addItem {pq after : Pq State World} {allocated added : Bool} (built : Built pq)
      (run : osmoGapkPqAddItem pq allocated = .ok (added, after)) : Built after
  | assign {pq : Pq State World} {items : List (PqItem State World)} (built : Built pq)
      (same : items.length = pq.items.length) : Built { pq with items := items }

theorem built_counted {pq : Pq State World} (built : Built pq) :
    pq.nItems = pq.items.length % 2 ^ 32 := by
  induction built with
  | create name => rfl
  | addItem built run ih =>
      obtain ⟨_, rfl⟩ := add_item_ok run
      split_ifs
      · simp only [Pq.extended, List.length_append, List.length_singleton, ih]
        omega
      · exact ih
  | assign built same ih =>
      simp only [same, ih]

theorem zero_items_built (name : String) (count : Nat) :
    Built (⟨List.replicate count .zero, count % 2 ^ 32, name⟩ : Pq State World) := by
  induction count with
  | zero => exact .create name
  | succ count ih =>
      have linked : Linked (List.replicate count (.zero : PqItem State World)) := by
        intro item member
        obtain rfl := List.eq_of_mem_replicate member
        rfl
      have added := Built.addItem ih (add_item_eq linked)
      rw [Pq.extended] at added
      simp only [← List.replicate_succ', Nat.mod_add_mod] at added
      exact added

/-- The number of items is all that the interface keeps to. -/
theorem built_iff_counted (pq : Pq State World) :
    Built pq ↔ pq.nItems = pq.items.length % 2 ^ 32 := by
  refine ⟨built_counted, fun counted => ?_⟩
  have same : pq.items.length =
      (List.replicate pq.items.length (.zero : PqItem State World)).length := by
    rw [List.length_replicate]
  have assigned := Built.assign (zero_items_built pq.name pq.items.length) same
  rw [← counted] at assigned
  exact assigned

structure Call (State World : Type) where
  item : PqItem State World
  input : Option Buf
  inLen : Nat
  result : Exec (ProcResult State World)

def callItem (item : PqItem State World) (passed : Passed World) :
    Exec (ProcResult State World) := do
  touch item
  let proc ← deref item.proc
  proc item.state item.buf passed.buf passed.len passed.world

def afterCall (item : PqItem State World) (result : ProcResult State World) :
    PqItem State World :=
  { item with state := result.state, buf := result.out }

def handedOn (result : ProcResult State World) : Passed World :=
  { buf := result.out, len := toUInt32 result.rv, world := result.world }

/-- The calls of the items, up to the first one that fails or is not defined. -/
def callsOf : List (PqItem State World) → Passed World → List (Call State World)
  | [], _ => []
  | item :: rest, passed =>
      { item := item, input := passed.buf, inLen := passed.len, result := callItem item passed } ::
        match callItem item passed with
        | .ok result => if result.rv < 0 then [] else callsOf rest (handedOn result)
        | .error _ => []

def calls (pq : Pq State World) (world : World) : List (Call State World) :=
  callsOf pq.items { buf := none, len := 0, world := world }

theorem execute_items_cons (item : PqItem State World) (rest : List (PqItem State World))
    (passed : Passed World) :
    executeItems (item :: rest) passed = (do
      let result ← callItem item passed
      if result.rv < 0 then
        return (result.rv, afterCall item result :: rest, { passed with world := result.world })
      let (rv, rest, passed) ← executeItems rest (handedOn result)
      pure (rv, afterCall item result :: rest, passed)) := by
  simp only [executeItems, callItem, bind_assoc]
  rfl

theorem execute_cons_stops {item : PqItem State World} {rest : List (PqItem State World)}
    {passed : Passed World} {result : ProcResult State World}
    (called : callItem item passed = .ok result) (negative : result.rv < 0) :
    executeItems (item :: rest) passed =
      .ok (result.rv, afterCall item result :: rest, { passed with world := result.world }) := by
  rw [execute_items_cons, called, exec_bind_ok, if_pos negative]
  rfl

theorem execute_cons_goes_on {item : PqItem State World} {rest after : List (PqItem State World)}
    {passed passedAfter : Passed World} {result : ProcResult State World} {rv : Int}
    (called : callItem item passed = .ok result) (fine : 0 ≤ result.rv)
    (others : executeItems rest (handedOn result) = .ok (rv, after, passedAfter)) :
    executeItems (item :: rest) passed = .ok (rv, afterCall item result :: after, passedAfter) := by
  rw [execute_items_cons, called, exec_bind_ok, if_neg (by omega), others]
  rfl

theorem execute_cons_faults {item : PqItem State World} {rest : List (PqItem State World)}
    {passed : Passed World} {fault : Fault} (called : callItem item passed = .error fault) :
    executeItems (item :: rest) passed = .error fault := by
  rw [execute_items_cons, called, exec_bind_error]

theorem execute_cons_ok {item : PqItem State World} {rest after : List (PqItem State World)}
    {passed passedAfter : Passed World} {rv : Int}
    (run : executeItems (item :: rest) passed = .ok (rv, after, passedAfter)) :
    ∃ result, callItem item passed = .ok result ∧
      ((result.rv < 0 ∧ rv = result.rv ∧ after = afterCall item result :: rest ∧
          passedAfter = { passed with world := result.world }) ∨
        (0 ≤ result.rv ∧ ∃ restAfter,
          executeItems rest (handedOn result) = .ok (rv, restAfter, passedAfter) ∧
          after = afterCall item result :: restAfter)) := by
  rw [execute_items_cons] at run
  obtain ⟨result, called, run⟩ := (exec_bind_eq_ok _ _ _).mp run
  refine ⟨result, called, ?_⟩
  by_cases negative : result.rv < 0
  · rw [if_pos negative] at run
    cases run
    exact Or.inl ⟨negative, rfl, rfl, rfl⟩
  · rw [if_neg negative] at run
    obtain ⟨⟨restRv, restAfter, restPassed⟩, restRun, last⟩ := (exec_bind_eq_ok _ _ _).mp run
    cases last
    exact Or.inr ⟨not_lt.mp negative, restAfter, restRun, rfl⟩

def definedCall (item : PqItem State World) (input : Option Buf) (inLen : Nat)
    (result : ProcResult State World) : Call State World :=
  { item := item, input := input, inLen := inLen, result := .ok result }

/-- An item whose call-back writes down its defined calls behind the world. -/
def logging (item : PqItem State World) : PqItem State (World × List (Call State World)) where
  lenIn := item.lenIn
  lenOut := item.lenOut
  state := item.state
  buf := item.buf
  proc := item.proc.map fun proc state out src srcLen world => do
    let result ← proc state out src srcLen world.1
    let call := definedCall { item with state := state, buf := out } src srcLen result
    pure { rv := result.rv, state := result.state, out := result.out,
           world := (result.world, world.2 ++ [call]) }
  wait := item.wait.map fun wait state world =>
    ((wait state world.1).1, (wait state world.1).2, world.2)
  exit := item.exit
  type := item.type
  catName := item.catName
  subName := item.subName
  freed := item.freed

theorem call_logging_item (item : PqItem State World) (passed : Passed World)
    (log : List (Call State World)) :
    callItem (logging item) { buf := passed.buf, len := passed.len, world := (passed.world, log) } =
      (callItem item passed).map fun result =>
        { rv := result.rv, state := result.state, out := result.out,
          world := (result.world, log ++ [definedCall item passed.buf passed.len result]) } := by
  unfold callItem
  cases linked : item.freed with
  | true =>
      simp only [touch, logging, linked, if_true]
      rfl
  | false =>
      rw [touch_eq linked, touch_eq (show (logging item).freed = false from linked)]
      simp only [exec_bind_ok, logging]
      cases found : item.proc with
      | none => rfl
      | some proc =>
          simp only [Option.map_some, deref_some, exec_bind_ok]
          cases run : proc item.state item.buf passed.buf passed.len passed.world with
          | error fault => rfl
          | ok result =>
              simp only [exec_bind_ok, exec_pure, Except.map]
              rw [← found]

/-- The calls written down in a defined execution are the calls of `callsOf`. -/
theorem execute_logging_items (items : List (PqItem State World)) :
    ∀ (passed : Passed World) (log : List (Call State World)) (rv : Int)
      (after : List (PqItem State World)) (passedAfter : Passed World),
      executeItems items passed = .ok (rv, after, passedAfter) →
      executeItems (items.map logging)
          { buf := passed.buf, len := passed.len, world := (passed.world, log) } =
        .ok (rv, after.map logging,
          { buf := passedAfter.buf, len := passedAfter.len,
            world := (passedAfter.world, log ++ callsOf items passed) }) := by
  induction items with
  | nil =>
      intro passed log rv after passedAfter run
      cases run
      rw [callsOf, List.append_nil]
      rfl
  | cons item rest ih =>
      intro passed log rv after passedAfter run
      obtain ⟨result, called, ended⟩ := execute_cons_ok run
      have logged := call_logging_item item passed log
      rw [called] at logged
      rw [callsOf, called]
      rcases ended with ⟨negative, rfl, rfl, rfl⟩ | ⟨positive, restAfter, restRun, rfl⟩
      · simp only [if_pos negative]
        exact execute_cons_stops logged negative
      · have restLogged := ih (handedOn result)
          (log ++ [definedCall item passed.buf passed.len result]) _ _ _ restRun
        rw [List.append_assoc] at restLogged
        simp only [if_neg (not_lt.mpr positive)]
        exact execute_cons_goes_on logged positive restLogged

/-- The states of a queue in any sequence of executions, with anything going on
around it in between. -/
inductive Reached (prepared : Pq State World) : Pq State World → Prop where
  | start : Reached prepared prepared
  | step {pq after : Pq State World} {world worldAfter : World} {rv : Int}
      (reached : Reached prepared pq)
      (run : osmoGapkPqExecute pq world = .ok (rv, after, worldAfter)) : Reached prepared after

theorem execute_ok {pq after : Pq State World} {world worldAfter : World} {rv : Int}
    (run : osmoGapkPqExecute pq world = .ok (rv, after, worldAfter)) :
    ∃ items passed, executeItems pq.items { buf := none, len := 0, world := world } =
      .ok (rv, items, passed) ∧ after = { pq with items := items } ∧ worldAfter = passed.world := by
  obtain ⟨⟨itemsRv, items, passed⟩, itemsRun, last⟩ := (exec_bind_eq_ok _ _ _).mp run
  cases last
  exact ⟨items, passed, itemsRun, rfl, rfl⟩

/-- The calls of an execution are those that a queue with logging call-backs
writes down. -/
theorem execute_logging {pq after : Pq State World} {world worldAfter : World} {rv : Int}
    (run : osmoGapkPqExecute pq world = .ok (rv, after, worldAfter)) :
    osmoGapkPqExecute { pq with items := pq.items.map logging } (world, []) =
      .ok (rv, { after with items := after.items.map logging }, worldAfter, calls pq world) := by
  obtain ⟨items, passed, itemsRun, rfl, rfl⟩ := execute_ok run
  have logged := execute_logging_items pq.items _ [] _ _ _ itemsRun
  rw [osmoGapkPqExecute, logged]
  rfl

/-- Items are called in the order of the queue, none left out. -/
theorem calls_in_order (items : List (PqItem State World)) :
    ∀ passed : Passed World, (callsOf items passed).map Call.item <+: items := by
  induction items with
  | nil =>
      intro passed
      exact List.prefix_rfl
  | cons item rest ih =>
      intro passed
      rw [callsOf, List.map_cons, List.cons_prefix_cons]
      refine ⟨rfl, ?_⟩
      cases callItem item passed with
      | error fault => exact List.nil_prefix
      | ok result =>
          by_cases negative : result.rv < 0
          · simp only [if_pos negative]
            exact List.nil_prefix
          · simp only [if_neg negative]
            exact ih (handedOn result)

/-- What an execution returns is what its last call returned, if that is negative,
and zero if every call was made and none returned a negative value. -/
def Outcome (items : List (PqItem State World)) (made : List (Call State World)) (rv : Int) : Prop :=
  (∃ front last result, made = front ++ [last] ∧ last.result = .ok result ∧ result.rv = rv ∧
    rv < 0) ∨
  (rv = 0 ∧ made.map Call.item = items ∧
    ∀ call ∈ made, ∃ result, call.result = .ok result ∧ 0 ≤ result.rv)

theorem execute_outcome (items : List (PqItem State World)) :
    ∀ (passed : Passed World) (rv : Int) (after : List (PqItem State World))
      (passedAfter : Passed World), executeItems items passed = .ok (rv, after, passedAfter) →
      Outcome items (callsOf items passed) rv := by
  induction items with
  | nil =>
      intro passed rv after passedAfter run
      cases run
      exact Or.inr ⟨rfl, rfl, fun call member => absurd member List.not_mem_nil⟩
  | cons item rest ih =>
      intro passed rv after passedAfter run
      obtain ⟨result, called, ended⟩ := execute_cons_ok run
      simp only [callsOf, called]
      rcases ended with ⟨negative, rfl, rfl, rfl⟩ | ⟨positive, restAfter, restRun, rfl⟩
      · rw [if_pos negative]
        exact Or.inl ⟨[], _, result, rfl, rfl, rfl, negative⟩
      · rw [if_neg (not_lt.mpr positive)]
        rcases ih _ _ _ _ restRun with ⟨front, last, lastResult, made, ended, same, below⟩ |
          ⟨zero, whole, others⟩
        · exact Or.inl ⟨_ :: front, last, lastResult, by rw [made]; rfl, ended, same, below⟩
        · refine Or.inr ⟨zero, by rw [List.map_cons, whole], ?_⟩
          intro call member
          rcases List.mem_cons.mp member with rfl | later
          · exact ⟨result, rfl, positive⟩
          · exact others call later

/-- What a call-back cannot do in C: give its output buffer another size, or return more
than an `int` holds. The states are those that it leaves behind and is called with. -/
structure CFunction (keeps : ItemState State → Prop) (proc : ProcCb State World) : Prop where
  keepsState : ∀ state out src srcLen world result, keeps state →
    proc state out src srcLen world = .ok result → keeps result.state
  keepsBuffer : ∀ state out src srcLen world result, keeps state →
    proc state out src srcLen world = .ok result → result.out.map List.length = out.map List.length
  returnsInt : ∀ state out src srcLen world result, keeps state →
    proc state out src srcLen world = .ok result → result.rv < 2 ^ 31

/-- The call-back is a C function in every state that its item comes to. -/
def RunsInC (item : PqItem State World) : Prop :=
  ∃ keeps : ItemState State → Prop, keeps item.state ∧
    ∀ proc, item.proc = some proc → CFunction keeps proc

theorem call_item_ok {item : PqItem State World} {passed : Passed World}
    {result : ProcResult State World} (run : callItem item passed = .ok result) :
    ∃ proc, item.proc = some proc ∧
      proc item.state item.buf passed.buf passed.len passed.world = .ok result := by
  obtain ⟨_, _, run⟩ := (exec_bind_eq_ok _ _ _).mp run
  obtain ⟨proc, found, run⟩ := (exec_bind_eq_ok _ _ _).mp run
  cases procFound : item.proc with
  | none =>
      rw [procFound] at found
      cases found
  | some other =>
      rw [procFound] at found
      cases found
      exact ⟨proc, rfl, run⟩

theorem prepared_linked {memory : BufferAlloc} {pq prepared : Pq State World}
    (prepares : osmoGapkPqPrepare memory pq = .ok (0, prepared)) : Linked pq.items := by
  have buffers := pq_prepare_ok prepares
  generalize prepared.items = after at buffers
  generalize pq.items = items at buffers
  induction buffers with
  | nil => exact fun item member => absurd member List.not_mem_nil
  | cons pair _ ih => exact List.forall_mem_cons.mpr ⟨pair.linked, ih⟩

end Calls

section Idle

def idleProc : ProcCb Unit Unit := fun state out _ _ world =>
  .ok { rv := 0, state := state, out := out, world := world }

def idleItem (type : ItemType) : PqItem Unit Unit :=
  { PqItem.zero with type := type, proc := some idleProc }

def idleQueue (types : List ItemType) : Pq Unit Unit where
  items := types.map idleItem
  nItems := types.length
  name := "idle"

def idlePrepared (types : List ItemType) : Pq Unit Unit :=
  { idleQueue types with
    items := types.map fun type =>
      { idleItem type with buf := if type = .sink then none else some (List.replicate 320 0) } }

end Idle

end Gapk.QueueRuns
