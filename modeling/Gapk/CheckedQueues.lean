import Gapk.Callbacks

/-!
# Checked queues

The check of a queue compares the declared lengths of neighbours and, if it is strict,
looks at the types of the two ends. Together with the buffers that are allocated it
decides what an item is called with, as long as the call-backs are functions of C and
keep to the lengths that they declare.
-/

namespace Gapk.CheckedQueues

open CheckedMemory FixedWidth
open Gapk.Formats Gapk.Procqueue Gapk.Streams Gapk.QueueOps Gapk.QueueLedger Gapk.Codecs
open Gapk.Converters Gapk.QueueRuns Gapk.Callbacks

set_option autoImplicit false

section Buffers

variable {State World : Type}

structure Buffered (item : PqItem State World) : Prop where
  function : RunsInC item
  allocated : item.type ≠ .sink → ∃ buf, item.buf = some buf ∧ buf.length = bufSize item

theorem buffered_call {item : PqItem State World} {passed : Passed World}
    {result : ProcResult State World} (buffered : Buffered item)
    (run : callItem item passed = .ok result) :
    Buffered (afterCall item result) ∧ result.rv < 2 ^ 31 := by
  obtain ⟨keeps, kept, functions⟩ := buffered.function
  obtain ⟨proc, found, procRun⟩ := call_item_ok run
  have function := functions proc found
  have sameSize := function.keepsBuffer _ _ _ _ _ _ kept procRun
  refine ⟨⟨⟨keeps, function.keepsState _ _ _ _ _ _ kept procRun, functions⟩, ?_⟩,
    function.returnsInt _ _ _ _ _ _ kept procRun⟩
  intro other
  obtain ⟨buf, allocated, size⟩ := buffered.allocated other
  rw [allocated] at sameSize
  obtain ⟨out, written, outSize⟩ := Option.map_eq_some_iff.mp sameSize
  exact ⟨out, written, outSize.trans size⟩

/-- A call is made after the one before it has returned a length, with what that
call left in its output buffer, which was allocated unless it is a sink's. -/
structure Passes (prev next : Call State World) : Prop where
  returned : ∃ result, prev.result = .ok result ∧ 0 ≤ result.rv ∧ next.input = result.out ∧
    (next.inLen : Int) = result.rv
  allocated : prev.item.type ≠ .sink →
    ∃ buf, next.input = some buf ∧ buf.length = bufSize prev.item

theorem calls_of_cons_chain {R : Call State World → Call State World → Prop}
    {item : PqItem State World} {rest : List (PqItem State World)} {passed : Passed World}
    (head : ∀ result next tail, callItem item passed = .ok result → 0 ≤ result.rv →
      rest = next :: tail →
      R { item := item, input := passed.buf, inLen := passed.len, result := .ok result }
        { item := next, input := result.out, inLen := toUInt32 result.rv,
          result := callItem next (handedOn result) })
    (tail : ∀ result, callItem item passed = .ok result → 0 ≤ result.rv →
      (callsOf rest (handedOn result)).IsChain R) :
    (callsOf (item :: rest) passed).IsChain R := by
  rw [callsOf]
  cases run : callItem item passed with
  | error fault => exact List.isChain_singleton _
  | ok result =>
      by_cases negative : result.rv < 0
      · simp only [if_pos negative]
        exact List.isChain_singleton _
      · simp only [if_neg negative]
        have chained := tail result run (not_lt.mp negative)
        cases rest with
        | nil => exact List.isChain_singleton _
        | cons next others =>
            rw [callsOf] at chained ⊢
            exact List.isChain_cons_cons.mpr
              ⟨head result next others run (not_lt.mp negative) rfl, chained⟩

theorem execute_buffered (items : List (PqItem State World))
    (buffered : ∀ item ∈ items, Buffered item) :
    ∀ passed : Passed World, (callsOf items passed).IsChain Passes ∧
      ∀ rv after passedAfter, executeItems items passed = .ok (rv, after, passedAfter) →
        ∀ item ∈ after, Buffered item := by
  induction items with
  | nil =>
      intro passed
      refine ⟨List.isChain_nil, ?_⟩
      intro rv after passedAfter run
      cases run
      exact buffered
  | cons item rest ih =>
      have first := buffered item (by simp)
      have others : ∀ other ∈ rest, Buffered other :=
        fun other member => buffered other (List.mem_cons_of_mem _ member)
      intro passed
      constructor
      · apply calls_of_cons_chain
        · intro result next tail run positive _
          obtain ⟨after, small⟩ := buffered_call first run
          refine ⟨⟨result, rfl, positive, rfl, ?_⟩, fun other => after.allocated other⟩
          show ((toUInt32 result.rv : Nat) : Int) = result.rv
          rw [toUInt32]
          omega
        · intro result _ _
          exact (ih others (handedOn result)).1
      · intro rv after passedAfter run
        obtain ⟨result, called, ended⟩ := execute_cons_ok run
        have firstAfter := (buffered_call first called).1
        rcases ended with ⟨_, _, rfl, _⟩ | ⟨_, restAfter, restRun, rfl⟩
        · exact List.forall_mem_cons.mpr ⟨firstAfter, others⟩
        · exact List.forall_mem_cons.mpr
            ⟨firstAfter, (ih others (handedOn result)).2 _ _ _ restRun⟩

theorem prepared_buffered {memory : BufferAlloc} {pq prepared : Pq State World}
    (prepares : osmoGapkPqPrepare memory pq = .ok (0, prepared))
    (functions : ∀ item ∈ pq.items, RunsInC item) :
    ∀ item ∈ prepared.items, Buffered item := by
  have buffers := pq_prepare_ok prepares
  generalize prepared.items = after at buffers
  generalize pq.items = items at buffers functions
  induction buffers with
  | nil => exact fun item member => absurd member List.not_mem_nil
  | @cons item _ _ _ pair _ ih =>
      refine List.forall_mem_cons.mpr ⟨⟨?_, ?_⟩, ih fun other member =>
        functions other (List.mem_cons_of_mem _ member)⟩
      · rw [pair.same]
        exact functions item List.mem_cons_self
      · rw [pair.same]
        intro other
        obtain ⟨buf, allocated, size⟩ := pair.allocated other
        exact ⟨buf, allocated, size⟩

theorem reached_buffered {prepared pq : Pq State World}
    (buffered : ∀ item ∈ prepared.items, Buffered item) (reached : Reached prepared pq) :
    ∀ item ∈ pq.items, Buffered item := by
  induction reached with
  | start => exact buffered
  | step _ run ih =>
      obtain ⟨items, passed, itemsRun, rfl, _⟩ := execute_ok run
      exact (execute_buffered _ ih _).2 _ _ _ itemsRun

end Buffers

section Lengths

variable {State World : Type}

/-- The declared lengths fit, and only the last item may be a sink. -/
structure Plumbed (signatures : List Signature) : Prop where
  lengths : signatures.IsChain Accepts
  sinks : ∀ signature ∈ signatures.dropLast, signature.type ≠ .sink

theorem Plumbed.tail {signature : Signature} {rest : List Signature}
    (plumbed : Plumbed (signature :: rest)) : Plumbed rest where
  lengths := plumbed.lengths.tail
  sinks := by
    intro other member
    cases rest with
    | nil => exact absurd member List.not_mem_nil
    | cons next others => exact plumbed.sinks other (List.mem_cons_of_mem _ member)

end Lengths

section Frames

variable {Lib : Type} {build : Build Lib}

end Frames

section Checked

def amrEfr : FormatDesc := FmtAmr.fmtAmrEfr Build.idle.tables.gsm690_12_2

def tiEfr : FormatDesc := FmtTi.fmtTiEfr Build.idle.tables.gsm660

def efr : CodecDesc Unit := codecEfrDesc Build.idle.config idleLibs

/-- A file of EFR frames in one format becomes one in another. -/
def reordering : Queue Unit where
  items := [fileItem 32 true (.heap 0 (.file 32)) .zero, fmtItem amrEfr efr false .zero,
    fmtItem tiEfr efr true .zero, fileItem 33 false (.heap 1 (.file 33)) .zero]
  nItems := 4
  name := "main"

theorem reordering_queued : Queued Build.idle reordering ⟨2, []⟩ := by
  have source : Provided Build.idle (.fileInput 32) := trivial
  have reader : Provided Build.idle (.fmtConvert amrEfr false) := rfl
  have writer : Provided Build.idle (.fmtConvert tiEfr true) := rfl
  have sink : Provided Build.idle (.fileOutput 33) := trivial
  have one : Queued Build.idle _ ⟨1, []⟩ := .call (.create "main" .empty) source
    (rfl : queueCall _ _ _ workingOutcome _ _ = .ok (0, _, _))
  have two : Queued Build.idle _ ⟨1, []⟩ := .call one reader
    (rfl : queueCall _ _ _ workingOutcome _ _ = .ok (0, _, _))
  have three : Queued Build.idle _ ⟨1, []⟩ := .call two writer
    (rfl : queueCall _ _ _ workingOutcome _ _ = .ok (0, _, _))
  exact .call three sink (rfl : queueCall _ _ _ workingOutcome _ _ = .ok (0, _, _))

theorem idle_concealed : ∀ ecu area, (Build.idle.libs.osmoEcuFrConceal ecu area).2.1 < 2 ^ 31 :=
  fun _ _ => of_decide_eq_true rfl

theorem reordering_functions : ∀ item ∈ reordering.items, RunsInC item :=
  queued_runs_in_c idle_concealed reordering_queued

def oneFrame : World :=
  ⟨0x3c :: List.replicate 31 0, [], [], [], [], [], fun _ => true, 0, 0⟩

def withBuffer (item : Item Unit) (buf : Option Buf) : Item Unit := { item with buf := buf }

def preparedReordering : Queue Unit :=
  { reordering with
    items := reordering.items.zipWith withBuffer
      [some (List.replicate 32 0), some (List.replicate 31 0), some (List.replicate 33 0), none] }

theorem reordering_prepared :
    osmoGapkPqPrepare .cleared reordering = .ok (0, preparedReordering) := rfl

end Checked

section StrictCheck

variable {State World : Type}

/-- A pipeline: one source, one sink, and no other item at its ends or of these
types in between. -/
structure Pipeline (items : List (PqItem State World)) : Prop where
  nonempty : items ≠ []
  source : items.head?.map PqItem.type = some .source
  sink : items.getLast?.map PqItem.type = some .sink
  onlySource : ∀ item ∈ items.tail, item.type ≠ .source
  onlySink : ∀ item ∈ items.dropLast, item.type ≠ .sink

/-- The strict check makes a source of the first item and a sink of the last one.
In every execution an item gets the buffer of the item before it, which was
allocated unless that item is a sink too. -/
theorem strict_check_ends {memory : BufferAlloc} {pq prepared reached : Pq State World}
    (built : Built pq) (checked : osmoGapkPqCheck pq true = .ok 0)
    (prepares : osmoGapkPqPrepare memory pq = .ok (0, prepared))
    (functions : ∀ item ∈ pq.items, RunsInC item)
    (run : Reached prepared reached) (world : World) :
    pq.items ≠ [] ∧ pq.items.head?.map PqItem.type = some .source ∧
      pq.items.getLast?.map PqItem.type = some .sink ∧
      (calls reached world).map Call.item <+: reached.items ∧
      (calls reached world).IsChain Passes := by
  obtain ⟨rv, checkRun, _, fits⟩ := pq_check_strict_eq (prepared_linked prepares) (by
    intro empty
    rw [built_counted built, empty]
    rfl)
  rw [checked] at checkRun
  cases checkRun
  have shape := fits.mp rfl
  have first := shape.first
  have last := shape.last
  rw [List.head?_map, Option.map_map] at first
  rw [List.getLast?_map, Option.map_map] at last
  refine ⟨?_, first, last, calls_in_order _ _, ?_⟩
  · intro empty
    rw [empty] at first
    cases first
  · have buffered := reached_buffered (prepared_buffered prepares functions) run
    exact (execute_buffered _ buffered _).1

theorem strict_check_ends_reordering :
    reordering.items ≠ [] ∧ reordering.items.head?.map PqItem.type = some .source ∧
      reordering.items.getLast?.map PqItem.type = some .sink ∧
      (calls preparedReordering oneFrame).map Call.item <+: preparedReordering.items ∧
      (calls preparedReordering oneFrame).IsChain Passes :=
  strict_check_ends (queued_built idle_concealed reordering_queued) rfl reordering_prepared
    reordering_functions .start oneFrame

/-- A frame of variable length is written to a second file behind the first one. -/
def twoSinks : Queue Unit where
  items := [fileItem 33 true (.heap 0 (.file 33)) .zero, fileItem 33 false (.heap 1 (.file 33)) .zero,
    fileItem 0 false (.heap 2 (.file 0)) .zero]
  nItems := 3
  name := "main"

theorem two_sinks_queued : Queued Build.idle twoSinks ⟨3, []⟩ := by
  have source : Provided Build.idle (.fileInput 33) := trivial
  have first : Provided Build.idle (.fileOutput 33) := trivial
  have second : Provided Build.idle (.fileOutput 0) := trivial
  have one : Queued Build.idle _ ⟨1, []⟩ := .call (.create "main" .empty) source
    (rfl : queueCall _ _ _ workingOutcome _ _ = .ok (0, _, _))
  have two : Queued Build.idle _ ⟨2, []⟩ := .call one first
    (rfl : queueCall _ _ _ workingOutcome _ _ = .ok (0, _, _))
  exact .call two second (rfl : queueCall _ _ _ workingOutcome _ _ = .ok (0, _, _))

def preparedTwoSinks : Queue Unit :=
  { twoSinks with
    items := twoSinks.items.zipWith withBuffer [some (List.replicate 33 0), none, none] }

/-- A sink in the middle passes the strict check. No buffer is allocated for it, and the
item behind it is called without input. -/
theorem inner_sink_accepted :
    ¬∀ (memory : BufferAlloc) (pq prepared : Queue Unit), Built pq →
      osmoGapkPqCheck pq true = .ok 0 → osmoGapkPqPrepare memory pq = .ok (0, prepared) →
      (∀ item ∈ pq.items, RunsInC item) →
      Pipeline pq.items ∧ ∀ reached, Reached prepared reached → ∀ world,
        ∀ call ∈ (calls reached world).tail, call.input.isSome := by
  intro claim
  obtain ⟨_, inputs⟩ := claim .cleared twoSinks preparedTwoSinks
    (queued_built idle_concealed two_sinks_queued) rfl rfl
    (queued_runs_in_c idle_concealed two_sinks_queued)
  have present := inputs _ .start
    ⟨List.replicate 33 0, [], [], [], [], [], fun _ => true, 0, 0⟩
  have found : (calls preparedTwoSinks
      ⟨List.replicate 33 0, [], [], [], [], [], fun _ => true, 0, 0⟩).tail.map
        (fun call => call.input.isSome) = [true, false] := by
    decide +kernel
  have missing : false ∈ (calls preparedTwoSinks
      ⟨List.replicate 33 0, [], [], [], [], [], fun _ => true, 0, 0⟩).tail.map
        (fun call => call.input.isSome) := by
    rw [found]
    decide
  obtain ⟨call, member, absent⟩ := List.mem_map.mp missing
  rw [present call member] at absent
  cases absent

end StrictCheck

end Gapk.CheckedQueues
