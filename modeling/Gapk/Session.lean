import Gapk.Endpoints

/-!
# Whole runs of the program

From the first frame of the source to the exit value: the program writes what the
stages of its chain and its sink make of the frames of its source, one frame per
execution, and stops at the first one that a stage fails on.
-/

namespace Gapk.Session

open CheckedMemory FixedWidth Blocks Paths Pipeline
open Gapk.Formats Gapk.Procqueue Gapk.Streams Gapk.RtpSource Gapk.QueueOps Gapk.QueueLedger
open Gapk.Codecs Gapk.App Gapk.Chain Gapk.Options Gapk.ChainTyping Gapk.MainLoop Gapk.AppMain
open Gapk.QueueRuns Gapk.WholeFile Gapk.FramePassing Gapk.PayloadLengths Gapk.Stages Gapk.Endpoints

set_option autoImplicit false

/-- The calls of a chain whose source hands on frames of a fixed length. -/
structure Course {Lib : Type} (build : Build Lib) where
  source : QueueCall Lib
  middle : List (QueueCall Lib)
  sink : QueueCall Lib
  repIn : Rep
  repOut : Rep
  typed : Path (Turns (platformOf build)) repIn middle repOut
  known : ∀ call ∈ middle, Known build call
  sized : repLen (platformOf build) repIn = blockLen source
  sizedOut : repLen (platformOf build) repOut = blockLen sink
  fixed : blockLen source ≠ 0
  smallIn : blockLen source + 256 < 2 ^ 31
  smallOut : outputSize (repLen (platformOf build) repOut) + 12 < 2 ^ 31

abbrev wholeStage {Lib : Type} (ok : Nat → Bool) : Stage (List (Station Lib) × Sink) Buf Buf :=
  compose (chain Station.stage) (Sink.stage ok)

section Ends

variable {Lib : Type} {call : QueueCall Lib} {pq : Queue Lib} {first last : Item Lib}
  {inner : List (Item Lib)}

/-- What the end of a run needs of a queue behind the sink. -/
def Rests (call : QueueCall Lib) (pq : Queue Lib) : Prop :=
  ∃ last, pq.items.getLast? = some last ∧ last.freed = false ∧ last.wait = sinkWait call

theorem rests_of_items (items : pq.items = first :: (inner ++ [last])) (linked : last.freed = false)
    (wait : last.wait = sinkWait call) : Rests call pq := by
  refine ⟨last, ?_, linked, wait⟩
  rw [items, ← List.cons_append, List.getLast?_concat]

end Ends

section Executions

variable {Lib : Type} {build : Build Lib} (course : Course build)

/-- The queue between two executions, and the states of its stages. -/
structure InState (stations : List (Station Lib)) (sink : Sink) (pq : Queue Lib) (world : World) :
    Prop where
  items : ∃ first inner last, pq.items = first :: (inner ++ [last]) ∧
    SourceStands build course.source first ∧ AllStand build course.middle inner stations ∧
    SinkStands build course.sink last sink
  counted : sink.calls = world.sinkCalls

/-- The sink has written the records, and nothing else has changed there. -/
structure Wrote (sink : Sink) (records : List Buf) (world after : World) : Prop where
  written : (sinkSide after).written = sink.put (sinkSide world).written records
  ok : after.sinkOk = world.sinkOk
  busy : after.sinkBusy = world.sinkBusy

variable {course} {stations stationsAfter : List (Station Lib)} {sink sinkAfter : Sink}
  {pq : Queue Lib} {world : World}

theorem source_frame_holds {frame : Buf} (whole : frame.length = blockLen course.source) :
    Holds build course.repIn frame frame.length where
  room := by
    rw [course.sized, outputSize, if_neg course.fixed, whole]
  fixed _ := whole.trans course.sized.symm
  unsized none := absurd (course.sized.symm.trans none) course.fixed

theorem last_writes {last : Item Lib} {passed : Passed World}
    {result : ProcResult (StateContent Lib) World} (called : callItem last passed = .ok result)
    (zero : result.rv = 0) :
    executeItems [last] passed = .ok (0, [afterCall last result], handedOn result) :=
  execute_cons_goes_on called zero.ge rfl

theorem frame_small {out : Buf} {len : Nat} (holds : Holds build course.repOut out len) :
    len + 12 < 2 ^ 31 := by
  have small := course.smallOut
  have inside := holds.inside
  rw [holds.room] at inside
  omega

variable (inState : InState course stations sink pq world)

include inState

theorem execution_writes {frame record : Buf} {rest : List (Option Buf)}
    (arrives : arrivals course.source (sourceSide world) = some frame :: rest)
    (whole : frame.length = blockLen course.source)
    (staged : wholeStage world.sinkOk (stations, sink) frame =
      some ((stationsAfter, sinkAfter), record)) :
    ∃ after worldAfter, osmoGapkPqExecute pq world = .ok (0, after, worldAfter) ∧
      InState course stationsAfter sinkAfter after worldAfter ∧
      arrivals course.source (sourceSide worldAfter) = rest ∧
      Wrote sink [record] world worldAfter := by
  obtain ⟨first, inner, last, items, source, middle, stands⟩ := inState.items
  obtain ⟨fetched, fetches⟩ := source_fetches source course.fixed course.smallIn arrives whole
  obtain ⟨frameOut, chained, sunk⟩ := compose_eq_some.mp staged
  rcases path_stands course.typed inner stations frame frame.length fetched.world middle course.known
    (source_frame_holds whole) with
    ⟨refused, _⟩ | ⟨others, innerAfter, out, outLen, taken, holds, middleAfter, handsOn⟩
  · rw [List.take_length, chained] at refused
    cases refused
  · rw [List.take_length, chained] at taken
    cases taken
    have untouched := fetches.untouched
    have sameOk : fetched.world.sinkOk = world.sinkOk := congrArg SinkSide.ok untouched
    have counted : sink.calls = fetched.world.sinkCalls :=
      inState.counted.trans (congrArg SinkSide.calls untouched).symm
    obtain ⟨result, called, delivers⟩ := sink_delivers stands counted holds.inside (frame_small holds)
    rw [← sameOk] at sunk
    obtain ⟨zero, written, countedAfter, standsAfter⟩ := delivers.writes _ _ sunk
    have run := handsOn [last] 0 _ _ (last_writes called zero)
    rw [← fetches.handedOn] at run
    refine ⟨_, result.world, execute_of_items items (execute_cons_goes_on fetches.called fetches.fine run),
      ⟨⟨_, innerAfter, _, rfl, fetches.stands, middleAfter, standsAfter⟩, countedAfter⟩, ?_, ?_, ?_, ?_⟩
    · rw [delivers.arrivals]
      exact fetches.arrivals
    · rw [written, untouched]
    · exact delivers.ok.trans sameOk
    · exact delivers.busy.trans (congrArg SinkSide.busy untouched)

theorem execution_stops
    (stopped : ∀ frame rest, arrivals course.source (sourceSide world) = some frame :: rest →
      frame.length = blockLen course.source ∧ wholeStage world.sinkOk (stations, sink) frame = none) :
    ∃ rv after worldAfter, osmoGapkPqExecute pq world = .ok (rv, after, worldAfter) ∧ rv < 0 ∧
      Rests course.sink after ∧ (sinkSide worldAfter).written = (sinkSide world).written ∧
      worldAfter.sinkBusy = world.sinkBusy := by
  obtain ⟨first, inner, last, items, source, middle, stands⟩ := inState.items
  by_cases arrives : ∃ frame rest, arrivals course.source (sourceSide world) = some frame :: rest
  · obtain ⟨frame, rest, arrives⟩ := arrives
    obtain ⟨whole, refused⟩ := stopped frame rest arrives
    obtain ⟨fetched, fetches⟩ := source_fetches source course.fixed course.smallIn arrives whole
    have untouched := fetches.untouched
    have sameOk : fetched.world.sinkOk = world.sinkOk := congrArg SinkSide.ok untouched
    rcases path_stands course.typed inner stations frame frame.length fetched.world middle course.known
      (source_frame_holds whole) with
      ⟨_, stops⟩ | ⟨others, innerAfter, out, outLen, taken, holds, middleAfter, handsOn⟩
    · obtain ⟨rv, innerAfter, passed, negative, sameWorld, run⟩ := stops
      have run := run [last]
      rw [← fetches.handedOn] at run
      refine ⟨rv, _, passed.world, execute_of_items items
        (execute_cons_goes_on fetches.called fetches.fine run), negative,
        rests_of_items rfl stands.serves.1 stands.wait, ?_, ?_⟩
      · rw [sameWorld]
        exact congrArg SinkSide.written untouched
      · rw [sameWorld]
        exact congrArg SinkSide.busy untouched
    · rw [List.take_length] at taken
      have fails : sink.stage world.sinkOk (out.take outLen) = none := by
        rcases compose_eq_none.mp refused with unchained | ⟨_, _, chained, fails⟩
        · rw [unchained] at taken
          cases taken
        · rw [chained] at taken
          cases taken
          exact fails
      have counted : sink.calls = fetched.world.sinkCalls :=
        inState.counted.trans (congrArg SinkSide.calls untouched).symm
      obtain ⟨result, called, delivers⟩ :=
        sink_delivers stands counted holds.inside (frame_small holds)
      rw [← sameOk] at fails
      obtain ⟨negative, written⟩ := delivers.fails fails
      have run := handsOn [last] _ _ _ (execute_cons_stops called negative)
      rw [← fetches.handedOn] at run
      refine ⟨result.rv, _, result.world, execute_of_items items
        (execute_cons_goes_on fetches.called fetches.fine run), negative,
        rests_of_items rfl stands.serves.1 stands.wait, ?_, ?_⟩
      · rw [written, untouched]
      · exact delivers.busy.trans (congrArg SinkSide.busy untouched)
  · obtain ⟨result, called, negative, untouched⟩ :=
      source_ends source course.fixed course.smallIn fun frame rest same => arrives ⟨frame, rest, same⟩
    refine ⟨result.rv, _, result.world, execute_of_items items (execute_cons_stops called negative),
      negative, rests_of_items rfl stands.serves.1 stands.wait, ?_, ?_⟩
    · exact congrArg SinkSide.written untouched
    · exact congrArg SinkSide.busy untouched

end Executions

section Loops

variable {Lib : Type} {build : Build Lib}

def recordsOf (ok : Nat → Bool) (stations : List (Station Lib)) (sink : Sink)
    (arriving : List (Option Buf)) : List Buf :=
  outputs (wholeStage ok) (stations, sink) (untilRejected id arriving)

/-- A loop that has ended behind that many records. -/
structure Ended (call : QueueCall Lib) (sink : Sink) (records : List Buf)
    (loop after : Loop (StateContent Lib) World) : Prop where
  rests : Rests call after.pq
  exit : after.exit = false
  numFrames : after.numFrames = (loop.numFrames + records.length) % 2 ^ 32
  wrote : (sinkSide after.world).written = sink.put (sinkSide loop.world).written records
  busy : after.world.sinkBusy = loop.world.sinkBusy

variable {course : Course build} {call : QueueCall Lib} {stations : List (Station Lib)} {sink : Sink}
  {loop : Loop (StateContent Lib) World}

/-- An execution that fails ends the loop and is not counted. -/
theorem loop_stops {rvEnd : Int} {pq : Queue Lib} {world : World}
    (run : osmoGapkPqExecute loop.pq loop.world = .ok (rvEnd, pq, world)) (negative : rvEnd < 0)
    (rests : Rests call pq) (written : (sinkSide world).written = (sinkSide loop.world).written)
    (busy : world.sinkBusy = loop.world.sinkBusy) (running : loop.exit = false)
    (counted : loop.numFrames < 2 ^ 32) {rounds : Nat} (rv : Int) (enough : 0 < rounds) :
    ∃ after, unthrottledLoop rounds rv loop = .ok (true, rvEnd, after) ∧
      Ended call sink [] loop after := by
  obtain ⟨rounds, rfl⟩ := Nat.exists_eq_succ_of_ne_zero enough.ne'
  refine ⟨Throttle.advanced loop rvEnd pq world, ?_, rests, running, ?_, ?_, busy⟩
  · rw [unthrottledLoop, running, Throttle.loop_execute_eq loop run]
    simp only [Bool.false_eq_true, if_false, exec_bind_ok]
    rw [if_pos (by omega)]
    rfl
  · exact (Nat.mod_eq_of_lt counted).symm
  · rw [sink_put_nil]
    exact written

theorem records_stop (inState : InState course stations sink loop.pq loop.world)
    (stopped : ∀ frame rest, arrivals course.source (sourceSide loop.world) = some frame :: rest →
      frame.length = blockLen course.source ∧
        wholeStage loop.world.sinkOk (stations, sink) frame = none)
    (running : loop.exit = false) (counted : loop.numFrames < 2 ^ 32) {rounds : Nat} (rv : Int)
    (enough : 0 < rounds) :
    ∃ rvEnd after, unthrottledLoop rounds rv loop = .ok (true, rvEnd, after) ∧ rvEnd < 0 ∧
      Ended course.sink sink [] loop after := by
  obtain ⟨rvEnd, pq, world, run, negative, rests, written, busy⟩ := execution_stops inState stopped
  obtain ⟨after, ended, ran⟩ := loop_stops run negative rests written busy running counted rv enough
  exact ⟨rvEnd, after, ended, negative, ran⟩

/-- A loop one round later, behind a record that was written. -/
structure NextRound (course : Course build) (stationsAfter : List (Station Lib))
    (sink sinkAfter : Sink) (record : Buf) (rest : List (Option Buf))
    (loop next : Loop (StateContent Lib) World) : Prop where
  goesOn : ∀ rounds rv, unthrottledLoop (rounds + 1) rv loop = unthrottledLoop rounds 0 next
  inState : InState course stationsAfter sinkAfter next.pq next.world
  arrives : arrivals course.source (sourceSide next.world) = rest
  regular : Regular course.source (sourceSide next.world)
  running : next.exit = false
  numFrames : next.numFrames = (loop.numFrames + 1) % 2 ^ 32
  wrote : Wrote sink [record] loop.world next.world

theorem round_writes {frame record : Buf} {rest : List (Option Buf)}
    {stationsAfter : List (Station Lib)} {sinkAfter : Sink}
    (inState : InState course stations sink loop.pq loop.world)
    (arrives : arrivals course.source (sourceSide loop.world) = some frame :: rest)
    (regular : Regular course.source (sourceSide loop.world)) (running : loop.exit = false)
    (staged : wholeStage loop.world.sinkOk (stations, sink) frame =
      some ((stationsAfter, sinkAfter), record)) :
    ∃ next, NextRound course stationsAfter sink sinkAfter record rest loop next := by
  have whole := regular frame (by rw [arrives]; exact List.mem_cons_self)
  obtain ⟨pq, world, run, stateAfter, arrivesAfter, wrote⟩ :=
    execution_writes inState arrives whole staged
  refine ⟨(Throttle.advanced loop 0 pq world).countFrame, ?_, stateAfter, arrivesAfter, ?_, running, rfl,
    wrote⟩
  · intro rounds rv
    rw [unthrottledLoop, running, Throttle.loop_execute_eq loop run]
    rfl
  · exact regular_tail regular (arrives.trans (congrArg _ arrivesAfter.symm))

theorem wrote_cons {stationsAfter : List (Station Lib)} {sinkAfter : Sink} {frame record : Buf}
    {ok : Nat → Bool} {world worldNext worldAfter : World} {records : List Buf}
    (staged : wholeStage ok (stations, sink) frame = some ((stationsAfter, sinkAfter), record))
    (wrote : Wrote sink [record] world worldNext)
    (later : (sinkSide worldAfter).written = sinkAfter.put (sinkSide worldNext).written records) :
    (sinkSide worldAfter).written = sink.put (sinkSide world).written (record :: records) := by
  obtain ⟨_, _, sunk⟩ := compose_eq_some.mp staged
  rw [later, wrote.written]
  exact sink_put_cons sunk _ _

theorem unthrottled_records (arriving : List (Option Buf)) :
    ∀ (rounds : Nat) (rv : Int) (loop : Loop (StateContent Lib) World)
      (stations : List (Station Lib)) (sink : Sink),
      InState course stations sink loop.pq loop.world →
      arrivals course.source (sourceSide loop.world) = arriving →
      Regular course.source (sourceSide loop.world) → loop.exit = false → loop.numFrames < 2 ^ 32 →
      (recordsOf loop.world.sinkOk stations sink arriving).length < rounds →
      ∃ rvEnd after, unthrottledLoop rounds rv loop = .ok (true, rvEnd, after) ∧ rvEnd < 0 ∧
        Ended course.sink sink (recordsOf loop.world.sinkOk stations sink arriving) loop after := by
  induction arriving with
  | nil =>
      intro rounds rv loop stations sink inState arrives _ running counted enough
      apply records_stop inState ?_ running counted rv enough
      intro frame rest same
      rw [arrives] at same
      cases same
  | cons arrival arriving ih =>
      intro rounds rv loop stations sink inState arrives regular running counted enough
      cases arrival with
      | none =>
          apply records_stop inState ?_ running counted rv enough
          intro frame rest same
          rw [arrives] at same
          cases same
      | some frame =>
          have whole := regular frame (by rw [arrives]; exact List.mem_cons_self)
          cases staged : wholeStage loop.world.sinkOk (stations, sink) frame with
          | none =>
              have nothing : recordsOf loop.world.sinkOk stations sink (some frame :: arriving) = [] :=
                outputs_fails staged _
              rw [nothing] at enough ⊢
              apply records_stop inState ?_ running counted rv enough
              intro other rest same
              rw [arrives] at same
              cases same
              exact ⟨whole, staged⟩
          | some done =>
              obtain ⟨⟨stationsAfter, sinkAfter⟩, record⟩ := done
              have more : recordsOf loop.world.sinkOk stations sink (some frame :: arriving) =
                  record :: recordsOf loop.world.sinkOk stationsAfter sinkAfter arriving :=
                outputs_goes_on staged _
              rw [more] at enough ⊢
              obtain ⟨next, round⟩ := round_writes inState arrives regular running staged
              obtain ⟨rounds, rfl⟩ := Nat.exists_eq_succ_of_ne_zero (Nat.ne_zero_of_lt enough)
              rw [← round.wrote.ok] at enough ⊢
              obtain ⟨rvEnd, after, ended, negative, behind⟩ := ih rounds 0 next stationsAfter sinkAfter
                round.inState round.arrives round.regular round.running
                (round.numFrames ▸ Nat.mod_lt _ (Nat.two_pow_pos 32)) (Nat.lt_of_succ_lt_succ enough)
              refine ⟨rvEnd, after, (round.goesOn rounds rv).trans ended, negative, behind.rests,
                behind.exit, ?_, wrote_cons staged round.wrote behind.wrote,
                behind.busy.trans round.wrote.busy⟩
              rw [behind.numFrames, round.numFrames, List.length_cons]
              omega

end Loops

section Finishing

variable {Lib : Type} {build : Build Lib}

theorem wait_drains (state : State Lib) (polls : Nat) :
    ∀ world : World, world.sinkBusy < polls →
      ∃ after, waitSink pqCbAlsaWait state polls world = some after ∧
        (sinkSide after).written = (sinkSide world).written ∧ after.sinkBusy = 0 := by
  induction polls with
  | zero => exact fun world enough => absurd enough (Nat.not_lt_zero _)
  | succ polls ih =>
      intro world enough
      rw [waitSink, pqCbAlsaWait]
      by_cases busy : 0 < world.sinkBusy
      · obtain ⟨after, waited, written, drained⟩ :=
          ih { world with sinkBusy := world.sinkBusy - 1 } (by simp only []; omega)
        refine ⟨after, ?_, written, drained⟩
        simp only [decide_eq_true busy, if_true]
        exact waited
      · refine ⟨{ world with sinkBusy := world.sinkBusy - 1 }, ?_, rfl, ?_⟩
        · simp only [decide_eq_false busy, Bool.false_eq_true, if_false]
        · simp only []
          omega

/-- What the program tells at its end, and what it leaves behind. The counter wraps
around at 32 bits and is printed as a signed number. -/
structure Reports (call : QueueCall Lib) (sink : Sink) (records : List Buf) (world : World)
    (finish : Finish) : Prop where
  reported : finish.reported = some (toInt32 ((records.length % 2 ^ 32 : Nat) : Int))
  succeeds : finish.rv = 0 ↔ records.length % 2 ^ 32 ≠ 0
  written : (sinkSide finish.world).written = sink.put (sinkSide world).written records
  drained : (sinkWait call).isSome → finish.world.sinkBusy = 0

variable {course : Course build} {call : QueueCall Lib} {stations : List (Station Lib)} {sink : Sink}
  {pq prepared : Queue Lib} {world : World} {records : List Buf} {env : Environment}
  {opts : GapkOptions} {rounds : Nat}

theorem succeeds_iff (count : Nat) {rvEnd : Int} (negative : rvEnd < 0) :
    (if count % 2 ^ 32 > 0 then (0 : Int) else rvEnd) = 0 ↔ count % 2 ^ 32 ≠ 0 := by
  split_ifs with positive
  · exact ⟨fun _ => positive.ne', fun _ => rfl⟩
  · exact ⟨fun zero => absurd zero negative.ne, fun nonzero => absurd (by omega) nonzero⟩

theorem run_ended (unthrottled : opts.throttle = false)
    (prepares : osmoGapkPqPrepare env.memory pq = .ok (0, prepared)) {rvEnd : Int}
    {after : Loop (StateContent Lib) World}
    (ended : unthrottledLoop rounds 0 (startLoop prepared world) = .ok (true, rvEnd, after))
    (negative : rvEnd < 0) (behind : Ended call sink records (startLoop prepared world) after)
    (polls : world.sinkBusy < rounds) :
    ∃ finish, run env opts rounds pq world = .ok (some finish) ∧
      Reports call sink records world finish := by
  obtain ⟨last, isLast, linked, wait⟩ := behind.rests
  have frames : after.numFrames = records.length % 2 ^ 32 := by
    rw [behind.numFrames]
    exact congrArg (· % 2 ^ 32) (Nat.zero_add _)
  have succeeds := succeeds_iff records.length negative
  let told : Verdict := {
    executed := after.executed, numFrames := records.length % 2 ^ 32
    waits := (sinkWait call).isSome
    rv := if records.length % 2 ^ 32 > 0 then 0 else rvEnd }
  have ran : run env opts rounds pq world = finishRun rounds told after := by
    rw [run, prepares, exec_bind_ok]
    simp only [unthrottled, runUnthrottled, ended, verdict, isLast, deref_some, exec_bind_ok,
      touch_eq linked, wait, frames, behind.exit, told, Bool.not_false, Bool.and_true]
    rfl
  rw [ran]
  cases isWait : sinkWait call with
  | none =>
      have quiet : told.waits = false := congrArg Option.isSome isWait
      refine ⟨⟨told.rv, _, after.world⟩, ?_, rfl, succeeds, behind.wrote, ?_⟩
      · rw [finishRun, quiet]
        rfl
      · intro waits
        rw [isWait] at waits
        cases waits
  | some other =>
      have waits : told.waits = true := congrArg Option.isSome isWait
      have alsa : other = pqCbAlsaWait := by
        unfold sinkWait at isWait
        split at isWait <;> cases isWait
        rfl
      rw [isWait, alsa] at wait
      obtain ⟨drained, waited, written, silent⟩ :=
        wait_drains last.state rounds after.world (behind.busy.trans_lt polls)
      refine ⟨⟨told.rv, _, drained⟩, ?_, rfl, succeeds, written.trans behind.wrote, fun _ => silent⟩
      rw [finishRun, waits, isLast]
      simp only [if_true, deref_some, exec_bind_ok, wait, waited]
      rfl

theorem run_records (unthrottled : opts.throttle = false)
    (prepares : osmoGapkPqPrepare env.memory pq = .ok (0, prepared))
    (inState : InState course stations sink prepared world)
    (regular : Regular course.source (sourceSide world))
    (enough : (recordsOf world.sinkOk stations sink
      (arrivals course.source (sourceSide world))).length < rounds)
    (polls : world.sinkBusy < rounds) :
    ∃ finish, run env opts rounds pq world = .ok (some finish) ∧
      Reports course.sink sink (recordsOf world.sinkOk stations sink
        (arrivals course.source (sourceSide world))) world finish := by
  obtain ⟨rvEnd, after, ended, negative, behind⟩ := unthrottled_records
    (arrivals course.source (sourceSide world)) rounds 0 (startLoop prepared world) stations sink inState
    rfl regular rfl (by decide : 0 < 2 ^ 32) enough
  exact run_ended unthrottled prepares ended negative behind polls

end Finishing

end Gapk.Session
