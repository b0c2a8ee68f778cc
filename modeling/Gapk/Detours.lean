import Gapk.ProgramInputs

/-!
# Detours through a file

A conversion in two runs of the program, through a file of a third format, against
the conversion in one run. Both come to the same if the third format gives back
what it is given and the libraries overwrite what they write to.
-/

namespace Gapk.Detours

open CheckedMemory BitBuffer FixedWidth Blocks Paths Pipeline
open Gapk.Formats Gapk.Procqueue Gapk.Streams Gapk.QueueOps Gapk.QueueLedger Gapk.Codecs Gapk.App
open Gapk.Chain Gapk.Options Gapk.ChainTyping Gapk.AppMain Gapk.WholeFile Gapk.FramePassing
open Gapk.Converters Gapk.RtpSource Gapk.PayloadLengths Gapk.Stages Gapk.Endpoints Gapk.Session Gapk.Program

set_option autoImplicit false

section Twins

variable {Lib : Type}

/-- What a library call returns does not depend on what its output area held, as
far as it says that it has written the area. -/
def LibStep.Overwrites (step : LibStep Lib) : Prop :=
  ∀ lib frame area other, area.length = step.outLen → other.length = step.outLen →
    (step.call lib frame area).1 = (step.call lib frame other).1 ∧
    (step.call lib frame area).2.1 = (step.call lib frame other).2.1 ∧
    ∀ count : Nat, step.returned (step.call lib frame area).2.1 = count →
      (step.call lib frame area).2.2.take count = (step.call lib frame other).2.2.take count

/-- The library functions behind these calls overwrite their output areas. -/
def Overwrite (libs : CodecLibs Lib) (calls : List (QueueCall Lib)) : Prop :=
  ∀ desc encDecN step, .codec desc encDecN ∈ calls →
    codecStep libs (codecFormatType desc encDecN) encDecN = some step → LibStep.Overwrites step

theorem step_keeps_area {libs : CodecLibs Lib} {type : FormatType} {encDecN : Bool}
    {step : LibStep Lib} (found : codecStep libs type encDecN = some step) : KeepsArea step.call := by
  unfold codecStep at found
  split at found <;> cases found
  · exact libs.gsmEncodeArea
  · exact libs.gsmDecodeArea
  · exact libs.gsmhrEncodeArea
  · exact libs.gsmhrDecodeArea
  · exact libs.encoderArea
  · exact libs.decoderArea
  · exact libs.encoderArea

/-- Stations that differ at most in the remains in their output areas. -/
inductive Twin : Station Lib → Station Lib → Prop where
  | converter (fmt : FormatDesc) (toFromN : Bool) :
      Twin (.converter fmt toFromN) (.converter fmt toFromN)
  | codec {step : LibStep Lib} {lib : Lib} {area other : Buf} (keeps : KeepsArea step.call)
      (overwrites : LibStep.Overwrites step) (room : area.length = step.outLen)
      (otherRoom : other.length = step.outLen) :
      Twin (.codec step lib area) (.codec step lib other)

theorem twins_agree (left right : Station Lib) (frame : Buf) (twins : Twin left right) :
    Agree Twin (left.stage frame) (right.stage frame) := by
  cases twins with
  | converter fmt toFromN =>
      rw [Station.stage]
      cases convertTo fmt toFromN frame with
      | none => exact Option.Rel.none
      | some out => exact Option.Rel.some ⟨.converter fmt toFromN, rfl⟩
  | @codec step lib area other keeps overwrites room otherRoom =>
      obtain ⟨sameLib, sameRc, sameArea⟩ := overwrites lib frame area other room otherRoom
      have size := (keeps lib frame area).trans room
      have otherSize := (keeps lib frame other).trans otherRoom
      rw [Station.stage, Station.stage, LibStep.apply, LibStep.apply]
      simp only [← sameRc, ← sameLib]
      split_ifs with failed
      · exact Option.Rel.none
      · refine Option.Rel.some ⟨.codec keeps overwrites size otherSize, ?_⟩
        exact sameArea _ (Int.toNat_of_nonneg (Int.not_lt.mp failed)).symm

theorem starts_twins {build : Build Lib} {calls : List (QueueCall Lib)}
    (overwrite : Overwrite build.libs calls) {first second : List (Station Lib)}
    (starts : List.Forall₂ (Starts build) calls first)
    (others : List.Forall₂ (Starts build) calls second) : List.Forall₂ Twin first second := by
  induction starts generalizing second with
  | nil =>
      cases others
      exact .nil
  | cons start _ ih =>
      cases others with
      | cons other rest =>
          refine .cons ?_ (ih (fun desc encDecN step member =>
            overwrite desc encDecN step (List.mem_cons_of_mem _ member)) rest)
          cases start with
          | converter =>
              cases other
              exact .converter _ _
          | codec found init room =>
              cases other with
              | codec foundAgain initAgain otherRoom =>
                  rw [found] at foundAgain
                  cases foundAgain
                  rw [init] at initAgain
                  cases initAgain
                  exact .codec (step_keeps_area found) (overwrite _ _ _ List.mem_cons_self found) room
                    otherRoom

theorem twins_outputs {first second : List (Station Lib)} (twins : List.Forall₂ Twin first second)
    (frames : List Buf) :
    outputs (chain Station.stage) first frames = outputs (chain Station.stage) second frames := by
  apply outputs_agree (List.Forall₂ Twin) (fun _ => True) ?_ twins fun _ _ => trivial
  intro left right frame pairs _
  exact chain_agree Station.stage twins_agree pairs frame

end Twins

section Records

variable {Lib : Type}

theorem records_of_eq (ok : Nat → Bool) (stations : List (Station Lib)) (sink : Sink)
    (arriving : List (Option Buf)) :
    recordsOf ok stations sink arriving =
      outputs (Sink.stage ok) sink (outputs (chain Station.stage) stations (untilRejected id arriving)) :=
  outputs_compose _ _ _ _ _

theorem file_takes_all {ok : Nat → Bool} (works : ∀ call, ok call = true) {frames : List Buf}
    (some : ∀ frame ∈ frames, frame.length ≠ 0) (calls : Nat) :
    outputs (Sink.stage ok) (.file calls) frames = frames := by
  induction frames generalizing calls with
  | nil => rfl
  | cons frame rest ih =>
      obtain ⟨first, others⟩ := List.forall_mem_cons.mp some
      have written : (Sink.file calls).stage ok frame = .some (.file (calls + 1), frame) :=
        if_pos ⟨first, works calls⟩
      rw [outputs_goes_on written, ih others]

/-- The format between two runs gives back the frames that are handed to it. -/
structure GivesBack (via : FormatDesc) (good : Buf → Prop) : Prop where
  sized : via.frameLen ≠ 0
  undone : ∀ canon, good canon → ∃ frame, convertTo via true canon = some frame ∧
    frame.length = via.frameLen ∧ convertTo via false frame = some canon

variable {via : FormatDesc} {good : Buf → Prop} (givesBack : GivesBack via good)
  {fronts frontsFirst backs backsSecond : List (Station Lib)} {arriving : List (Option Buf)}
  (frontTwins : List.Forall₂ Twin fronts frontsFirst)
  (backTwins : List.Forall₂ Twin backs backsSecond)
  (canonical : ∀ frame ∈ outputs (chain Station.stage) fronts (untilRejected id arriving), good frame)

include givesBack frontTwins backTwins canonical

/-- What the second run makes of the file that the first one has written. -/
theorem detour_records {always : Nat → Bool} (works : ∀ call, always call = true) (calls : Nat)
    (ok : Nat → Bool) (sink : Sink) :
    recordsOf ok (.converter via false :: backsSecond) sink
        ((blocks via.frameLen (recordsOf always (frontsFirst ++ [.converter via true]) (.file calls)
          arriving).flatten).map some) =
      recordsOf ok (fronts ++ backs) sink arriving := by
  have writes : ∀ canon, good canon → ∃ frame,
      chain Station.stage [(.converter via true : Station Lib)] canon =
        some ([.converter via true], frame) ∧ frame.length = via.frameLen ∧
      chain Station.stage [(.converter via false : Station Lib)] frame =
        some ([.converter via false], canon) := by
    intro canon isGood
    obtain ⟨frame, written, size, read⟩ := givesBack.undone canon isGood
    refine ⟨frame, ?_, size, ?_⟩
    · rw [chain, Station.stage, written]
      rfl
    · rw [chain, Station.stage, read]
      rfl
  let canons := outputs (chain Station.stage) fronts (untilRejected id arriving)
  have sized : ∀ frame ∈ outputs (chain Station.stage) [(.converter via true : Station Lib)] canons,
      frame.length = via.frameLen := by
    refine outputs_all good _ (fun state => state = [.converter via true]) ?_ rfl canonical
    rintro state canon after frame rfl isGood written
    obtain ⟨other, writesOther, size, _⟩ := writes canon isGood
    rw [written] at writesOther
    cases writesOther
    exact ⟨rfl, size⟩
  have between : recordsOf always (frontsFirst ++ [.converter via true]) (.file calls) arriving =
      outputs (chain Station.stage) [(.converter via true : Station Lib)] canons := by
    rw [records_of_eq, outputs_chain_append, ← twins_outputs frontTwins,
      file_takes_all works fun frame member => (sized frame member).trans_ne givesBack.sized]
  have back : outputs (chain Station.stage) [(.converter via false : Station Lib)]
      (outputs (chain Station.stage) [(.converter via true : Station Lib)] canons) = canons := by
    refine outputs_undone good ?_ canonical
    intro canon isGood
    obtain ⟨frame, written, _, read⟩ := writes canon isGood
    exact ⟨frame, written, read⟩
  rw [between, blocks_flatten (Nat.pos_of_ne_zero givesBack.sized) sized, records_of_eq,
    until_rejected_map_some, ← List.singleton_append, outputs_chain_append, back,
    ← twins_outputs backTwins, records_of_eq, outputs_chain_append]

end Records

section Runs

variable {Lib : Type} {build : Build Lib}

structure SameSource (setup other : Invocation build) : Prop where
  formatIn : other.fmtIn = setup.fmtIn
  input : other.input = setup.input
  reads : sourceCall (platformOf build) other.request.opts other.input other.fmtIn =
    sourceCall (platformOf build) setup.request.opts setup.input setup.fmtIn

/-- Two runs that write to the same sink. A stream is none, for it starts at random. -/
structure SameSink (setup other : Invocation build) : Prop where
  formatOut : other.fmtOut = setup.fmtOut
  output : other.output = setup.output
  writes : sinkCall (platformOf build) other.request.opts other.output other.fmtOut =
    sinkCall (platformOf build) setup.request.opts setup.output setup.fmtOut
  noSocket : setup.output.fh = true ∨ setup.output.fd = -1

/-- Two runs in place of one: from the same source into a file, and from that file
to the same sink. -/
structure TwoRuns (direct first second : Invocation build) : Prop where
  source : SameSource direct first
  sink : SameSink direct second
  via : second.fmtIn = first.fmtOut
  toFile : first.output.fh = true
  fromFile : second.input.fh = true

structure Halves (direct first second : Invocation build) (decoding encoding : List (QueueCall Lib)) :
    Prop where
  decodes : decodingCalls (platformOf build) direct.fmtIn direct.fmtOut = some decoding
  encodes : encodingCalls (platformOf build) direct.fmtIn direct.fmtOut = some encoding
  decodesFirst : decodingCalls (platformOf build) first.fmtIn first.fmtOut = some decoding
  encodesFirst : encodingCalls (platformOf build) first.fmtIn first.fmtOut =
    some [.fmtConvert first.fmtOut true]
  decodesSecond : decodingCalls (platformOf build) second.fmtIn second.fmtOut =
    some [.fmtConvert second.fmtIn false]
  encodesSecond : encodingCalls (platformOf build) second.fmtIn second.fmtOut = some encoding

/-- Two ends that nobody can tell apart, but for the value of a failure. -/
structure SameEnd (finish other : Finish) : Prop where
  reported : other.reported = finish.reported
  succeeds : other.rv = 0 ↔ finish.rv = 0
  written : (sinkSide other.world).written = (sinkSide finish.world).written

/-- Whatever the first run leaves in its file, the second run makes of it what the
single run makes of the input. -/
def Detoured (direct first second : Invocation build) (world : World) : Prop :=
  ∀ early : World, sourceSide early = sourceSide world → early.outFile = [] →
    (∀ call, early.sinkOk call = true) → ∀ rounds, Invocation.inputSize early < rounds →
    early.sinkBusy < rounds →
    ∃ between, gapkMain (platformOf build) first.env first.request.opts rounds early =
        .ok (some between) ∧
      ∀ late : World, late.inFile = between.world.outFile → sinkSide late = sinkSide world →
        ∀ rounds, Invocation.inputSize world < rounds → world.sinkBusy < rounds →
        ∃ finish other,
          gapkMain (platformOf build) direct.env direct.request.opts rounds world =
            .ok (some finish) ∧
          gapkMain (platformOf build) second.env second.request.opts rounds late =
            .ok (some other) ∧ SameEnd finish other

theorem sink_no_stream {platform : Platform Lib} {opts : GapkOptions} {output : Stream}
    {fmt : FormatDesc} {call : QueueCall Lib} (writes : sinkCall platform opts output fmt = some call)
    (noSocket : output.fh = true ∨ output.fd = -1) (blkLen pt : Nat) : call ≠ .rtpOutput blkLen pt := by
  rintro rfl
  rw [sinkCall] at writes
  split_ifs at writes with isFile isSocket isSound <;> cases writes
  exact absurd noSocket (not_or.mpr ⟨isFile, isSocket⟩)

theorem sink_starts_same {call : QueueCall Lib} {start other : Sink} (starts : SinkStarts call start)
    (again : SinkStarts call other) (noStream : ∀ blkLen pt, call ≠ .rtpOutput blkLen pt) :
    other = start := by
  cases starts with
  | file _ =>
      cases again
      rfl
  | rtp blkLen pt _ => exact absurd rfl (noStream blkLen pt)
  | alsa _ =>
      cases again
      rfl

theorem begins_halves {setup : Invocation build} {source sink : QueueCall Lib}
    {stations : List (Station Lib)} {start : Sink} {decoding encoding : List (QueueCall Lib)}
    (begins : setup.Begins source stations sink start)
    (decodes : decodingCalls (platformOf build) setup.fmtIn setup.fmtOut = some decoding)
    (encodes : encodingCalls (platformOf build) setup.fmtIn setup.fmtOut = some encoding) :
    ∃ fronts backs, stations = fronts ++ backs ∧ List.Forall₂ (Starts build) decoding fronts ∧
      List.Forall₂ (Starts build) encoding backs := by
  obtain ⟨decodingAgain, encodingAgain, isDecoding, isEncoding, starts⟩ := begins.starts
  cases isDecoding.symm.trans decodes
  cases isEncoding.symm.trans encodes
  obtain ⟨fronts, backs, isFront, isBack, same⟩ := forall₂_append_left starts
  exact ⟨fronts, backs, same, isFront, isBack⟩

theorem starts_converter {fmt : FormatDesc} {toFromN : Bool} {stations : List (Station Lib)}
    (starts : List.Forall₂ (Starts build) [.fmtConvert fmt toFromN] stations) :
    stations = [.converter fmt toFromN] := by
  obtain ⟨station, none, start, empty, rfl⟩ := List.forall₂_cons_left_iff.mp starts
  cases empty
  cases start
  rfl

theorem file_written {setup : Invocation build} {course : Course build} {stations : List (Station Lib)}
    {start : Sink} {chain : Chain Lib} {prepared : Queue Lib}
    (ready : setup.Ready course stations start chain prepared) (toFile : setup.output.fh = true)
    {world : World} (empty : world.outFile = []) (works : ∀ call, world.sinkOk call = true)
    (fits : setup.HeaderFits world)
    (regular : Regular course.source (sourceSide (setup.started world))) {rounds : Nat}
    (enough : Invocation.inputSize world < rounds) (polls : world.sinkBusy < rounds) :
    start = .file 0 ∧ ∃ finish,
      gapkMain (platformOf build) setup.env setup.request.opts rounds world = .ok (some finish) ∧
      finish.world.outFile =
        setup.fmtOut.header ++ (setup.records course.source stations start world).flatten := by
  have isFile : start = .file 0 := by
    have writes := ready.begins.writes
    have opens := ready.begins.opens
    rw [sinkCall, if_pos toFile] at writes
    rw [← Option.some_inj.mp writes] at opens
    cases opens
    rfl
  refine ⟨isFile, ?_⟩
  have bound : (setup.records course.source stations start world).length ≤
      Invocation.inputSize world := Invocation.records_length_le course.source world
  obtain ⟨finish, ran, finishes⟩ :=
    Invocation.ready_finishes ready regular (bound.trans_lt enough) polls
  have written := congrArg Written.file (finishes.converted fits fun _ _ => works _).written
  have header : (setup.started world).outFile = setup.fmtOut.header := by
    have side := congrArg (fun side : SinkSide => side.written.file)
      (Invocation.started_sink_side setup world)
    have same : (setup.started world).outFile = _ := side
    rw [same]
    split_ifs with headed
    · simp only [sinkSide, empty, List.nil_append]
    · have bare : setup.fmtOut.headerLen = 0 := by
        by_contra some
        exact headed ⟨toFile, some⟩
      rw [List.length_eq_zero_iff.mp (setup.header_out_length.trans bare)]
      exact empty
  refine ⟨finish, ran, ?_⟩
  have file : finish.world.outFile = _ := written
  rw [file]
  generalize setup.records course.source stations start world = records
  rw [isFile]
  exact congrArg (· ++ records.flatten) header

section SameEnds

variable {setup other : Invocation build}

theorem started_works (setup : Invocation build) {world : World}
    (works : ∀ call, world.sinkOk call = true) (call : Nat) :
    (setup.started world).sinkOk call = true := by
  rw [Invocation.started, Invocation.behindHeader]
  split_ifs <;> exact works call

theorem same_source_started (same : SameSource setup other) {world early : World}
    (sides : sourceSide early = sourceSide world) :
    sourceSide (other.started early) = sourceSide (setup.started world) := by
  have file : early.inFile = world.inFile := congrArg SourceSide.file sides
  rw [Invocation.started_source_side, Invocation.started_source_side, sides, file, same.input,
    same.formatIn]

theorem same_source_fits (same : SameSource setup other) {world early : World}
    (sides : sourceSide early = sourceSide world) (fits : setup.HeaderFits world) :
    other.HeaderFits early := by
  have file : early.inFile = world.inFile := congrArg SourceSide.file sides
  rw [Invocation.HeaderFits, same.input, same.formatIn, file]
  exact fits

theorem same_sink_started (same : SameSink setup other) {world late : World}
    (sides : sinkSide late = sinkSide world) :
    sinkSide (other.started late) = sinkSide (setup.started world) := by
  rw [Invocation.started_sink_side, Invocation.started_sink_side, sides, same.output, same.formatOut]

theorem started_behind_header (fromFile : setup.input.fh = true) {late : World} {content : Buf}
    (file : late.inFile = setup.fmtIn.header ++ content) :
    setup.HeaderFits late ∧ (sourceSide (setup.started late)).file = content := by
  constructor
  · intro _
    rw [file]
    exact List.prefix_append _ _
  · rw [Invocation.started_source_side]
    simp only [fromFile, if_true]
    rw [file, ← setup.header_in_length, List.drop_left]

theorem reads_file {source : QueueCall Lib} (fromFile : setup.input.fh = true)
    (reads : sourceCall (platformOf build) setup.request.opts setup.input setup.fmtIn = some source) :
    source = .fileInput setup.fmtIn.frameLen := by
  rw [sourceCall, if_pos fromFile] at reads
  exact (Option.some_inj.mp reads).symm

theorem same_end {call : QueueCall Lib} {start : Sink} {records : List Buf} {world late : World}
    {finish finishOther : Finish} (same : SameSink setup other) (sides : sinkSide late = sinkSide world)
    (fits : setup.HeaderFits world) (fitsOther : other.HeaderFits late)
    (finishes : setup.Finishes (Reports call (start.behind (setup.started world).sinkCalls) records
      (setup.started world)) world finish)
    (finishesOther : other.Finishes (Reports call (start.behind (other.started late).sinkCalls) records
      (other.started late)) late finishOther) :
    SameEnd finish finishOther := by
  have started := same_sink_started same sides
  have header : setup.HeaderWritten world ↔ other.HeaderWritten late := by
    have ok : world.sinkOk world.sinkCalls = late.sinkOk late.sinkCalls :=
      congrArg (fun side : SinkSide => side.ok side.calls) sides.symm
    rw [Invocation.HeaderWritten, Invocation.HeaderWritten, ok, same.output, same.formatOut]
  by_cases written : setup.HeaderWritten world
  · have reports := finishes.converted fits written
    have reportsOther := finishesOther.converted fitsOther (header.mp written)
    refine ⟨reportsOther.reported.trans reports.reported.symm,
      reportsOther.succeeds.trans reports.succeeds.symm, ?_⟩
    rw [reportsOther.written, reports.written, started]
    exact congrArg (fun calls => (start.behind calls).put _ _) (congrArg SinkSide.calls started)
  · have refused := finishes.full fits written
    have refusedOther := finishesOther.full fitsOther fun wrote => written (header.mpr wrote)
    refine ⟨refusedOther.reported.trans refused.reported.symm, ?_, ?_⟩
    · rw [refusedOther.rv, refused.rv]
    · rw [refusedOther.written, refused.written, sides]

variable {course courseOther : Course build} {stations stationsOther : List (Station Lib)}
  {start startOther : Sink} {chain chainOther : Chain Lib} {prepared preparedOther : Queue Lib}

theorem ready_same_end (same : SameSink setup other)
    (ready : setup.Ready course stations start chain prepared)
    (readyOther : other.Ready courseOther stationsOther startOther chainOther preparedOther)
    {world late : World} (sides : sinkSide late = sinkSide world) (fits : setup.HeaderFits world)
    (fitsOther : other.HeaderFits late)
    (regular : Regular course.source (sourceSide (setup.started world)))
    (regularOther : Regular courseOther.source (sourceSide (other.started late)))
    (records : (setup.started world).sinkOk = (other.started late).sinkOk →
      (setup.started world).sinkCalls = (other.started late).sinkCalls → start = startOther →
      other.records courseOther.source stationsOther startOther late =
        setup.records course.source stations start world)
    {rounds : Nat} (enough : Invocation.inputSize world < rounds) (polls : world.sinkBusy < rounds) :
    ∃ finish finishOther,
      gapkMain (platformOf build) setup.env setup.request.opts rounds world = .ok (some finish) ∧
      gapkMain (platformOf build) other.env other.request.opts rounds late = .ok (some finishOther) ∧
      SameEnd finish finishOther := by
  have sink : courseOther.sink = course.sink :=
    Option.some_inj.mp (readyOther.begins.writes.symm.trans (same.writes.trans ready.begins.writes))
  have sameStart : startOther = start := by
    have opens := readyOther.begins.opens
    rw [sink] at opens
    exact sink_starts_same ready.begins.opens opens (sink_no_stream ready.begins.writes same.noSocket)
  have started := same_sink_started same sides
  have sameRecords := records (congrArg SinkSide.ok started.symm) (congrArg SinkSide.calls started.symm)
    sameStart.symm
  have few : (setup.records course.source stations start world).length < rounds :=
    (Invocation.records_length_le course.source world).trans_lt enough
  have busy : late.sinkBusy = world.sinkBusy := congrArg SinkSide.busy sides
  obtain ⟨finish, ran, finishes⟩ := Invocation.ready_finishes ready regular few polls
  obtain ⟨finishOther, ranOther, finishesOther⟩ :=
    Invocation.ready_finishes readyOther regularOther (sameRecords ▸ few) (busy.trans_lt polls)
  rw [sameRecords, sameStart, sink] at finishesOther
  exact ⟨finish, finishOther, ran, ranOther, same_end same sides fits fitsOther finishes finishesOther⟩

end SameEnds

variable {direct first second : Invocation build} {decoding encoding : List (QueueCall Lib)}

/-- A detour through a format that gives back what it is given changes nothing. -/
theorem detour_changes_nothing (runs : TwoRuns direct first second)
    (halves : Halves direct first second decoding encoding)
    (overwrite : Overwrite build.libs (decoding ++ encoding)) {good : Buf → Prop}
    (givesBack : GivesBack first.fmtOut good)
    (canonical : ∀ fronts frames, List.Forall₂ (Starts build) decoding fronts →
      (∀ frame ∈ frames, frame.length = direct.fmtIn.frameLen) →
      ∀ out ∈ outputs (chain Station.stage) fronts frames, good out)
    (fixed : direct.fmtIn.frameLen ≠ 0) {world : World} (fits : direct.HeaderFits world)
    (regular : ∀ source, sourceCall (platformOf build) direct.request.opts direct.input direct.fmtIn =
      some source → Regular source (sourceSide (direct.started world))) :
    Detoured direct first second world := by
  obtain ⟨course, stations, start, _, _, ready⟩ := direct.gets_ready fixed
  obtain ⟨courseFirst, stationsFirst, startFirst, _, _, readyFirst⟩ :=
    first.gets_ready (runs.source.formatIn ▸ fixed)
  obtain ⟨courseSecond, stationsSecond, startSecond, _, _, readySecond⟩ :=
    second.gets_ready (runs.via ▸ givesBack.sized)
  obtain ⟨fronts, backs, rfl, isFront, isBack⟩ :=
    begins_halves ready.begins halves.decodes halves.encodes
  obtain ⟨frontsFirst, lastFirst, rfl, isFrontFirst, isLast⟩ :=
    begins_halves readyFirst.begins halves.decodesFirst halves.encodesFirst
  obtain ⟨headSecond, backsSecond, rfl, isHead, isBackSecond⟩ :=
    begins_halves readySecond.begins halves.decodesSecond halves.encodesSecond
  rw [starts_converter isLast] at readyFirst
  rw [starts_converter isHead] at readySecond
  intro early sameSource empty works rounds enough polls
  have source : courseFirst.source = course.source :=
    Option.some_inj.mp
      (readyFirst.begins.reads.symm.trans (runs.source.reads.trans ready.begins.reads))
  have side := same_source_started runs.source sameSource
  have regularFirst : Regular courseFirst.source (sourceSide (first.started early)) := by
    rw [source, side]
    exact regular _ ready.begins.reads
  obtain ⟨rfl, between, ran, file⟩ := file_written readyFirst runs.toFile empty works
    (same_source_fits runs.source sameSource fits) regularFirst enough polls
  refine ⟨between, ran, ?_⟩
  intro late isFile sameSink rounds enough polls
  have headed : second.fmtIn.header = first.fmtOut.header := congrArg FormatDesc.header runs.via
  obtain ⟨fitsSecond, content⟩ :=
    started_behind_header runs.fromFile (isFile.trans (file.trans (congrArg (· ++ _) headed.symm)))
  have reader : courseSecond.source = .fileInput first.fmtOut.frameLen :=
    (reads_file runs.fromFile readySecond.begins.reads).trans (by rw [runs.via])
  have regularSecond : Regular courseSecond.source (sourceSide (second.started late)) := by
    rw [reader]
    exact file_regular (Nat.pos_of_ne_zero givesBack.sized) _
  apply ready_same_end runs.sink ready readySecond sameSink fits fitsSecond
    (regular _ ready.begins.reads) regularSecond ?_ enough polls
  intro ok calls sameStart
  have frames : ∀ frame ∈ untilRejected id (arrivals course.source (sourceSide (direct.started world))),
      frame.length = direct.fmtIn.frameLen := by
    intro frame member
    rw [← source_block_len ready.begins.reads]
    exact regular _ ready.begins.reads frame (mem_until_rejected member)
  have twinFronts := starts_twins (fun desc encDecN step member =>
    overwrite desc encDecN step (List.mem_append_left _ member)) isFront isFrontFirst
  have twinBacks := starts_twins (fun desc encDecN step member =>
    overwrite desc encDecN step (List.mem_append_right _ member)) isBack isBackSecond
  rw [Invocation.records, Invocation.records, ← ok, ← calls, ← sameStart, reader, runs.via,
    arrivals, content, Invocation.records, source, side]
  exact detour_records givesBack twinFronts twinBacks (canonical fronts _ isFront frames)
    (started_works first works) (first.started early).sinkCalls (direct.started world).sinkOk
    (start.behind (direct.started world).sinkCalls)

end Runs

end Gapk.Detours
