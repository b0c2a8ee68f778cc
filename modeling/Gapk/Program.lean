import Gapk.Session

/-!
# The program from its options to its exit value

Any source and any sink, any two formats that the options may name: what the
program reads, writes and reports, as a function of what it finds at its source.
-/

namespace Gapk.Program

open CheckedMemory BitBuffer FixedWidth Blocks Paths Pipeline
open Gapk.Formats Gapk.Procqueue Gapk.Streams Gapk.QueueOps Gapk.QueueLedger Gapk.Codecs Gapk.App
open Gapk.Chain Gapk.Options Gapk.ChainTyping Gapk.AppMain Gapk.WholeFile Gapk.FramePassing
open Gapk.PayloadLengths Gapk.RtpSource Gapk.QueueRuns Gapk.MainLoop Gapk.Stages Gapk.Endpoints Gapk.Session

set_option autoImplicit false

/-- A queue call that gets all that it asks for. -/
structure Works (outcome : CallOutcome) : Prop where
  state : outcome.stateAllocated = true
  item : outcome.itemAllocated = true
  codec : outcome.codecInitialised = true
  opened : 0 ≤ outcome.deviceOpened
  configured : 0 ≤ outcome.deviceConfigured

/-- An unthrottled run of the program in which everything up to the first frame
works: the streams are opened, and there is memory for all. -/
structure Invocation {Lib : Type} (build : Build Lib) where
  request : AcceptedOptions build.registry
  env : Environment
  input : Stream
  output : Stream
  opened : filesOpen env.opened request.opts = (0, input, output)
  sound : request.opts.alsaIn.isSome ∨ request.opts.alsaOut.isSome → build.config.haveAlsa = true
  unthrottled : request.opts.throttle = false
  pqAllocated : env.pqAllocated = true
  headerAllocated : env.headerAllocated = true
  works : ∀ call, Works (env.outcomes call)
  buffersAllocated : env.memory.Works

/-- `main` around whatever runs the queue. -/
def mainWith {Lib : Type} (platform : Platform Lib) (env : Environment) (opts : GapkOptions)
    (runQueue : Queue Lib → World → Exec (Option Finish)) (world : World) : Exec (Option Finish) := do
  let rv := checkOptions platform.registry opts
  if rv ≠ 0 then return some ⟨rv, none, world⟩
  if !env.pqAllocated then return some ⟨-enomem, none, world⟩
  let (rv, input, output) := filesOpen env.opened opts
  if rv ≠ 0 then return some ⟨rv, none, world⟩
  let fmtIn ← deref opts.fmtIn
  let fmtOut ← deref opts.fmtOut
  let (rv, world) ← handleHeaders fmtIn fmtOut input output env.headerAllocated world
  if rv ≠ 0 then return some ⟨rv, none, world⟩
  let (rv, chain) ← makeProcessingChain platform env.outcomes opts input output fmtIn fmtOut
    (emptyChain Lib)
  if rv ≠ 0 then return some ⟨rv, none, world⟩
  runQueue chain.pq world

theorem gapk_main_eq {Lib : Type} (platform : Platform Lib) (env : Environment) (opts : GapkOptions)
    (rounds : Nat) (world : World) :
    gapkMain platform env opts rounds world = mainWith platform env opts (run env opts rounds) world :=
  rfl

section Opening

variable {results : OpenResults} {opts : GapkOptions} {input output : Stream}

theorem files_opened (opened : filesOpen results opts = (0, input, output)) :
    openInput results opts = (0, input) ∧ openOutput results opts = (0, output) := by
  rw [filesOpen] at opened
  generalize openInput results opts = reading at opened
  generalize openOutput results opts = writing at opened
  obtain ⟨rvIn, opening⟩ := reading
  obtain ⟨rvOut, closing⟩ := writing
  simp only [] at opened
  split_ifs at opened with failed
  · cases opened
    exact absurd rfl failed
  · cases opened
    exact ⟨congrArg (·, input) (Decidable.not_not.mp failed), rfl⟩

theorem open_input_kinds (opened : openInput results opts = (0, input)) :
    input.fh = true ∨ input.fd ≠ -1 ∨ opts.alsaIn.isSome := by
  rw [openInput] at opened
  have same := congrArg Prod.snd opened
  have zero := congrArg Prod.fst opened
  split_ifs at same zero with isFile failed isRtp noSocket isAlsa
  · exact absurd (neg_eq_zero.mp zero) failed
  · exact Or.inl (congrArg Stream.fh same).symm
  · exact absurd zero noSocket.ne
  · refine Or.inr (Or.inl ?_)
    have isSocket : input.fd = results.sockIn := (congrArg Stream.fd same).symm
    omega
  · exact Or.inr (Or.inr isAlsa)
  · exact Or.inl (congrArg Stream.fh same).symm

theorem open_output_kinds (opened : openOutput results opts = (0, output)) :
    output.fh = true ∨ output.fd ≠ -1 ∨ opts.alsaOut.isSome := by
  rw [openOutput] at opened
  have same := congrArg Prod.snd opened
  have zero := congrArg Prod.fst opened
  split_ifs at same zero with isFile failed isRtp noSocket isAlsa
  · exact absurd (neg_eq_zero.mp zero) failed
  · exact Or.inl (congrArg Stream.fh same).symm
  · exact absurd zero noSocket.ne
  · refine Or.inr (Or.inl ?_)
    have isSocket : output.fd = results.sockOut := (congrArg Stream.fd same).symm
    omega
  · exact Or.inr (Or.inr isAlsa)
  · exact Or.inl (congrArg Stream.fh same).symm

end Opening

namespace Invocation

section Built

variable {Lib : Type} {build : Build Lib} (setup : Invocation build)

abbrev fmtIn : FormatDesc := setup.request.fmtIn
abbrev fmtOut : FormatDesc := setup.request.fmtOut

theorem call_finishes {call : QueueCall Lib} (ofChain : OfChain call) (index : Nat) :
    callResult call (setup.env.outcomes index) = .finished := by
  have works := setup.works index
  cases call with
  | fileInput _ | fileOutput _ | rtpInput _ _ | rtpOutput _ _ =>
      exact if_pos ⟨works.state, works.item⟩
  | alsaInput _ | alsaOutput _ =>
      exact if_pos ⟨works.state, works.opened, works.configured, works.item⟩
  | fmtConvert _ _ => exact if_pos works.item
  | codec desc _ =>
      rw [callResult, if_pos works.item, works.codec]
      exact if_neg fun failed => absurd failed.2 (by decide)
  | ecu _ => exact ofChain.elim

theorem has_source : (sourceCall (platformOf build) setup.request.opts setup.input setup.fmtIn).isSome := by
  rcases open_input_kinds (files_opened setup.opened).1 with isFile | isSocket | isSound
  · rw [sourceCall, if_pos isFile]
    rfl
  · rw [sourceCall]
    split_ifs <;> rfl
  · have sound : (platformOf build).haveAlsa ∧ setup.request.opts.alsaIn.isSome :=
      ⟨setup.sound (Or.inl isSound), isSound⟩
    rw [sourceCall]
    split_ifs <;> rfl

theorem has_sink : (sinkCall (platformOf build) setup.request.opts setup.output setup.fmtOut).isSome := by
  rcases open_output_kinds (files_opened setup.opened).2 with isFile | isSocket | isSound
  · rw [sinkCall, if_pos isFile]
    rfl
  · rw [sinkCall]
    split_ifs <;> rfl
  · have sound : (platformOf build).haveAlsa ∧ setup.request.opts.alsaOut.isSome :=
      ⟨setup.sound (Or.inr isSound), isSound⟩
    rw [sinkCall]
    split_ifs <;> rfl

/-- A codec that passed the check and is needed names the format of its frames. -/
theorem buildable : Buildable (platformOf build) setup.request setup.input setup.output where
  source := setup.has_source
  sink := setup.has_sink
  decoder needed codec found := by
    have decodes := setup.request.decodes build.registry_well_formed needed found
    rw [Option.mem_def] at found
    exact (build.codec_table_formats ((build.codec_get_eq _).symm.trans found)).1 decodes
  encoder needed codec found := by
    have encodes := setup.request.encodes build.registry_well_formed needed found
    rw [Option.mem_def] at found
    exact (build.codec_table_formats ((build.codec_get_eq _).symm.trans found)).2 encodes

/-- What a run has in hand when its loop begins. -/
structure Prepares (source : QueueCall Lib) (decoding encoding : List (QueueCall Lib))
    (sink : QueueCall Lib) (chain : Chain Lib) (prepared : Queue Lib) : Prop where
  built : makeProcessingChain (platformOf build) setup.env.outcomes setup.request.opts setup.input
    setup.output setup.fmtIn setup.fmtOut (emptyChain Lib) = .ok (0, chain)
  items : TypedItems (platformOf build) setup.request setup.input setup.output source decoding encoding
    sink chain.pq.items
  prepares : osmoGapkPqPrepare setup.env.memory chain.pq = .ok (0, prepared)
  made : List.Forall₂ (PreparedFor (platformOf build)) (source :: (decoding ++ encoding ++ [sink]))
    prepared.items

theorem prepares : ∃ source decoding encoding sink chain prepared,
    setup.Prepares source decoding encoding sink chain prepared := by
  obtain ⟨calls, planned⟩ := Option.isSome_iff_exists.mp
    ((plan_some_iff _ _ _ _ build.registry_well_formed).mpr setup.buildable)
  have ofChain := plan_of_chain _ planned
  obtain ⟨chain, source, decoding, encoding, sink, built, _, items⟩ := planned_typed (platformOf build)
    setup.request setup.input setup.output build.registry_well_formed planned
    (plan_resolves build setup.request setup.input setup.output planned)
    (results_finished (fun call member index => setup.call_finishes (ofChain call member) index) 0)
  obtain ⟨prepared, prepares⟩ := prepare_works setup.buffersAllocated
    (finished_linked (platformOf build) items.finished)
  have made := finished_prepared items.finished (pq_prepare_ok prepares)
  rw [List.append_assoc [source], List.append_assoc [source], List.singleton_append] at made
  exact ⟨source, decoding, encoding, sink, chain, prepared, built, items, prepares, made⟩

end Built

section Begun

variable {Lib : Type} {build : Build Lib} (setup : Invocation build)

theorem small_output : outputSize (repLen (platformOf build) (.fmt setup.fmtOut.type)) + 12 < 2 ^ 31 := by
  have bound : setup.fmtOut.frameLen ≤ 320 := frame_len_le setup.request.registeredOut
  have same : repLen (platformOf build) (.fmt setup.fmtOut.type) = setup.fmtOut.frameLen :=
    format_len_eq setup.request.registeredOut
  rw [same, outputSize, varBufSize]
  split_ifs <;> omega

/-- What a run starts with: its source and sink, and the stations between them. -/
structure Begins (source : QueueCall Lib) (stations : List (Station Lib)) (sink : QueueCall Lib)
    (start : Sink) : Prop where
  reads : sourceCall (platformOf build) setup.request.opts setup.input setup.fmtIn = some source
  starts : ∃ decoding encoding,
    decodingCalls (platformOf build) setup.fmtIn setup.fmtOut = some decoding ∧
    encodingCalls (platformOf build) setup.fmtIn setup.fmtOut = some encoding ∧
    List.Forall₂ (Starts build) (decoding ++ encoding) stations
  writes : sinkCall (platformOf build) setup.request.opts setup.output setup.fmtOut = some sink
  opens : SinkStarts sink start

/-- A prepared queue that is a chain of stages between its source and its sink. -/
structure Ready (course : Course build) (stations : List (Station Lib)) (start : Sink)
    (chain : Chain Lib) (prepared : Queue Lib) : Prop where
  built : makeProcessingChain (platformOf build) setup.env.outcomes setup.request.opts setup.input
    setup.output setup.fmtIn setup.fmtOut (emptyChain Lib) = .ok (0, chain)
  prepares : osmoGapkPqPrepare setup.env.memory chain.pq = .ok (0, prepared)
  begins : setup.Begins course.source stations course.sink start
  inState : ∀ world : World, InState course stations (start.behind world.sinkCalls) prepared world

/-- With input frames of a fixed length the queue is ready for all of them. -/
theorem gets_ready (fixed : setup.fmtIn.frameLen ≠ 0) :
    ∃ course stations start chain prepared, setup.Ready course stations start chain prepared := by
  obtain ⟨source, decoding, encoding, sink, chain, prepared, run⟩ := setup.prepares
  obtain ⟨first, behind, isFirst, others, items⟩ := List.forall₂_cons_left_iff.mp run.made
  obtain ⟨inner, ends, isInner, isSink, rfl⟩ := forall₂_append_left others
  obtain ⟨last, none, isLast, empty, rfl⟩ := List.forall₂_cons_left_iff.mp isSink
  cases empty
  have decodes := decoding_cases _ _ _ run.items.decodes
  have encodes := encoding_cases _ _ _ run.items.encodes
  have known := middle_known setup.request fixed decodes encodes
  obtain ⟨stations, starts, stand⟩ :=
    all_prepared_stand isInner known (middle_has_stage setup.request fixed decodes encodes)
  obtain ⟨start, opens, stands⟩ := prepared_sink_stands run.items.writes isLast
  have len := source_block_len run.items.reads
  have smallIn : setup.request.fmtIn.frameLen ≤ 320 := frame_len_le setup.request.registeredIn
  let course : Course build := {
    source := source, middle := decoding ++ encoding, sink := sink
    repIn := .fmt setup.fmtIn.type, repOut := .fmt setup.fmtOut.type
    typed := run.items.typed, known := known
    sized := (format_len_eq setup.request.registeredIn).trans len.symm
    sizedOut := (format_len_eq setup.request.registeredOut).trans (sink_block_len run.items.writes).symm
    fixed := len ▸ fixed
    smallIn := by omega
    smallOut := setup.small_output }
  refine ⟨course, stations, start, chain, prepared, run.built, run.prepares,
    ⟨run.items.reads, ⟨_, _, run.items.decodes, run.items.encodes, starts⟩, run.items.writes, opens⟩, ?_⟩
  intro world
  exact ⟨⟨first, inner, last, items, prepared_source_stands run.items.reads fixed isFirst, stand,
    stands _⟩, sink_behind_calls _ _⟩

end Begun

section Headers

variable {Lib : Type} {build : Build Lib} (setup : Invocation build)

def HeaderFits (world : World) : Prop :=
  setup.input.fh = true → setup.fmtIn.header <+: world.inFile

/-- A header that an output file begins with gets written. -/
def HeaderWritten (world : World) : Prop :=
  setup.output.fh = true → setup.fmtOut.headerLen ≠ 0 → world.sinkOk world.sinkCalls = true

def behindHeader (world : World) : World :=
  if setup.input.fh then behindBlock world setup.fmtIn.headerLen else world

def started (world : World) : World :=
  if setup.output.fh ∧ setup.fmtOut.headerLen ≠ 0 then
    withOutput (setup.behindHeader world) setup.fmtOut.header
  else setup.behindHeader world

theorem header_in_length : setup.fmtIn.header.length = setup.fmtIn.headerLen :=
  header_length ((build.fmt_get_eq _).symm.trans setup.request.registeredIn)

theorem header_out_length : setup.fmtOut.header.length = setup.fmtOut.headerLen :=
  header_length ((build.fmt_get_eq _).symm.trans setup.request.registeredOut)

theorem read_header_sink_side {fmt : FormatDesc} {input : Stream} {allocated : Bool}
    {world after : World} {rv : Int} (read : readHeader fmt input allocated world = .ok (rv, after)) :
    sinkSide after = sinkSide world := by
  have side : sinkSide (world.fread fmt.headerLen).2.2 = sinkSide world := by
    rw [World.fread]
    split_ifs <;> rfl
  rw [readHeader] at read
  split_ifs at read
  · cases read
    rfl
  · cases read
    rfl
  · generalize world.fread fmt.headerLen = got at read side
    obtain ⟨count, data, behind⟩ := got
    simp only [] at read side
    split_ifs at read
    · cases read
      exact side
    · obtain ⟨same, _, rest⟩ := (exec_bind_eq_ok _ _ _).mp read
      cases rest
      exact side

theorem read_header_cases (world : World) :
    (setup.HeaderFits world ∧ readHeader setup.fmtIn setup.input setup.env.headerAllocated world =
      .ok (0, setup.behindHeader world)) ∨
    (¬setup.HeaderFits world ∧ ∃ after,
      readHeader setup.fmtIn setup.input setup.env.headerAllocated world = .ok (-einval, after)) := by
  rw [setup.headerAllocated, HeaderFits, behindHeader]
  by_cases isFile : setup.input.fh = true
  · have same : readHeader setup.fmtIn setup.input true world =
        readHeader setup.fmtIn ⟨true, -1⟩ true world := by
      rw [readHeader, isFile, readHeader]
    rw [same, if_pos isFile]
    rcases read_header_eq setup.header_in_length world with ⟨headed, read⟩ | ⟨unheaded, after, read, _⟩
    · exact Or.inl ⟨fun _ => headed, read⟩
    · exact Or.inr ⟨fun fits => unheaded (fits isFile), after, read⟩
  · refine Or.inl ⟨fun file => absurd file isFile, ?_⟩
    rw [readHeader, if_pos (Or.inr (by simpa using isFile)), if_neg isFile]
    rfl

theorem write_header_cases (world : World) :
    (setup.HeaderWritten world ∧ writeHeader setup.fmtOut setup.output (setup.behindHeader world) =
      .ok (0, setup.started world)) ∨
    (¬setup.HeaderWritten world ∧ ∃ after,
      writeHeader setup.fmtOut setup.output (setup.behindHeader world) = .ok (-enospc, after) ∧
      (sinkSide after).written = (sinkSide world).written) := by
  have side : sinkSide (setup.behindHeader world) = sinkSide world := by
    rw [behindHeader]
    split_ifs <;> rfl
  by_cases needed : setup.output.fh = true ∧ setup.fmtOut.headerLen ≠ 0
  · have refuse : ¬(setup.fmtOut.headerLen = 0 ∨ (!setup.output.fh) = true) := by
      simp [needed.1, needed.2]
    have some : setup.fmtOut.header.length ≠ 0 := setup.header_out_length ▸ needed.2
    have ok : (setup.behindHeader world).sinkOk (setup.behindHeader world).sinkCalls =
        world.sinkOk world.sinkCalls :=
      congrArg (fun side : SinkSide => side.ok side.calls) side
    rw [writeHeader, if_neg refuse, read_bytes_eq setup.header_out_length.ge, exec_bind_ok,
      List.take_of_length_le setup.header_out_length.le]
    by_cases works : world.sinkOk world.sinkCalls = true
    · left
      refine ⟨fun _ _ => works, ?_⟩
      rw [started, if_pos needed]
      simp only [fwrite_works some (ok.trans works)]
      rfl
    · right
      have same : (sinkSide (setup.behindHeader world)).written = (sinkSide world).written :=
        congrArg SinkSide.written side
      refine ⟨fun written => works (written needed.1 needed.2), behindFailure (setup.behindHeader world),
        ?_, same⟩
      simp only [fwrite_fails some (ok ▸ works)]
      rfl
  · left
    refine ⟨fun isFile headed => absurd ⟨isFile, headed⟩ needed, ?_⟩
    have skip : setup.fmtOut.headerLen = 0 ∨ (!setup.output.fh) = true := by
      by_cases isFile : setup.output.fh = true
      · exact Or.inl (Decidable.not_not.mp fun headed => needed ⟨isFile, headed⟩)
      · exact Or.inr (by simpa using isFile)
    rw [writeHeader, if_pos skip, started, if_neg needed]
    rfl

theorem main_headers (runQueue : Queue Lib → World → Exec (Option Finish)) (world : World) :
    mainWith (platformOf build) setup.env setup.request.opts runQueue world = (do
      let (rv, world) ← handleHeaders setup.fmtIn setup.fmtOut setup.input setup.output
        setup.env.headerAllocated world
      if rv ≠ 0 then return some ⟨rv, none, world⟩
      let (rv, chain) ← makeProcessingChain (platformOf build) setup.env.outcomes setup.request.opts
        setup.input setup.output setup.fmtIn setup.fmtOut (emptyChain Lib)
      if rv ≠ 0 then return some ⟨rv, none, world⟩
      runQueue chain.pq world) := by
  have accepted : checkOptions (platformOf build).registry setup.request.opts = 0 :=
    setup.request.accepted
  simp only [mainWith, accepted, setup.pqAllocated, setup.opened, setup.request.isIn,
    setup.request.isOut, deref_some, exec_bind_ok]
  rfl

end Headers

section Runs

variable {Lib : Type} {build : Build Lib} (setup : Invocation build)

/-- What the sink is given to write behind the headers. -/
def records (source : QueueCall Lib) (stations : List (Station Lib)) (start : Sink) (world : World) :
    List Buf :=
  recordsOf (setup.started world).sinkOk stations (start.behind (setup.started world).sinkCalls)
    (arrivals source (sourceSide (setup.started world)))

/-- The end of a run that failed at a header: nothing was written. -/
structure Refused (rv : Int) (world : World) (finish : Finish) : Prop where
  rv : finish.rv = rv
  reported : finish.reported = none
  written : (sinkSide finish.world).written = (sinkSide world).written

/-- How a run ends: at a header, or with the report of its loop. -/
structure Finishes (reports : Finish → Prop) (world : World) (finish : Finish) : Prop where
  unheaded : ¬setup.HeaderFits world → Refused (-einval) world finish
  full : setup.HeaderFits world → ¬setup.HeaderWritten world → Refused (-enospc) world finish
  converted : setup.HeaderFits world → setup.HeaderWritten world → reports finish

variable {setup} {course : Course build} {stations : List (Station Lib)} {start : Sink}
  {chain : Chain Lib} {prepared : Queue Lib}

theorem main_finishes {runQueue : Queue Lib → World → Exec (Option Finish)} {world : World}
    {reports : Finish → Prop}
    (built : makeProcessingChain (platformOf build) setup.env.outcomes setup.request.opts setup.input
      setup.output setup.fmtIn setup.fmtOut (emptyChain Lib) = .ok (0, chain))
    (ends : ∃ finish, runQueue chain.pq (setup.started world) = .ok (some finish) ∧ reports finish) :
    ∃ finish, mainWith (platformOf build) setup.env setup.request.opts runQueue world =
        .ok (some finish) ∧ setup.Finishes reports world finish := by
  rw [setup.main_headers]
  rcases setup.read_header_cases world with ⟨fits, read⟩ | ⟨unfit, after, read⟩
  · rcases setup.write_header_cases world with ⟨written, wrote⟩ | ⟨unwritten, after, wrote, same⟩
    · obtain ⟨finish, ran, reported⟩ := ends
      refine ⟨finish, ?_, fun unfit => absurd fits unfit, fun _ unwritten => absurd written unwritten,
        fun _ _ => reported⟩
      simp only [handleHeaders, read, wrote, built, exec_bind_ok]
      exact ran
    · refine ⟨⟨-enospc, none, after⟩, ?_, fun unfit => absurd fits unfit, fun _ _ => ⟨rfl, rfl, same⟩,
        fun _ written => absurd written unwritten⟩
      simp only [handleHeaders, read, wrote, exec_bind_ok]
      rfl
  · refine ⟨⟨-einval, none, after⟩, ?_, fun _ => ⟨rfl, rfl, ?_⟩, fun fits => absurd fits unfit,
      fun fits => absurd fits unfit⟩
    · simp only [handleHeaders, read, exec_bind_ok]
      rfl
    · exact congrArg SinkSide.written (read_header_sink_side read)

theorem started_busy (world : World) : (setup.started world).sinkBusy = world.sinkBusy := by
  rw [started, behindHeader]
  split_ifs <;> rfl

theorem started_source_side (world : World) : sourceSide (setup.started world) =
    { sourceSide world with
      file := if setup.input.fh then world.inFile.drop setup.fmtIn.headerLen else world.inFile } := by
  rw [started, behindHeader]
  split_ifs <;> rfl

/-- How much there is to be read: bytes, datagrams and reads of a sound device. -/
def inputSize (world : World) : Nat :=
  world.inFile.length + world.datagramsIn.length + world.samplesIn.length

theorem records_length_le (source : QueueCall Lib) (world : World) :
    (setup.records source stations start world).length ≤ inputSize world := by
  have some := arrivals_length_le source (sourceSide (setup.started world))
  have file : (sourceSide (setup.started world)).file.length ≤ world.inFile.length := by
    rw [started_source_side]
    simp only []
    split_ifs
    · exact (List.drop_suffix _ _).length_le
    · exact Nat.le_refl _
  have rest : (sourceSide (setup.started world)).datagrams = world.datagramsIn ∧
      (sourceSide (setup.started world)).samples = world.samplesIn := by
    rw [started_source_side]
    exact ⟨rfl, rfl⟩
  rw [rest.1, rest.2] at some
  calc (setup.records source stations start world).length
      ≤ (untilRejected id (arrivals source (sourceSide (setup.started world)))).length :=
        outputs_length_le _
    _ ≤ (arrivals source (sourceSide (setup.started world))).length := until_rejected_length_le id _
    _ ≤ inputSize world := by
        rw [inputSize]
        omega

theorem ready_finishes (ready : setup.Ready course stations start chain prepared) {world : World}
    (regular : Regular course.source (sourceSide (setup.started world))) {rounds : Nat}
    (enough : (setup.records course.source stations start world).length < rounds)
    (polls : world.sinkBusy < rounds) :
    ∃ finish, gapkMain (platformOf build) setup.env setup.request.opts rounds world =
        .ok (some finish) ∧
      setup.Finishes (Reports course.sink (start.behind (setup.started world).sinkCalls)
        (setup.records course.source stations start world) (setup.started world)) world finish := by
  rw [gapk_main_eq]
  exact main_finishes ready.built (run_records setup.unthrottled ready.prepares
    (ready.inState (setup.started world)) regular enough ((started_busy world).trans_lt polls))

end Runs

end Invocation

theorem always_works (call : Nat) : Works (alwaysWorks call) :=
  ⟨rfl, rfl, rfl, Int.le_refl 0, Int.le_refl 0⟩

/-- Memory for everything, and files that can be opened. -/
def fileEnvironment : Environment := ⟨true, ⟨0, -1, 0, -1⟩, true, alwaysWorks, .cleared, []⟩

theorem file_environment_queue : fileEnvironment.pqAllocated = true := rfl

theorem file_environment_headers : fileEnvironment.headerAllocated = true := rfl

theorem file_environment_buffers : fileEnvironment.memory.Works := fun _ _ => rfl

def decodedFile : Invocation Build.idle where
  request := gsmToPcm
  env := fileEnvironment
  input := ⟨true, -1⟩
  output := ⟨true, -1⟩
  opened := rfl
  sound := nofun
  unthrottled := rfl
  pqAllocated := file_environment_queue
  headerAllocated := file_environment_headers
  works := always_works
  buffersAllocated := file_environment_buffers

theorem decoded_file_fixed : decodedFile.fmtIn.frameLen ≠ 0 := by decide

theorem decoded_file_regular (world : World) (source : QueueCall Unit)
    (reads : sourceCall (platformOf .idle) decodedFile.request.opts decodedFile.input
      decodedFile.fmtIn = some source) : Regular source (sourceSide (decodedFile.started world)) := by
  cases reads
  exact file_regular (by decide) _

end Gapk.Program
