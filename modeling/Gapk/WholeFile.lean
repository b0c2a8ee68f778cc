import Gapk.AppMain
import Gapk.ChainTyping
import Gapk.Converters
import Gapk.Library.Blocks
import Gapk.Throttle

/-!
# Conversion of whole files

A file in one fixed-length format of a codec becomes a file in another one. The
queue takes one block after the other and stops at the first one that is not
complete or that a converter rejects.
-/

namespace Gapk.WholeFile

open CheckedMemory BitBuffer FixedWidth Blocks
open Gapk.Formats Gapk.Procqueue Gapk.Streams Gapk.QueueOps Gapk.Codecs Gapk.App Gapk.Chain
open Gapk.MainLoop Gapk.AppMain Gapk.Options Gapk.Converters Gapk.QueueRuns

set_option autoImplicit false

section Blocks

/-- What a converter makes of a frame, on its own; nothing if it rejects it. -/
def convertFrame (convert : FmtConvCb) (outLen : Nat) (frame : Buf) : Option Buf :=
  match convert (zeros outLen) frame frame.length with
  | .ok (rv, out) => if rv < 0 then none else some out
  | .error _ => none

/-- What becomes of a block: it is brought to the canonical form and from there to
the output format, unless both formats are the same. -/
def convertBlock (fmtIn fmtOut : FormatDesc) (block : Buf) : Option Buf :=
  if fmtIn.type = fmtOut.type then some block
  else
    (convertFrame fmtIn.convToCanon (canonFrameLen fmtIn.codecType) block).bind
      (convertFrame fmtOut.convFromCanon fmtOut.frameLen)

/-- A converter that takes all frames of one length: it converts or rejects them,
whatever its output buffer held before. -/
def TakesFrames (convert : FmtConvCb) (lenIn lenOut : Nat) : Prop :=
  ∀ src : Buf, src.length = lenIn →
    (∃ out : Buf, out.length = lenOut ∧ Converts convert src out) ∨
      ∀ dst : Buf, convert dst src lenIn = .ok (-1, dst)

theorem takes_frames_run {convert : FmtConvCb} {lenIn lenOut : Nat}
    (takes : TakesFrames convert lenIn lenOut) {src dst : Buf} (size : src.length = lenIn)
    (room : dst.length = lenOut) :
    (convertFrame convert lenOut src = none ∧ convert dst src lenIn = .ok (-1, dst)) ∨
      ∃ out, convertFrame convert lenOut src = some out ∧ out.length = lenOut ∧
        convert dst src lenIn = .ok ((lenOut : Int), out) := by
  rcases takes src size with ⟨out, outSize, converts⟩ | rejects
  · right
    refine ⟨out, ?_, outSize, ?_⟩
    · rw [convertFrame, converts (zeros lenOut) (by rw [zeros_length, outSize])]
      exact if_neg (by omega)
    · have run := converts dst (room.trans outSize.symm)
      rwa [size, outSize] at run
  · left
    refine ⟨?_, rejects dst⟩
    rw [convertFrame, size, rejects]
    rfl

end Blocks

section Items

variable {Lib : Type}

/-- The items of a prepared chain between files, with what their buffers hold. -/
def sourceItem (len handle : Nat) (buf : Buf) : Item Lib :=
  { fileItem len true (.heap handle (.file len)) .zero with buf := some buf }

def formatItem (fmt : FormatDesc) (codec : CodecDesc Lib) (toFromN : Bool) (buf : Buf) : Item Lib :=
  { fmtItem fmt codec toFromN .zero with buf := some buf }

def sinkItem (len handle : Nat) (buf : Option Buf) : Item Lib :=
  { fileItem len false (.heap handle (.file len)) .zero with buf := buf }

variable {len handle : Nat} {buf : Buf} {world : World}

abbrev firstCall (world : World) : Passed World := { buf := none, len := 0, world := world }

def behindBlock (world : World) (len : Nat) : World :=
  { world with inFile := world.inFile.drop len }

def withOutput (world : World) (data : Buf) : World :=
  { world with outFile := world.outFile ++ data, sinkCalls := world.sinkCalls + 1 }

theorem source_call_short (positive : 0 < len) (room : buf.length = len)
    (short : world.inFile.length < len) :
    ∃ next, next.length = len ∧ callItem (sourceItem len handle buf : Item Lib) (firstCall world) =
      .ok { rv := -1, state := .heap handle (.file len), out := some next,
            world := { world with inFile := [] } } := by
  have read : world.fread len = (0, world.inFile, { world with inFile := [] }) := by
    rw [World.fread, if_neg (by omega), if_neg (by omega)]
  refine ⟨world.inFile ++ buf.drop world.inFile.length, ?_, ?_⟩
  · rw [List.length_append, List.length_drop]
    omega
  · show pqCbFileInput (.heap handle (.file len)) (some buf) none 0 world = _
    simp only [pqCbFileInput, fileState, exec_pure, exec_bind_ok, deref_some,
      read]
    rw [memcpy_front (by omega) (by omega), List.drop_zero, List.take_length]
    rfl

theorem source_call_block (positive : 0 < len) (small : len < 2 ^ 31) (room : buf.length = len)
    (whole : len ≤ world.inFile.length) :
    callItem (sourceItem len handle buf : Item Lib) (firstCall world) =
      .ok { rv := len, state := .heap handle (.file len),
            out := some (world.inFile.take len), world := behindBlock world len } := by
  have read : world.fread len =
      (1, world.inFile.take len, behindBlock world len) := by
    rw [World.fread, if_neg (by omega), if_pos whole]
    rfl
  have size : (world.inFile.take len).length = len := List.length_take_of_le whole
  have returned : toInt32 (((1 : Nat) : Int) * (len : Int)) = len := by
    rw [Nat.cast_one, one_mul]
    exact to_int32_eq (by omega) (by omega)
  show pqCbFileInput (.heap handle (.file len)) (some buf) none 0 world = _
  simp only [pqCbFileInput, fileState, exec_pure, exec_bind_ok, deref_some,
    read, memcpy_whole room size, size, returned, Nat.one_ne_zero, if_false]

abbrev handed (data : Buf) (len : Nat) (world : World) : Passed World :=
  { buf := some data, len := toUInt32 (len : Int), world := world }

theorem format_call {fmt : FormatDesc} {codec : CodecDesc Lib} {toFromN : Bool} {src : Buf}
    (small : len < 2 ^ 32) :
    callItem (formatItem fmt codec toFromN buf) (handed src len world) =
      (converter fmt toFromN buf src len).map fun converted =>
        { rv := converted.1, state := .conv (converter fmt toFromN), out := some converted.2,
          world := world } := by
  show pqCbFmtConvert (.conv (converter fmt toFromN)) (some buf) (some src) (toUInt32 (len : Int))
    world = _
  rw [to_uint32_eq small]
  simp only [pqCbFmtConvert, deref_some, exec_bind_ok]
  cases converter fmt toFromN buf src len <;> rfl

section Formats

variable {fmt : FormatDesc} {codec : CodecDesc Lib} {toFromN : Bool} {src : Buf} {lenOut : Nat}
  (takes : TakesFrames (converter fmt toFromN) len lenOut) (small : len < 2 ^ 32)
  (size : src.length = len) (room : buf.length = lenOut)

include takes small size room

theorem format_call_rejects (rejected : convertFrame (converter fmt toFromN) lenOut src = none) :
    callItem (formatItem fmt codec toFromN buf) (handed src len world) =
      .ok { rv := -1, state := .conv (converter fmt toFromN), out := some buf, world := world } := by
  rw [format_call small]
  rcases takes_frames_run takes size room with ⟨_, run⟩ | ⟨out, converted, _, _⟩
  · rw [run]
    rfl
  · rw [rejected] at converted
    cases converted

theorem format_call_converts {out : Buf}
    (converted : convertFrame (converter fmt toFromN) lenOut src = some out) :
    out.length = lenOut ∧ callItem (formatItem fmt codec toFromN buf) (handed src len world) =
      .ok { rv := lenOut, state := .conv (converter fmt toFromN), out := some out,
            world := world } := by
  rw [format_call small]
  rcases takes_frames_run takes size room with ⟨rejected, _⟩ | ⟨other, same, outSize, run⟩
  · rw [rejected] at converted
    cases converted
  · rw [converted] at same
    cases same
    rw [run]
    exact ⟨outSize, rfl⟩

end Formats

theorem sink_call {kept : Option Buf} {src : Buf} (positive : 0 < len)
    (small : len < 2 ^ 32) (size : src.length = len)
    (works : world.sinkOk world.sinkCalls = true) :
    callItem (sinkItem len handle kept : Item Lib) (handed src len world) =
      .ok { rv := 0, state := .heap handle (.file len), out := kept,
            world := withOutput world src } := by
  have written : world.fwrite src = (1, withOutput world src) := by
    rw [World.fwrite, if_neg (by omega), World.countWrite, works]
    rfl
  show pqCbFileOutput (.heap handle (.file len)) kept (some src) (toUInt32 (len : Int)) world = _
  rw [to_uint32_eq small]
  simp only [pqCbFileOutput, fileState, exec_pure, exec_bind_ok, deref_some,
    read_bytes_eq (Nat.le_of_eq size.symm), List.take_of_length_le (Nat.le_of_eq size), written]
  rfl

end Items

section Steps

variable {Lib : Type}

/-- A queue that, execution by execution, appends what becomes of the next block to
the output, and that stops at a block that is not complete or that is rejected. -/
structure TakesBlocks (keeps : Queue Lib → Prop) (len : Nat) (convert : Buf → Option Buf) :
    Prop where
  stops : ∀ pq world, keeps pq →
    (len ≤ world.inFile.length → convert (world.inFile.take len) = none) →
    ∃ after worldAfter, osmoGapkPqExecute pq world = .ok (-1, after, worldAfter) ∧ keeps after ∧
      worldAfter.outFile = world.outFile
  writes : ∀ pq world out, keeps pq → (∀ call, world.sinkOk call = true) →
    len ≤ world.inFile.length → convert (world.inFile.take len) = some out →
    ∃ after, osmoGapkPqExecute pq world =
      .ok (0, after, withOutput (behindBlock world len) out) ∧ keeps after
  ready : ∀ pq, keeps pq → ∃ last, pq.items.getLast? = some last ∧ last.freed = false ∧
    last.wait = none

def Copying (len source sink : Nat) (pq : Queue Lib) : Prop :=
  ∃ block kept, block.length = len ∧ pq.items = [sourceItem len source block, sinkItem len sink kept]

def Converting (fmtIn fmtOut : FormatDesc) (codecIn codecOut : CodecDesc Lib) (source sink : Nat)
    (pq : Queue Lib) : Prop :=
  ∃ block canon frame kept, block.length = fmtIn.frameLen ∧
    canon.length = canonFrameLen fmtIn.codecType ∧ frame.length = fmtOut.frameLen ∧
    pq.items = [sourceItem fmtIn.frameLen source block, formatItem fmtIn codecIn false canon,
      formatItem fmtOut codecOut true frame, sinkItem fmtOut.frameLen sink kept]

theorem execute_of_items {pq : Queue Lib} {items after : List (Item Lib)} {world : World} {rv : Int}
    {passed : Passed World} (same : pq.items = items)
    (run : executeItems items { buf := none, len := 0, world := world } = .ok (rv, after, passed)) :
    osmoGapkPqExecute pq world = .ok (rv, { pq with items := after }, passed.world) := by
  rw [osmoGapkPqExecute, same, run]
  rfl

variable {len source sink : Nat} (positive : 0 < len) (small : len < 2 ^ 31)

include positive small

theorem copying_takes_blocks :
    TakesBlocks (Copying len source sink : Queue Lib → Prop) len fun block => some block where
  stops := by
    rintro pq world ⟨block, kept, room, items⟩ stopped
    have short : world.inFile.length < len := by
      by_contra whole
      cases stopped (by omega)
    obtain ⟨next, nextRoom, called⟩ := source_call_short positive room short
    exact ⟨_, _, execute_of_items items (execute_cons_stops called (by decide : (-1 : Int) < 0)),
      ⟨next, kept, nextRoom, rfl⟩, rfl⟩
  writes := by
    rintro pq world out ⟨block, kept, room, items⟩ works whole converted
    cases converted
    have size : (world.inFile.take len).length = len := List.length_take_of_le whole
    exact ⟨_, execute_of_items items
      (execute_cons_goes_on (source_call_block positive small room whole) (Int.natCast_nonneg len)
        (execute_cons_goes_on (sink_call positive (by omega) size (works _)) (Int.le_refl 0) rfl)),
      ⟨_, kept, size, rfl⟩⟩
  ready := by
    rintro pq ⟨block, kept, _, items⟩
    rw [items]
    exact ⟨_, rfl, rfl, rfl⟩

omit positive small in
/-- Two formats of one codec, with the lengths that the converters agree on. -/
theorem converting_takes_blocks {fmtIn fmtOut : FormatDesc} {codecIn codecOut : CodecDesc Lib}
    (fixedIn : 0 < fmtIn.frameLen) (smallIn : fmtIn.frameLen < 2 ^ 31)
    (fixedOut : 0 < fmtOut.frameLen) (smallOut : fmtOut.frameLen < 2 ^ 31)
    (canonical : canonFrameLen fmtIn.codecType < 2 ^ 31)
    (reads : TakesFrames (converter fmtIn false) fmtIn.frameLen (canonFrameLen fmtIn.codecType))
    (writes : TakesFrames (converter fmtOut true) (canonFrameLen fmtIn.codecType) fmtOut.frameLen) :
    TakesBlocks (Converting fmtIn fmtOut codecIn codecOut source sink) fmtIn.frameLen fun block =>
      (convertFrame (converter fmtIn false) (canonFrameLen fmtIn.codecType) block).bind
        (convertFrame (converter fmtOut true) fmtOut.frameLen) where
  stops := by
    rintro pq world ⟨block, canon, frame, kept, room, canonRoom, frameRoom, items⟩ stopped
    have stop : (-1 : Int) < 0 := by decide
    by_cases whole : fmtIn.frameLen ≤ world.inFile.length
    · have size := List.length_take_of_le whole
      have rejected := stopped whole
      cases read : convertFrame (converter fmtIn false) (canonFrameLen fmtIn.codecType)
          (world.inFile.take fmtIn.frameLen) with
      | none =>
          exact ⟨_, _, execute_of_items items
            (execute_cons_goes_on (source_call_block fixedIn smallIn room whole)
              (Int.natCast_nonneg _)
              (execute_cons_stops (format_call_rejects reads (by omega) size canonRoom read) stop)),
            ⟨_, _, _, kept, size, canonRoom, frameRoom, rfl⟩, rfl⟩
      | some middle =>
          rw [read, Option.bind_some] at rejected
          obtain ⟨middleSize, called⟩ := format_call_converts reads (by omega) size canonRoom read
          exact ⟨_, _, execute_of_items items
            (execute_cons_goes_on (source_call_block fixedIn smallIn room whole)
              (Int.natCast_nonneg _)
              (execute_cons_goes_on called (Int.natCast_nonneg _)
                (execute_cons_stops
                  (format_call_rejects writes (by omega) middleSize frameRoom rejected) stop))),
            ⟨_, _, _, kept, size, middleSize, frameRoom, rfl⟩, rfl⟩
    · have short : world.inFile.length < fmtIn.frameLen := by omega
      obtain ⟨next, nextRoom, called⟩ := source_call_short fixedIn room short
      exact ⟨_, _, execute_of_items items (execute_cons_stops called stop),
        ⟨next, _, _, kept, nextRoom, canonRoom, frameRoom, rfl⟩, rfl⟩
  writes := by
    rintro pq world out ⟨block, canon, frame, kept, room, canonRoom, frameRoom, items⟩ works whole
      converted
    have size := List.length_take_of_le whole
    obtain ⟨middle, read, written⟩ := Option.bind_eq_some_iff.mp converted
    obtain ⟨middleSize, readCall⟩ := format_call_converts reads (by omega) size canonRoom read
    obtain ⟨outSize, writeCall⟩ :=
      format_call_converts writes (by omega) middleSize frameRoom written
    exact ⟨_, execute_of_items items
      (execute_cons_goes_on (source_call_block fixedIn smallIn room whole) (Int.natCast_nonneg _)
        (execute_cons_goes_on readCall (Int.natCast_nonneg _)
          (execute_cons_goes_on writeCall (Int.natCast_nonneg _)
            (execute_cons_goes_on (sink_call fixedOut (by omega) outSize (works _))
              (Int.le_refl 0) rfl)))),
      ⟨_, _, _, kept, size, middleSize, outSize, rfl⟩⟩
  ready := by
    rintro pq ⟨block, canon, frame, kept, _, _, _, items⟩
    rw [items]
    exact ⟨_, rfl, rfl, rfl⟩

end Steps

section Runs

variable {Lib : Type} {keeps : Queue Lib → Prop} {len : Nat} {convert : Buf → Option Buf}
  (takes : TakesBlocks keeps len convert) (positive : 0 < len)

abbrev outputs (len : Nat) (convert : Buf → Option Buf) (content : Buf) : List Buf :=
  untilRejected convert (blocks len content)

/-- A loop that has taken all blocks that there are for it. -/
structure Ran (keeps : Queue Lib → Prop) (loop : Loop (StateContent Lib) World) (frames : List Buf)
    (after : Loop (StateContent Lib) World) : Prop where
  keeps : keeps after.pq
  exit : after.exit = false
  numFrames : after.numFrames = (loop.numFrames + frames.length) % 2 ^ 32
  outFile : after.world.outFile = loop.world.outFile ++ frames.flatten

include takes

theorem unthrottled_ends (rounds : Nat) (rv : Int) {loop : Loop (StateContent Lib) World}
    (kept : keeps loop.pq) (running : loop.exit = false) (counted : loop.numFrames < 2 ^ 32)
    (stopped : len ≤ loop.world.inFile.length → convert (loop.world.inFile.take len) = none) :
    ∃ after, unthrottledLoop (rounds + 1) rv loop = .ok (true, -1, after) ∧
      Ran keeps loop [] after := by
  obtain ⟨pq, world, run, still, same⟩ := takes.stops _ _ kept stopped
  refine ⟨Throttle.advanced loop (-1) pq world, ?_, still, running, ?_, ?_⟩
  · rw [unthrottledLoop, running, Throttle.loop_execute_eq loop run]
    rfl
  · exact (Nat.mod_eq_of_lt counted).symm
  · exact same.trans (List.append_nil _).symm

include positive

/-- The loop ends at the first block that is not complete or that is rejected. -/
theorem unthrottled_takes_blocks (rounds : Nat) :
    ∀ (rv : Int) (loop : Loop (StateContent Lib) World), keeps loop.pq → loop.exit = false →
      loop.numFrames < 2 ^ 32 → (∀ call, loop.world.sinkOk call = true) →
      (outputs len convert loop.world.inFile).length < rounds →
      ∃ after, unthrottledLoop rounds rv loop = .ok (true, -1, after) ∧
        Ran keeps loop (outputs len convert loop.world.inFile) after := by
  induction rounds with
  | zero =>
      intro rv loop kept running counted works enough
      exact absurd enough (Nat.not_lt_zero _)
  | succ rounds ih =>
      intro rv loop kept running counted works enough
      by_cases whole : len ≤ loop.world.inFile.length
      · have split := blocks_cons positive whole
        cases converted : convert (loop.world.inFile.take len) with
        | none =>
            have none : outputs len convert loop.world.inFile = [] := by
              rw [outputs, split, untilRejected, converted]
            rw [none]
            exact unthrottled_ends takes rounds rv kept running counted fun _ => converted
        | some out =>
            have rest : outputs len convert loop.world.inFile =
                out :: outputs len convert (loop.world.inFile.drop len) := by
              rw [outputs, split, untilRejected, converted]
            obtain ⟨pq, run, still⟩ := takes.writes _ _ _ kept works whole converted
            let world := withOutput (behindBlock loop.world len) out
            rw [rest] at enough ⊢
            obtain ⟨after, ended, ranOn⟩ := ih 0 (Throttle.advanced loop 0 pq world).countFrame still
              running (Nat.mod_lt _ (by decide)) works (Nat.lt_of_succ_lt_succ enough)
            have ran : Ran keeps (Throttle.advanced loop 0 pq world).countFrame
              (outputs len convert (loop.world.inFile.drop len)) after := ranOn
            refine ⟨after, ?_, ran.keeps, ran.exit, ?_, ?_⟩
            · rw [unthrottledLoop, running, Throttle.loop_execute_eq loop run]
              exact ended
            · rw [ran.numFrames, List.length_cons]
              simp only [Loop.countFrame, Throttle.advanced]
              omega
            · rw [ran.outFile, List.flatten_cons, ← List.append_assoc]
              rfl
      · have none : outputs len convert loop.world.inFile = [] := by
          rw [outputs, blocks_short (by omega)]
          rfl
        rw [none]
        exact unthrottled_ends takes rounds rv kept running counted fun wrong => absurd wrong whole

/-- What `run` returns and reports when it takes all blocks: the counter wraps
around at 32 bits and is printed as a signed number. -/
theorem run_takes_blocks {env : Environment} {opts : GapkOptions} {pq prepared : Queue Lib}
    {world : World} {rounds : Nat} (unthrottled : opts.throttle = false)
    (prepares : osmoGapkPqPrepare env.memory pq = .ok (0, prepared)) (kept : keeps prepared)
    (works : ∀ call, world.sinkOk call = true)
    (enough : (outputs len convert world.inFile).length < rounds) :
    ∃ worldAfter, run env opts rounds pq world = .ok (some
        { rv := if (outputs len convert world.inFile).length % 2 ^ 32 > 0 then 0 else -1
          reported := some
            (toInt32 (((outputs len convert world.inFile).length % 2 ^ 32 : Nat) : Int))
          world := worldAfter }) ∧
      worldAfter.outFile = world.outFile ++ (outputs len convert world.inFile).flatten := by
  obtain ⟨after, ended, ran⟩ := unthrottled_takes_blocks takes positive rounds 0
    (startLoop prepared world) kept rfl (by decide : (0 : Nat) < 2 ^ 32) works enough
  obtain ⟨last, isLast, linked, noWait⟩ := takes.ready after.pq ran.keeps
  have frames : after.numFrames = (outputs len convert world.inFile).length % 2 ^ 32 := by
    rw [ran.numFrames]
    exact congrArg (· % 2 ^ 32) (Nat.zero_add _)
  refine ⟨after.world, ?_, ran.outFile⟩
  rw [run, prepares, exec_bind_ok]
  simp only [unthrottled, runUnthrottled, ended, verdict, isLast, deref_some, exec_bind_ok,
    touch_eq linked, finishRun, noWait, frames]
  rfl

end Runs

section Headers

theorem header_length {host : HostWords.Endian} {tables : BitOrders.Tables} {type : FormatType}
    {fmt : FormatDesc} (found : formatTable host tables type = some fmt) :
    fmt.header.length = fmt.headerLen := by
  cases type <;> cases found <;> rfl

variable {fmt : FormatDesc} (headed : fmt.header.length = fmt.headerLen) (world : World)

include headed

/-- A header is removed from the input, or the input does not start with it. -/
theorem read_header_eq :
    (fmt.header <+: world.inFile ∧ readHeader fmt ⟨true, -1⟩ true world =
      .ok (0, { world with inFile := world.inFile.drop fmt.headerLen })) ∨
    (¬fmt.header <+: world.inFile ∧ ∃ after, readHeader fmt ⟨true, -1⟩ true world =
      .ok (-einval, after) ∧ after.outFile = world.outFile) := by
  by_cases bare : fmt.headerLen = 0
  · left
    have empty : fmt.header = [] := List.length_eq_zero_iff.mp (headed.trans bare)
    refine ⟨by rw [empty]; exact List.nil_prefix, ?_⟩
    rw [readHeader, bare, List.drop_zero]
    rfl
  · have refuse : ¬(fmt.headerLen = 0 ∨ (!true) = true) := by simp [bare]
    rw [readHeader, if_neg refuse]
    by_cases whole : fmt.headerLen ≤ world.inFile.length
    · have read : world.fread fmt.headerLen = (1, world.inFile.take fmt.headerLen,
          { world with inFile := world.inFile.drop fmt.headerLen }) := by
        rw [World.fread, if_neg bare, if_pos whole]
      have compared : memEqual (world.inFile.take fmt.headerLen) fmt.header fmt.headerLen =
          .ok (decide (world.inFile.take fmt.headerLen = fmt.header)) := by
        rw [memEqual, if_pos ⟨by rw [List.length_take_of_le whole], Nat.le_of_eq headed.symm⟩,
          List.take_of_length_le (Nat.le_of_eq headed), List.take_take, Nat.min_self]
        rfl
      by_cases same : world.inFile.take fmt.headerLen = fmt.header
      · left
        refine ⟨?_, ?_⟩
        · rw [← same]
          exact List.take_prefix _ _
        · simp only [read, compared, decide_eq_true same, exec_bind_ok]
          rfl
      · right
        refine ⟨?_, { world with inFile := world.inFile.drop fmt.headerLen }, ?_, rfl⟩
        · intro starts
          refine same ?_
          rw [List.prefix_iff_eq_take.mp starts, headed]
        · simp only [read, compared, decide_eq_false same, exec_bind_ok]
          rfl
    · right
      refine ⟨?_, { world with inFile := [] }, ?_, rfl⟩
      · intro starts
        have fits := starts.length_le
        omega
      · have read : world.fread fmt.headerLen = (0, world.inFile, { world with inFile := [] }) := by
          rw [World.fread, if_neg bare, if_neg whole]
        simp only [read]
        rfl

theorem write_header_eq (works : ∀ call, world.sinkOk call = true) :
    ∃ after, writeHeader fmt ⟨true, -1⟩ world = .ok (0, after) ∧
      after.inFile = world.inFile ∧ after.outFile = world.outFile ++ fmt.header ∧
      ∀ call, after.sinkOk call = true := by
  by_cases bare : fmt.headerLen = 0
  · have empty : fmt.header = [] := List.length_eq_zero_iff.mp (headed.trans bare)
    refine ⟨world, ?_, rfl, ?_, works⟩
    · rw [writeHeader, if_pos (Or.inl bare)]
      rfl
    · rw [empty, List.append_nil]
  · have refuse : ¬(fmt.headerLen = 0 ∨ (!true) = true) := by simp [bare]
    have written : world.fwrite fmt.header = (1, withOutput world fmt.header) := by
      rw [World.fwrite, if_neg (by omega), World.countWrite, works]
      rfl
    refine ⟨withOutput world fmt.header, ?_, rfl, rfl, works⟩
    rw [writeHeader, if_neg refuse, read_bytes_eq (Nat.le_of_eq headed.symm), exec_bind_ok,
      List.take_of_length_le (Nat.le_of_eq headed)]
    simp only [written]
    rfl

end Headers

theorem results_finished {Lib : Type} {outcomes : Nat → CallOutcome}
    {calls : List (QueueLedger.QueueCall Lib)}
    (finish : ∀ call ∈ calls, ∀ index, callResult call (outcomes index) = .finished) :
    ∀ start, ∀ pair ∈ resultsFrom outcomes start calls, pair.2 = .finished := by
  induction calls with
  | nil => exact fun start pair member => absurd member List.not_mem_nil
  | cons call rest ih =>
      obtain ⟨first, others⟩ := List.forall_mem_cons.mp finish
      exact fun start => List.forall_mem_cons.mpr ⟨first start, ih others (start + 1)⟩

/-- A conversion between files, of two formats of one codec with fixed lengths, in
a program that runs as fast as it can and gets all the memory it asks for. -/
structure FileConversion {Lib : Type} (build : Build Lib) where
  request : AcceptedOptions build.registry
  env : Environment
  sameCodec : request.fmtIn.codecType = request.fmtOut.codecType
  fixedIn : request.fmtIn.frameLen ≠ 0
  fixedOut : request.fmtOut.frameLen ≠ 0
  unthrottled : request.opts.throttle = false
  files : filesOpen env.opened request.opts = (0, ⟨true, -1⟩, ⟨true, -1⟩)
  pqAllocated : env.pqAllocated = true
  headerAllocated : env.headerAllocated = true
  itemsAllocated : ∀ call, (env.outcomes call).stateAllocated ∧ (env.outcomes call).itemAllocated
  buffersAllocated : env.memory.Works

section Prepared

variable {Lib : Type} {platform : Platform Lib}

theorem finished_linked (platform : Platform Lib) {calls : List (QueueLedger.QueueCall Lib)}
    {items : List (Item Lib)} (finished : List.Forall₂ (Finished platform) calls items) :
    Linked items := by
  induction finished with
  | nil => exact fun item member => absurd member List.not_mem_nil
  | cons first _ ih => exact List.forall_mem_cons.mpr ⟨(finished_ready platform first).2, ih⟩

theorem prepare_works {memory : BufferAlloc} {pq : Queue Lib} (works : memory.Works)
    (linked : Linked pq.items) :
    ∃ prepared, osmoGapkPqPrepare memory pq = .ok (0, prepared) := by
  obtain ⟨items, run⟩ := prepare_items_works works pq.items linked 0
  refine ⟨{ pq with items := items }, ?_⟩
  rw [osmoGapkPqPrepare, run]
  rfl

/-- The prepared item of a call. -/
def PreparedFor (platform : Platform Lib) (call : QueueLedger.QueueCall Lib) (after : Item Lib) :
    Prop :=
  ∃ item, Finished platform call item ∧ Prepared item after

theorem finished_prepared {calls : List (QueueLedger.QueueCall Lib)} {items after : List (Item Lib)}
    (finished : List.Forall₂ (Finished platform) calls items)
    (buffers : List.Forall₂ Prepared items after) :
    List.Forall₂ (PreparedFor platform) calls after := by
  induction finished generalizing after with
  | nil =>
      cases buffers
      exact List.Forall₂.nil
  | cons first _ ih =>
      cases buffers with
      | cons pair rest => exact List.Forall₂.cons ⟨_, first, pair⟩ (ih rest)

variable {after : Item Lib} {len : Nat}

theorem prepared_source (positive : 0 < len)
    (made : PreparedFor platform (.fileInput len) after) :
    ∃ handle buf, buf.length = len ∧ after = sourceItem len handle buf := by
  obtain ⟨_, ⟨handle, rfl⟩, prepared⟩ := made
  obtain ⟨buf, allocated, room⟩ := prepared.allocated nofun
  refine ⟨handle, buf, room.trans (if_neg (by exact positive.ne')), ?_⟩
  rw [prepared.same, allocated]
  rfl

theorem prepared_sink (made : PreparedFor platform (.fileOutput len) after) :
    ∃ handle kept, after = sinkItem len handle kept := by
  obtain ⟨_, ⟨handle, rfl⟩, prepared⟩ := made
  exact ⟨handle, after.buf, prepared.same⟩

theorem prepared_format {fmt : FormatDesc} {toFromN : Bool} {build : Build Lib}
    (fixed : lenOut fmt toFromN ≠ 0)
    (made : PreparedFor (platformOf build) (.fmtConvert fmt toFromN) after) :
    ∃ codec buf, buf.length = lenOut fmt toFromN ∧ after = formatItem fmt codec toFromN buf := by
  obtain ⟨_, ⟨codec, found, rfl⟩, prepared⟩ := made
  obtain ⟨buf, allocated, room⟩ := prepared.allocated nofun
  have size := fmt_item_buf_size build found toFromN
  rw [if_neg fixed] at size
  refine ⟨codec, buf, room.trans size, ?_⟩
  rw [prepared.same, allocated]
  rfl

end Prepared

section Lengths

variable {host : HostWords.Endian} {tables : BitOrders.Tables} {type : FormatType} {fmt : FormatDesc}
  (found : formatTable host tables type = some fmt)

include found

theorem reader_takes_frames (fixed : fmt.frameLen ≠ 0) :
    TakesFrames (converter fmt false) fmt.frameLen (canonFrameLen fmt.codecType) := by
  intro src size
  by_cases lenient : ReadsAnyLength type
  · exact Or.inl ((reader_lenient found lenient).converts src size)
  · exact (reader_strict found fixed lenient).converts src size

theorem writer_takes_frames (fixed : fmt.frameLen ≠ 0) :
    TakesFrames (converter fmt true) (canonFrameLen fmt.codecType) fmt.frameLen :=
  (writer_strict found fixed).converts

end Lengths

namespace FileConversion

variable {Lib : Type} {build : Build Lib} (conversion : FileConversion build)

abbrev fmtIn : FormatDesc := conversion.request.fmtIn
abbrev fmtOut : FormatDesc := conversion.request.fmtOut

theorem found_in : formatTable build.host build.tables conversion.fmtIn.type =
    some conversion.fmtIn :=
  (build.fmt_get_eq _).symm.trans conversion.request.registeredIn

theorem found_out : formatTable build.host build.tables conversion.fmtOut.type =
    some conversion.fmtOut :=
  (build.fmt_get_eq _).symm.trans conversion.request.registeredOut

def calls : List (QueueLedger.QueueCall Lib) :=
  if conversion.fmtIn.type = conversion.fmtOut.type then
    [.fileInput conversion.fmtIn.frameLen, .fileOutput conversion.fmtOut.frameLen]
  else
    [.fileInput conversion.fmtIn.frameLen, .fmtConvert conversion.fmtIn false,
      .fmtConvert conversion.fmtOut true, .fileOutput conversion.fmtOut.frameLen]

theorem planned : plan (platformOf build) conversion.request.opts ⟨true, -1⟩ ⟨true, -1⟩
    conversion.fmtIn conversion.fmtOut = some conversion.calls := by
  have noDec : needDec conversion.fmtIn conversion.fmtOut = false := by
    simp [needDec, conversion.sameCodec]
  have noEnc : needEnc conversion.fmtIn conversion.fmtOut = false := by
    simp [needEnc, conversion.sameCodec]
  rw [calls]
  by_cases same : conversion.fmtIn.type = conversion.fmtOut.type
  · simp [plan, sourceCall, sinkCall, decodingCalls, encodingCalls, noDec, noEnc, same]
  · simp [plan, sourceCall, sinkCall, decodingCalls, encodingCalls, noDec, noEnc, same]

theorem calls_finish : ∀ call ∈ conversion.calls, ∀ index,
    callResult call (conversion.env.outcomes index) = .finished := by
  intro call member index
  have allocated := conversion.itemsAllocated index
  rw [calls] at member
  split_ifs at member <;>
    simp only [List.mem_cons, List.not_mem_nil, or_false] at member <;>
    rcases member with rfl | rfl | rfl | rfl <;> simp [callResult, allocated]

theorem chain_built : ∃ chain, makeProcessingChain (platformOf build) conversion.env.outcomes
      conversion.request.opts ⟨true, -1⟩ ⟨true, -1⟩ conversion.fmtIn conversion.fmtOut
      (emptyChain Lib) = .ok (0, chain) ∧
    List.Forall₂ (Finished (platformOf build)) conversion.calls chain.pq.items := by
  obtain ⟨chain, _, _, _, _, built, same, items⟩ := ChainTyping.planned_typed (platformOf build)
    conversion.request ⟨true, -1⟩ ⟨true, -1⟩ build.registry_well_formed conversion.planned
    (plan_resolves build conversion.request ⟨true, -1⟩ ⟨true, -1⟩ conversion.planned)
    (results_finished conversion.calls_finish 0)
  have finished := items.finished
  rw [← same] at finished
  exact ⟨chain, built, finished⟩

section Prepared

variable {prepared : Queue Lib} (made : List.Forall₂ (PreparedFor (platformOf build))
  conversion.calls prepared.items)

include made

theorem copying_prepared (same : conversion.fmtIn.type = conversion.fmtOut.type) :
    ∃ source sink, Copying conversion.fmtIn.frameLen source sink prepared := by
  have positive := Nat.pos_of_ne_zero conversion.fixedIn
  have equal : conversion.fmtIn = conversion.fmtOut :=
    ChainTyping.same_format (platformOf build) conversion.request same
  rw [calls, if_pos same] at made
  obtain ⟨first, _, isFirst, behindFirst, items⟩ := List.forall₂_cons_left_iff.mp made
  obtain ⟨last, none, isLast, empty, rfl⟩ := List.forall₂_cons_left_iff.mp behindFirst
  cases empty
  obtain ⟨source, block, room, rfl⟩ := prepared_source positive isFirst
  obtain ⟨sink, kept, rfl⟩ := prepared_sink isLast
  refine ⟨source, sink, block, kept, room, ?_⟩
  rw [items, ← congrArg FormatDesc.frameLen equal]

theorem converting_prepared (differ : conversion.fmtIn.type ≠ conversion.fmtOut.type) :
    ∃ codecIn codecOut source sink, Converting conversion.fmtIn conversion.fmtOut codecIn codecOut
      source sink prepared := by
  have positive := Nat.pos_of_ne_zero conversion.fixedIn
  rw [calls, if_neg differ] at made
  obtain ⟨first, _, isFirst, behindFirst, items⟩ := List.forall₂_cons_left_iff.mp made
  obtain ⟨reader, _, isReader, behindReader, rfl⟩ := List.forall₂_cons_left_iff.mp behindFirst
  obtain ⟨writer, _, isWriter, behindWriter, rfl⟩ := List.forall₂_cons_left_iff.mp behindReader
  obtain ⟨last, none, isLast, empty, rfl⟩ := List.forall₂_cons_left_iff.mp behindWriter
  cases empty
  have fixedCanon : lenOut conversion.fmtIn false ≠ 0 := by
    rcases format_lengths conversion.found_in with (amr | amr) | ⟨_, fixed⟩
    · exact absurd (congrArg FormatDesc.frameLen amr) conversion.fixedIn
    · exact absurd (congrArg FormatDesc.frameLen amr) conversion.fixedIn
    · exact fixed
  have fixedFrame : lenOut conversion.fmtOut true ≠ 0 := conversion.fixedOut
  obtain ⟨source, block, room, rfl⟩ := prepared_source positive isFirst
  obtain ⟨codecIn, canon, canonRoom, rfl⟩ := prepared_format fixedCanon isReader
  obtain ⟨codecOut, frame, frameRoom, rfl⟩ := prepared_format fixedFrame isWriter
  obtain ⟨sink, kept, rfl⟩ := prepared_sink isLast
  exact ⟨codecIn, codecOut, source, sink, block, canon, frame, kept, room, canonRoom, frameRoom,
    items⟩

end Prepared

/-- The prepared chain takes blocks and makes of them what the formats say. -/
theorem chain_takes_blocks {pq : Queue Lib}
    (finished : List.Forall₂ (Finished (platformOf build)) conversion.calls pq.items) :
    ∃ keeps : Queue Lib → Prop, TakesBlocks keeps conversion.fmtIn.frameLen
        (convertBlock conversion.fmtIn conversion.fmtOut) ∧
      ∃ prepared, osmoGapkPqPrepare conversion.env.memory pq = .ok (0, prepared) ∧
        keeps prepared := by
  have positiveIn := Nat.pos_of_ne_zero conversion.fixedIn
  have positiveOut := Nat.pos_of_ne_zero conversion.fixedOut
  obtain ⟨smallIn, canonical⟩ := format_small conversion.found_in
  obtain ⟨smallOut, _⟩ := format_small conversion.found_out
  obtain ⟨prepared, prepares⟩ := prepare_works conversion.buffersAllocated
    (finished_linked (platformOf build) finished)
  have made := finished_prepared finished (pq_prepare_ok prepares)
  by_cases same : conversion.fmtIn.type = conversion.fmtOut.type
  · have identity : convertBlock conversion.fmtIn conversion.fmtOut = fun block => some block :=
      funext fun block => if_pos same
    obtain ⟨source, sink, copies⟩ := conversion.copying_prepared made same
    rw [identity]
    exact ⟨Copying conversion.fmtIn.frameLen source sink, copying_takes_blocks positiveIn smallIn,
      prepared, prepares, copies⟩
  · have converts : convertBlock conversion.fmtIn conversion.fmtOut = fun block =>
        (convertFrame (converter conversion.fmtIn false)
          (canonFrameLen conversion.fmtIn.codecType) block).bind
          (convertFrame (converter conversion.fmtOut true) conversion.fmtOut.frameLen) :=
      funext fun block => if_neg same
    have reads := reader_takes_frames conversion.found_in conversion.fixedIn
    have writes := writer_takes_frames conversion.found_out conversion.fixedOut
    rw [← conversion.sameCodec] at writes
    obtain ⟨codecIn, codecOut, source, sink, converting⟩ := conversion.converting_prepared made same
    rw [converts]
    exact ⟨Converting conversion.fmtIn conversion.fmtOut codecIn codecOut source sink,
      converting_takes_blocks positiveIn smallIn positiveOut smallOut canonical reads writes,
      prepared, prepares, converting⟩

abbrev frames (world : World) : List Buf :=
  outputs conversion.fmtIn.frameLen (convertBlock conversion.fmtIn conversion.fmtOut)
    (world.inFile.drop conversion.fmtIn.headerLen)

theorem main_headers (rounds : Nat) (world : World) :
    gapkMain (platformOf build) conversion.env conversion.request.opts rounds world = (do
      let (rv, world) ← handleHeaders conversion.fmtIn conversion.fmtOut ⟨true, -1⟩ ⟨true, -1⟩ true
        world
      if rv ≠ 0 then return some ⟨rv, none, world⟩
      let (rv, chain) ← makeProcessingChain (platformOf build) conversion.env.outcomes
        conversion.request.opts ⟨true, -1⟩ ⟨true, -1⟩ conversion.fmtIn conversion.fmtOut
        (emptyChain Lib)
      if rv ≠ 0 then return some ⟨rv, none, world⟩
      run conversion.env conversion.request.opts rounds chain.pq world) := by
  have accepted : checkOptions (platformOf build).registry conversion.request.opts = 0 :=
    conversion.request.accepted
  simp only [gapkMain, accepted, conversion.pqAllocated, conversion.files, conversion.headerAllocated,
    conversion.request.isIn, conversion.request.isOut, deref_some, exec_bind_ok]
  rfl

variable {world : World} {rounds : Nat}

/-- What the program does with a file, reported with a counter of 32 bits that is
printed as a signed number. -/
theorem file_finishes (works : ∀ call, world.sinkOk call = true)
    (enough : (conversion.frames world).length < rounds) :
    ∃ finish, gapkMain (platformOf build) conversion.env conversion.request.opts rounds world =
        .ok (some finish) ∧
      (¬conversion.fmtIn.header <+: world.inFile →
        finish.rv ≠ 0 ∧ finish.world.outFile = world.outFile) ∧
      (conversion.fmtIn.header <+: world.inFile →
        finish.world.outFile =
          world.outFile ++ conversion.fmtOut.header ++ (conversion.frames world).flatten ∧
        finish.reported = some (toInt32 (((conversion.frames world).length % 2 ^ 32 : Nat) : Int)) ∧
        finish.rv = if (conversion.frames world).length % 2 ^ 32 > 0 then 0 else -1) := by
  rw [main_headers]
  rcases read_header_eq (header_length conversion.found_in) world with
    ⟨headed, read⟩ | ⟨unheaded, after, read, same⟩
  · let behind : World := { world with inFile := world.inFile.drop conversion.fmtIn.headerLen }
    obtain ⟨start, written, input, output, startWorks⟩ :=
      write_header_eq (header_length conversion.found_out) behind works
    obtain ⟨chain, built, finished⟩ := conversion.chain_built
    obtain ⟨keeps, takes, prepared, prepares, kept⟩ := conversion.chain_takes_blocks finished
    have positive := Nat.pos_of_ne_zero conversion.fixedIn
    have frames : outputs conversion.fmtIn.frameLen
        (convertBlock conversion.fmtIn conversion.fmtOut) start.inFile = conversion.frames world := by
      rw [input]
    obtain ⟨finalWorld, ran, final⟩ := run_takes_blocks takes positive conversion.unthrottled prepares
      kept startWorks (by rw [frames]; exact enough)
    rw [frames] at ran final
    rw [output] at final
    refine ⟨_, Eq.trans ?_ ran, fun wrong => absurd headed wrong, fun _ => ⟨final, rfl, rfl⟩⟩
    have headers : handleHeaders conversion.fmtIn conversion.fmtOut ⟨true, -1⟩ ⟨true, -1⟩ true world =
        .ok (0, start) := by
      rw [handleHeaders, read]
      exact written
    simp only [headers, built, exec_bind_ok]
    rfl
  · refine ⟨⟨-einval, none, after⟩, ?_, fun _ => ⟨(by decide : -einval ≠ 0), same⟩,
      fun wrong => absurd wrong unheaded⟩
    simp only [handleHeaders, read, exec_bind_ok]
    rfl

/-- A conversion of a whole file as it is meant to end. -/
structure Completed (world : World) (finish : Finish) : Prop where
  refused : ¬conversion.fmtIn.header <+: world.inFile →
    finish.rv ≠ 0 ∧ finish.world.outFile = world.outFile
  written : conversion.fmtIn.header <+: world.inFile →
    finish.world.outFile =
      world.outFile ++ conversion.fmtOut.header ++ (conversion.frames world).flatten
  reported : conversion.fmtIn.header <+: world.inFile →
    finish.reported = some ((conversion.frames world).length : Int)
  exit : conversion.fmtIn.header <+: world.inFile →
    (finish.rv = 0 ↔ 0 < (conversion.frames world).length)

/-- The program ends, after one round for each frame and one more, as it is meant to. -/
def Completes (world : World) : Prop :=
  ∀ rounds, (conversion.frames world).length < rounds →
    ∃ finish, gapkMain (platformOf build) conversion.env conversion.request.opts rounds world =
      .ok (some finish) ∧ conversion.Completed world finish

theorem misreported (works : ∀ call, world.sinkOk call = true)
    (headed : conversion.fmtIn.header <+: world.inFile)
    (many : 2 ^ 31 ≤ (conversion.frames world).length) : ¬conversion.Completes world := by
  intro completes
  obtain ⟨finish, ran, completed⟩ := completes _ (Nat.lt_succ_self _)
  obtain ⟨other, same, _, finished⟩ := conversion.file_finishes works (Nat.lt_succ_self _)
  rw [ran] at same
  cases same
  have report := (completed.reported headed).symm.trans (finished headed).2.1
  rw [Option.some_inj, to_int32_unsigned (Nat.mod_lt _ (by decide))] at report
  split_ifs at report <;> omega

/-- A file is converted and reported as it should be exactly if it holds fewer than
2 ^ 31 frames, or does not start with the header. -/
theorem whole_file_iff (works : ∀ call, world.sinkOk call = true) :
    conversion.Completes world ↔
      (conversion.fmtIn.header <+: world.inFile → (conversion.frames world).length < 2 ^ 31) := by
  constructor
  · intro completes headed
    by_contra many
    exact conversion.misreported works headed (Nat.le_of_not_lt many) completes
  · intro few rounds enough
    obtain ⟨finish, ran, refused, finished⟩ := conversion.file_finishes works enough
    refine ⟨finish, ran, refused, fun headed => (finished headed).1, fun headed => ?_, fun headed => ?_⟩
    · have bound := few headed
      rw [(finished headed).2.1, to_int32_unsigned (Nat.mod_lt _ (by decide)),
        Nat.mod_eq_of_lt (by omega), if_pos bound]
    · have bound := few headed
      rw [(finished headed).2.2, Nat.mod_eq_of_lt (by omega)]
      split_ifs with some
      · exact iff_of_true rfl some
      · exact iff_of_false (by decide) some

end FileConversion

def gsmCopy : FileConversion Build.idle where
  request := ChainTyping.gsmToGsm
  env := ⟨true, ⟨0, -1, 0, -1⟩, true, ChainTyping.alwaysWorks, .cleared, []⟩
  sameCodec := rfl
  fixedIn := by decide
  fixedOut := by decide
  unthrottled := rfl
  files := rfl
  pqAllocated := rfl
  headerAllocated := rfl
  itemsAllocated _ := ⟨rfl, rfl⟩
  buffersAllocated _ _ := rfl

/-- An input file of that many zero bytes, and an output file that takes everything. -/
def zeroFile (size : Nat) : World := ⟨zeros size, [], [], [], [], [], fun _ => true, 0, 0⟩

theorem whole_file_iff_copy : gsmCopy.Completes (zeroFile 66) ↔
    (gsmCopy.fmtIn.header <+: (zeroFile 66).inFile → (gsmCopy.frames (zeroFile 66)).length < 2 ^ 31) :=
  gsmCopy.whole_file_iff fun _ => rfl

theorem copied_frames (count : Nat) : (gsmCopy.frames (zeroFile (33 * count))).length = count := by
  have identity : convertBlock gsmCopy.fmtIn gsmCopy.fmtOut = fun block => some block :=
    funext fun block => if_pos rfl
  have size : (zeroFile (33 * count)).inFile.length = 33 * count := zeros_length _
  rw [FileConversion.frames, identity, outputs, until_rejected_some, blocks_length, List.length_drop,
    size]
  exact Nat.mul_div_cancel_left count (by decide)

/-- A copied file of 2 ^ 31 frames is reported with a negative number of frames. -/
theorem frames_misreported :
    ¬∀ (build : Build Unit) (conversion : FileConversion build) (world : World),
      (∀ call, world.sinkOk call = true) → conversion.Completes world := by
  intro always
  have completes := always .idle gsmCopy (zeroFile (33 * 2 ^ 31)) fun _ => rfl
  exact gsmCopy.misreported (fun _ => rfl) List.nil_prefix (copied_frames (2 ^ 31)).ge completes

end Gapk.WholeFile
