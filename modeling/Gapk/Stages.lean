import Gapk.Library.Pipeline
import Gapk.PayloadLengths

/-!
# Stages of a chain

What the items between source and sink make of a frame, without queue, buffers
and lengths. A converter has no memory; a codec keeps the state of its library and
the output area that the library is called on. The items of a typed path do what
the chain of their stages does.
-/

namespace Gapk.Stages

open CheckedMemory BitBuffer FixedWidth Paths Pipeline
open Gapk.Formats Gapk.Procqueue Gapk.Streams Gapk.RtpSource Gapk.QueueOps Gapk.QueueLedger
open Gapk.Codecs Gapk.App Gapk.Chain Gapk.Options Gapk.ChainTyping Gapk.Converters
open Gapk.QueueRuns Gapk.WholeFile Gapk.FramePassing Gapk.FmtAmr

set_option autoImplicit false

section Stations

variable {Lib : Type}

/-- How the call-back of a codec uses its library. -/
structure LibStep (Lib : Type) where
  call : LibCall Lib
  inLen : Nat
  outLen : Nat
  returned : Int → Int

/-- The call-backs of the codecs, by the format on the coded side. The AMR decoder
is not one of them: it takes 32 bytes whatever the length of the frame. -/
def codecStep (libs : CodecLibs Lib) : FormatType → Bool → Option (LibStep Lib)
  | .gsm, true => some ⟨libs.gsmEncode, pcmCanonLen, frCanonLen, fun _ => frCanonLen⟩
  | .gsm, false =>
      some ⟨libs.gsmDecode, frCanonLen, pcmCanonLen, lenUnlessFailed pcmCanonLen⟩
  | .hrRefEnc, true =>
      some ⟨libs.gsmhrEncode, pcmCanonLen, hrRefEncLen, lenUnlessFailed hrRefEncLen⟩
  | .hrRefDec, false =>
      some ⟨libs.gsmhrDecode, hrRefDecLen, pcmCanonLen, lenUnlessFailed pcmCanonLen⟩
  | .amrEfr, true =>
      some ⟨libs.encoderInterfaceEncode, pcmCanonLen, amrFrameLen,
        fun rv => if rv ≠ 32 then -1 else 32⟩
  | .amrEfr, false =>
      some ⟨libs.decoderInterfaceDecode, amrFrameLen, pcmCanonLen, fun _ => pcmCanonLen⟩
  | .amrOpencore, true =>
      some ⟨libs.encoderInterfaceEncode, pcmCanonLen, amrFrameLen, id⟩
  | _, _ => none

/-- An item between source and sink, with what it keeps from frame to frame. -/
inductive Station (Lib : Type) where
  | converter (fmt : FormatDesc) (toFromN : Bool)
  | codec (step : LibStep Lib) (lib : Lib) (area : Buf)

/-- What a converter makes of a frame in an empty buffer. -/
def convertTo (fmt : FormatDesc) (toFromN : Bool) (frame : Buf) : Option Buf :=
  match converter fmt toFromN (zeros (outputSize (lenOut fmt toFromN))) frame frame.length with
  | .ok (rv, out) => if rv < 0 then none else some (out.take rv.toNat)
  | .error _ => none

def LibStep.apply (step : LibStep Lib) (lib : Lib) (area frame : Buf) :
    Option (Station Lib × Buf) :=
  let (lib, rc, area) := step.call lib frame area
  if step.returned rc < 0 then none
  else some (.codec step lib area, area.take (step.returned rc).toNat)

def Station.stage : Stage (Station Lib) Buf Buf
  | .converter fmt toFromN, frame =>
      (convertTo fmt toFromN frame).map (Prod.mk (.converter fmt toFromN))
  | .codec step lib area, frame => step.apply lib area frame

end Stations

section Converters

variable {fmt : FormatDesc} {toFromN : Bool} {len : Nat} {dst frame : Buf}

theorem convert_to_run {rv : Int} {out : Buf}
    (run : converter fmt toFromN (zeros (outputSize (lenOut fmt toFromN))) frame frame.length =
      .ok (rv, out)) :
    convertTo fmt toFromN frame = if rv < 0 then none else some (out.take rv.toNat) := by
  rw [convertTo, run]

/-- Between fixed lengths a frame fills its buffer. -/
theorem convert_to_fixed (takes : TakesFrames (converter fmt toFromN) len (lenOut fmt toFromN))
    (fixed : lenOut fmt toFromN ≠ 0) (size : frame.length = len) :
    convertTo fmt toFromN frame =
      convertFrame (converter fmt toFromN) (lenOut fmt toFromN) frame := by
  have room : outputSize (lenOut fmt toFromN) = lenOut fmt toFromN := if_neg fixed
  rcases takes_frames_run takes size (zeros_length _) with
    ⟨rejected, run⟩ | ⟨out, converted, outSize, run⟩
  · rw [rejected]
    rw [← size, ← room] at run
    exact convert_to_run run
  · rw [converted]
    rw [← size, ← room] at run
    rw [convert_to_run run, room, if_neg (by omega), Int.toNat_natCast,
      List.take_of_length_le (Nat.le_of_eq outSize)]

theorem fixed_converts (takes : TakesFrames (converter fmt toFromN) len (lenOut fmt toFromN))
    (fixed : lenOut fmt toFromN ≠ 0) (size : frame.length = len)
    (room : dst.length = lenOut fmt toFromN) :
    (convertTo fmt toFromN frame = none ∧ converter fmt toFromN dst frame len = .ok (-1, dst)) ∨
      ∃ out, convertTo fmt toFromN frame = some out ∧ out.length = lenOut fmt toFromN ∧
        converter fmt toFromN dst frame len = .ok ((lenOut fmt toFromN : Int), out) := by
  rw [convert_to_fixed takes fixed size]
  exact takes_frames_run takes size room

theorem convert_to_opencore (toFromN : Bool) (bound : frame.length ≤ 32) :
    convertTo fmtAmrOpencore toFromN frame = some frame := by
  have room : frame.length ≤ (zeros (outputSize (lenOut fmtAmrOpencore toFromN))).length := by
    rw [zeros_length]
    cases toFromN <;> exact Nat.le_trans bound (by decide)
  rw [convert_to_run (amr_opencore_run (Nat.le_refl _) room (by omega) toFromN),
    if_neg (by omega), Int.toNat_natCast, List.take_length, List.take_left]

theorem convert_to_rtp_amr (bound : frame.length ≤ 32) :
    convertTo fmtRtpAmr true frame = some (0xf0 :: frame) := by
  have room : frame.length < (zeros (outputSize (lenOut fmtRtpAmr true))).length := by
    rw [zeros_length]
    exact Nat.lt_of_le_of_lt bound (by decide)
  have run : converter fmtRtpAmr true (zeros (outputSize (lenOut fmtRtpAmr true))) frame
      frame.length = _ :=
    AmrFormats.rtp_amr_from_canon_run (Nat.le_refl _) room (by omega)
  rw [convert_to_run run, if_neg (by omega), Int.toNat_natCast, List.take_length]
  exact congrArg some (List.take_left' rfl)

end Converters

section Calls

variable {Lib : Type} {build : Build Lib} {source target : Rep} {data dst : Buf} {len : Nat}

/-- The frame that a call returned is the one of its stage. -/
def Answers (rv : Int) (out : Buf) (answer : Option Buf) : Prop :=
  answer = if rv < 0 then none else some (out.take (toUInt32 rv))

theorem holds_fixed (holds : Holds build source data len) {lenIn : Nat}
    (same : repLen (platformOf build) source = lenIn) (fixed : lenIn ≠ 0) :
    len = lenIn ∧ data.length = lenIn := by
  have room := holds.room
  rw [← same] at fixed
  rw [same, outputSize, ← same, if_neg fixed, same] at room
  exact ⟨(holds.fixed fixed).trans same, room⟩

theorem answers_fixed {fmt : FormatDesc} {toFromN : Bool} {lenIn : Nat}
    (takes : TakesFrames (converter fmt toFromN) lenIn (lenOut fmt toFromN))
    (fixedIn : lenIn ≠ 0) (fixedOut : lenOut fmt toFromN ≠ 0)
    (small : lenOut fmt toFromN < 2 ^ 31) (holds : Holds build source data len)
    (sameIn : repLen (platformOf build) source = lenIn) (room : dst.length = lenOut fmt toFromN)
    {rv : Int} {out : Buf} (run : converter fmt toFromN dst data len = .ok (rv, out)) :
    Answers rv out (convertTo fmt toFromN (data.take len)) := by
  obtain ⟨rfl, size⟩ := holds_fixed holds sameIn fixedIn
  rw [List.take_of_length_le (Nat.le_of_eq size)]
  rcases fixed_converts takes fixedOut size room with
    ⟨none, rejects⟩ | ⟨frame, some, outSize, converts⟩
  · rw [run] at rejects
    cases rejects
    exact none
  · rw [run] at converts
    cases converts
    rw [Answers, some, if_neg (by omega), to_uint32_eq (by omega),
      List.take_of_length_le (Nat.le_of_eq outSize)]

theorem answers_opencore (toFromN : Bool) (inside : len ≤ data.length) (bound : len ≤ 32)
    (room : dst.length = varBufSize) {rv : Int} {out : Buf}
    (run : converter fmtAmrOpencore toFromN dst data len = .ok (rv, out)) :
    Answers rv out (convertTo fmtAmrOpencore toFromN (data.take len)) := by
  have taken : (data.take len).length = len := List.length_take_of_le inside
  have space : len ≤ dst.length := by
    rw [room, varBufSize]
    omega
  rw [amr_opencore_run inside space (by omega)] at run
  cases run
  rw [convert_to_opencore toFromN (by omega), Answers, if_neg (by omega), to_uint32_eq (by omega),
    List.take_left' taken]

theorem answers_rtp_amr (inside : len ≤ data.length) (bound : len ≤ 32)
    (room : dst.length = varBufSize) {rv : Int} {out : Buf}
    (run : converter fmtRtpAmr true dst data len = .ok (rv, out)) :
    Answers rv out (convertTo fmtRtpAmr true (data.take len)) := by
  have taken : (data.take len).length = len := List.length_take_of_le inside
  have written : converter fmtRtpAmr true dst data len = _ :=
    AmrFormats.rtp_amr_from_canon_run inside (by rw [room, varBufSize]; omega) (by omega)
  rw [run] at written
  cases written
  rw [convert_to_rtp_amr (by omega), Answers, if_neg (by omega), to_uint32_eq (by omega),
    List.take_left' (by rw [List.length_cons, taken])]

theorem converter_answers {fmt : FormatDesc} {toFromN : Bool}
    (turns : Turns (platformOf build) source (.fmtConvert fmt toFromN) target)
    (asked : toFromN = false → fmt.type ≠ .rtpAmr) (holds : Holds build source data len)
    (room : dst.length = outputSize (repLen (platformOf build) target)) :
    ∃ rv out, converter fmt toFromN dst data len = .ok (rv, out) ∧
      Produces build target rv out ∧ Answers rv out (convertTo fmt toFromN (data.take len)) := by
  obtain ⟨rv, out, run, produces⟩ := converter_runs turns asked holds room
  refine ⟨rv, out, run, produces, ?_⟩
  have inside := holds.inside
  cases turns with
  | toCanon registered =>
      have found := (build.fmt_get_eq _).symm.trans registered
      rcases format_lengths found with (amr | amr) | ⟨fixed, fixedCanon⟩
      · subst amr
        exact answers_opencore false inside (holds.unsized rfl)
          (room.trans (congrArg outputSize (canon_len_eq .amr))) run
      · exact absurd (congrArg FormatDesc.type amr) (asked rfl)
      · rw [canon_len_eq] at room
        exact answers_fixed (reader_takes_frames found fixed) fixed fixedCanon (format_small found).2
          holds (format_len_eq registered) (room.trans (if_neg fixedCanon)) run
  | fromCanon registered =>
      have found := (build.fmt_get_eq _).symm.trans registered
      rcases format_lengths found with (amr | amr) | ⟨fixed, fixedCanon⟩
      · subst amr
        exact answers_opencore true inside (holds.unsized (canon_len_eq .amr)) room run
      · subst amr
        exact answers_rtp_amr inside (holds.unsized (canon_len_eq .amr)) room run
      · rw [format_len_eq registered] at room
        exact answers_fixed (writer_takes_frames found fixed) fixedCanon fixed (format_small found).1
          holds (canon_len_eq _) (room.trans (if_neg fixed)) run

/-- What the call-back of a codec has in common with its step. -/
structure StepOf (build : Build Lib) (type : FormatType) (encDecN : Bool)
    (proc : ProcCb (StateContent Lib) World) (step : LibStep Lib) : Prop where
  keeps : KeepsArea step.call
  inLen : repLen (platformOf build) (codecSource type encDecN) = step.inLen
  fixed : step.inLen ≠ 0
  room : step.outLen ≤ outputSize (repLen (platformOf build) (codecTarget type encDecN))
  bound : ∀ lib input area, step.returned (step.call lib input area).2.1 ≤ step.outLen
  small : step.outLen < 2 ^ 31
  called : ∀ state out src world, proc state out src step.inLen world =
    libCall step.call step.inLen step.outLen step.returned state out src step.inLen world

theorem len_unless_failed_le (len : Nat) (rc : Int) : lenUnlessFailed len rc ≤ len := by
  rw [lenUnlessFailed]
  split_ifs <;> omega

theorem callback_step {type : FormatType} {encDecN : Bool} {proc : ProcCb (StateContent Lib) World}
    (callback : CodecCallback build.libs type encDecN proc) {step : LibStep Lib}
    (found : codecStep build.libs type encDecN = some step) : StepOf build type encDecN proc step := by
  have pcm : repLen (platformOf build) (.canon .pcm) = pcmCanonLen := canon_len_eq .pcm
  have samples : pcmCanonLen ≤ outputSize (repLen (platformOf build) (.canon .pcm)) := by
    rw [pcm]
    decide
  have heard : pcmCanonLen ≠ 0 := by decide
  have decoded : pcmCanonLen < 2 ^ 31 := by decide
  cases callback with
  | frEncode =>
      cases found
      exact ⟨build.libs.gsmEncodeArea, pcm, heard, Nat.le_refl frCanonLen,
        fun _ _ _ => Int.le_refl _, (by decide : frCanonLen < 2 ^ 31), fun _ _ _ _ => rfl⟩
  | frDecode =>
      cases found
      exact ⟨build.libs.gsmDecodeArea, rfl, (by decide : frCanonLen ≠ 0), samples,
        fun _ _ _ => len_unless_failed_le _ _, decoded, fun _ _ _ _ => rfl⟩
  | hrEncode =>
      cases found
      exact ⟨build.libs.gsmhrEncodeArea, pcm, heard, Nat.le_refl hrRefEncLen,
        fun _ _ _ => len_unless_failed_le _ _, (by decide : hrRefEncLen < 2 ^ 31),
        fun _ _ _ _ => rfl⟩
  | hrDecode =>
      cases found
      exact ⟨build.libs.gsmhrDecodeArea, rfl, (by decide : hrRefDecLen ≠ 0), samples,
        fun _ _ _ => len_unless_failed_le _ _, decoded, fun _ _ _ _ => rfl⟩
  | efrEncode =>
      cases found
      refine ⟨build.libs.encoderArea, pcm, heard, Nat.le_refl amrFrameLen, ?_,
        (by decide : amrFrameLen < 2 ^ 31), fun _ _ _ _ => rfl⟩
      intro lib input area
      show (if _ then (-1 : Int) else 32) ≤ 32
      split_ifs <;> decide
  | efrDecode =>
      cases found
      exact ⟨build.libs.decoderArea, rfl, (by decide : amrFrameLen ≠ 0), samples,
        fun _ _ _ => Int.le_refl _, decoded, fun _ _ _ _ => rfl⟩
  | amrEncode =>
      cases found
      exact ⟨build.libs.encoderArea, pcm, heard, (by decide : amrFrameLen ≤ varBufSize),
        build.libs.encodedLen, (by decide : amrFrameLen < 2 ^ 31), fun _ _ _ _ => rfl⟩
  | amrDecode => cases found

theorem lib_call_eq {step : LibStep Lib} (keeps : KeepsArea step.call) (inside : step.inLen ≤ data.length)
    (space : step.outLen ≤ dst.length) (handle : Nat) (lib : Lib) (world : World) :
    libCall step.call step.inLen step.outLen step.returned (.heap handle (.codec lib)) (some dst)
        (some data) len world =
      .ok { rv := step.returned (step.call lib (data.take step.inLen) (dst.take step.outLen)).2.1
            state := .heap handle
              (.codec (step.call lib (data.take step.inLen) (dst.take step.outLen)).1)
            out := some ((step.call lib (data.take step.inLen) (dst.take step.outLen)).2.2 ++
              dst.drop step.outLen)
            world := world } := by
  have size : (step.call lib (data.take step.inLen) (dst.take step.outLen)).2.2.length =
      step.outLen := by
    rw [keeps, List.length_take_of_le space]
  have copied := memcpy_front space ((Nat.zero_add _).trans_le size.ge)
  rw [List.drop_zero, List.take_of_length_le size.le] at copied
  simp only [libCall, codecState, exec_pure, exec_bind_ok, deref_some, read_bytes_eq inside,
    read_bytes_eq space, copied]
  rfl

/-- The item of a call and its station: they are in one state. -/
inductive StandsFor (build : Build Lib) : QueueCall Lib → Item Lib → Station Lib → Prop where
  | converter {fmt : FormatDesc} {toFromN : Bool} {item : Item Lib} :
      StandsFor build (.fmtConvert fmt toFromN) item (.converter fmt toFromN)
  | codec {desc : CodecDesc Lib} {encDecN : Bool} {item : Item Lib} {step : LibStep Lib}
      {handle : Nat} {lib : Lib} {dst : Buf}
      (found : codecStep build.libs (codecFormatType desc encDecN) encDecN = some step)
      (state : item.state = .heap handle (.codec lib)) (buffer : item.buf = some dst) :
      StandsFor build (.codec desc encDecN) item (.codec step lib (dst.take step.outLen))

/-- A call returned what the stage answers: it failed, or handed on the frame and
went on to the next state. -/
structure Answered (build : Build Lib) (target : Rep) (call : QueueCall Lib) (item : Item Lib)
    (rv : Int) (out : Buf) (answer : Option (Station Lib × Buf)) : Prop where
  fails : rv < 0 → answer = none
  holds : 0 ≤ rv → Holds build target out (toUInt32 rv)
  goesOn : 0 ≤ rv → ∃ after, answer = some (after, out.take (toUInt32 rv)) ∧
    StandsFor build call item after

theorem converter_answered {fmt : FormatDesc} {toFromN : Bool} {item : Item Lib} {rv : Int}
    {out frame : Buf} (produces : Produces build target rv out)
    (answers : Answers rv out (convertTo fmt toFromN frame)) :
    Answered build target (.fmtConvert fmt toFromN) item rv out
      ((Station.converter fmt toFromN : Station Lib).stage frame) := by
  rw [Station.stage, answers]
  constructor
  · intro failed
    rw [if_pos failed]
    rfl
  · exact produces.frame
  · intro fine
    rw [if_neg (Int.not_lt.mpr fine)]
    exact ⟨_, rfl, .converter⟩

theorem codec_answered {desc : CodecDesc Lib} {encDecN : Bool} {item : Item Lib}
    {step : LibStep Lib} (found : codecStep build.libs (codecFormatType desc encDecN) encDecN = some step)
    {rc : Int} {lib libAfter : Lib} {area areaAfter frame rest : Buf} {handle : Nat}
    (run : step.call lib frame area = (libAfter, rc, areaAfter)) (size : areaAfter.length = step.outLen)
    (bound : step.returned rc ≤ step.outLen) (small : step.outLen < 2 ^ 31)
    (state : item.state = .heap handle (.codec libAfter)) (buffer : item.buf = some (areaAfter ++ rest))
    (produces : Produces build target (step.returned rc) (areaAfter ++ rest)) :
    Answered build target (.codec desc encDecN) item (step.returned rc) (areaAfter ++ rest)
      ((Station.codec step lib area).stage frame) := by
  rw [Station.stage, LibStep.apply, run]
  constructor
  · intro failed
    exact if_pos failed
  · exact produces.frame
  · intro fine
    have whole : (areaAfter ++ rest).take step.outLen = areaAfter := List.take_left' size
    have len : toUInt32 (step.returned rc) = (step.returned rc).toNat := by
      rw [← Int.toNat_of_nonneg fine, to_uint32_eq (by omega), Int.toNat_natCast]
    refine ⟨.codec step libAfter areaAfter, ?_, ?_⟩
    · rw [len, List.take_append_of_le_length (by omega)]
      exact if_neg (Int.not_lt.mpr fine)
    · have stands := StandsFor.codec found state buffer
      rwa [whole] at stands

theorem station_call {call : QueueCall Lib} {item : Item Lib} {station : Station Lib}
    (working : Working build call item) (stands : StandsFor build call item station)
    (turns : Turns (platformOf build) source call target) (known : Known build call)
    (holds : Holds build source data len) (world : World) :
    ∃ result out, callItem item { buf := some data, len := len, world := world } = .ok result ∧
      result.out = some out ∧ result.world = world ∧ Working build call (afterCall item result) ∧
      Answered build target call (afterCall item result) result.rv out
        (station.stage (data.take len)) := by
  obtain ⟨result, out, called, isOut, produces, after⟩ :=
    turn_call working world turns known holds
  have signature := turns_signature (platformOf build) turns
  have same := (serving_call working.serves ⟨some data, len, world⟩).1.symm.trans called
  refine ⟨result, out, called, isOut, ?_⟩
  cases stands with
  | @converter fmt toFromN =>
      obtain ⟨dst, isDst, room⟩ := working.buffer (by rw [signature]; exact nofun)
      rw [signature] at room
      obtain ⟨rv, converted, run, _, answers⟩ := converter_answers turns known holds room
      have ran : callBack (platformOf build) (.fmtConvert fmt toFromN) item.state item.buf (some data)
          len world = .ok ⟨rv, item.state, some converted, world⟩ := by
        rw [isDst]
        show (converter fmt toFromN dst data len >>= fun converted => _) = _
        rw [run]
        rfl
      cases same.symm.trans ran
      cases isOut
      exact ⟨rfl, after, converter_answered produces answers⟩
  | @codec desc encDecN _ step handle lib dst found state buffer =>
      obtain ⟨type, inTable⟩ := known
      rw [build.codec_get_eq] at inTable
      obtain ⟨ready, _⟩ := working.state
      obtain ⟨proc, isProc⟩ := Option.isSome_iff_exists.mp ready
      obtain ⟨sameSource, sameTarget⟩ := turns_codec turns
      have stepOf := callback_step (codec_callback inTable isProc).1 found
      obtain ⟨other, isOther, room⟩ := working.buffer (by rw [signature]; exact nofun)
      rw [buffer] at isOther
      cases isOther
      rw [signature, sameTarget] at room
      rw [sameSource] at holds
      obtain ⟨rfl, size⟩ := holds_fixed holds stepOf.inLen stepOf.fixed
      have space : step.outLen ≤ dst.length := stepOf.room.trans room.ge
      have ran : callBack (platformOf build) (.codec desc encDecN) item.state item.buf (some data)
          step.inLen world = libCall step.call step.inLen step.outLen step.returned
            (.heap handle (.codec lib)) (some dst) (some data) step.inLen world := by
        rw [callBack, isProc, state, buffer]
        exact stepOf.called _ _ _ _
      cases same.symm.trans (ran.trans (lib_call_eq stepOf.keeps size.ge space handle lib world))
      cases isOut
      refine ⟨rfl, after, ?_⟩
      apply codec_answered found (Prod.mk.eta).symm ?_ (stepOf.bound _ _ _) stepOf.small rfl rfl produces
      rw [stepOf.keeps, List.length_take_of_le space]

end Calls

section Executions

variable {State World : Type} {item : PqItem State World} {items after : List (PqItem State World)}
  {passed next : Passed World} {result : ProcResult State World}

/-- One of the items fails, whatever is behind them, and the world stays as it was. -/
def Stops (items : List (PqItem State World)) (passed : Passed World) : Prop :=
  ∃ rv after passedAfter, rv < 0 ∧ passedAfter.world = passed.world ∧
    ∀ behind, executeItems (items ++ behind) passed = .ok (rv, after ++ behind, passedAfter)

/-- All items are called, and an execution goes on behind them. -/
def HandsOn (items after : List (PqItem State World)) (passed next : Passed World) : Prop :=
  ∀ behind rv behindAfter passedAfter,
    executeItems behind next = .ok (rv, behindAfter, passedAfter) →
    executeItems (items ++ behind) passed = .ok (rv, after ++ behindAfter, passedAfter)

theorem stops_here (called : callItem item passed = .ok result) (negative : result.rv < 0)
    (same : result.world = passed.world) : Stops (item :: items) passed :=
  ⟨result.rv, afterCall item result :: items, { passed with world := result.world }, negative, same,
    fun _ => execute_cons_stops called negative⟩

theorem stops_later (called : callItem item passed = .ok result) (fine : 0 ≤ result.rv)
    (same : result.world = passed.world) (stops : Stops items (handedOn result)) :
    Stops (item :: items) passed := by
  obtain ⟨rv, after, passedAfter, negative, world, run⟩ := stops
  refine ⟨rv, afterCall item result :: after, passedAfter, negative, world.trans same, ?_⟩
  intro behind
  exact execute_cons_goes_on called fine (run behind)

theorem hands_on_cons (called : callItem item passed = .ok result) (fine : 0 ≤ result.rv)
    (handsOn : HandsOn items after (handedOn result) next) :
    HandsOn (item :: items) (afterCall item result :: after) passed next := by
  intro behind rv behindAfter passedAfter run
  exact execute_cons_goes_on called fine (handsOn behind rv behindAfter passedAfter run)

end Executions

section Chains

variable {Lib : Type} (build : Build Lib)

/-- The items of the calls and their stations. -/
inductive AllStand : List (QueueCall Lib) → List (Item Lib) → List (Station Lib) → Prop where
  | nil : AllStand [] [] []
  | cons {call : QueueCall Lib} {item : Item Lib} {station : Station Lib}
      {calls : List (QueueCall Lib)} {items : List (Item Lib)} {stations : List (Station Lib)}
      (working : Working build call item) (stands : StandsFor build call item station)
      (others : AllStand calls items stations) :
      AllStand (call :: calls) (item :: items) (station :: stations)

variable {build}

theorem path_stands {source target : Rep} {calls : List (QueueCall Lib)}
    (path : Path (Turns (platformOf build)) source calls target) :
    ∀ (items : List (Item Lib)) (stations : List (Station Lib)) (data : Buf) (len : Nat) (world : World),
      AllStand build calls items stations → (∀ call ∈ calls, Known build call) →
      Holds build source data len →
      (chain Station.stage stations (data.take len) = none ∧ Stops items ⟨some data, len, world⟩) ∨
      ∃ stationsAfter after out outLen,
        chain Station.stage stations (data.take len) = some (stationsAfter, out.take outLen) ∧
        Holds build target out outLen ∧ AllStand build calls after stationsAfter ∧
        HandsOn items after ⟨some data, len, world⟩ ⟨some out, outLen, world⟩ := by
  induction path with
  | nil node =>
      intro items stations data len world stand _ holds
      cases stand
      exact Or.inr ⟨[], [], data, len, rfl, holds, .nil, fun _ _ _ _ run => run⟩
  | cons turns others ih =>
      intro items stations data len world stand known holds
      cases stand with
      | @cons call item station _ restItems restStations working stands restStand =>
          obtain ⟨callKnown, restKnown⟩ := List.forall_mem_cons.mp known
          obtain ⟨result, out, called, isOut, sameWorld, still, answered⟩ :=
            station_call working stands turns callKnown holds world
          by_cases failed : result.rv < 0
          · left
            refine ⟨?_, stops_here called failed sameWorld⟩
            rw [chain, answered.fails failed]
            rfl
          · have fine := Int.not_lt.mp failed
            obtain ⟨stationAfter, answer, standsAfter⟩ := answered.goesOn fine
            have passedOn : handedOn result = ⟨some out, toUInt32 result.rv, world⟩ := by
              rw [handedOn, isOut, sameWorld]
            rcases ih restItems restStations out (toUInt32 result.rv) world restStand restKnown
              (answered.holds fine) with
              ⟨none, stops⟩ | ⟨stationsAfter, after, last, lastLen, some, lastHolds, allStand, handsOn⟩
            · left
              rw [← passedOn] at stops
              refine ⟨?_, stops_later called fine sameWorld stops⟩
              rw [chain, answer, Option.bind_some, none]
              rfl
            · right
              rw [← passedOn] at handsOn
              refine ⟨stationAfter :: stationsAfter, afterCall item result :: after, last, lastLen, ?_,
                lastHolds, .cons still standsAfter allStand, hands_on_cons called fine handsOn⟩
              rw [chain, answer, Option.bind_some, some]
              rfl

end Chains

section Starts

theorem forall₂_append_left {Left Right : Type} {related : Left → Right → Prop}
    {front back : List Left} {all : List Right} (pairs : List.Forall₂ related (front ++ back) all) :
    ∃ first second, List.Forall₂ related front first ∧ List.Forall₂ related back second ∧
      all = first ++ second :=
  ⟨all.take front.length, all.drop front.length,
    (List.forall₂_take_append all front back pairs.flip).flip,
    (List.forall₂_drop_append all front back pairs.flip).flip, (List.take_append_drop _ _).symm⟩

variable {Lib : Type} (build : Build Lib)

/-- The station of a call before the first frame: a new library state, and an
output area with whatever the memory held. -/
inductive Starts : QueueCall Lib → Station Lib → Prop where
  | converter {fmt : FormatDesc} {toFromN : Bool} :
      Starts (.fmtConvert fmt toFromN) (.converter fmt toFromN)
  | codec {desc : CodecDesc Lib} {encDecN : Bool} {step : LibStep Lib} {lib : Lib} {area : Buf}
      (found : codecStep build.libs (codecFormatType desc encDecN) encDecN = some step)
      (init : desc.codecInit = some lib) (room : area.length = step.outLen) :
      Starts (.codec desc encDecN) (.codec step lib area)

/-- Calls whose items are stages: all but the AMR decoder. -/
def HasStage (call : QueueCall Lib) : Prop :=
  match call with
  | .fmtConvert _ _ => True
  | .codec desc encDecN => (codecStep build.libs (codecFormatType desc encDecN) encDecN).isSome
  | _ => False

variable {build} {call : QueueCall Lib} {item : Item Lib}

theorem prepared_stands (known : Known build call) (hasStage : HasStage build call)
    (made : PreparedFor (platformOf build) call item) :
    ∃ station, Starts build call station ∧ StandsFor build call item station := by
  have working := prepared_working known made
  obtain ⟨queued, finished, prepared⟩ := made
  cases call with
  | fileInput _ | fileOutput _ | rtpInput _ _ | rtpOutput _ _ | alsaInput _ | alsaOutput _ | ecu _ =>
      exact hasStage.elim
  | fmtConvert fmt toFromN => exact ⟨_, .converter, .converter⟩
  | codec desc encDecN =>
      obtain ⟨step, found⟩ := Option.isSome_iff_exists.mp hasStage
      obtain ⟨type, inTable⟩ := known
      rw [build.codec_get_eq] at inTable
      obtain ⟨fmt, codecPcm, state, _, _, ready, hasState, rfl⟩ := finished
      obtain ⟨proc, isProc⟩ := Option.isSome_iff_exists.mp ready
      obtain ⟨callback, initialised⟩ := codec_callback inTable isProc
      obtain ⟨lib, init⟩ := Option.isSome_iff_exists.mp initialised
      have target : (callSignature (platformOf build) (.codec desc encDecN)).lenOut =
          repLen (platformOf build) (codecTarget (codecFormatType desc encDecN) encDecN) := by
        cases encDecN with
        | false => rw [turns_signature (platformOf build) (.decode desc)]; rfl
        | true => rw [turns_signature (platformOf build) (.encode desc)]; rfl
      have notSink : (callSignature (platformOf build) (.codec desc encDecN)).type ≠ .sink := by
        cases encDecN <;> exact nofun
      obtain ⟨dst, isDst, room⟩ := working.buffer notSink
      rw [target] at room
      rw [CodecState, init] at hasState
      obtain ⟨handle, rfl⟩ := hasState
      have space := (callback_step callback found).room.trans room.ge
      have isState : item.state = .heap handle (.codec lib) := by
        rw [prepared.same]
        rfl
      exact ⟨_, .codec found init (List.length_take_of_le space), .codec found isState isDst⟩

theorem all_prepared_stand {calls : List (QueueCall Lib)} {items : List (Item Lib)}
    (made : List.Forall₂ (PreparedFor (platformOf build)) calls items)
    (known : ∀ call ∈ calls, Known build call) (hasStage : ∀ call ∈ calls, HasStage build call) :
    ∃ stations, List.Forall₂ (Starts build) calls stations ∧ AllStand build calls items stations := by
  induction made with
  | nil => exact ⟨[], .nil, .nil⟩
  | cons first _ ih =>
      obtain ⟨callKnown, restKnown⟩ := List.forall_mem_cons.mp known
      obtain ⟨callStage, restStage⟩ := List.forall_mem_cons.mp hasStage
      obtain ⟨station, starts, stands⟩ := prepared_stands callKnown callStage first
      obtain ⟨stations, allStart, allStand⟩ := ih restKnown restStage
      exact ⟨station :: stations, .cons starts allStart,
        .cons (prepared_working callKnown first) stands allStand⟩

theorem codec_has_stage {type : CodecType} {codec : CodecDesc Lib}
    (found : build.registry.codecGetFromType type = some codec) (encDecN : Bool)
    (ready : (codecProc codec encDecN).isSome) :
    HasStage build (.codec codec encDecN) ∨
      codecFormatType codec encDecN = .amrOpencore ∧ encDecN = false := by
  rw [build.codec_get_eq] at found
  obtain ⟨proc, isProc⟩ := Option.isSome_iff_exists.mp ready
  have callback := (codec_callback found isProc).1
  rw [HasStage]
  generalize codecFormatType codec encDecN = format at callback
  cases callback with
  | amrDecode => exact Or.inr ⟨rfl, rfl⟩
  | _ => exact Or.inl rfl

theorem fixed_not_amr {fmt : FormatDesc}
    (registered : build.registry.fmtGetFromType fmt.type = some fmt) (fixed : fmt.frameLen ≠ 0) :
    fmt.codecType ≠ .amr := by
  intro isAmr
  have found := (build.fmt_get_eq _).symm.trans registered
  rcases format_lengths found with (amr | amr) | ⟨_, canonical⟩
  · exact fixed (congrArg FormatDesc.frameLen amr)
  · exact fixed (congrArg FormatDesc.frameLen amr)
  · rw [isAmr] at canonical
    exact canonical rfl

variable (request : AcceptedOptions build.registry)

/-- Between the ends of a chain with input frames of a fixed length there are only
stages. -/
theorem middle_has_stage (fixed : request.fmtIn.frameLen ≠ 0) {decoding encoding : List (QueueCall Lib)}
    (decodes : Decoding (platformOf build) request.fmtIn request.fmtOut decoding)
    (encodes : Encoding (platformOf build) request.fmtIn request.fmtOut encoding) :
    ∀ call ∈ decoding ++ encoding, HasStage build call := by
  have wellFormed := build.registry_well_formed
  have decoder : ∀ codec, needDec request.fmtIn request.fmtOut = true →
      build.registry.codecGetFromType request.fmtIn.codecType = some codec →
      HasStage build (.codec codec false) := by
    intro codec needed found
    rcases codec_has_stage found false (request.decodes wellFormed needed found) with
      hasStage | ⟨opencore, _⟩
    · exact hasStage
    · have names : codec.codecDecFormatType = .amrOpencore := opencore
      obtain ⟨fmt, known, same⟩ := wellFormed.decoderFormat found (by rw [names]; exact nofun)
      rw [names] at known
      cases known
      exact absurd same.symm (fixed_not_amr request.registeredIn fixed)
  have encoder : ∀ codec, needEnc request.fmtIn request.fmtOut = true →
      build.registry.codecGetFromType request.fmtOut.codecType = some codec →
      HasStage build (.codec codec true) := by
    intro codec needed found
    rcases codec_has_stage found true (request.encodes wellFormed needed found) with
      hasStage | ⟨_, decodes⟩
    · exact hasStage
    · cases decodes
  have decodingStages : ∀ call ∈ decoding, HasStage build call := by
    cases decodes with
    | native needed found _ => exact List.forall_mem_singleton.mpr (decoder _ needed found)
    | foreign needed found _ =>
        exact List.forall_mem_cons.mpr ⟨trivial, List.forall_mem_cons.mpr
          ⟨trivial, List.forall_mem_singleton.mpr (decoder _ needed found)⟩⟩
    | canonical _ _ => exact List.forall_mem_singleton.mpr trivial
    | same _ _ => exact List.forall_mem_nil _
  have encodingStages : ∀ call ∈ encoding, HasStage build call := by
    cases encodes with
    | native needed found _ => exact List.forall_mem_singleton.mpr (encoder _ needed found)
    | foreign needed found _ =>
        exact List.forall_mem_cons.mpr ⟨encoder _ needed found, List.forall_mem_cons.mpr
          ⟨trivial, List.forall_mem_singleton.mpr trivial⟩⟩
    | canonical _ _ => exact List.forall_mem_singleton.mpr trivial
    | same _ _ => exact List.forall_mem_nil _
  exact List.forall_mem_append.mpr ⟨decodingStages, encodingStages⟩

end Starts

end Gapk.Stages
