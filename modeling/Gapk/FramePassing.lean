import Gapk.RtpSource
import Gapk.RtpStream
import Gapk.WholeFile

/-!
# Frames on their way through a chain

An item that gets a frame of the representation which its call consumes hands on
a frame of the representation which its call produces, or returns a negative
value. Frames without a fixed length are AMR frames.
-/

namespace Gapk.FramePassing

open CheckedMemory BitBuffer FixedWidth HostWords Paths
open Gapk.BitOrders Gapk.Formats Gapk.Procqueue Gapk.Streams Gapk.PqRtp Gapk.RtpSource
open Gapk.QueueOps Gapk.QueueLedger Gapk.Codecs Gapk.App Gapk.Chain Gapk.ChainTyping
open Gapk.Converters Gapk.QueueRuns Gapk.WholeFile Gapk.FmtAmr

set_option autoImplicit false

section Frames

variable {Lib : Type} (build : Build Lib)

/-- The longest frame of a representation without a fixed length. An RTP payload
has one octet more than the AMR frame in it. -/
def longestFrame : Rep → Nat
  | .fmt .rtpAmr => 33
  | _ => 32

/-- A buffer that starts with a frame of that representation. -/
structure Holds (rep : Rep) (data : Buf) (len : Nat) : Prop where
  room : data.length = outputSize (repLen (platformOf build) rep)
  fixed : repLen (platformOf build) rep ≠ 0 → len = repLen (platformOf build) rep
  unsized : repLen (platformOf build) rep = 0 → len ≤ longestFrame rep

theorem longest_frame_le (rep : Rep) : longestFrame rep ≤ 33 := by
  unfold longestFrame
  split <;> decide

variable {build} {rep : Rep} {data : Buf} {len : Nat}

theorem Holds.inside (holds : Holds build rep data len) : len ≤ data.length := by
  have longest := longest_frame_le rep
  rw [holds.room, outputSize, varBufSize]
  by_cases sized : repLen (platformOf build) rep = 0
  · rw [if_pos sized]
    have bound := holds.unsized sized
    omega
  · rw [if_neg sized, holds.fixed sized]

theorem format_len_eq {type : FormatType} {fmt : FormatDesc}
    (found : build.registry.fmtGetFromType type = some fmt) :
    repLen (platformOf build) (.fmt type) = fmt.frameLen := by
  have known : (platformOf build).registry.fmtGetFromType type = some fmt := found
  rw [repLen, formatLen, known]

theorem canon_len_eq (type : CodecType) :
    repLen (platformOf build) (.canon type) = canonFrameLen type := by
  have known : (platformOf build).registry.codecGetFromType type =
      codecTable build.config build.libs type := build.codec_get_eq type
  rw [repLen, canonLen, known]
  cases found : codecTable build.config build.libs type with
  | none => cases type <;> cases found; rfl
  | some codec => exact build.codec_table_canon_len found

end Frames

section Formats

variable {Lib : Type} {build : Build Lib}

/-- What a call leaves in its output buffer: a frame, unless it fails. -/
structure Produces (build : Build Lib) (target : Rep) (rv : Int) (out : Buf) : Prop where
  room : out.length = outputSize (repLen (platformOf build) target)
  frame : 0 ≤ rv → Holds build target out (toUInt32 rv)

theorem produces_failed {target : Rep} {out : Buf} {rv : Int} (failed : rv < 0)
    (room : out.length = outputSize (repLen (platformOf build) target)) :
    Produces build target rv out where
  room := room
  frame positive := absurd positive (Int.not_le.mpr failed)

theorem produces_fixed {target : Rep} {out : Buf} {len : Nat} (small : len < 2 ^ 32)
    (fixed : len ≠ 0) (same : repLen (platformOf build) target = len) (size : out.length = len) :
    Produces build target len out where
  room := by rw [same, outputSize, if_neg fixed, size]
  frame _ := {
    room := by rw [same, outputSize, if_neg fixed, size]
    fixed := fun _ => by rw [same, to_uint32_eq small]
    unsized := fun unsized => absurd (same.symm.trans unsized) fixed }

theorem produces_unsized {target : Rep} {out : Buf} {len : Nat}
    (unsized : repLen (platformOf build) target = 0) (size : out.length = varBufSize)
    (bound : len ≤ longestFrame target) : Produces build target len out where
  room := by rw [unsized, outputSize, if_pos rfl, size]
  frame _ := {
    room := by rw [unsized, outputSize, if_pos rfl, size]
    fixed := fun sized => absurd unsized sized
    unsized := fun _ => by
      have longest := longest_frame_le target
      rw [to_uint32_eq (by omega)]
      exact bound }

theorem fixed_converter_runs {source target : Rep} {convert : FmtConvCb} {lenIn lenOut : Nat}
    (takes : TakesFrames convert lenIn lenOut) (fixedIn : lenIn ≠ 0) (fixedOut : lenOut ≠ 0)
    (small : lenOut < 2 ^ 32) (sameIn : repLen (platformOf build) source = lenIn)
    (sameOut : repLen (platformOf build) target = lenOut) {dst data : Buf} {len : Nat}
    (holds : Holds build source data len)
    (room : dst.length = outputSize (repLen (platformOf build) target)) :
    ∃ rv out, convert dst data len = .ok (rv, out) ∧ Produces build target rv out := by
  have exactly : len = lenIn := by
    rw [← sameIn] at fixedIn ⊢
    exact holds.fixed fixedIn
  have size : data.length = lenIn := by
    rw [holds.room, sameIn, outputSize, if_neg fixedIn]
  have space : dst.length = lenOut := by
    rw [room, sameOut, outputSize, if_neg fixedOut]
  rw [exactly]
  rcases takes_frames_run takes size space with ⟨_, run⟩ | ⟨out, _, outSize, run⟩
  · exact ⟨-1, dst, run, produces_failed (by decide) room⟩
  · exact ⟨lenOut, out, run, produces_fixed small fixedOut sameOut outSize⟩

theorem amr_opencore_copies {dst data : Buf} {len : Nat} (inside : len ≤ data.length)
    (room : len ≤ dst.length) (small : len < 2 ^ 31) (toFromN : Bool) :
    ∃ out, converter fmtAmrOpencore toFromN dst data len = .ok ((len : Int), out) ∧
      out.length = dst.length := by
  refine ⟨_, amr_opencore_run inside room small toFromN, ?_⟩
  rw [List.length_append, List.length_take_of_le inside, List.length_drop]
  omega

theorem rtp_amr_writes {dst data : Buf} {len : Nat} (inside : len ≤ data.length)
    (room : len + 1 ≤ dst.length) (small : len + 1 < 2 ^ 31) :
    ∃ out, converter fmtRtpAmr true dst data len = .ok (((len + 1 : Nat) : Int), out) ∧
      out.length = dst.length := by
  refine ⟨_, AmrFormats.rtp_amr_from_canon_run inside room small, ?_⟩
  rw [List.length_append, List.length_cons, List.length_take_of_le inside, List.length_drop]
  omega

theorem converter_runs {source target : Rep} {fmt : FormatDesc} {toFromN : Bool}
    (turns : Turns (platformOf build) source (.fmtConvert fmt toFromN) target)
    (asked : toFromN = false → fmt.type ≠ .rtpAmr) {dst data : Buf} {len : Nat}
    (holds : Holds build source data len)
    (room : dst.length = outputSize (repLen (platformOf build) target)) :
    ∃ rv out, converter fmt toFromN dst data len = .ok (rv, out) ∧
      Produces build target rv out := by
  have inside := holds.inside
  cases turns with
  | toCanon registered =>
      have found := (build.fmt_get_eq _).symm.trans registered
      rcases format_lengths found with (amr | amr) | ⟨fixed, fixedCanon⟩
      · subst amr
        have space : dst.length = varBufSize := room.trans (congrArg outputSize (canon_len_eq .amr))
        have bound : len ≤ 32 := holds.unsized rfl
        obtain ⟨out, run, size⟩ := amr_opencore_copies inside (by rw [space, varBufSize]; omega)
          (by omega) false
        exact ⟨_, out, run, produces_unsized (canon_len_eq .amr) (size.trans space) bound⟩
      · exact absurd (congrArg FormatDesc.type amr) (asked rfl)
      · have small := (format_small found).2
        exact fixed_converter_runs (reader_takes_frames found fixed) fixed fixedCanon (by omega)
          (format_len_eq registered) (canon_len_eq _) holds room
  | fromCanon registered =>
      have found := (build.fmt_get_eq _).symm.trans registered
      rcases format_lengths found with (amr | amr) | ⟨fixed, fixedCanon⟩
      · subst amr
        have space : dst.length = varBufSize := room
        have bound : len ≤ 32 := holds.unsized (canon_len_eq .amr)
        obtain ⟨out, run, size⟩ := amr_opencore_copies inside (by rw [space, varBufSize]; omega)
          (by omega) true
        exact ⟨_, out, run, produces_unsized rfl (size.trans space) bound⟩
      · subst amr
        have space : dst.length = varBufSize := room
        have bound : len ≤ 32 := holds.unsized (canon_len_eq .amr)
        obtain ⟨out, run, size⟩ := rtp_amr_writes inside (by rw [space, varBufSize]; omega)
          (by omega)
        exact ⟨_, out, run, produces_unsized rfl (size.trans space) (by
          show len + 1 ≤ 33
          omega)⟩
      · have small := (format_small found).1
        exact fixed_converter_runs (writer_takes_frames found fixed) fixedCanon fixed (by omega)
          (canon_len_eq _) (format_len_eq registered) holds room

end Formats

section Codecs

variable {Lib : Type} {build : Build Lib} {source target : Rep} {dst data : Buf} {len : Nat}

theorem produces_len_unless_failed {fixedLen : Nat} (small : fixedLen < 2 ^ 32)
    (fixed : fixedLen ≠ 0) (same : repLen (platformOf build) target = fixedLen) (rc : Int)
    (size : dst.length = fixedLen) : Produces build target (lenUnlessFailed fixedLen rc) dst := by
  rw [lenUnlessFailed]
  split_ifs with failed
  · exact produces_failed failed (by rw [same, outputSize, if_neg fixed, size])
  · exact produces_fixed small fixed same size

theorem lib_call_runs {call : LibCall Lib} (keeps : KeepsArea call) {inLen outLen : Nat}
    {returned : Int → Int} (inside : inLen ≤ data.length) (space : outLen ≤ dst.length)
    (produces : ∀ lib input area out, out.length = dst.length →
      Produces build target (returned (call lib input area).2.1) out)
    (handle : Nat) (content : Lib) (world : World) :
    ∃ rv contentAfter out, libCall call inLen outLen returned (.heap handle (.codec content))
        (some dst) (some data) len world =
      .ok { rv := rv, state := .heap handle (.codec contentAfter), out := some out, world := world } ∧
      Produces build target rv out := by
  have size : (call content (data.take inLen) (dst.take outLen)).2.2.length = outLen := by
    rw [keeps, List.length_take_of_le space]
  have copied := memcpy_eq (by omega : 0 + outLen ≤ dst.length)
    (by omega : 0 + outLen ≤ (call content (data.take inLen) (dst.take outLen)).2.2.length)
  refine ⟨_, (call content (data.take inLen) (dst.take outLen)).1, _, ?_,
    produces content (data.take inLen) (dst.take outLen) _ (memcpy_length copied)⟩
  simp only [libCall, codecState, exec_pure, exec_bind_ok, deref_some, read_bytes_eq inside,
    read_bytes_eq space, copied]
  rfl

theorem checked_call_runs {call : LibCall Lib} (keeps : KeepsArea call) {lenIn outLen : Nat}
    {returned : Int → Int} (holds : Holds build source data len)
    (same : repLen (platformOf build) source = lenIn) (fixed : lenIn ≠ 0) (space : outLen ≤ dst.length)
    (produces : ∀ lib input area out, out.length = dst.length →
      Produces build target (returned (call lib input area).2.1) out)
    (handle : Nat) (content : Lib) (world : World) :
    ∃ rv contentAfter out, (do
        require (len = lenIn)
        libCall call lenIn outLen returned (.heap handle (.codec content)) (some dst) (some data) len
          world) =
      .ok { rv := rv, state := .heap handle (.codec contentAfter), out := some out, world := world } ∧
      Produces build target rv out := by
  rw [← same] at fixed
  have exactly : len = lenIn := (holds.fixed fixed).trans same
  have inside := holds.inside
  rw [require_true exactly, exec_bind_ok]
  exact lib_call_runs keeps (by omega) space produces handle content world

/-- The call-backs of the codecs with a library, and the format of each one. -/
inductive CodecCallback (libs : CodecLibs Lib) :
    FormatType → Bool → ProcCb (StateContent Lib) World → Prop where
  | frEncode : CodecCallback libs .gsm true (codecFrEncode libs)
  | frDecode : CodecCallback libs .gsm false (codecFrDecode libs)
  | hrEncode : CodecCallback libs .hrRefEnc true (codecHrEncode libs)
  | hrDecode : CodecCallback libs .hrRefDec false (codecHrDecode libs)
  | efrEncode : CodecCallback libs .amrEfr true (codecEfrEncode libs)
  | efrDecode : CodecCallback libs .amrEfr false (codecEfrDecode libs)
  | amrEncode : CodecCallback libs .amrOpencore true (codecAmrEncode libs)
  | amrDecode : CodecCallback libs .amrOpencore false (codecAmrDecode libs)

theorem codec_callback {type : CodecType} {desc : CodecDesc Lib} {encDecN : Bool}
    {proc : ProcCb (StateContent Lib) World}
    (found : codecTable build.config build.libs type = some desc)
    (isProc : codecProc desc encDecN = some proc) :
    CodecCallback build.libs (codecFormatType desc encDecN) encDecN proc ∧ desc.codecInit.isSome := by
  cases type with
  | invalid => cases found
  | pcm =>
      cases found
      cases encDecN <;> cases isProc
  | fr =>
      cases found
      unfold codecFrDesc at isProc ⊢
      split_ifs at isProc ⊢
      · cases encDecN <;> cases isProc
        · exact ⟨.frDecode, rfl⟩
        · exact ⟨.frEncode, rfl⟩
      · cases encDecN <;> cases isProc
  | hr =>
      cases found
      unfold codecHrDesc at isProc ⊢
      split_ifs at isProc ⊢
      · cases encDecN <;> cases isProc
        · exact ⟨.hrDecode, rfl⟩
        · exact ⟨.hrEncode, rfl⟩
      · cases encDecN <;> cases isProc
  | efr =>
      cases found
      unfold codecEfrDesc at isProc ⊢
      split_ifs at isProc ⊢
      · cases encDecN <;> cases isProc
        · exact ⟨.efrDecode, rfl⟩
        · exact ⟨.efrEncode, rfl⟩
      · cases encDecN <;> cases isProc
  | amr =>
      cases found
      unfold codecAmrDesc at isProc ⊢
      split_ifs at isProc ⊢
      · cases encDecN <;> cases isProc
        · exact ⟨.amrDecode, rfl⟩
        · exact ⟨.amrEncode, rfl⟩
      · cases encDecN <;> cases isProc

/-- A codec decodes frames of its format and encodes samples. -/
def codecSource (type : FormatType) (encDecN : Bool) : Rep :=
  if encDecN then .canon .pcm else .fmt type

def codecTarget (type : FormatType) (encDecN : Bool) : Rep :=
  if encDecN then .fmt type else .canon .pcm

theorem turns_codec {source target : Rep} {desc : CodecDesc Lib} {encDecN : Bool}
    (turns : Turns (platformOf build) source (.codec desc encDecN) target) :
    source = codecSource (codecFormatType desc encDecN) encDecN ∧
      target = codecTarget (codecFormatType desc encDecN) encDecN := by
  cases turns <;> exact ⟨rfl, rfl⟩

theorem codec_runs {type : FormatType} {encDecN : Bool} {proc : ProcCb (StateContent Lib) World}
    (callback : CodecCallback build.libs type encDecN proc)
    (holds : Holds build (codecSource type encDecN) data len)
    (room : dst.length = outputSize (repLen (platformOf build) (codecTarget type encDecN)))
    (handle : Nat) (content : Lib) (world : World) :
    ∃ rv contentAfter out, proc (.heap handle (.codec content)) (some dst) (some data) len world =
      .ok { rv := rv, state := .heap handle (.codec contentAfter), out := some out, world := world } ∧
      Produces build (codecTarget type encDecN) rv out := by
  have pcm : repLen (platformOf build) (.canon .pcm) = pcmCanonLen := canon_len_eq .pcm
  have pcmRoom : outputSize (repLen (platformOf build) (.canon .pcm)) = pcmCanonLen :=
    congrArg outputSize pcm
  have decoded : ∀ (rc : Int) (out : Buf), out.length = pcmCanonLen →
      Produces build (.canon .pcm) (lenUnlessFailed pcmCanonLen rc) out := fun rc out size =>
    produces_len_unless_failed (by decide) (by decide) pcm rc size
  have alwaysDecoded : ∀ out : Buf, out.length = pcmCanonLen →
      Produces build (.canon .pcm) pcmCanonLen out := fun out size =>
    produces_fixed (by decide) (by decide) pcm size
  have gsm : repLen (platformOf build) (.fmt .gsm) = frCanonLen := rfl
  have hrRefDec : repLen (platformOf build) (.fmt .hrRefDec) = hrRefDecLen := rfl
  have hrRefEnc : repLen (platformOf build) (.fmt .hrRefEnc) = hrRefEncLen := rfl
  have amrEfr : repLen (platformOf build) (.fmt .amrEfr) = 32 := rfl
  cases callback with
  | frDecode =>
      have size : dst.length = pcmCanonLen := room.trans pcmRoom
      exact checked_call_runs build.libs.gsmDecodeArea holds gsm (by decide) size.ge
        (fun _ _ _ out same => decoded _ out (same.trans size)) handle content world
  | frEncode =>
      have size : dst.length = frCanonLen := room
      exact checked_call_runs build.libs.gsmEncodeArea holds pcm (by decide) size.ge
        (fun _ _ _ out same => produces_fixed (by decide) (by decide) gsm (same.trans size))
        handle content world
  | hrDecode =>
      have size : dst.length = pcmCanonLen := room.trans pcmRoom
      exact checked_call_runs build.libs.gsmhrDecodeArea holds hrRefDec (by decide) size.ge
        (fun _ _ _ out same => decoded _ out (same.trans size)) handle content world
  | hrEncode =>
      have size : dst.length = hrRefEncLen := room
      exact checked_call_runs build.libs.gsmhrEncodeArea holds pcm (by decide) size.ge
        (fun _ _ _ out same => produces_len_unless_failed (by decide) (by decide) hrRefEnc _
          (same.trans size)) handle content world
  | efrDecode =>
      have size : dst.length = pcmCanonLen := room.trans pcmRoom
      exact checked_call_runs build.libs.decoderArea holds amrEfr (by decide) size.ge
        (fun _ _ _ out same => alwaysDecoded out (same.trans size)) handle content world
  | efrEncode =>
      have size : dst.length = 32 := room
      refine checked_call_runs build.libs.encoderArea holds pcm (by decide) size.ge
        (fun lib input area out same => ?_) handle content world
      split_ifs
      · exact produces_failed (by decide) (same.trans room)
      · exact produces_fixed (by decide) (by decide) amrEfr (same.trans size)
  | amrDecode =>
      have size : dst.length = pcmCanonLen := room.trans pcmRoom
      have inside : data.length = varBufSize := holds.room
      exact lib_call_runs build.libs.decoderArea (by rw [inside]; decide) size.ge
        (fun _ _ _ out same => alwaysDecoded out (same.trans size)) handle content world
  | amrEncode =>
      have size : dst.length = varBufSize := room
      have inside : data.length = pcmCanonLen := holds.room.trans pcmRoom
      refine lib_call_runs build.libs.encoderArea inside.ge (by rw [size]; decide)
        (fun lib input area out same => ?_) handle content world
      have bound := build.libs.encodedLen lib input area
      by_cases failed : (build.libs.encoderInterfaceEncode lib input area).2.1 < 0
      · exact produces_failed failed (same.trans room)
      · obtain ⟨returned, isNat⟩ := Int.eq_ofNat_of_zero_le (Int.not_lt.mp failed)
        rw [isNat] at bound ⊢
        exact produces_unsized rfl (same.trans size) (Int.ofNat_le.mp bound)

end Codecs

section Items

variable {Lib : Type} (build : Build Lib)

/-- Calls of a chain behind a socket. AMR payloads are never read there. -/
def Known (call : QueueCall Lib) : Prop :=
  match call with
  | .rtpInput _ _ | .fileOutput _ | .rtpOutput _ _ | .alsaOutput _ => True
  | .fmtConvert fmt toFromN => toFromN = false → fmt.type ≠ .rtpAmr
  | .codec desc _ => ∃ type, build.registry.codecGetFromType type = some desc
  | .fileInput _ | .alsaInput _ | .ecu _ => False

/-- The state of an item is of the kind that its call-back takes it for. -/
def HasState (call : QueueCall Lib) (state : State Lib) : Prop :=
  match call with
  | .rtpInput blkLen _ => ∃ handle rtp, state = .heap handle (.rtp rtp) ∧ rtp.blkLen = toInt32 blkLen
  | .fmtConvert _ _ => True
  | .codec desc encDecN =>
      (codecProc desc encDecN).isSome ∧ ∃ handle content, state = .heap handle (.codec content)
  | .fileOutput _ => ∃ handle blkLen, state = .heap handle (.file blkLen)
  | .rtpOutput _ _ => ∃ handle rtp, state = .heap handle (.rtp rtp) ∧ rtp.sequence < 2 ^ 16 ∧
      rtp.timestamp < 2 ^ 32 ∧ rtp.ssrc < 2 ^ 32
  | .alsaOutput _ => ∃ handle blkLen, state = .heap handle (.alsa blkLen)
  | .fileInput _ | .alsaInput _ | .ecu _ => False

/-- The item of a call at any time after the queue was prepared. -/
structure Working (call : QueueCall Lib) (item : Item Lib) : Prop where
  serves : Serves (platformOf build) call item
  state : HasState call item.state
  buffer : (callSignature (platformOf build) call).type ≠ .sink → ∃ buf, item.buf = some buf ∧
    buf.length = outputSize (callSignature (platformOf build) call).lenOut

variable {build} {call : QueueCall Lib} {item : Item Lib}

theorem finished_has_state (known : Known build call)
    (finished : Finished (platformOf build) call item) : HasState call item.state := by
  cases call with
  | fileInput _ | alsaInput _ | ecu _ => exact known
  | fmtConvert _ _ => trivial
  | fileOutput blkLen | alsaOutput blkLen =>
      obtain ⟨handle, rfl⟩ := finished
      exact ⟨handle, blkLen, rfl⟩
  | rtpInput blkLen pt =>
      obtain ⟨handle, outcome, rfl⟩ := finished
      refine ⟨handle, newRtpState blkLen true pt outcome, rfl, ?_⟩
      rw [newRtpState]
  | rtpOutput blkLen pt =>
      obtain ⟨handle, outcome, rfl⟩ := finished
      have sequence := Nat.mod_lt outcome.randSequence (Nat.two_pow_pos 16)
      have timestamp := Nat.mod_lt outcome.randTimestamp (Nat.two_pow_pos 32)
      have ssrc := Nat.mod_lt outcome.randSsrc (Nat.two_pow_pos 32)
      exact ⟨handle, _, rfl, sequence, timestamp, ssrc⟩
  | codec desc encDecN =>
      obtain ⟨fmt, codecPcm, state, _, _, ready, hasState, rfl⟩ := finished
      obtain ⟨type, found⟩ := known
      rw [build.codec_get_eq] at found
      obtain ⟨proc, isProc⟩ := Option.isSome_iff_exists.mp ready
      obtain ⟨content, init⟩ := Option.isSome_iff_exists.mp (codec_callback found isProc).2
      rw [CodecState, init] at hasState
      obtain ⟨handle, same⟩ := hasState
      exact ⟨ready, handle, content, same⟩

theorem prepared_working (known : Known build call)
    (made : PreparedFor (platformOf build) call item) : Working build call item := by
  obtain ⟨queued, finished, prepared⟩ := made
  constructor
  · have serves := finished_serves (platformOf build) finished
    rw [prepared.same]
    exact serves
  · have state := finished_has_state known finished
    rw [prepared.same]
    exact state
  · rw [← finished_signature (platformOf build) finished]
    exact prepared.allocated

theorem all_working {calls : List (QueueCall Lib)} {items : List (Item Lib)}
    (known : ∀ call ∈ calls, Known build call)
    (made : List.Forall₂ (PreparedFor (platformOf build)) calls items) :
    List.Forall₂ (Working build) calls items := by
  have both := (List.forall₂_and_left calls items).mpr ⟨known, made⟩
  exact both.imp fun _ _ each => prepared_working each.1 each.2

theorem serving_call (serves : Serves (platformOf build) call item) (passed : Passed World) :
    callItem item passed =
        callBack (platformOf build) call item.state item.buf passed.buf passed.len passed.world ∧
      ∀ result, callItem item passed = .ok result →
        Serves (platformOf build) call (afterCall item result) := by
  obtain ⟨proc, isProc, effect⟩ := serves_call (platformOf build) serves
  obtain ⟨same, serving⟩ := effect passed.buf passed.len passed.world
  have called : callItem item passed =
      proc item.state item.buf passed.buf passed.len passed.world := by
    rw [callItem, touch_eq serves.1, exec_bind_ok, isProc, deref_some, exec_bind_ok]
  rw [called]
  exact ⟨same, serving⟩

theorem working_after (working : Working build call item) (passed : Passed World)
    {result : ProcResult (StateContent Lib) World}
    (run : callBack (platformOf build) call item.state item.buf passed.buf passed.len passed.world =
      .ok result) (state : HasState call result.state)
    (buffer : (callSignature (platformOf build) call).type ≠ .sink → ∃ out, result.out = some out ∧
      out.length = outputSize (callSignature (platformOf build) call).lenOut) :
    callItem item passed = .ok result ∧ Working build call (afterCall item result) := by
  obtain ⟨same, serving⟩ := serving_call working.serves passed
  have called := same.trans run
  exact ⟨called, serving result called, state, buffer⟩

end Items

section Calls

variable {Lib : Type} {build : Build Lib} {call : QueueCall Lib} {item : Item Lib} {data : Buf}
  {len : Nat} (working : Working build call item) (world : World)

include working

omit working in
theorem convert_call {fmt : FormatDesc} {toFromN : Bool}
    (working : Working build (.fmtConvert fmt toFromN) item) {dst out : Buf} {rv : Int}
    (isDst : item.buf = some dst) (run : converter fmt toFromN dst data len = .ok (rv, out))
    (world : World)
    (room : out.length = outputSize (callSignature (platformOf build) (.fmtConvert fmt toFromN)).lenOut) :
    ∃ result, callItem item { buf := some data, len := len, world := world } = .ok result ∧
      result.rv = rv ∧ result.out = some out ∧
      Working build (.fmtConvert fmt toFromN) (afterCall item result) := by
  have ran : callBack (platformOf build) (.fmtConvert fmt toFromN) item.state item.buf (some data)
      len world = .ok { rv := rv, state := item.state, out := some out, world := world } := by
    rw [isDst]
    show (converter fmt toFromN dst data len >>= fun converted => _) = _
    rw [run]
    rfl
  obtain ⟨called, after⟩ := working_after working ⟨some data, len, world⟩ ran trivial
    fun _ => ⟨out, rfl, room⟩
  exact ⟨_, called, rfl, rfl, after⟩

omit working in
theorem convert_call_faults {fmt : FormatDesc} {toFromN : Bool}
    (working : Working build (.fmtConvert fmt toFromN) item) {dst : Buf} {fault : Fault}
    (isDst : item.buf = some dst) (run : converter fmt toFromN dst data len = .error fault)
    (world : World) :
    callItem item { buf := some data, len := len, world := world } = .error fault := by
  rw [(serving_call working.serves _).1, isDst]
  show (converter fmt toFromN dst data len >>= fun converted => _) = _
  rw [run]
  rfl

theorem turn_call {source target : Rep} (turns : Turns (platformOf build) source call target)
    (known : Known build call) (holds : Holds build source data len) :
    ∃ result out, callItem item { buf := some data, len := len, world := world } = .ok result ∧
      result.out = some out ∧ Produces build target result.rv out ∧
      Working build call (afterCall item result) := by
  have signature := turns_signature (platformOf build) turns
  obtain ⟨dst, isDst, room⟩ := working.buffer (by rw [signature]; exact nofun)
  rw [signature] at room
  cases call with
  | fileInput _ | fileOutput _ | rtpInput _ _ | rtpOutput _ _ | alsaInput _ | alsaOutput _ | ecu _ =>
      cases turns
  | fmtConvert fmt toFromN =>
      obtain ⟨rv, out, run, produces⟩ := converter_runs turns known holds room
      obtain ⟨result, called, returned, isOut, after⟩ := convert_call working isDst run world
        (by rw [signature]; exact produces.room)
      rw [← returned] at produces
      exact ⟨result, out, called, isOut, produces, after⟩
  | codec desc encDecN =>
      obtain ⟨type, found⟩ := known
      rw [build.codec_get_eq] at found
      obtain ⟨ready, handle, content, state⟩ := working.state
      obtain ⟨proc, isProc⟩ := Option.isSome_iff_exists.mp ready
      obtain ⟨sameSource, sameTarget⟩ := turns_codec turns
      rw [sameSource] at holds
      rw [sameTarget] at room
      obtain ⟨rv, contentAfter, out, run, produces⟩ := codec_runs (codec_callback found isProc).1
        holds room handle content world
      rw [← sameTarget] at produces
      have ran : callBack (platformOf build) (.codec desc encDecN) item.state item.buf (some data)
          len world = .ok { rv := rv, state := .heap handle (.codec contentAfter), out := some out,
                            world := world } := by
        rw [callBack, isProc, state, isDst]
        exact run
      obtain ⟨called, after⟩ := working_after working ⟨some data, len, world⟩ ran
        ⟨ready, handle, contentAfter, rfl⟩
        fun _ => ⟨out, rfl, by rw [signature]; exact produces.room⟩
      exact ⟨_, out, called, rfl, produces, after⟩

/-- A sink takes whatever is in its input buffer. -/
theorem sink_call_ends (known : Known build call)
    (isSink : (callSignature (platformOf build) call).type = .sink) (inside : len ≤ data.length)
    (small : len + 12 < 2 ^ 31) :
    ∃ result, callItem item { buf := some data, len := len, world := world } = .ok result ∧
      result.rv ≤ 0 ∧ Working build call (afterCall item result) := by
  have finish : ∀ result : ProcResult (StateContent Lib) World,
      callBack (platformOf build) call item.state item.buf (some data) len world = .ok result →
      result.rv ≤ 0 → HasState call result.state →
      ∃ result, callItem item { buf := some data, len := len, world := world } = .ok result ∧
        result.rv ≤ 0 ∧ Working build call (afterCall item result) := by
    intro result ran ended state
    obtain ⟨called, after⟩ := working_after working ⟨some data, len, world⟩ ran state
      fun other => absurd isSink other
    exact ⟨result, called, ended, after⟩
  cases call with
  | fileInput _ | rtpInput _ _ | alsaInput _ | ecu _ => cases isSink
  | fmtConvert fmt toFromN => cases toFromN <;> cases isSink
  | codec desc encDecN => cases encDecN <;> cases isSink
  | fileOutput declared =>
      obtain ⟨handle, blkLen, state⟩ := working.state
      have ran : callBack (platformOf build) (.fileOutput declared) item.state item.buf (some data) len
          world = .ok { rv := if (world.fwrite (data.take len)).1 = 1 then 0 else -1
                        state := .heap handle (.file blkLen), out := item.buf
                        world := (world.fwrite (data.take len)).2 } := by
        simp only [callBack, pqCbFileOutput, state, fileState, exec_pure, exec_bind_ok, deref_some,
          read_bytes_eq inside]
      refine finish _ ran ?_ ⟨handle, blkLen, rfl⟩
      simp only []
      split_ifs <;> decide
  | rtpOutput _ _ =>
      obtain ⟨handle, rtp, state, sequence, timestamp, ssrc⟩ := working.state
      have run : pqCbRtpOutput build.host (.heap handle (.rtp rtp) : State Lib) item.buf (some data) len
          world = _ :=
        RtpStream.pq_cb_rtp_output_run build.host ⟨data, len, inside⟩ sequence timestamp ssrc small
          world
      rw [← state] at run
      refine finish _ run ?_ ⟨handle, _, rfl, Nat.mod_lt _ (Nat.two_pow_pos 16),
        Nat.mod_lt _ (Nat.two_pow_pos 32), ssrc⟩
      simp only []
      split_ifs <;> decide
  | alsaOutput declared =>
      obtain ⟨handle, blkLen, state⟩ := working.state
      have whole : 2 * (len / 2) ≤ data.length := by omega
      -- A failed write is repeated once; what counts is that the call-back ends.
      have ran : ∃ done after, callBack (platformOf build) (.alsaOutput declared) item.state item.buf
          (some data) len world = .ok { rv := if done = true then 0 else -1
                                        state := .heap handle (.alsa blkLen), out := item.buf
                                        world := after } := by
        simp only [callBack, pqCbAlsaOutput, state, alsaState, exec_pure, exec_bind_ok, deref_some,
          read_bytes_eq whole]
        exact ⟨_, _, rfl⟩
      obtain ⟨done, after, ran⟩ := ran
      refine finish _ ran ?_ ⟨handle, blkLen, rfl⟩
      simp only []
      split_ifs <;> decide

end Calls

end Gapk.FramePassing
