import Gapk.FramePassing

/-!
# Payload lengths behind an RTP source

The source hands on payloads of every length up to the size of its buffer. The
call-back behind it insists on the length of the input format, or substitutes a
frame, or copies what there is.
-/

namespace Gapk.PayloadLengths

open CheckedMemory BitBuffer FixedWidth Paths
open Gapk.Formats Gapk.Procqueue Gapk.Streams Gapk.PqRtp Gapk.RtpSource Gapk.QueueOps
open Gapk.QueueLedger Gapk.Codecs Gapk.App Gapk.Chain Gapk.Options Gapk.ChainTyping
open Gapk.Converters Gapk.QueueRuns Gapk.WholeFile Gapk.FramePassing

set_option autoImplicit false

section Source

variable {Lib : Type} {build : Build Lib} {blkLen pt : Nat} {item : Item Lib}
  (working : Working build (.rtpInput blkLen pt) item) (small : blkLen + 256 < 2 ^ 31)
  {world : World}

include working small

/-- The call of the source is that of its call-back, with a receive buffer of
`blkLen + 256` bytes. -/
theorem source_called (fixed : blkLen ≠ 0) :
    ∃ handle rtp dst, dst.length = blkLen ∧ rtp.blkLen = toInt32 blkLen ∧
      item.state = .heap handle (.rtp rtp) ∧ item.buf = some dst ∧
      receiveSize rtp.blkLen = .ok (blkLen + 256) ∧
      callItem item (firstCall world) =
        pqCbRtpInput build.host (.heap handle (.rtp rtp)) (some dst) none 0 world := by
  obtain ⟨handle, rtp, state, same⟩ := working.state
  obtain ⟨dst, isDst, room⟩ := working.buffer nofun
  refine ⟨handle, rtp, dst, room.trans (if_neg fixed), same, state, isDst, ?_, ?_⟩
  · rw [same, to_int32_eq (by omega) (by omega), receiveSize, if_pos (by omega)]
    rfl
  · rw [(serving_call working.serves _).1, state, isDst]
    rfl

theorem source_refuses (fixed : blkLen ≠ 0)
    (refused : ¬RtpAccepts (delivered world (blkLen + 256))) :
    ∃ result, callItem item (firstCall world) = .ok result ∧ result.rv = -1 ∧
      Working build (.rtpInput blkLen pt) (afterCall item result) := by
  obtain ⟨handle, rtp, dst, size, same, state, isDst, sized, called⟩ :=
    source_called working small fixed
  rw [pq_cb_rtp_input_refuses build.host sized refused] at called
  refine ⟨_, called, rfl, (serving_call working.serves _).2 _ called, ⟨handle, rtp, rfl, same⟩, ?_⟩
  exact fun _ => ⟨dst, rfl, size.trans (if_neg fixed).symm⟩

theorem source_hands_on (fixed : blkLen ≠ 0)
    (accepted : RtpAccepts (delivered world (blkLen + 256)))
    (fits : payloadLen (delivered world (blkLen + 256)) ≤ blkLen) :
    ∃ result out, callItem item (firstCall world) = .ok result ∧ 0 ≤ result.rv ∧
      handedOn result =
        ⟨some out, payloadLen (delivered world (blkLen + 256)), result.world⟩ ∧
      out.length = blkLen ∧ Working build (.rtpInput blkLen pt) (afterCall item result) := by
  obtain ⟨handle, rtp, dst, size, same, state, isDst, sized, called⟩ :=
    source_called working small fixed
  rw [pq_cb_rtp_input_run build.host sized accepted, size, if_pos fits] at called
  have whole : (payloadBytes (delivered world (blkLen + 256)) ++
      dst.drop (payloadLen (delivered world (blkLen + 256)))).length = blkLen := by
    have inside := accepted.2.2.2.2
    have payload : payloadLen (delivered world (blkLen + 256)) =
        (delivered world (blkLen + 256)).length - headerLen (delivered world (blkLen + 256)) -
          paddingLen (delivered world (blkLen + 256)) := rfl
    rw [List.length_append, payloadBytes, List.length_take, List.length_drop, List.length_drop, size]
    omega
  refine ⟨_, _, called, Int.natCast_nonneg _, ?_, whole, (serving_call working.serves _).2 _ called,
    ⟨handle, _, rfl, same⟩, ?_⟩
  · rw [handedOn, to_uint32_eq (by omega)]
  · exact fun _ => ⟨_, rfl, whole.trans (if_neg fixed).symm⟩

theorem source_faults (fixed : blkLen ≠ 0)
    (accepted : RtpAccepts (delivered world (blkLen + 256)))
    (long : blkLen < payloadLen (delivered world (blkLen + 256))) :
    callItem item (firstCall world) = .error .outOfBounds := by
  obtain ⟨handle, rtp, dst, size, same, state, isDst, sized, called⟩ :=
    source_called working small fixed
  rw [called, pq_cb_rtp_input_run build.host sized accepted, size, if_neg (by omega)]

end Source

section Executions

variable {Lib : Type} {build : Build Lib} {sink : QueueCall Lib} (knownSink : Known build sink)
  (isSink : (callSignature (platformOf build) sink).type = .sink) {world : World}

include knownSink isSink

theorem sink_executes {item : Item Lib} (working : Working build sink item) {data : Buf} {len : Nat}
    (inside : len ≤ data.length) (small : len + 12 < 2 ^ 31) :
    ∃ rv after passed, executeItems [item] { buf := some data, len := len, world := world } =
        .ok (rv, after, passed) ∧ rv ≤ 0 ∧ List.Forall₂ (Working build) [sink] after := by
  obtain ⟨result, called, ended, still⟩ := sink_call_ends working world knownSink isSink inside small
  have after := List.Forall₂.cons still List.Forall₂.nil
  by_cases failed : result.rv < 0
  · exact ⟨_, _, _, execute_cons_stops called failed, ended, after⟩
  · exact ⟨_, _, _, execute_cons_goes_on called (Int.not_lt.mp failed) rfl, Int.le_refl 0, after⟩

/-- From a frame of the representation that the first call consumes on, all items
are called, or one of them fails with a negative value. -/
theorem path_executes {source target : Rep} {calls : List (QueueCall Lib)}
    (path : Path (Turns (platformOf build)) source calls target)
    (bounded : outputSize (repLen (platformOf build) target) + 12 < 2 ^ 31) :
    ∀ (items : List (Item Lib)) (data : Buf) (len : Nat) (world : World),
      (∀ call ∈ calls, Known build call) → List.Forall₂ (Working build) (calls ++ [sink]) items →
      Holds build source data len →
      ∃ rv after passed, executeItems items { buf := some data, len := len, world := world } =
          .ok (rv, after, passed) ∧ rv ≤ 0 ∧
        List.Forall₂ (Working build) (calls ++ [sink]) after := by
  induction path with
  | nil node =>
      intro items data len world _ working holds
      obtain ⟨item, _, itemWorking, empty, rfl⟩ := List.forall₂_cons_left_iff.mp working
      cases empty
      have inside := holds.inside
      exact sink_executes knownSink isSink itemWorking inside (by rw [holds.room] at inside; omega)
  | cons turns others ih =>
      intro items data len world known working holds
      obtain ⟨item, rest, itemWorking, restWorking, rfl⟩ := List.forall₂_cons_left_iff.mp working
      obtain ⟨callKnown, restKnown⟩ := List.forall_mem_cons.mp known
      obtain ⟨result, out, called, isOut, produces, still⟩ :=
        turn_call itemWorking world turns callKnown holds
      by_cases failed : result.rv < 0
      · exact ⟨_, _, _, execute_cons_stops called failed, by omega, List.Forall₂.cons still restWorking⟩
      · have fine := Int.not_lt.mp failed
        obtain ⟨rv, after, passed, run, ended, restStill⟩ := ih bounded rest out
          (toUInt32 result.rv) result.world restKnown restWorking (produces.frame fine)
        rw [← isOut] at run
        exact ⟨rv, _, passed, execute_cons_goes_on called fine run, ended,
          List.Forall₂.cons still restStill⟩

end Executions

section Middle

variable {Lib : Type} {build : Build Lib} (request : AcceptedOptions build.registry)

/-- The calls between source and sink, by what the first one makes of a payload. -/
inductive Middle : List (QueueCall Lib) → Prop where
  | copies (same : request.fmtIn.type = request.fmtOut.type) : Middle []
  | converts (differ : request.fmtIn.type ≠ request.fmtOut.type) (rest : List (QueueCall Lib)) :
      Middle (.fmtConvert request.fmtIn false :: rest)
  | decodes (differ : request.fmtIn.type ≠ request.fmtOut.type) {codec : CodecDesc Lib}
      (found : build.registry.codecGetFromType request.fmtIn.codecType = some codec)
      (native : request.fmtIn.type = codec.codecDecFormatType) (rest : List (QueueCall Lib)) :
      Middle (.codec codec false :: rest)

theorem codecs_differ_types (differ : request.fmtIn.codecType ≠ request.fmtOut.codecType) :
    request.fmtIn.type ≠ request.fmtOut.type := by
  intro same
  rw [same_format (platformOf build) request same] at differ
  exact differ rfl

theorem middle_of {decoding encoding : List (QueueCall Lib)}
    (decodes : Decoding (platformOf build) request.fmtIn request.fmtOut decoding)
    (encodes : Encoding (platformOf build) request.fmtIn request.fmtOut encoding) :
    Middle request (decoding ++ encoding) := by
  cases decodes with
  | native needed found native =>
      exact .decodes (codecs_differ_types request (request.need_dec_iff.mp needed).2) found native _
  | foreign needed _ _ =>
      exact .converts (codecs_differ_types request (request.need_dec_iff.mp needed).2) _
  | canonical _ differ => exact .converts differ _
  | same _ same =>
      cases encodes with
      | native needed _ _ | foreign needed _ _ =>
          exact absurd same (codecs_differ_types request (request.need_enc_iff.mp needed).2.symm)
      | canonical _ differ => exact absurd same differ
      | same _ _ => exact .copies same

theorem callback_not_rtp {type : FormatType} {encDecN : Bool} {proc : ProcCb (StateContent Lib) World}
    (callback : CodecCallback build.libs type encDecN proc) :
    ¬ReadsAnyLength type ∧ type ≠ .rtpAmr := by
  cases callback <;> exact ⟨by decide, nofun⟩

theorem fixed_not_rtp_amr {fmt : FormatDesc} (found : build.registry.fmtGetFromType fmt.type = some fmt)
    (fixed : fmt.frameLen ≠ 0) : fmt.type ≠ .rtpAmr := by
  intro rtpAmr
  rw [rtpAmr] at found
  cases found
  exact fixed rfl

theorem middle_known (fixed : request.fmtIn.frameLen ≠ 0) {decoding encoding : List (QueueCall Lib)}
    (decodes : Decoding (platformOf build) request.fmtIn request.fmtOut decoding)
    (encodes : Encoding (platformOf build) request.fmtIn request.fmtOut encoding) :
    ∀ call ∈ decoding ++ encoding, Known build call := by
  have input : Known build (.fmtConvert request.fmtIn false : QueueCall Lib) :=
    fun _ => fixed_not_rtp_amr request.registeredIn fixed
  have decodingKnown : ∀ call ∈ decoding, Known build call := by
    cases decodes with
    | native needed found native => exact List.forall_mem_singleton.mpr ⟨_, found⟩
    | foreign needed found decoder =>
        exact List.forall_mem_cons.mpr ⟨input, List.forall_mem_cons.mpr
          ⟨nofun, List.forall_mem_singleton.mpr ⟨_, found⟩⟩⟩
    | canonical _ _ => exact List.forall_mem_singleton.mpr input
    | same _ _ => exact List.forall_mem_nil _
  have encodingKnown : ∀ call ∈ encoding, Known build call := by
    cases encodes with
    | native needed found native => exact List.forall_mem_singleton.mpr ⟨_, found⟩
    | foreign needed found encoder =>
        have wellFormed := build.registry_well_formed
        have own := (encoder_format (platformOf build) wellFormed found encoder).1
        obtain ⟨proc, isProc⟩ := Option.isSome_iff_exists.mp (request.encodes wellFormed needed found)
        have inTable := (build.codec_get_eq _).symm.trans found
        refine List.forall_mem_cons.mpr ⟨⟨_, found⟩, List.forall_mem_cons.mpr
          ⟨fun _ => ?_, List.forall_mem_singleton.mpr nofun⟩⟩
        rw [own]
        have callback : CodecCallback build.libs (codecFormatType _ true) true proc ∧ _ :=
          codec_callback inTable isProc
        exact (callback_not_rtp callback.1).2
    | canonical _ _ => exact List.forall_mem_singleton.mpr nofun
    | same _ _ => exact List.forall_mem_nil _
  exact List.forall_mem_append.mpr ⟨decodingKnown, encodingKnown⟩

end Middle

section FirstCall

variable {Lib : Type} {build : Build Lib} {fmt : FormatDesc} {item : Item Lib} (data : Buf)
  {len : Nat}

/-- The readers that substitute a frame for a payload that is too short, within
the buffer for canonical frames. -/
def Substitutes (type : FormatType) : Prop := type = .rtpEfr ∨ type = .rtpHrEtsi

theorem substitutes_reads {type : FormatType} (substitutes : Substitutes type) :
    ReadsAnyLength type :=
  substitutes.imp_right Or.inl

theorem substitutes_fill {type : FormatType} {fmt : FormatDesc}
    (found : formatTable build.host build.tables type = some fmt) (substitutes : Substitutes type) :
    fillLen fmt = canonFrameLen fmt.codecType ∧ canonFrameLen fmt.codecType ≠ 0 := by
  rcases substitutes with rfl | rfl <;> cases found <;> exact ⟨rfl, by decide⟩

theorem reader_signature (registered : build.registry.fmtGetFromType fmt.type = some fmt) :
    callSignature (platformOf build) (.fmtConvert fmt false : QueueCall Lib) =
      ⟨.proc, fmt.frameLen, canonFrameLen fmt.codecType⟩ := by
  rw [turns_signature (platformOf build) (.toCanon registered), format_len_eq registered,
    canon_len_eq]

theorem turns_reader {source target : Rep}
    (turns : Turns (platformOf build) source (.fmtConvert fmt false) target) :
    target = .canon fmt.codecType := by
  cases turns
  rfl

theorem substitute_call (registered : build.registry.fmtGetFromType fmt.type = some fmt)
    (substitutes : Substitutes fmt.type) (working : Working build (.fmtConvert fmt false) item)
    (short : len ≠ fmt.frameLen) (world : World) :
    ∃ result out, callItem item { buf := some data, len := len, world := world } = .ok result ∧
      result.out = some out ∧ 0 ≤ result.rv ∧
      Holds build (.canon fmt.codecType) out (toUInt32 result.rv) ∧
      Working build (.fmtConvert fmt false) (afterCall item result) := by
  have found := (build.fmt_get_eq _).symm.trans registered
  have signature := reader_signature registered
  obtain ⟨fill, fixed⟩ := substitutes_fill found substitutes
  obtain ⟨dst, isDst, space⟩ := working.buffer (by rw [signature]; exact nofun)
  have room : dst.length = canonFrameLen fmt.codecType := by
    rw [space, signature]
    exact if_neg fixed
  have lenient := reader_lenient found (substitutes_reads substitutes)
  have run := lenient.substitutes dst data len short (by rw [fill, room])
  have size : (zeros (fillLen fmt) ++ dst.drop (fillLen fmt)).length = canonFrameLen fmt.codecType := by
    rw [List.length_append, zeros_length, List.length_drop, room, fill]
    omega
  obtain ⟨result, called, returned, isOut, after⟩ := convert_call working isDst run world
    (by rw [size, signature]; exact (if_neg fixed).symm)
  have bound := (format_small found).2
  have small : canonFrameLen fmt.codecType < 2 ^ 32 := by omega
  have produces : Produces build (.canon fmt.codecType) (canonFrameLen fmt.codecType : Nat)
      (zeros (fillLen fmt) ++ dst.drop (fillLen fmt)) :=
    produces_fixed small fixed (canon_len_eq _) size
  have positive : 0 ≤ result.rv := by
    rw [returned]
    exact Int.natCast_nonneg _
  refine ⟨result, _, called, isOut, positive, ?_, after⟩
  rw [returned]
  exact produces.frame (Int.natCast_nonneg _)

/-- All other readers assert, or fill more than their buffer. -/
theorem reader_call_faults (registered : build.registry.fmtGetFromType fmt.type = some fmt)
    (fixed : fmt.frameLen ≠ 0) (strict : ¬Substitutes fmt.type)
    (working : Working build (.fmtConvert fmt false) item) (wrong : len ≠ fmt.frameLen)
    (world : World) :
    ∃ fault, callItem item { buf := some data, len := len, world := world } = .error fault := by
  have found := (build.fmt_get_eq _).symm.trans registered
  have signature := reader_signature registered
  obtain ⟨dst, isDst, room⟩ := working.buffer (by rw [signature]; exact nofun)
  by_cases lenient : ReadsAnyLength fmt.type
  · have ietf : fmt.type = .rtpHrIetf := by
      rcases lenient with efr | etsi | ietf
      · exact absurd (Or.inl efr) strict
      · exact absurd (Or.inr etsi) strict
      · exact ietf
    have run := (reader_lenient found lenient).overflows dst data len wrong (by
      rw [room, signature]
      rw [ietf] at found
      cases found
      exact (by decide : 14 < 15))
    exact ⟨_, convert_call_faults working isDst run world⟩
  · have run := (reader_strict found fixed lenient).asserts dst data len wrong
    exact ⟨_, convert_call_faults working isDst run world⟩

/-- A decoder asserts on frames of another length. -/
theorem callback_asserts {type : FormatType} {proc : ProcCb (StateContent Lib) World}
    (callback : CodecCallback build.libs type false proc)
    (sized : repLen (platformOf build) (.fmt type) ≠ 0)
    (wrong : len ≠ repLen (platformOf build) (.fmt type)) (state : State Lib) (out src : Option Buf)
    (world : World) : proc state out src len world = .error .assertion := by
  cases callback with
  | frDecode =>
      have other : ¬len = frCanonLen := wrong
      rw [codecFrDecode, require_false other]
      rfl
  | hrDecode =>
      have other : ¬len = hrRefDecLen := wrong
      rw [codecHrDecode, require_false other]
      rfl
  | efrDecode =>
      have other : ¬len = 32 := wrong
      rw [codecEfrDecode, require_false other]
      rfl
  | amrDecode => exact absurd rfl sized

theorem decoder_call_faults {type : CodecType} {codec : CodecDesc Lib}
    (inTable : codecTable build.config build.libs type = some codec)
    (registered : build.registry.fmtGetFromType codec.codecDecFormatType = some fmt)
    (fixed : fmt.frameLen ≠ 0) (working : Working build (.codec codec false) item)
    (wrong : len ≠ fmt.frameLen) (world : World) :
    callItem item { buf := some data, len := len, world := world } = .error .assertion := by
  obtain ⟨ready, _⟩ := working.state
  obtain ⟨proc, isProc⟩ := Option.isSome_iff_exists.mp ready
  have callback : CodecCallback build.libs codec.codecDecFormatType false proc :=
    (codec_callback inTable isProc).1
  rw [(serving_call working.serves _).1, callBack, isProc]
  rw [← format_len_eq registered] at fixed wrong
  exact callback_asserts callback fixed wrong _ _ _ _

end FirstCall

theorem frame_len_le {Lib : Type} {build : Build Lib} {fmt : FormatDesc}
    (registered : build.registry.fmtGetFromType fmt.type = some fmt) : fmt.frameLen ≤ varBufSize := by
  rw [build.fmt_get_eq] at registered
  cases type : fmt.type <;> rw [type] at registered <;> cases registered <;>
    exact of_decide_eq_true rfl

/-- A chain behind a socket, in which every call succeeded, prepared for its
executions. -/
structure RtpChain {Lib : Type} (build : Build Lib) where
  request : AcceptedOptions build.registry
  fixed : request.fmtIn.frameLen ≠ 0
  input : Stream
  output : Stream
  socket : input.fh = false ∧ input.fd ≠ -1
  outcomes : Nat → CallOutcome
  chain : Chain Lib
  built : makeProcessingChain (platformOf build) outcomes request.opts input output request.fmtIn
    request.fmtOut (emptyChain Lib) = .ok (0, chain)
  succeeded : ∀ log ∈ chain.calls, log.2 = 0
  memory : BufferAlloc
  prepared : Queue Lib
  prepares : osmoGapkPqPrepare memory chain.pq = .ok (0, prepared)

namespace RtpChain

variable {Lib : Type} {build : Build Lib} (setup : RtpChain build)

abbrev fmtIn : FormatDesc := setup.request.fmtIn
abbrev fmtOut : FormatDesc := setup.request.fmtOut

abbrev received (world : World) : Buf := delivered world (setup.fmtIn.frameLen + 256)

/-- The datagrams that the chain can do something with. A shorter payload is
copied between equal formats, and two readers substitute a frame for it. -/
def Takes (datagram : Buf) : Prop :=
  RtpAccepts datagram → payloadLen datagram = setup.fmtIn.frameLen ∨
    payloadLen datagram < setup.fmtIn.frameLen ∧
      (setup.fmtIn.type = setup.fmtOut.type ∨ Substitutes setup.fmtIn.type)

/-- What is known of the calls behind the source. -/
structure Behind (middle : List (QueueCall Lib)) (sink : QueueCall Lib) : Prop where
  first : Middle setup.request middle
  typed : Path (Turns (platformOf build)) (.fmt setup.fmtIn.type) middle (.fmt setup.fmtOut.type)
  known : ∀ call ∈ middle, Known build call
  knownSink : Known build sink
  isSink : (callSignature (platformOf build) sink).type = .sink

/-- The queue at any time after it was prepared. -/
def Kept (middle : List (QueueCall Lib)) (sink : QueueCall Lib) (pq : Queue Lib) : Prop :=
  List.Forall₂ (Working build)
    (.rtpInput setup.fmtIn.frameLen setup.request.opts.rtpPtIn :: (middle ++ [sink])) pq.items

theorem prepared_kept : ∃ middle sink, setup.Behind middle sink ∧ setup.Kept middle sink setup.prepared := by
  obtain ⟨source, decoding, encoding, sink, built⟩ := built_typed (platformOf build) setup.request
    setup.input setup.output build.registry_well_formed setup.built setup.succeeded
  have isSource : source = .rtpInput setup.fmtIn.frameLen setup.request.opts.rtpPtIn := by
    have reads := built.reads
    rw [sourceCall, setup.socket.1, if_neg (by decide), if_pos setup.socket.2] at reads
    cases reads
    rfl
  have decodes := decoding_cases _ _ _ built.decodes
  have encodes := encoding_cases _ _ _ built.encodes
  have known := middle_known setup.request setup.fixed decodes encodes
  have knownSink : Known build sink := by
    rcases sink_cases _ _ _ _ built.writes with rfl | rfl | rfl <;> trivial
  have isSink := congrArg Signature.type (sink_signature (platformOf build) built.writes)
  refine ⟨decoding ++ encoding, sink,
    ⟨middle_of setup.request decodes encodes, built.typed, known, knownSink, isSink⟩, ?_⟩
  have finished := built.finished
  rw [isSource, List.append_assoc [_], List.append_assoc [_], List.singleton_append] at finished
  apply all_working ?_ (finished_prepared finished (pq_prepare_ok setup.prepares))
  exact List.forall_mem_cons.mpr ⟨trivial, List.forall_mem_append.mpr
    ⟨known, List.forall_mem_singleton.mpr knownSink⟩⟩

section Execution

variable {setup} {middle : List (QueueCall Lib)} {sink : QueueCall Lib} {pq : Queue Lib}
  {world : World} (behind : setup.Behind middle sink) (kept : setup.Kept middle sink pq)

theorem receive_small : setup.fmtIn.frameLen + 256 < 2 ^ 31 := by
  have bound : setup.fmtIn.frameLen ≤ 320 := frame_len_le setup.request.registeredIn
  omega

theorem output_small :
    outputSize (repLen (platformOf build) (.fmt setup.fmtOut.type)) + 12 < 2 ^ 31 := by
  have bound : setup.fmtOut.frameLen ≤ 320 := frame_len_le setup.request.registeredOut
  have same : repLen (platformOf build) (.fmt setup.fmtOut.type) = setup.fmtOut.frameLen :=
    format_len_eq setup.request.registeredOut
  rw [same, outputSize, varBufSize]
  split_ifs <;> omega

section Taken

variable {items : List (Item Lib)} (working : List.Forall₂ (Working build) (middle ++ [sink]) items)
  {data : Buf} (size : data.length = setup.fmtIn.frameLen)

include behind working size

theorem whole_behind (world : World) :
    ∃ rv after passed, executeItems items ⟨some data, setup.fmtIn.frameLen, world⟩ =
        .ok (rv, after, passed) ∧ rv ≤ 0 ∧ List.Forall₂ (Working build) (middle ++ [sink]) after := by
  have same := format_len_eq setup.request.registeredIn
  have holds : Holds build (.fmt setup.fmtIn.type) data setup.fmtIn.frameLen := {
    room := by
      rw [size, same]
      exact (if_neg setup.fixed).symm
    fixed := fun _ => same.symm
    unsized := fun unsized => absurd (same.symm.trans unsized) setup.fixed }
  exact path_executes behind.knownSink behind.isSink behind.typed output_small items data _ world
    behind.known working holds

theorem short_behind {len : Nat} (short : len < setup.fmtIn.frameLen)
    (way : setup.fmtIn.type = setup.fmtOut.type ∨ Substitutes setup.fmtIn.type) (world : World) :
    ∃ rv after passed, executeItems items ⟨some data, len, world⟩ = .ok (rv, after, passed) ∧
      rv ≤ 0 ∧ List.Forall₂ (Working build) (middle ++ [sink]) after := by
  have typed := behind.typed
  have known := behind.known
  have bound : setup.fmtIn.frameLen ≤ 320 := frame_len_le setup.request.registeredIn
  cases behind.first with
  | copies same =>
      obtain ⟨item, _, itemWorking, empty, rfl⟩ := List.forall₂_cons_left_iff.mp working
      cases empty
      exact sink_executes behind.knownSink behind.isSink itemWorking (by omega) (by omega)
  | converts differ rest =>
      obtain ⟨item, others, itemWorking, restWorking, rfl⟩ := List.forall₂_cons_left_iff.mp working
      obtain ⟨result, out, called, isOut, positive, holds, still⟩ := substitute_call data
        setup.request.registeredIn (way.resolve_left differ) itemWorking short.ne world
      cases typed with
      | cons turns path =>
          rw [← turns_reader turns] at holds
          obtain ⟨rv, after, passed, run, ended, restStill⟩ := path_executes behind.knownSink
            behind.isSink path output_small others out (toUInt32 result.rv) result.world
            (List.forall_mem_cons.mp known).2 restWorking holds
          rw [← isOut] at run
          exact ⟨rv, _, passed, execute_cons_goes_on called positive run, ended,
            List.Forall₂.cons still restStill⟩
  | @decodes differ codec found native rest =>
      obtain ⟨item, others, itemWorking, _, _⟩ := List.forall₂_cons_left_iff.mp working
      obtain ⟨proc, isProc⟩ := Option.isSome_iff_exists.mp itemWorking.state.1
      have callback : CodecCallback build.libs codec.codecDecFormatType false proc :=
        (codec_callback ((build.codec_get_eq _).symm.trans found) isProc).1
      rw [← native] at callback
      exact absurd (substitutes_reads (way.resolve_left differ)) (callback_not_rtp callback).1

end Taken

include behind in
theorem untaken_behind {items : List (Item Lib)}
    (working : List.Forall₂ (Working build) (middle ++ [sink]) items) (data : Buf) {len : Nat}
    (wrong : len ≠ setup.fmtIn.frameLen)
    (noWay : ¬(setup.fmtIn.type = setup.fmtOut.type ∨ Substitutes setup.fmtIn.type)) (world : World) :
    ∃ fault, executeItems items { buf := some data, len := len, world := world } = .error fault := by
  obtain ⟨differ, strict⟩ := not_or.mp noWay
  have registeredIn := setup.request.registeredIn
  cases behind.first with
  | copies same => exact absurd same differ
  | converts differ rest =>
      obtain ⟨item, others, itemWorking, _, rfl⟩ := List.forall₂_cons_left_iff.mp working
      obtain ⟨fault, called⟩ :=
        reader_call_faults data registeredIn setup.fixed strict itemWorking wrong world
      exact ⟨fault, execute_cons_faults called⟩
  | @decodes differ codec found native rest =>
      obtain ⟨item, others, itemWorking, _, rfl⟩ := List.forall₂_cons_left_iff.mp working
      have registered := registeredIn
      rw [native] at registered
      have called := decoder_call_faults data ((build.codec_get_eq _).symm.trans found) registered
        setup.fixed itemWorking wrong world
      exact ⟨_, execute_cons_faults called⟩

include behind kept

theorem takes_executes (taken : setup.Takes (setup.received world)) :
    ∃ rv after worldAfter, osmoGapkPqExecute pq world = .ok (rv, after, worldAfter) ∧ rv ≤ 0 ∧
      setup.Kept middle sink after := by
  obtain ⟨item, rest, source, others, items⟩ := List.forall₂_cons_left_iff.mp kept
  by_cases accepted : RtpAccepts (setup.received world)
  · obtain ⟨result, out, called, positive, handed, size, still⟩ :=
      source_hands_on source receive_small setup.fixed accepted (by
        rcases taken accepted with whole | ⟨short, _⟩
        · exact whole.le
        · exact short.le)
    obtain ⟨rv, after, passed, run, ended, restStill⟩ : ∃ rv after passed,
        executeItems rest (handedOn result) = .ok (rv, after, passed) ∧ rv ≤ 0 ∧
          List.Forall₂ (Working build) (middle ++ [sink]) after := by
      rw [handed]
      rcases taken accepted with whole | ⟨short, way⟩
      · rw [whole]
        exact whole_behind behind others size result.world
      · exact short_behind behind others size short way result.world
    exact ⟨rv, _, _, execute_of_items items (execute_cons_goes_on called positive run), ended,
      List.Forall₂.cons still restStill⟩
  · obtain ⟨result, called, returned, still⟩ :=
      source_refuses source receive_small setup.fixed accepted
    have failed : result.rv < 0 := by
      rw [returned]
      decide
    exact ⟨_, _, _, execute_of_items items (execute_cons_stops called failed), failed.le,
      List.Forall₂.cons still others⟩

theorem untaken_faults (untaken : ¬setup.Takes (setup.received world)) :
    ∃ fault, osmoGapkPqExecute pq world = .error fault := by
  obtain ⟨item, rest, source, others, items⟩ := List.forall₂_cons_left_iff.mp kept
  have faults : ∀ fault, executeItems (item :: rest) (firstCall world) = .error fault →
      osmoGapkPqExecute pq world = .error fault := by
    intro fault run
    rw [osmoGapkPqExecute, items, run]
    rfl
  obtain ⟨accepted, noWay⟩ := Classical.not_imp.mp untaken
  obtain ⟨wrong, shorter⟩ := not_or.mp noWay
  by_cases long : setup.fmtIn.frameLen < payloadLen (setup.received world)
  · have called := source_faults source receive_small setup.fixed accepted long
    exact ⟨_, faults _ (execute_cons_faults called)⟩
  · have short : payloadLen (setup.received world) < setup.fmtIn.frameLen := by omega
    obtain ⟨result, out, called, positive, handed, size, still⟩ :=
      source_hands_on source receive_small setup.fixed accepted short.le
    obtain ⟨fault, run⟩ := untaken_behind behind others out wrong
      (fun way => shorter ⟨short, way⟩) result.world
    rw [← handed] at run
    refine ⟨fault, faults _ ?_⟩
    rw [execute_items_cons, called, exec_bind_ok, if_neg (Int.not_lt.mpr positive), run]
    rfl

end Execution

/-- A run in which every execution is defined, so that it trips no assertion, and
returns zero or a negative value. -/
def RunDefined : Queue Lib → List World → Prop
  | _, [] => True
  | pq, world :: rest => ∃ rv after worldAfter,
      osmoGapkPqExecute pq world = .ok (rv, after, worldAfter) ∧ rv ≤ 0 ∧ RunDefined after rest

theorem kept_run_iff {middle : List (QueueCall Lib)} {sink : QueueCall Lib}
    (behind : setup.Behind middle sink) (worlds : List World) :
    ∀ pq, setup.Kept middle sink pq →
      (RunDefined pq worlds ↔ ∀ world ∈ worlds, setup.Takes (setup.received world)) := by
  induction worlds with
  | nil => exact fun pq kept => iff_of_true trivial (List.forall_mem_nil _)
  | cons world rest ih =>
      intro pq kept
      rw [List.forall_mem_cons, RunDefined]
      by_cases taken : setup.Takes (setup.received world)
      · obtain ⟨rv, after, worldAfter, run, ended, still⟩ := takes_executes behind kept taken
        rw [← ih after still]
        constructor
        · rintro ⟨_, _, _, other, _, defined⟩
          rw [run] at other
          cases other
          exact ⟨taken, defined⟩
        · rintro ⟨_, defined⟩
          exact ⟨rv, after, worldAfter, run, ended, defined⟩
      · obtain ⟨fault, run⟩ := untaken_faults behind kept taken
        constructor
        · rintro ⟨_, _, _, other, _, _⟩
          rw [run] at other
          cases other
        · rintro ⟨wrong, _⟩
          exact absurd wrong taken

/-- A run of a chain behind a socket is defined exactly if the chain takes every
datagram that its source gets. -/
theorem run_defined_iff (worlds : List World) :
    RunDefined setup.prepared worlds ↔ ∀ world ∈ worlds, setup.Takes (setup.received world) := by
  obtain ⟨middle, sink, behind, kept⟩ := setup.prepared_kept
  exact setup.kept_run_iff behind worlds setup.prepared kept

end RtpChain

def rtpToPcm : AcceptedOptions Build.idle.registry where
  opts := ⟨none, 30000, none, some FmtGsm.fmtGsm, some "out", 0, none,
    some (FmtRawpcm.fmtRawpcmS16le .little), 3, 0, false⟩
  fmtIn := FmtGsm.fmtGsm
  fmtOut := FmtRawpcm.fmtRawpcmS16le .little
  isIn := rfl
  isOut := rfl
  registeredIn := Build.gsm_registered
  registeredOut := Build.rawpcm_registered
  accepted := rfl

/-- The chain that these options build, and its queue with the buffers. -/
def decoderChain : Chain Unit :=
  match makeProcessingChain (platformOf .idle) alwaysWorks rtpToPcm.opts ⟨false, 3⟩ ⟨true, -1⟩
    rtpToPcm.fmtIn rtpToPcm.fmtOut (emptyChain Unit) with
  | .ok (_, chain) => chain
  | .error _ => emptyChain Unit

def decoderQueue : Queue Unit :=
  match osmoGapkPqPrepare .cleared decoderChain.pq with
  | .ok (_, prepared) => prepared
  | .error _ => decoderChain.pq

def decodingChain : RtpChain Build.idle where
  request := rtpToPcm
  fixed := by decide
  input := ⟨false, 3⟩
  output := ⟨true, -1⟩
  socket := ⟨rfl, by decide⟩
  outcomes := alwaysWorks
  chain := decoderChain
  built := rfl
  succeeded := List.forall_mem_cons.mpr ⟨rfl, List.forall_mem_cons.mpr ⟨rfl,
    List.forall_mem_cons.mpr ⟨rfl, List.forall_mem_cons.mpr ⟨rfl, List.forall_mem_nil _⟩⟩⟩⟩
  memory := .cleared
  prepared := decoderQueue
  prepares := rfl

set_option maxRecDepth 4000 in
/-- A datagram with a payload of one octet ends the program in the decoder. -/
theorem short_payload_asserts :
    ¬∀ (build : Build Unit) (setup : RtpChain build) (world : World),
      osmoGapkPqExecute setup.prepared world ≠ .error .assertion := by
  intro never
  exact never .idle decodingChain (oneDatagram (plainDatagram [0])) rfl

end Gapk.PayloadLengths
