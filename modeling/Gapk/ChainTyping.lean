import Gapk.Library.Paths
import Gapk.Options
import Gapk.QueueRuns

/-!
# Representations along a chain

Many representations share a length, so the check of a queue cannot tell a wrong
conversion from a right one. What a chain makes of a frame is followed here from
item to item: each consumes the representation that the item before it produces.
-/

namespace Gapk.ChainTyping

open CheckedMemory FixedWidth HostWords Paths
open Gapk.Formats Gapk.Procqueue Gapk.Streams Gapk.PqRtp Gapk.QueueOps Gapk.QueueLedger Gapk.Codecs
open Gapk.App Gapk.Chain Gapk.Options

set_option autoImplicit false

/-- What the buffer between two items holds. -/
inductive Rep where
  | fmt (type : FormatType)
  | canon (type : CodecType)
  deriving DecidableEq, Repr

section Typing

variable {Lib : Type} (platform : Platform Lib)

/-- The representation that a call consumes and the one that it produces. PCM is
the canonical form of the PCM codec. -/
inductive Turns : Rep → QueueCall Lib → Rep → Prop where
  | toCanon {fmt : FormatDesc} (registered : platform.registry.fmtGetFromType fmt.type = some fmt) :
      Turns (.fmt fmt.type) (.fmtConvert fmt false) (.canon fmt.codecType)
  | fromCanon {fmt : FormatDesc} (registered : platform.registry.fmtGetFromType fmt.type = some fmt) :
      Turns (.canon fmt.codecType) (.fmtConvert fmt true) (.fmt fmt.type)
  | decode (desc : CodecDesc Lib) :
      Turns (.fmt desc.codecDecFormatType) (.codec desc false) (.canon .pcm)
  | encode (desc : CodecDesc Lib) :
      Turns (.canon .pcm) (.codec desc true) (.fmt desc.codecEncFormatType)

def repLen : Rep → Nat
  | .fmt type => formatLen platform type
  | .canon type => canonLen platform type

theorem turns_signature {source target : Rep} {call : QueueCall Lib}
    (turns : Turns platform source call target) :
    callSignature platform call = ⟨.proc, repLen platform source, repLen platform target⟩ := by
  cases turns with
  | toCanon registered | fromCanon registered =>
      simp only [callSignature, repLen, formatLen, registered]
  | decode desc | encode desc => rfl

variable (request : AcceptedOptions platform.registry)

def middle (fmtIn fmtOut : FormatDesc) : Rep :=
  if fmtIn.type = fmtOut.type then .fmt fmtIn.type
  else if fmtIn.codecType = fmtOut.codecType then .canon fmtIn.codecType
  else .canon .pcm

theorem same_format (same : request.fmtIn.type = request.fmtOut.type) :
    request.fmtIn = request.fmtOut := by
  have registered := request.registeredIn
  rw [same, request.registeredOut] at registered
  exact (Option.some.inj registered).symm

theorem middle_transcoding (differ : request.fmtIn.codecType ≠ request.fmtOut.codecType) :
    middle request.fmtIn request.fmtOut = .canon .pcm := by
  rw [middle, if_neg, if_neg differ]
  intro same
  rw [same_format platform request same] at differ
  exact differ rfl

variable (wellFormed : platform.registry.WellFormed)

include wellFormed

theorem decoder_format {type : CodecType} {codec : CodecDesc Lib} {fmt : FormatDesc}
    (found : platform.registry.codecGetFromType type = some codec)
    (decoder : platform.registry.fmtGetFromType codec.codecDecFormatType = some fmt) :
    fmt.type = codec.codecDecFormatType ∧ fmt.codecType = type := by
  refine ⟨wellFormed.formatType decoder, ?_⟩
  obtain ⟨other, same, own⟩ := wellFormed.decoderFormat found (by
    intro absent
    rw [absent] at decoder
    cases decoder)
  rw [decoder] at same
  cases same
  exact own

theorem encoder_format {type : CodecType} {codec : CodecDesc Lib} {fmt : FormatDesc}
    (found : platform.registry.codecGetFromType type = some codec)
    (encoder : platform.registry.fmtGetFromType codec.codecEncFormatType = some fmt) :
    fmt.type = codec.codecEncFormatType ∧ fmt.codecType = type := by
  refine ⟨wellFormed.formatType encoder, ?_⟩
  obtain ⟨other, same, own⟩ := wellFormed.encoderFormat found (by
    intro absent
    rw [absent] at encoder
    cases encoder)
  rw [encoder] at same
  cases same
  exact own

theorem decoding_path {calls : List (QueueCall Lib)}
    (decoding : Decoding platform request.fmtIn request.fmtOut calls) :
    Path (Turns platform) (.fmt request.fmtIn.type) calls
      (middle request.fmtIn request.fmtOut) := by
  cases decoding with
  | native needed found same =>
      rw [middle_transcoding platform request (request.need_dec_iff.mp needed).2, same]
      exact path_singleton (.decode _)
  | foreign needed found decoder =>
      rw [middle_transcoding platform request (request.need_dec_iff.mp needed).2]
      obtain ⟨own, ofCodec⟩ := decoder_format platform wellFormed found decoder
      refine .cons (.toCanon request.registeredIn) ?_
      rw [← ofCodec]
      refine .cons (.fromCanon (by rw [own]; exact decoder)) ?_
      rw [own]
      exact path_singleton (.decode _)
  | canonical unneeded different =>
      have canonical : middle request.fmtIn request.fmtOut = .canon request.fmtIn.codecType := by
        rw [middle, if_neg different]
        split_ifs with same
        · rfl
        · by_contra other
          have pcm : request.fmtIn.codecType ≠ .pcm := by
            intro pcm
            rw [pcm] at other
            exact other rfl
          rw [request.need_dec_iff.mpr ⟨pcm, same⟩] at unneeded
          cases unneeded
      rw [canonical]
      exact path_singleton (.toCanon request.registeredIn)
  | same unneeded same =>
      rw [middle, if_pos same]
      exact .nil _

theorem encoding_path {calls : List (QueueCall Lib)}
    (encoding : Encoding platform request.fmtIn request.fmtOut calls) :
    Path (Turns platform) (middle request.fmtIn request.fmtOut) calls
      (.fmt request.fmtOut.type) := by
  cases encoding with
  | native needed found same =>
      rw [middle_transcoding platform request (Ne.symm (request.need_enc_iff.mp needed).2), same]
      exact path_singleton (.encode _)
  | foreign needed found encoder =>
      rw [middle_transcoding platform request (Ne.symm (request.need_enc_iff.mp needed).2)]
      obtain ⟨own, ofCodec⟩ := encoder_format platform wellFormed found encoder
      refine .cons (.encode _) ?_
      rw [← own]
      refine .cons (.toCanon (by rw [own]; exact encoder)) ?_
      rw [ofCodec]
      exact path_singleton (.fromCanon request.registeredOut)
  | canonical unneeded different =>
      have canonical : middle request.fmtIn request.fmtOut = .canon request.fmtOut.codecType := by
        rw [middle, if_neg different]
        split_ifs with same
        · rw [same]
        · by_contra other
          have pcm : request.fmtOut.codecType ≠ .pcm := by
            intro pcm
            rw [pcm] at other
            exact other rfl
          rw [request.need_enc_iff.mpr ⟨pcm, Ne.symm same⟩] at unneeded
          cases unneeded
      rw [canonical]
      exact path_singleton (.fromCanon request.registeredOut)
  | same unneeded same =>
      rw [middle, if_pos same, same]
      exact .nil _

end Typing

section Lengths

variable {Lib : Type} (platform : Platform Lib)

theorem source_signature {opts : GapkOptions} {input : Stream} {fmtIn : FormatDesc}
    {call : QueueCall Lib} (source : sourceCall platform opts input fmtIn = some call) :
    callSignature platform call = ⟨.source, 0, fmtIn.frameLen⟩ := by
  rcases source_cases _ _ _ _ source with rfl | rfl | rfl <;> rfl

theorem sink_signature {opts : GapkOptions} {output : Stream} {fmtOut : FormatDesc}
    {call : QueueCall Lib} (sink : sinkCall platform opts output fmtOut = some call) :
    callSignature platform call = ⟨.sink, fmtOut.frameLen, 0⟩ := by
  rcases sink_cases _ _ _ _ sink with rfl | rfl | rfl <;> rfl

/-- Calls that turn one representation into the next fit between the two ends. -/
theorem typed_fits {source target : Rep} {first last : QueueCall Lib}
    {calls : List (QueueCall Lib)} (path : Path (Turns platform) source calls target)
    (starts : callSignature platform first = ⟨.source, 0, repLen platform source⟩)
    (ends : callSignature platform last = ⟨.sink, repLen platform target, 0⟩) :
    Fits (([first] ++ calls ++ [last]).map (callSignature platform)) := by
  have chained : (first :: (calls ++ [last])).IsChain
      fun before after => Accepts (callSignature platform before) (callSignature platform after) := by
    refine path_chain
      (fun call node => (callSignature platform call).lenOut = repLen platform node)
      (fun call node => (callSignature platform call).lenIn = repLen platform node)
      ?_ ?_ path ?_ ?_
    · intro before node after into out
      exact Or.inr (out.trans into.symm)
    · intro node call next turns
      rw [turns_signature platform turns]
      exact ⟨rfl, rfl⟩
    · rw [starts]
    · rw [ends]
  refine ⟨?_, ?_, ?_⟩
  · rw [List.isChain_map]
    exact chained
  · simp [starts]
  · rw [List.map_append, List.map_singleton, List.getLast?_concat, ends]
    rfl

theorem survivors_all_finished {results : List (QueueCall Lib × CallResult)}
    (all : ∀ pair ∈ results, pair.2 = .finished) :
    survivors platform results = (results.map Prod.fst).map (callSignature platform) := by
  induction results with
  | nil => rfl
  | cons pair rest ih =>
      obtain ⟨call, result⟩ := pair
      obtain ⟨own, others⟩ := List.forall_mem_cons.mp all
      simp only [] at own
      rw [own, survivors, ih others]
      rfl

end Lengths

section Success

variable {Lib : Type} (platform : Platform Lib)

/-- A call of a chain, never one for error concealment. -/
def OfChain : QueueCall Lib → Prop
  | .ecu _ => False
  | _ => True

theorem queue_codec_resolves {desc : CodecDesc Lib} {encDecN : Bool} {outcome : CallOutcome}
    {pq after : Queue Lib} {ledger ledgerAfter : Ledger}
    (run : osmoGapkPqQueueCodec platform.registry desc encDecN outcome pq ledger =
      .ok (0, after, ledgerAfter)) : Resolves platform (.codec desc encDecN) := by
  have item : ∀ (linkedPq : Queue Lib) (between : Ledger),
      queueCodecItem platform.registry desc encDecN linkedPq between = .ok (0, after, ledgerAfter) →
      Resolves platform (.codec desc encDecN) := by
    intro linkedPq between itemRun
    unfold queueCodecItem at itemRun
    cases found : platform.registry.fmtGetFromType (codecFormatType desc encDecN) with
    | none =>
        rw [found] at itemRun
        cases itemRun
    | some fmt =>
        rw [found] at itemRun
        cases pcm : platform.registry.codecGetFromType .pcm with
        | none =>
            rw [pcm] at itemRun
            cases itemRun
        | some codecPcm =>
            cases ready : codecProc desc encDecN with
            | none =>
                simp only [pcm, ready, deref_some, exec_bind_ok] at itemRun
                cases itemRun
            | some proc =>
                refine ⟨?_, ?_, ?_⟩
                · rw [found]
                  rfl
                · rw [pcm]
                  rfl
                · rw [ready]
                  rfl
  unfold osmoGapkPqQueueCodec at run
  obtain ⟨⟨added, pqAdded⟩, addRun, rest⟩ := (exec_bind_eq_ok _ _ _).mp run
  cases added with
  | false => cases rest
  | true =>
      simp only [Bool.not_true, Bool.false_eq_true, if_false] at rest
      cases init : desc.codecInit with
      | none =>
          simp only [init] at rest
          exact item _ _ rest
      | some content =>
          cases works : outcome.codecInitialised with
          | false =>
              simp only [init, works] at rest
              cases rest
          | true =>
              simp only [init, works, Bool.not_true, Bool.false_eq_true, if_false] at rest
              exact item _ _ rest

theorem queue_call_resolves {call : QueueCall Lib} (ofChain : OfChain call) {outcome : CallOutcome}
    {pq after : Queue Lib} {ledger ledgerAfter : Ledger}
    (run : queueCall platform.host platform.registry call outcome pq ledger =
      .ok (0, after, ledgerAfter)) : Resolves platform call := by
  cases call with
  | fileInput _ | fileOutput _ | rtpInput _ _ | rtpOutput _ _ | alsaInput _ | alsaOutput _ => trivial
  | fmtConvert fmt toFromN =>
      rw [queueCall, osmoGapkPqQueueFmtConvert] at run
      cases found : platform.registry.codecGetFromType fmt.codecType with
      | none =>
          rw [found] at run
          cases run
      | some codec =>
          rw [Resolves, found]
          rfl
  | codec desc encDecN => exact queue_codec_resolves platform run
  | ecu desc => exact absurd ofChain id

theorem enqueue_all_resolves (outcomes : Nat → CallOutcome) (calls : List (QueueCall Lib))
    (ofChain : ∀ call ∈ calls, OfChain call) :
    ∀ chain after : Chain Lib, enqueueAll platform outcomes calls chain = .ok after →
      (∀ log ∈ after.calls, log.2 = 0) →
      (∀ log ∈ chain.calls, log.2 = 0) ∧ ∀ call ∈ calls, Resolves platform call := by
  induction calls with
  | nil =>
      intro chain after run zero
      cases run
      exact ⟨zero, by simp⟩
  | cons call rest ih =>
      intro chain after run zero
      obtain ⟨callOfChain, restOfChain⟩ := List.forall_mem_cons.mp ofChain
      obtain ⟨between, step, restRun⟩ := (exec_bind_eq_ok _ _ _).mp run
      obtain ⟨zeroBetween, restResolve⟩ := ih restOfChain between after restRun zero
      obtain ⟨⟨rv, pq, ledger⟩, callRun, same⟩ := (exec_bind_eq_ok _ _ _).mp step
      cases same
      obtain ⟨zeroBefore, zeroCall⟩ := List.forall_mem_append.mp zeroBetween
      have returned : rv = 0 := zeroCall (call, rv) (List.mem_singleton_self _)
      rw [returned] at callRun
      exact ⟨zeroBefore, List.forall_mem_cons.mpr
        ⟨queue_call_resolves platform callOfChain callRun, restResolve⟩⟩

theorem plan_of_chain {opts : GapkOptions} {input output : Stream} {fmtIn fmtOut : FormatDesc}
    {calls : List (QueueCall Lib)}
    (planned : plan platform opts input output fmtIn fmtOut = some calls) :
    ∀ call ∈ calls, OfChain call := by
  obtain ⟨source, decoding, encoding, sink, isSource, isDecoding, isEncoding, isSink, rfl⟩ :=
    plan_eq_some _ _ _ _ _ _ planned
  have sourceOf : OfChain source := by
    rcases source_cases _ _ _ _ isSource with rfl | rfl | rfl <;> trivial
  have sinkOf : OfChain sink := by
    rcases sink_cases _ _ _ _ isSink with rfl | rfl | rfl <;> trivial
  have decodingOf : ∀ call ∈ decoding, OfChain call := by
    cases decoding_cases _ _ _ isDecoding <;> simp [OfChain]
  have encodingOf : ∀ call ∈ encoding, OfChain call := by
    cases encoding_cases _ _ _ isEncoding <;> simp [OfChain]
  simp only [List.mem_append, List.mem_singleton]
  rintro call (((rfl | member) | member) | rfl)
  · exact sourceOf
  · exact decodingOf call member
  · exact encodingOf call member
  · exact sinkOf

end Success

section Execution

variable {Lib : Type} (platform : Platform Lib)

/-- What the item of a call does to the buffers, by the descriptors of the call. -/
def callBack (call : QueueCall Lib) : ProcCb (StateContent Lib) World :=
  match call with
  | .fileInput _ => pqCbFileInput
  | .fileOutput _ => pqCbFileOutput
  | .rtpInput _ _ => pqCbRtpInput platform.host
  | .rtpOutput _ _ => pqCbRtpOutput platform.host
  | .alsaInput _ => pqCbAlsaInput
  | .alsaOutput _ => pqCbAlsaOutput
  | .fmtConvert fmt toFromN => fun state out src srcLen world => do
      let dst ← deref out
      let input ← deref src
      let (rv, dst) ← (if toFromN then fmt.convFromCanon else fmt.convToCanon) dst input srcLen
      pure { rv := rv, state := state, out := some dst, world := world }
  | .codec desc encDecN =>
      (codecProc desc encDecN).getD fun _ _ _ _ _ => throw .nullPointer
  | .ecu desc => desc.ecuProc.getD fun _ _ _ _ _ => throw .nullPointer

/-- The item of a call, at any time: it calls the call-back of the call. -/
def Serves (call : QueueCall Lib) (item : Item Lib) : Prop :=
  item.freed = false ∧
    (item.proc = some (callBack platform call) ∨
      ∃ fmt toFromN, call = .fmtConvert fmt toFromN ∧ item.proc = some pqCbFmtConvert ∧
        item.state = .conv (if toFromN then fmt.convFromCanon else fmt.convToCanon))

theorem finished_serves {call : QueueCall Lib} {item : Item Lib}
    (finished : Finished platform call item) : Serves platform call item := by
  refine ⟨(finished_ready platform finished).2, ?_⟩
  cases call with
  | fileInput blkLen | fileOutput blkLen | alsaInput blkLen | alsaOutput blkLen =>
      obtain ⟨handle, rfl⟩ := finished
      exact Or.inl rfl
  | rtpInput blkLen pt | rtpOutput blkLen pt =>
      obtain ⟨handle, outcome, rfl⟩ := finished
      exact Or.inl rfl
  | fmtConvert fmt toFromN =>
      obtain ⟨codec, _, rfl⟩ := finished
      exact Or.inr ⟨fmt, toFromN, rfl, rfl, rfl⟩
  | codec desc encDecN =>
      obtain ⟨fmt, codecPcm, state, _, _, ready, _, rfl⟩ := finished
      obtain ⟨proc, isProc⟩ := Option.isSome_iff_exists.mp ready
      refine Or.inl ?_
      rw [callBack, isProc]
      exact isProc
  | ecu desc => exact absurd finished id

/-- A serving item has a call-back, which is the one of its call and after which
the item still serves. -/
theorem serves_call {call : QueueCall Lib} {item : Item Lib} (serves : Serves platform call item) :
    ∃ proc, item.proc = some proc ∧ ∀ src srcLen world,
      proc item.state item.buf src srcLen world =
        callBack platform call item.state item.buf src srcLen world ∧
      ∀ result, proc item.state item.buf src srcLen world = .ok result →
        Serves platform call { item with state := result.state, buf := result.out } := by
  obtain ⟨linked, isProc | ⟨fmt, toFromN, rfl, isProc, state⟩⟩ := serves
  · exact ⟨_, isProc, fun src srcLen world => ⟨rfl, fun result _ => ⟨linked, Or.inl isProc⟩⟩⟩
  · refine ⟨_, isProc, fun src srcLen world => ⟨?_, ?_⟩⟩
    · rw [state]
      rfl
    · intro result run
      rw [state] at run
      obtain ⟨dst, _, run⟩ := (exec_bind_eq_ok _ _ _).mp run
      obtain ⟨input, _, run⟩ := (exec_bind_eq_ok _ _ _).mp run
      obtain ⟨⟨rv, after⟩, _, last⟩ := (exec_bind_eq_ok _ _ _).mp run
      cases last
      exact ⟨linked, Or.inr ⟨fmt, toFromN, rfl, isProc, rfl⟩⟩

/-- One call-back on what the previous item passed on, with the output buffer and
the state of its own item. -/
def Computes (passed : Passed World) (stage : QueueCall Lib × Item Lib) (next : Passed World) :
    Prop :=
  ∃ result, callBack platform stage.1 stage.2.state stage.2.buf passed.buf passed.len passed.world =
      .ok result ∧ 0 ≤ result.rv ∧
    next = { buf := result.out, len := toUInt32 result.rv, world := result.world }

/-- Executing items is running the call-backs of their calls one after the other. -/
theorem execute_items_computes {calls : List (QueueCall Lib)} {items : List (Item Lib)}
    (serves : List.Forall₂ (Serves platform) calls items) :
    ∀ (passed : Passed World) (rv : Int) (after : List (Item Lib)) (passedAfter : Passed World),
      executeItems items passed = .ok (rv, after, passedAfter) →
      List.Forall₂ (Serves platform) calls after ∧
        (rv = 0 → Path (Computes platform) passed (calls.zip items) passedAfter) := by
  induction serves with
  | nil =>
      intro passed rv after passedAfter run
      cases run
      exact ⟨List.Forall₂.nil, fun _ => .nil _⟩
  | @cons call item restCalls restItems first others ih =>
      intro passed rv after passedAfter run
      obtain ⟨proc, isProc, effect⟩ := serves_call platform first
      obtain ⟨same, serving⟩ := effect passed.buf passed.len passed.world
      obtain ⟨result, called, ended⟩ := QueueRuns.execute_cons_ok run
      obtain ⟨other, isOther, callRun⟩ := QueueRuns.call_item_ok called
      rw [isProc] at isOther
      cases isOther
      have still := serving result callRun
      rcases ended with ⟨negative, rfl, rfl, rfl⟩ | ⟨positive, restAfter, restRun, rfl⟩
      · refine ⟨List.Forall₂.cons still others, ?_⟩
        intro zero
        rw [zero] at negative
        exact absurd negative (by decide)
      · obtain ⟨restServe, restPath⟩ := ih _ _ _ _ restRun
        refine ⟨List.Forall₂.cons still restServe, ?_⟩
        intro zero
        exact .cons ⟨result, same.symm.trans callRun, positive, rfl⟩ (restPath zero)

def ExecuteStep (pq : Queue Lib) (label : World × Int × World) (after : Queue Lib) : Prop :=
  osmoGapkPqExecute pq label.1 = .ok (label.2.1, after, label.2.2)

theorem execute_computes {calls : List (QueueCall Lib)} {pq after : Queue Lib}
    {world worldAfter : World} {rv : Int}
    (serves : List.Forall₂ (Serves platform) calls pq.items)
    (run : osmoGapkPqExecute pq world = .ok (rv, after, worldAfter)) :
    List.Forall₂ (Serves platform) calls after.items ∧
      (rv = 0 → ∃ buf len, Path (Computes platform) ⟨none, 0, world⟩ (calls.zip pq.items)
        ⟨buf, len, worldAfter⟩) := by
  obtain ⟨⟨itemsRv, items, passed⟩, itemsRun, last⟩ := (exec_bind_eq_ok _ _ _).mp run
  cases last
  obtain ⟨still, path⟩ := execute_items_computes platform serves _ _ _ _ itemsRun
  exact ⟨still, fun zero => ⟨passed.buf, passed.len, path zero⟩⟩

theorem executed_serves {calls : List (QueueCall Lib)} {prepared pq : Queue Lib}
    {labels : List (World × Int × World)} (path : Path ExecuteStep prepared labels pq)
    (serves : List.Forall₂ (Serves platform) calls prepared.items) :
    List.Forall₂ (Serves platform) calls pq.items := by
  have preserved : ∀ source label target, ExecuteStep source label target →
      List.Forall₂ (Serves platform) calls source.items →
      List.Forall₂ (Serves platform) calls target.items :=
    fun _ _ _ step still => (execute_computes platform still step).1
  exact path_invariant preserved path serves

theorem prepared_serves {calls : List (QueueCall Lib)} {items after : List (Item Lib)}
    (serves : List.Forall₂ (Serves platform) calls items)
    (prepared : List.Forall₂ Prepared items after) :
    List.Forall₂ (Serves platform) calls after := by
  induction serves generalizing after with
  | nil =>
      cases prepared
      exact List.Forall₂.nil
  | cons first others ih =>
      cases prepared with
      | cons done rest =>
          refine List.Forall₂.cons ?_ (ih rest)
          rw [done.same]
          exact first

end Execution

section Buildable

variable {Lib : Type} (platform : Platform Lib) (request : AcceptedOptions platform.registry)
  (input output : Stream)

/-- Both ends are known, and a codec that is needed names its format. -/
structure Buildable : Prop where
  source : (sourceCall platform request.opts input request.fmtIn).isSome
  sink : (sinkCall platform request.opts output request.fmtOut).isSome
  decoder : needDec request.fmtIn request.fmtOut = true →
    ∀ codec ∈ platform.registry.codecGetFromType request.fmtIn.codecType,
      codec.codecDecFormatType ≠ .invalid
  encoder : needEnc request.fmtIn request.fmtOut = true →
    ∀ codec ∈ platform.registry.codecGetFromType request.fmtOut.codecType,
      codec.codecEncFormatType ≠ .invalid

theorem fmt_found_valid {type : FormatType} {fmt : FormatDesc}
    (found : platform.registry.fmtGetFromType type = some fmt) : type ≠ .invalid := by
  rintro rfl
  cases found

variable (wellFormed : platform.registry.WellFormed)

include wellFormed

theorem decoding_some_iff :
    (decodingCalls platform request.fmtIn request.fmtOut).isSome ↔
      (needDec request.fmtIn request.fmtOut = true →
        ∀ codec ∈ platform.registry.codecGetFromType request.fmtIn.codecType,
          codec.codecDecFormatType ≠ .invalid) := by
  constructor
  · intro present needed codec found
    obtain ⟨calls, decoding⟩ := Option.isSome_iff_exists.mp present
    cases decoding_cases _ _ _ decoding with
    | native _ foundAgain same =>
        rw [foundAgain] at found
        cases found
        rw [← same]
        exact fmt_found_valid platform request.registeredIn
    | foreign _ foundAgain decoder =>
        rw [foundAgain] at found
        cases found
        exact fmt_found_valid platform decoder
    | canonical unneeded _ | same unneeded _ =>
        rw [unneeded] at needed
        cases needed
  · intro named
    unfold decodingCalls
    by_cases needed : needDec request.fmtIn request.fmtOut = true
    · obtain ⟨codec, found⟩ := Option.isSome_iff_exists.mp
        (wellFormed.codecKnown request.registeredIn)
      obtain ⟨fmt, decoder, _⟩ := wellFormed.decoderFormat found (named needed codec found)
      rw [if_pos needed]
      simp only [found, decoder]
      split_ifs <;> rfl
    · rw [if_neg needed]
      split_ifs <;> rfl

theorem encoding_some_iff :
    (encodingCalls platform request.fmtIn request.fmtOut).isSome ↔
      (needEnc request.fmtIn request.fmtOut = true →
        ∀ codec ∈ platform.registry.codecGetFromType request.fmtOut.codecType,
          codec.codecEncFormatType ≠ .invalid) := by
  constructor
  · intro present needed codec found
    obtain ⟨calls, encoding⟩ := Option.isSome_iff_exists.mp present
    cases encoding_cases _ _ _ encoding with
    | native _ foundAgain same =>
        rw [foundAgain] at found
        cases found
        rw [← same]
        exact fmt_found_valid platform request.registeredOut
    | foreign _ foundAgain encoder =>
        rw [foundAgain] at found
        cases found
        exact fmt_found_valid platform encoder
    | canonical unneeded _ | same unneeded _ =>
        rw [unneeded] at needed
        cases needed
  · intro named
    unfold encodingCalls
    by_cases needed : needEnc request.fmtIn request.fmtOut = true
    · obtain ⟨codec, found⟩ := Option.isSome_iff_exists.mp
        (wellFormed.codecKnown request.registeredOut)
      obtain ⟨fmt, encoder, _⟩ := wellFormed.encoderFormat found (named needed codec found)
      rw [if_pos needed]
      simp only [found, encoder]
      split_ifs <;> rfl
    · rw [if_neg needed]
      split_ifs <;> rfl

theorem plan_some_iff :
    (plan platform request.opts input output request.fmtIn request.fmtOut).isSome ↔
      Buildable platform request input output := by
  have decoding := decoding_some_iff platform request wellFormed
  have encoding := encoding_some_iff platform request wellFormed
  constructor
  · intro present
    obtain ⟨calls, planned⟩ := Option.isSome_iff_exists.mp present
    obtain ⟨_, _, _, _, isSource, isDecoding, isEncoding, isSink, _⟩ :=
      plan_eq_some _ _ _ _ _ _ planned
    rw [isDecoding] at decoding
    rw [isEncoding] at encoding
    exact ⟨Option.isSome_iff_exists.mpr ⟨_, isSource⟩, Option.isSome_iff_exists.mpr ⟨_, isSink⟩,
      decoding.mp rfl, encoding.mp rfl⟩
  · rintro ⟨source, sink, decoder, encoder⟩
    obtain ⟨first, isSource⟩ := Option.isSome_iff_exists.mp source
    obtain ⟨last, isSink⟩ := Option.isSome_iff_exists.mp sink
    obtain ⟨decodes, isDecoding⟩ := Option.isSome_iff_exists.mp (decoding.mpr decoder)
    obtain ⟨encodes, isEncoding⟩ := Option.isSome_iff_exists.mp (encoding.mpr encoder)
    rw [plan, isSource, isDecoding, isEncoding, isSink]
    rfl

end Buildable

section Typed

variable {Lib : Type} (platform : Platform Lib) (request : AcceptedOptions platform.registry)
  (input output : Stream)

/-- The calls of a built chain, typed by the representation between two items, and
the items they have left. -/
structure TypedItems (source : QueueCall Lib) (decoding encoding : List (QueueCall Lib))
    (sink : QueueCall Lib) (items : List (Item Lib)) : Prop where
  reads : sourceCall platform request.opts input request.fmtIn = some source
  decodes : decodingCalls platform request.fmtIn request.fmtOut = some decoding
  encodes : encodingCalls platform request.fmtIn request.fmtOut = some encoding
  writes : sinkCall platform request.opts output request.fmtOut = some sink
  typed : Path (Turns platform) (.fmt request.fmtIn.type) (decoding ++ encoding)
    (.fmt request.fmtOut.type)
  finished : List.Forall₂ (Finished platform) ([source] ++ decoding ++ encoding ++ [sink]) items

theorem planned_typed (wellFormed : platform.registry.WellFormed) {outcomes : Nat → CallOutcome}
    {calls : List (QueueCall Lib)}
    (planned : plan platform request.opts input output request.fmtIn request.fmtOut = some calls)
    (resolves : ∀ call ∈ calls, Resolves platform call)
    (all : ∀ result ∈ resultsFrom outcomes 0 calls, result.2 = .finished) :
    ∃ chain source decoding encoding sink,
      makeProcessingChain platform outcomes request.opts input output request.fmtIn request.fmtOut
        (emptyChain Lib) = .ok (0, chain) ∧
      calls = [source] ++ decoding ++ encoding ++ [sink] ∧
      TypedItems platform request input output source decoding encoding sink chain.pq.items := by
  obtain ⟨source, decoding, encoding, sink, isSource, isDecoding, isEncoding, isSink, same⟩ :=
    plan_eq_some _ _ _ _ _ _ planned
  obtain ⟨rc, chain, built, fits, left, _⟩ := make_chain_result platform request.opts input output
    request.fmtIn request.fmtOut outcomes planned resolves
  have finished := (finished_items platform (left_all_finished _ left all)).1
  have decodingPath := decoding_path platform request wellFormed (decoding_cases _ _ _ isDecoding)
  have encodingPath := encoding_path platform request wellFormed (encoding_cases _ _ _ isEncoding)
  have typed := path_append decodingPath encodingPath
  rw [results_from_calls, same] at finished
  rw [survivors_all_finished platform all, results_from_calls, same,
    List.append_assoc [source]] at fits
  have zero : rc = 0 := by
    apply fits.mpr
    apply typed_fits platform typed
    · rw [source_signature platform isSource, repLen, formatLen, request.registeredIn]
    · rw [sink_signature platform isSink, repLen, formatLen, request.registeredOut]
  rw [zero] at built
  exact ⟨chain, source, decoding, encoding, sink, built, same, isSource, isDecoding, isEncoding, isSink,
    typed, finished⟩

theorem built_typed (wellFormed : platform.registry.WellFormed) {outcomes : Nat → CallOutcome}
    {chain : Chain Lib}
    (built : makeProcessingChain platform outcomes request.opts input output request.fmtIn
      request.fmtOut (emptyChain Lib) = .ok (0, chain))
    (succeeded : ∀ log ∈ chain.calls, log.2 = 0) :
    ∃ source decoding encoding sink,
      TypedItems platform request input output source decoding encoding sink chain.pq.items := by
  cases planned : plan platform request.opts input output request.fmtIn request.fmtOut with
  | none => exact absurd built (make_chain_unplanned _ _ _ _ _ _ _ planned _ _)
  | some calls =>
      have enqueued := built
      rw [make_chain_planned _ _ _ _ _ _ _ planned] at enqueued
      obtain ⟨between, run, rest⟩ := (exec_bind_eq_ok _ _ _).mp enqueued
      obtain ⟨checked, _, last⟩ := (exec_bind_eq_ok _ _ _).mp rest
      cases last
      have resolves := (enqueue_all_resolves platform outcomes calls (plan_of_chain platform planned)
        _ _ run succeeded).2
      obtain ⟨_, _, again, _, _, logged⟩ := make_chain_result platform request.opts input output
        request.fmtIn request.fmtOut outcomes planned resolves
      rw [built] at again
      cases again
      obtain ⟨_, source, decoding, encoding, sink, same, _, items⟩ := planned_typed platform request
        input output wellFormed planned resolves ((logged_succeeded logged).2.mpr succeeded)
      rw [built] at same
      cases same
      exact ⟨source, decoding, encoding, sink, items⟩

end Typed

section Correct

variable {Lib : Type} (platform : Platform Lib) (request : AcceptedOptions platform.registry)
  (input output : Stream)

/-- A chain in which every item consumes the representation that the item before
it produces, so that the check passes, and every execution of which runs the
call-backs of its calls one after the other. -/
structure RepresentationCorrect (rc : Int) (chain : Chain Lib) (source : QueueCall Lib)
    (decoding encoding : List (QueueCall Lib)) (sink : QueueCall Lib) : Prop where
  reads : sourceCall platform request.opts input request.fmtIn = some source
  decodes : Decoding platform request.fmtIn request.fmtOut decoding
  encodes : Encoding platform request.fmtIn request.fmtOut encoding
  writes : sinkCall platform request.opts output request.fmtOut = some sink
  typed : Path (Turns platform) (.fmt request.fmtIn.type) (decoding ++ encoding)
    (.fmt request.fmtOut.type)
  finished : List.Forall₂ (Finished platform) ([source] ++ decoding ++ encoding ++ [sink])
    chain.pq.items
  checked : rc = 0
  computes : ∀ (memory : BufferAlloc) (prepared pq after : Queue Lib)
    (labels : List (World × Int × World)) (world worldAfter : World),
    osmoGapkPqPrepare memory chain.pq = .ok (0, prepared) → Path ExecuteStep prepared labels pq →
    osmoGapkPqExecute pq world = .ok (0, after, worldAfter) →
    ∃ buf len, Path (Computes platform) ⟨none, 0, world⟩
      (([source] ++ decoding ++ encoding ++ [sink]).zip pq.items) ⟨buf, len, worldAfter⟩

/-- With every queue call succeeding, a chain that can be built is correct in its
representations, for any tables; any other request is refused. -/
theorem chain_representation_correct (wellFormed : platform.registry.WellFormed)
    (outcomes : Nat → CallOutcome) (rc : Int) (chain : Chain Lib)
    (built : makeProcessingChain platform outcomes request.opts input output request.fmtIn
      request.fmtOut (emptyChain Lib) = .ok (rc, chain))
    (succeeded : ∀ log ∈ chain.calls, log.2 = 0) :
    (Buildable platform request input output → ∃ source decoding encoding sink,
      RepresentationCorrect platform request input output rc chain source decoding encoding sink) ∧
    (¬Buildable platform request input output → rc ≠ 0) := by
  constructor
  · intro buildable
    obtain ⟨calls, planned⟩ := Option.isSome_iff_exists.mp
      ((plan_some_iff platform request input output wellFormed).mpr buildable)
    obtain ⟨source, decoding, encoding, sink, isSource, isDecoding, isEncoding, isSink, same⟩ :=
      plan_eq_some _ _ _ _ _ _ planned
    have resolves : ∀ call ∈ calls, Resolves platform call := by
      rw [make_chain_planned _ _ _ _ _ _ _ planned] at built
      obtain ⟨between, run, rest⟩ := (exec_bind_eq_ok _ _ _).mp built
      obtain ⟨checked, _, last⟩ := (exec_bind_eq_ok _ _ _).mp rest
      cases last
      exact (enqueue_all_resolves platform outcomes calls (plan_of_chain platform planned) _ _ run
        succeeded).2
    obtain ⟨_, _, run, fits, left, logged⟩ := make_chain_result platform request.opts input output
      request.fmtIn request.fmtOut outcomes planned resolves
    rw [built] at run
    cases run
    obtain ⟨_, allSucceeded⟩ := logged_succeeded logged
    have all := allSucceeded.mpr succeeded
    have finished := (finished_items platform (left_all_finished _ left all)).1
    have decodingPath := decoding_path platform request wellFormed (decoding_cases _ _ _ isDecoding)
    have encodingPath := encoding_path platform request wellFormed (encoding_cases _ _ _ isEncoding)
    have typed := path_append decodingPath encodingPath
    rw [survivors_all_finished platform all, results_from_calls] at fits
    rw [results_from_calls] at finished
    subst same
    refine ⟨source, decoding, encoding, sink, isSource, decoding_cases _ _ _ isDecoding,
      encoding_cases _ _ _ isEncoding, isSink, typed, finished, fits.mpr ?_, ?_⟩
    · rw [List.append_assoc [source]]
      refine typed_fits platform typed ?_ ?_
      · rw [source_signature platform isSource, repLen, formatLen, request.registeredIn]
      · rw [sink_signature platform isSink, repLen, formatLen, request.registeredOut]
    · intro memory prepared pq after labels world worldAfter prepares executions run
      have serves := prepared_serves platform
        (finished.imp fun _ _ done => finished_serves platform done) (pq_prepare_ok prepares)
      exact (execute_computes platform (executed_serves platform executions serves) run).2 rfl
  · intro unbuildable zero
    rw [← plan_some_iff platform request input output wellFormed, Option.not_isSome_iff_eq_none]
      at unbuildable
    rw [zero] at built
    exact make_chain_unplanned _ _ _ _ _ _ _ unbuildable _ _ built

end Correct

def alwaysWorks (_ : Nat) : CallOutcome := workingOutcome

def gsmToGsm : AcceptedOptions Build.idle.registry where
  opts := ⟨some "in", 0, none, some FmtGsm.fmtGsm, some "out", 0, none, some FmtGsm.fmtGsm, 0, 0,
    false⟩
  fmtIn := FmtGsm.fmtGsm
  fmtOut := FmtGsm.fmtGsm
  isIn := rfl
  isOut := rfl
  registeredIn := Build.gsm_registered
  registeredOut := Build.gsm_registered
  accepted := rfl

/-- A GSM 06.10 file is decoded without any format conversion. -/
def gsmToPcm : AcceptedOptions Build.idle.registry where
  opts := ⟨some "in", 0, none, some FmtGsm.fmtGsm, some "out", 0, none,
    some (FmtRawpcm.fmtRawpcmS16le .little), 0, 0, false⟩
  fmtIn := FmtGsm.fmtGsm
  fmtOut := FmtRawpcm.fmtRawpcmS16le .little
  isIn := rfl
  isOut := rfl
  registeredIn := Build.gsm_registered
  registeredOut := Build.rawpcm_registered
  accepted := rfl

theorem gsm_to_pcm_buildable :
    Buildable (platformOf .idle) gsmToPcm ⟨true, -1⟩ ⟨true, -1⟩ where
  source := rfl
  sink := rfl
  decoder _ codec found := by
    cases found
    exact nofun
  encoder needed := nomatch needed

theorem gsm_to_pcm_representation_correct :
    ∃ chain source decoding encoding sink,
      RepresentationCorrect (platformOf .idle) gsmToPcm ⟨true, -1⟩ ⟨true, -1⟩ 0 chain source decoding
        encoding sink := by
  have correct := chain_representation_correct (platformOf .idle) gsmToPcm ⟨true, -1⟩ ⟨true, -1⟩
    Build.idle.registry_well_formed alwaysWorks 0 _ rfl
    (List.forall_mem_cons.mpr ⟨rfl, List.forall_mem_cons.mpr ⟨rfl, List.forall_mem_cons.mpr ⟨rfl,
      List.forall_mem_cons.mpr ⟨rfl, List.forall_mem_nil _⟩⟩⟩⟩)
  exact ⟨_, correct.1 gsm_to_pcm_buildable⟩

/-- One execution of a chain between files of one codec writes the block that was
read, brought to the canonical form and from there to the output format. -/
def ConvertsBlocks {Lib : Type} (platform : Platform Lib)
    (request : AcceptedOptions platform.registry) : Prop :=
  ∀ (outcomes : Nat → CallOutcome) (chain : Chain Lib) (memory : BufferAlloc)
    (prepared after : Queue Lib) (world worldAfter : World),
    makeProcessingChain platform outcomes request.opts ⟨true, -1⟩ ⟨true, -1⟩ request.fmtIn
      request.fmtOut (emptyChain Lib) = .ok (0, chain) →
    (∀ log ∈ chain.calls, log.2 = 0) →
    osmoGapkPqPrepare memory chain.pq = .ok (0, prepared) →
    osmoGapkPqExecute prepared world = .ok (0, after, worldAfter) →
    ∀ canon out, Converts request.fmtIn.convToCanon (world.inFile.take request.fmtIn.frameLen) canon →
      Converts request.fmtOut.convFromCanon canon out → worldAfter.outFile = world.outFile ++ out

/-- Between equal formats there is no conversion at all: a frame keeps a magic
nibble that the conversions would have replaced. -/
theorem equal_formats_not_converted :
    ¬∀ (platform : Platform Unit) (request : AcceptedOptions platform.registry),
      platform.registry.WellFormed → request.fmtIn.codecType = request.fmtOut.codecType →
      ConvertsBlocks platform request := by
  intro always
  have converts := always (platformOf .idle) gsmToGsm Build.idle.registry_well_formed rfl
  have size : (List.replicate 33 0 : Buf).length = 33 := rfl
  have written := converts alwaysWorks _ .cleared _ _
    ⟨List.replicate 33 0, [], [], [], [], [], fun _ => true, 0, 0⟩ _ rfl
    (List.forall_mem_cons.mpr ⟨rfl, List.forall_mem_cons.mpr ⟨rfl, List.forall_mem_nil _⟩⟩) rfl rfl
    _ _ (FmtGsm.gsm_to_canon_converts size)
    (FmtGsm.gsm_from_canon_converts (NibbleShift.unshifted_length _))
  exact absurd written (by decide)

end Gapk.ChainTyping
