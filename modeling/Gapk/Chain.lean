import Gapk.App

/-!
# The calls behind a processing chain

Which queue calls `make_processing_chain` makes is a function of the options
alone, since it looks at no return value. What a chain consists of then follows
from what each call leaves in the queue.
-/

namespace Gapk.Chain

open CheckedMemory FixedWidth HostWords
open Gapk.Formats Gapk.Procqueue Gapk.Streams Gapk.QueueOps Gapk.QueueLedger Gapk.App

set_option autoImplicit false

section Calls

variable {Lib : Type} (platform : Platform Lib)

/-- What a call leaves in the queue. -/
inductive CallResult where
  | finished
  | nothing
  | unfinished
  deriving DecidableEq, Repr

/-- The result of a call whose look-ups succeed, from what happens inside it. -/
def callResult (call : QueueCall Lib) (outcome : CallOutcome) : CallResult :=
  match call with
  | .fileInput _ | .fileOutput _ | .rtpInput _ _ | .rtpOutput _ _ =>
      if outcome.stateAllocated ∧ outcome.itemAllocated then .finished else .nothing
  | .alsaInput _ | .alsaOutput _ =>
      if outcome.stateAllocated ∧ 0 ≤ outcome.deviceOpened ∧ 0 ≤ outcome.deviceConfigured ∧
        outcome.itemAllocated then .finished else .nothing
  | .fmtConvert _ _ => if outcome.itemAllocated then .finished else .nothing
  | .codec desc _ =>
      if outcome.itemAllocated then
        if desc.codecInit.isSome ∧ !outcome.codecInitialised then .unfinished else .finished
      else .nothing
  | .ecu _ => .nothing

/-- The look-ups inside a call of a chain succeed. -/
def Resolves (call : QueueCall Lib) : Prop :=
  match call with
  | .fmtConvert fmt _ => (platform.registry.codecGetFromType fmt.codecType).isSome
  | .codec desc encDecN =>
      (platform.registry.fmtGetFromType (codecFormatType desc encDecN)).isSome ∧
      (platform.registry.codecGetFromType .pcm).isSome ∧ (codecProc desc encDecN).isSome
  | .ecu _ => False
  | _ => True

def CodecState (desc : CodecDesc Lib) (state : State Lib) : Prop :=
  match desc.codecInit with
  | none => state = .null
  | some content => ∃ handle, state = .heap handle (.codec content)

/-- The item that a successful call appends. -/
def Finished (call : QueueCall Lib) (item : Item Lib) : Prop :=
  match call with
  | .fileInput blkLen =>
      ∃ handle, item = fileItem blkLen true (.heap handle (.file blkLen)) .zero
  | .fileOutput blkLen =>
      ∃ handle, item = fileItem blkLen false (.heap handle (.file blkLen)) .zero
  | .rtpInput blkLen pt =>
      ∃ handle outcome, item = rtpItem platform.host blkLen true
        (.heap handle (.rtp (newRtpState blkLen true pt outcome))) .zero
  | .rtpOutput blkLen pt =>
      ∃ handle outcome, item = rtpItem platform.host blkLen false
        (.heap handle (.rtp (newRtpState blkLen false pt outcome))) .zero
  | .alsaInput blkLen =>
      ∃ handle, item = alsaItem blkLen true (.heap handle (.alsa blkLen)) .zero
  | .alsaOutput blkLen =>
      ∃ handle, item = alsaItem blkLen false (.heap handle (.alsa blkLen)) .zero
  | .fmtConvert fmt toFromN =>
      ∃ codec, platform.registry.codecGetFromType fmt.codecType = some codec ∧
        item = fmtItem fmt codec toFromN .zero
  | .codec desc encDecN =>
      ∃ fmt codecPcm state,
        platform.registry.fmtGetFromType (codecFormatType desc encDecN) = some fmt ∧
        platform.registry.codecGetFromType .pcm = some codecPcm ∧
        (codecProc desc encDecN).isSome ∧ CodecState desc state ∧
        item = codecItem desc codecPcm fmt encDecN (setState state .zero)
  | .ecu _ => False

/-- What a call did to the queue and to the ledger. -/
structure CallLeaves (call : QueueCall Lib) (result : CallResult) (pq : Queue Lib) (rv : Int)
    (after : Queue Lib) : Prop where
  finished : result = .finished → rv = 0 ∧ ∃ item, Finished platform call item ∧
    after = appended pq item
  nothing : result = .nothing → rv < 0 ∧ after = pq
  unfinished : result = .unfinished → rv < 0 ∧ after = appended pq .zero

theorem leaves_finished {call : QueueCall Lib} {pq : Queue Lib} {item : Item Lib}
    (finished : Finished platform call item) :
    CallLeaves platform call .finished pq 0 (appended pq item) where
  finished := fun _ => ⟨rfl, item, finished, rfl⟩
  nothing := nofun
  unfinished := nofun

theorem leaves_nothing {call : QueueCall Lib} {pq : Queue Lib} {rv : Int} (negative : rv < 0) :
    CallLeaves platform call .nothing pq rv pq where
  finished := nofun
  nothing := fun _ => ⟨negative, rfl⟩
  unfinished := nofun

theorem leaves_unfinished {call : QueueCall Lib} {pq : Queue Lib} {rv : Int} (negative : rv < 0) :
    CallLeaves platform call .unfinished pq rv (appended pq .zero) where
  finished := nofun
  nothing := nofun
  unfinished := fun _ => ⟨negative, rfl⟩

/-- No state was released before it was handed out. -/
def HandedOut (ledger : Ledger) : Prop := ∀ handle ∈ ledger.released, handle < ledger.next

theorem handed_out_acquire {ledger : Ledger} (handedOut : HandedOut ledger) :
    HandedOut ledger.acquire.2 := by
  intro handle member
  exact Nat.lt_succ_of_lt (handedOut handle member)

theorem handed_out_released {ledger : Ledger} (handedOut : HandedOut ledger) :
    HandedOut ⟨ledger.next + 1, ledger.next :: ledger.released⟩ := by
  intro handle member
  rcases List.mem_cons.mp member with rfl | old
  · exact Nat.lt_succ_self _
  · exact Nat.lt_succ_of_lt (handedOut handle old)

section Effects

variable {pq : Queue Lib} {ledger : Ledger} (outcome : CallOutcome) (linked : Linked pq.items)
  (handedOut : HandedOut ledger)

include linked handedOut

theorem queue_state_op_leaves {call : QueueCall Lib} (content : StateContent Lib)
    (fill : State Lib → Item Lib → Item Lib)
    (finishes : Finished platform call (fill (.heap ledger.next content) .zero)) :
    ∃ rv after ledgerAfter, queueStateOp content fill outcome pq ledger =
        .ok (rv, after, ledgerAfter) ∧ HandedOut ledgerAfter ∧
      CallLeaves platform call
        (if outcome.stateAllocated ∧ outcome.itemAllocated then .finished else .nothing) pq rv
        after := by
  rw [queue_state_op_eq outcome linked (next_fresh handedOut)]
  cases outcome.stateAllocated with
  | false => exact ⟨_, _, _, rfl, handedOut, leaves_nothing platform (by decide)⟩
  | true =>
      cases outcome.itemAllocated with
      | false =>
          exact ⟨_, _, _, rfl, handed_out_released handedOut, leaves_nothing platform (by decide)⟩
      | true =>
          exact ⟨_, _, _, rfl, handed_out_acquire handedOut, leaves_finished platform finishes⟩

theorem queue_alsa_op_leaves {call : QueueCall Lib} (blkLen : Nat) (inOutN : Bool)
    (finishes : Finished platform call
      (alsaItem blkLen inOutN (.heap ledger.next (.alsa blkLen)) .zero)) :
    ∃ rv after ledgerAfter, pqQueueAlsaOp blkLen inOutN outcome pq ledger =
        .ok (rv, after, ledgerAfter) ∧ HandedOut ledgerAfter ∧
      CallLeaves platform call
        (if outcome.stateAllocated ∧ 0 ≤ outcome.deviceOpened ∧ 0 ≤ outcome.deviceConfigured ∧
          outcome.itemAllocated then .finished else .nothing) pq rv after := by
  rw [queue_alsa_op_eq outcome linked (next_fresh handedOut)]
  cases outcome.stateAllocated with
  | false =>
      simp only [Bool.false_eq_true, false_and, if_false]
      exact ⟨_, _, _, rfl, handedOut, leaves_nothing platform (by decide)⟩
  | true =>
      by_cases closed : outcome.deviceOpened < 0
      · simp only [closed, if_true, Int.not_le.mpr closed, false_and, and_false, if_false]
        exact ⟨_, _, _, rfl, handed_out_acquire handedOut, leaves_nothing platform closed⟩
      · by_cases misconfigured : outcome.deviceConfigured < 0
        · simp only [closed, misconfigured, if_true, Int.not_le.mpr misconfigured, false_and,
            and_false, if_false]
          exact ⟨_, _, _, rfl, handed_out_released handedOut,
            leaves_nothing platform misconfigured⟩
        · cases outcome.itemAllocated with
          | false =>
              simp only [closed, misconfigured, Bool.false_eq_true, and_false, if_true, if_false]
              exact ⟨_, _, _, rfl, handed_out_released handedOut,
                leaves_nothing platform (by decide)⟩
          | true =>
              simp only [closed, misconfigured, Int.not_lt.mp closed, Int.not_lt.mp misconfigured,
                and_self, if_true, if_false]
              exact ⟨_, _, _, rfl, handed_out_acquire handedOut, leaves_finished platform finishes⟩

theorem queue_call_leaves {call : QueueCall Lib} (resolves : Resolves platform call) :
    ∃ rv after ledgerAfter, queueCall platform.host platform.registry call outcome pq ledger =
        .ok (rv, after, ledgerAfter) ∧ HandedOut ledgerAfter ∧
      CallLeaves platform call (callResult call outcome) pq rv after := by
  cases call with
  | fileInput blkLen =>
      exact queue_state_op_leaves platform outcome linked handedOut _ _ ⟨_, rfl⟩
  | fileOutput blkLen =>
      exact queue_state_op_leaves platform outcome linked handedOut _ _ ⟨_, rfl⟩
  | rtpInput blkLen pt =>
      exact queue_state_op_leaves platform outcome linked handedOut _ _ ⟨_, outcome, rfl⟩
  | rtpOutput blkLen pt =>
      exact queue_state_op_leaves platform outcome linked handedOut _ _ ⟨_, outcome, rfl⟩
  | alsaInput blkLen =>
      exact queue_alsa_op_leaves platform outcome linked handedOut blkLen true ⟨_, rfl⟩
  | alsaOutput blkLen =>
      exact queue_alsa_op_leaves platform outcome linked handedOut blkLen false ⟨_, rfl⟩
  | fmtConvert fmt toFromN =>
      obtain ⟨codec, found⟩ := Option.isSome_iff_exists.mp resolves
      rw [queueCall, queue_fmt_convert_eq _ outcome linked toFromN found, callResult]
      cases outcome.itemAllocated with
      | false => exact ⟨_, _, _, rfl, handedOut, leaves_nothing platform (by decide)⟩
      | true => exact ⟨_, _, _, rfl, handedOut, leaves_finished platform ⟨codec, found, rfl⟩⟩
  | codec desc encDecN =>
      obtain ⟨found, pcm, ready⟩ := resolves
      obtain ⟨fmt, found⟩ := Option.isSome_iff_exists.mp found
      obtain ⟨codecPcm, pcm⟩ := Option.isSome_iff_exists.mp pcm
      rw [queueCall, queue_codec_eq _ outcome linked found pcm ready, callResult]
      have finishes : ∀ state, CodecState desc state → Finished platform (.codec desc encDecN)
          (codecItem desc codecPcm fmt encDecN (setState state .zero)) :=
        fun state owned => ⟨fmt, codecPcm, state, found, pcm, ready, owned, rfl⟩
      unfold CodecState at finishes
      cases outcome.itemAllocated with
      | false => exact ⟨_, _, _, rfl, handedOut, leaves_nothing platform (by decide)⟩
      | true =>
          cases init : desc.codecInit with
          | none =>
              rw [init] at finishes
              exact ⟨_, _, _, rfl, handedOut, leaves_finished platform (finishes .null rfl)⟩
          | some content =>
              rw [init] at finishes
              cases outcome.codecInitialised with
              | false => exact ⟨_, _, _, rfl, handedOut, leaves_unfinished platform (by decide)⟩
              | true =>
                  exact ⟨_, _, _, rfl, handed_out_acquire handedOut,
                    leaves_finished platform (finishes _ ⟨ledger.next, rfl⟩)⟩
  | ecu desc => exact absurd resolves id

end Effects

end Calls

section Plan

variable {Lib : Type} (platform : Platform Lib) (opts : GapkOptions) (input output : Stream)
  (fmtIn fmtOut : FormatDesc)

/-- The call for the source; nothing for an input that is not known. -/
def sourceCall : Option (QueueCall Lib) :=
  if input.fh then some (.fileInput fmtIn.frameLen)
  else if input.fd ≠ -1 then some (.rtpInput fmtIn.frameLen opts.rtpPtIn)
  else if platform.haveAlsa ∧ opts.alsaIn.isSome then some (.alsaInput fmtIn.frameLen)
  else none

/-- From the input format to canonical PCM, or to the common canonical form. -/
def decodingCalls : Option (List (QueueCall Lib)) :=
  if needDec fmtIn fmtOut then
    match platform.registry.codecGetFromType fmtIn.codecType with
    | none => none
    | some codec =>
        if fmtIn.type ≠ codec.codecDecFormatType then
          match platform.registry.fmtGetFromType codec.codecDecFormatType with
          | none => none
          | some fmtDec =>
              some [.fmtConvert fmtIn false, .fmtConvert fmtDec true, .codec codec false]
        else some [.codec codec false]
  else if fmtIn.type ≠ fmtOut.type then some [.fmtConvert fmtIn false]
  else some []

/-- From canonical PCM, or from the common canonical form, to the output format. -/
def encodingCalls : Option (List (QueueCall Lib)) :=
  if needEnc fmtIn fmtOut then
    match platform.registry.codecGetFromType fmtOut.codecType with
    | none => none
    | some codec =>
        if fmtOut.type ≠ codec.codecEncFormatType then
          match platform.registry.fmtGetFromType codec.codecEncFormatType with
          | none => none
          | some fmtEnc =>
              some [.codec codec true, .fmtConvert fmtEnc false, .fmtConvert fmtOut true]
        else some [.codec codec true]
  else if fmtIn.type ≠ fmtOut.type then some [.fmtConvert fmtOut true]
  else some []

def sinkCall : Option (QueueCall Lib) :=
  if output.fh then some (.fileOutput fmtOut.frameLen)
  else if output.fd ≠ -1 then some (.rtpOutput fmtOut.frameLen opts.rtpPtOut)
  else if platform.haveAlsa ∧ opts.alsaOut.isSome then some (.alsaOutput fmtOut.frameLen)
  else none

/-- All calls of a chain, or nothing if one end or a codec format is missing. -/
def plan : Option (List (QueueCall Lib)) := do
  let source ← sourceCall platform opts input fmtIn
  let decoding ← decodingCalls platform fmtIn fmtOut
  let encoding ← encodingCalls platform fmtIn fmtOut
  let sink ← sinkCall platform opts output fmtOut
  some ([source] ++ decoding ++ encoding ++ [sink])

variable (outcomes : Nat → CallOutcome)

def enqueueAll : List (QueueCall Lib) → Chain Lib → Exec (Chain Lib)
  | [], chain => pure chain
  | call :: rest, chain => do
      let chain ← enqueue platform outcomes call chain
      enqueueAll rest chain

theorem enqueue_all_append (first second : List (QueueCall Lib)) (chain : Chain Lib) :
    enqueueAll platform outcomes (first ++ second) chain =
      enqueueAll platform outcomes first chain >>= enqueueAll platform outcomes second := by
  induction first generalizing chain with
  | nil => rfl
  | cons call rest ih =>
      rw [List.cons_append, enqueueAll, enqueueAll]
      cases enqueue platform outcomes call chain with
      | error fault => rfl
      | ok next => exact ih next

theorem enqueue_all_singleton (call : QueueCall Lib) (chain : Chain Lib) :
    enqueueAll platform outcomes [call] chain = enqueue platform outcomes call chain := by
  rw [enqueueAll]
  cases enqueue platform outcomes call chain <;> rfl

/-- A stage with planned calls makes them; a stage without fails. -/
def MakesCalls (stage : Chain Lib → Exec (Int × Chain Lib)) : Option (List (QueueCall Lib)) → Prop
  | some calls => ∀ chain, stage chain =
      (do pure (0, ← enqueueAll platform outcomes calls chain))
  | none => ∀ chain after, stage chain ≠ .ok (0, after)

theorem failed_ne_ok {rc : Int} (failed : rc ≠ 0) (chain after : Chain Lib) :
    (pure (rc, chain) : Exec (Int × Chain Lib)) ≠ .ok (0, after) := by
  intro same
  cases same
  exact failed rfl

theorem queue_input_makes_calls :
    MakesCalls platform outcomes (queueInput platform outcomes opts input fmtIn)
      ((sourceCall platform opts input fmtIn).map fun call => [call]) := by
  unfold sourceCall queueInput
  split_ifs <;> intro chain
  all_goals first
    | rw [enqueue_all_singleton]
    | exact failed_ne_ok (by decide) chain

theorem queue_output_makes_calls :
    MakesCalls platform outcomes (queueOutput platform outcomes opts output fmtOut)
      ((sinkCall platform opts output fmtOut).map fun call => [call]) := by
  unfold sinkCall queueOutput
  split_ifs <;> intro chain
  all_goals first
    | rw [enqueue_all_singleton]
    | exact failed_ne_ok (by decide) chain

theorem queue_decoding_makes_calls :
    MakesCalls platform outcomes (queueDecoding platform outcomes fmtIn fmtOut
      (platform.registry.codecGetFromType fmtIn.codecType))
      (decodingCalls platform fmtIn fmtOut) := by
  unfold decodingCalls queueDecoding
  by_cases decodes : needDec fmtIn fmtOut = true
  · simp only [if_pos decodes]
    cases platform.registry.codecGetFromType fmtIn.codecType with
    | none =>
        intro chain after same
        cases same
    | some codec =>
        simp only [deref_some, exec_bind_ok]
        by_cases foreign : fmtIn.type ≠ codec.codecDecFormatType
        · simp only [if_pos foreign]
          cases platform.registry.fmtGetFromType codec.codecDecFormatType with
          | none => exact failed_ne_ok (by decide)
          | some fmtDec =>
              intro chain
              simp only [enqueueAll, bind_assoc, pure_bind]
        · simp only [if_neg foreign]
          intro chain
          rw [enqueue_all_singleton]
  · simp only [if_neg decodes]
    split_ifs <;> intro chain
    · rw [enqueue_all_singleton]
    · rfl

theorem queue_encoding_makes_calls :
    MakesCalls platform outcomes (queueEncoding platform outcomes fmtIn fmtOut
      (platform.registry.codecGetFromType fmtOut.codecType))
      (encodingCalls platform fmtIn fmtOut) := by
  unfold encodingCalls queueEncoding
  by_cases encodes : needEnc fmtIn fmtOut = true
  · simp only [if_pos encodes]
    cases platform.registry.codecGetFromType fmtOut.codecType with
    | none =>
        intro chain after same
        cases same
    | some codec =>
        simp only [deref_some, exec_bind_ok]
        by_cases foreign : fmtOut.type ≠ codec.codecEncFormatType
        · simp only [if_pos foreign]
          cases platform.registry.fmtGetFromType codec.codecEncFormatType with
          | none =>
              intro chain after same
              obtain ⟨next, _, last⟩ := (exec_bind_eq_ok _ _ _).mp same
              exact failed_ne_ok (by decide : -einval ≠ 0) next after last
          | some fmtEnc =>
              intro chain
              simp only [enqueueAll, bind_assoc, pure_bind]
        · simp only [if_neg foreign]
          intro chain
          rw [enqueue_all_singleton]
  · simp only [if_neg encodes]
    split_ifs <;> intro chain
    · rw [enqueue_all_singleton]
    · rfl

def stageThen (stage next : Chain Lib → Exec (Int × Chain Lib)) (chain : Chain Lib) :
    Exec (Int × Chain Lib) := do
  let (rc, chain) ← stage chain
  if rc ≠ 0 then return (rc, chain)
  next chain

theorem stage_then_planned {stage : Chain Lib → Exec (Int × Chain Lib)}
    {calls : List (QueueCall Lib)} (makes : MakesCalls platform outcomes stage (some calls))
    (next : Chain Lib → Exec (Int × Chain Lib)) (chain : Chain Lib) :
    stageThen stage next chain = enqueueAll platform outcomes calls chain >>= next := by
  rw [stageThen, makes chain]
  cases enqueueAll platform outcomes calls chain <;> rfl

theorem stage_then_unplanned {stage : Chain Lib → Exec (Int × Chain Lib)}
    (makes : MakesCalls platform outcomes stage none)
    (next : Chain Lib → Exec (Int × Chain Lib)) (chain after : Chain Lib) :
    stageThen stage next chain ≠ .ok (0, after) := by
  rw [stageThen]
  cases staged : stage chain with
  | error fault => exact fun same => nomatch same
  | ok result =>
      obtain ⟨rc, between⟩ := result
      have failed : rc ≠ 0 := by
        rintro rfl
        exact makes chain between staged
      simp only [exec_bind_ok, if_pos failed]
      exact failed_ne_ok failed between after

/-- A stage cannot make good for what fails after it. -/
theorem stage_then_fails {stage next : Chain Lib → Exec (Int × Chain Lib)} {after : Chain Lib}
    (fails : ∀ chain, next chain ≠ .ok (0, after)) (chain : Chain Lib) :
    stageThen stage next chain ≠ .ok (0, after) := by
  intro same
  obtain ⟨⟨rc, between⟩, _, last⟩ := (exec_bind_eq_ok _ _ _).mp same
  by_cases failed : rc ≠ 0
  · simp only [if_pos failed] at last
    exact failed_ne_ok failed between after last
  · simp only [if_neg failed] at last
    exact fails between last

theorem make_chain_stages (chain : Chain Lib) :
    makeProcessingChain platform outcomes opts input output fmtIn fmtOut chain =
      stageThen (queueInput platform outcomes opts input fmtIn)
        (stageThen (queueDecoding platform outcomes fmtIn fmtOut
            (platform.registry.codecGetFromType fmtIn.codecType))
          (stageThen (queueEncoding platform outcomes fmtIn fmtOut
              (platform.registry.codecGetFromType fmtOut.codecType))
            (stageThen (queueOutput platform outcomes opts output fmtOut)
              fun chain => do pure (← osmoGapkPqCheck chain.pq true, chain)))) chain := rfl

theorem plan_eq_some {calls : List (QueueCall Lib)}
    (planned : plan platform opts input output fmtIn fmtOut = some calls) :
    ∃ source decoding encoding sink, sourceCall platform opts input fmtIn = some source ∧
      decodingCalls platform fmtIn fmtOut = some decoding ∧
      encodingCalls platform fmtIn fmtOut = some encoding ∧
      sinkCall platform opts output fmtOut = some sink ∧
      calls = [source] ++ decoding ++ encoding ++ [sink] := by
  simp only [plan, Option.bind_eq_bind, Option.bind_eq_some_iff, Option.some.injEq] at planned
  obtain ⟨source, isSource, decoding, isDecoding, encoding, isEncoding, sink, isSink, same⟩ := planned
  exact ⟨source, decoding, encoding, sink, isSource, isDecoding, isEncoding, isSink, same.symm⟩

theorem make_chain_planned {calls : List (QueueCall Lib)}
    (planned : plan platform opts input output fmtIn fmtOut = some calls) (chain : Chain Lib) :
    makeProcessingChain platform outcomes opts input output fmtIn fmtOut chain =
      (do
        let chain ← enqueueAll platform outcomes calls chain
        pure (← osmoGapkPqCheck chain.pq true, chain)) := by
  obtain ⟨source, decoding, encoding, sink, isSource, isDecoding, isEncoding, isSink, rfl⟩ :=
    plan_eq_some platform opts input output fmtIn fmtOut planned
  have makesSource := queue_input_makes_calls platform opts input fmtIn outcomes
  have makesDecoding := queue_decoding_makes_calls platform fmtIn fmtOut outcomes
  have makesEncoding := queue_encoding_makes_calls platform fmtIn fmtOut outcomes
  have makesSink := queue_output_makes_calls platform opts output fmtOut outcomes
  rw [isSource] at makesSource
  rw [isDecoding] at makesDecoding
  rw [isEncoding] at makesEncoding
  rw [isSink] at makesSink
  rw [make_chain_stages, stage_then_planned platform outcomes makesSource]
  simp only [enqueue_all_append, bind_assoc]
  congr 1
  funext afterSource
  rw [stage_then_planned platform outcomes makesDecoding]
  congr 1
  funext afterDecoding
  rw [stage_then_planned platform outcomes makesEncoding]
  congr 1
  funext afterEncoding
  rw [stage_then_planned platform outcomes makesSink]

theorem make_chain_unplanned
    (unplanned : plan platform opts input output fmtIn fmtOut = none) (chain after : Chain Lib) :
    makeProcessingChain platform outcomes opts input output fmtIn fmtOut chain ≠ .ok (0, after) := by
  have makesSource := queue_input_makes_calls platform opts input fmtIn outcomes
  have makesDecoding := queue_decoding_makes_calls platform fmtIn fmtOut outcomes
  have makesEncoding := queue_encoding_makes_calls platform fmtIn fmtOut outcomes
  have makesSink := queue_output_makes_calls platform opts output fmtOut outcomes
  rw [make_chain_stages]
  unfold plan at unplanned
  cases isSource : sourceCall platform opts input fmtIn with
  | none =>
      rw [isSource] at makesSource
      exact stage_then_unplanned platform outcomes makesSource _ _ _
  | some source =>
      rw [isSource] at unplanned
      refine stage_then_fails (fun chain => ?_) chain
      cases isDecoding : decodingCalls platform fmtIn fmtOut with
      | none =>
          rw [isDecoding] at makesDecoding
          exact stage_then_unplanned platform outcomes makesDecoding _ _ _
      | some decoding =>
          rw [isDecoding] at unplanned
          refine stage_then_fails (fun chain => ?_) chain
          cases isEncoding : encodingCalls platform fmtIn fmtOut with
          | none =>
              rw [isEncoding] at makesEncoding
              exact stage_then_unplanned platform outcomes makesEncoding _ _ _
          | some encoding =>
              rw [isEncoding] at unplanned
              refine stage_then_fails (fun chain => ?_) chain
              cases isSink : sinkCall platform opts output fmtOut with
              | none =>
                  rw [isSink] at makesSink
                  exact stage_then_unplanned platform outcomes makesSink _ _ _
              | some sink =>
                  rw [isSink] at unplanned
                  cases unplanned

end Plan

section Leftovers

variable {Lib : Type} (platform : Platform Lib)

def canonLen (type : CodecType) : Nat :=
  match platform.registry.codecGetFromType type with
  | some codec => codec.canonFrameLen
  | none => 0

def formatLen (type : FormatType) : Nat :=
  match platform.registry.fmtGetFromType type with
  | some fmt => fmt.frameLen
  | none => 0

/-- The signature of the item that a call appends when it succeeds. -/
def callSignature (call : QueueCall Lib) : Signature :=
  match call with
  | .fileInput blkLen | .rtpInput blkLen _ | .alsaInput blkLen => ⟨.source, 0, blkLen⟩
  | .fileOutput blkLen | .rtpOutput blkLen _ | .alsaOutput blkLen => ⟨.sink, blkLen, 0⟩
  | .fmtConvert fmt true => ⟨.proc, canonLen platform fmt.codecType, fmt.frameLen⟩
  | .fmtConvert fmt false => ⟨.proc, fmt.frameLen, canonLen platform fmt.codecType⟩
  | .codec desc true => ⟨.proc, canonLen platform .pcm, formatLen platform desc.codecEncFormatType⟩
  | .codec desc false => ⟨.proc, formatLen platform desc.codecDecFormatType, canonLen platform .pcm⟩
  | .ecu _ => ⟨.source, 0, 0⟩

theorem finished_signature {call : QueueCall Lib} {item : Item Lib}
    (finished : Finished platform call item) : item.signature = callSignature platform call := by
  cases call with
  | fileInput blkLen | fileOutput blkLen | alsaInput blkLen | alsaOutput blkLen =>
      obtain ⟨handle, rfl⟩ := finished
      rfl
  | rtpInput blkLen pt | rtpOutput blkLen pt =>
      obtain ⟨handle, outcome, rfl⟩ := finished
      rfl
  | fmtConvert fmt toFromN =>
      obtain ⟨codec, found, rfl⟩ := finished
      cases toFromN <;> simp only [callSignature, canonLen, found] <;> rfl
  | codec desc encDecN =>
      obtain ⟨fmt, codecPcm, state, found, pcm, _, _, rfl⟩ := finished
      cases encDecN <;> simp only [codecFormatType, Bool.false_eq_true, if_false, if_true] at found <;>
        simp only [callSignature, canonLen, formatLen, found, pcm] <;> rfl
  | ecu desc => exact absurd finished id

theorem finished_ready {call : QueueCall Lib} {item : Item Lib}
    (finished : Finished platform call item) : item.proc.isSome ∧ item.freed = false := by
  cases call with
  | fileInput blkLen | fileOutput blkLen | alsaInput blkLen | alsaOutput blkLen =>
      obtain ⟨handle, rfl⟩ := finished
      exact ⟨rfl, rfl⟩
  | rtpInput blkLen pt | rtpOutput blkLen pt =>
      obtain ⟨handle, outcome, rfl⟩ := finished
      exact ⟨rfl, rfl⟩
  | fmtConvert fmt toFromN =>
      obtain ⟨codec, found, rfl⟩ := finished
      exact ⟨rfl, rfl⟩
  | codec desc encDecN =>
      obtain ⟨fmt, codecPcm, state, _, _, ready, _, rfl⟩ := finished
      exact ⟨ready, rfl⟩
  | ecu desc => exact absurd finished id

/-- The calls with their results, from the `start`-th call on. -/
def resultsFrom (outcomes : Nat → CallOutcome) :
    Nat → List (QueueCall Lib) → List (QueueCall Lib × CallResult)
  | _, [] => []
  | start, call :: rest =>
      (call, callResult call (outcomes start)) :: resultsFrom outcomes (start + 1) rest

/-- The items that calls with these results leave behind. -/
inductive Left : List (QueueCall Lib × CallResult) → List (Item Lib) → Prop where
  | nil : Left [] []
  | finished {call : QueueCall Lib} {item : Item Lib} {rest : List (QueueCall Lib × CallResult)}
      {items : List (Item Lib)} (done : Finished platform call item) (others : Left rest items) :
      Left ((call, .finished) :: rest) (item :: items)
  | nothing {call : QueueCall Lib} {rest : List (QueueCall Lib × CallResult)}
      {items : List (Item Lib)} (others : Left rest items) : Left ((call, .nothing) :: rest) items
  | unfinished {call : QueueCall Lib} {rest : List (QueueCall Lib × CallResult)}
      {items : List (Item Lib)} (others : Left rest items) :
      Left ((call, .unfinished) :: rest) (.zero :: items)

def survivors : List (QueueCall Lib × CallResult) → List Signature
  | [] => []
  | (call, .finished) :: rest => callSignature platform call :: survivors rest
  | (_, .nothing) :: rest => survivors rest
  | (_, .unfinished) :: rest => ⟨.source, 0, 0⟩ :: survivors rest

theorem left_signatures {results : List (QueueCall Lib × CallResult)} {items : List (Item Lib)}
    (left : Left platform results items) :
    items.map PqItem.signature = survivors platform results := by
  induction left with
  | nil => rfl
  | finished done others ih =>
      rw [List.map_cons, ih, finished_signature platform done]
      rfl
  | nothing others ih => exact ih
  | unfinished others ih =>
      rw [List.map_cons, ih]
      rfl

theorem left_linked {results : List (QueueCall Lib × CallResult)} {items : List (Item Lib)}
    (left : Left platform results items) : Linked items := by
  induction left with
  | nil => exact fun item member => absurd member List.not_mem_nil
  | finished done others ih => exact List.forall_mem_cons.mpr ⟨(finished_ready platform done).2, ih⟩
  | nothing others ih => exact ih
  | unfinished others ih => exact List.forall_mem_cons.mpr ⟨rfl, ih⟩

theorem left_length_le {results : List (QueueCall Lib × CallResult)} {items : List (Item Lib)}
    (left : Left platform results items) : items.length ≤ results.length := by
  induction left with
  | nil => exact Nat.le_refl _
  | finished done others ih => exact Nat.succ_le_succ ih
  | nothing others ih => exact Nat.le_succ_of_le ih
  | unfinished others ih => exact Nat.succ_le_succ ih

theorem left_all_finished {results : List (QueueCall Lib × CallResult)} {items : List (Item Lib)}
    (left : Left platform results items) (all : ∀ pair ∈ results, pair.2 = .finished) :
    List.Forall₂ (fun pair item => Finished platform pair.1 item) results items := by
  induction left with
  | nil => exact List.Forall₂.nil
  | finished done others ih =>
      exact List.Forall₂.cons done (ih (List.forall_mem_cons.mp all).2)
  | nothing others ih => exact nomatch (List.forall_mem_cons.mp all).1
  | unfinished others ih => exact nomatch (List.forall_mem_cons.mp all).1

/-- What is kept about a call agrees with its result. -/
def Logged (pair : QueueCall Lib × CallResult) (log : QueueCall Lib × Int) : Prop :=
  log.1 = pair.1 ∧ (log.2 = 0 ↔ pair.2 = .finished)

theorem results_from_calls (outcomes : Nat → CallOutcome) (start : Nat) (calls : List (QueueCall Lib)) :
    (resultsFrom outcomes start calls).map Prod.fst = calls := by
  induction calls generalizing start with
  | nil => rfl
  | cons call rest ih => rw [resultsFrom, List.map_cons, ih]

theorem logged_succeeded {results : List (QueueCall Lib × CallResult)}
    {log : List (QueueCall Lib × Int)} (logged : List.Forall₂ Logged results log) :
    log.map Prod.fst = results.map Prod.fst ∧
      ((∀ pair ∈ results, pair.2 = .finished) ↔ ∀ entry ∈ log, entry.2 = 0) := by
  induction logged with
  | nil => exact ⟨rfl, by simp⟩
  | cons first rest ih =>
      rw [List.map_cons, List.map_cons, first.1, ih.1, List.forall_mem_cons, List.forall_mem_cons,
        ih.2, first.2]
      exact ⟨rfl, Iff.rfl⟩

theorem finished_items {results : List (QueueCall Lib × CallResult)} {items : List (Item Lib)}
    (finished : List.Forall₂ (fun pair item => Finished platform pair.1 item) results
      items) :
    List.Forall₂ (Finished platform) (results.map Prod.fst) items ∧
      ∀ item ∈ items, item.proc.isSome := by
  induction finished with
  | nil => exact ⟨List.Forall₂.nil, by simp⟩
  | cons first rest ih =>
      exact ⟨List.Forall₂.cons first ih.1,
        List.forall_mem_cons.mpr ⟨(finished_ready _ first).1, ih.2⟩⟩

theorem enqueue_leaves (outcomes : Nat → CallOutcome) {call : QueueCall Lib} {chain : Chain Lib}
    (resolves : Resolves platform call) (linked : Linked chain.pq.items)
    (handedOut : HandedOut chain.ledger) (counted : chain.pq.nItems = chain.pq.items.length)
    (room : chain.pq.items.length + 1 < 2 ^ 32) :
    ∃ after left rv, enqueue platform outcomes call chain = .ok after ∧
      HandedOut after.ledger ∧ after.pq.items = chain.pq.items ++ left ∧
      after.pq.nItems = after.pq.items.length ∧
      after.calls = chain.calls ++ [(call, rv)] ∧
      (rv = 0 ↔ callResult call (outcomes chain.calls.length) = .finished) ∧
      ∀ rest items, Left platform rest items →
        Left platform ((call, callResult call (outcomes chain.calls.length)) :: rest)
          (left ++ items) := by
  obtain ⟨rv, pq, ledger, run, handedOutAfter, leaves⟩ := queue_call_leaves platform
    (outcomes chain.calls.length) linked handedOut resolves
  have longer : ∀ item : Item Lib, (appended chain.pq item).nItems =
      (appended chain.pq item).items.length := by
    intro item
    show (chain.pq.nItems + 1) % 2 ^ 32 = (chain.pq.items ++ [item]).length
    rw [counted, Nat.mod_eq_of_lt room, List.length_append, List.length_singleton]
  have enqueued : enqueue platform outcomes call chain =
      .ok ⟨pq, ledger, chain.calls ++ [(call, rv)]⟩ := by
    rw [enqueue, run]
    rfl
  cases result : callResult call (outcomes chain.calls.length) with
  | finished =>
      obtain ⟨zero, item, done, rfl⟩ := leaves.finished result
      exact ⟨_, [item], rv, enqueued, handedOutAfter, rfl, longer item, rfl, by simp [zero],
        fun rest items others => Left.finished done others⟩
  | nothing =>
      obtain ⟨negative, rfl⟩ := leaves.nothing result
      refine ⟨_, [], rv, enqueued, handedOutAfter, (List.append_nil _).symm, counted, rfl, ?_,
        fun rest items others => Left.nothing others⟩
      simp [Int.ne_of_lt negative]
  | unfinished =>
      obtain ⟨negative, rfl⟩ := leaves.unfinished result
      refine ⟨_, [.zero], rv, enqueued, handedOutAfter, rfl, longer .zero, rfl, ?_,
        fun rest items others => Left.unfinished others⟩
      simp [Int.ne_of_lt negative]

theorem enqueue_all_leaves (outcomes : Nat → CallOutcome) (calls : List (QueueCall Lib))
    (resolves : ∀ call ∈ calls, Resolves platform call) :
    ∀ chain : Chain Lib, Linked chain.pq.items → HandedOut chain.ledger →
      chain.pq.nItems = chain.pq.items.length →
      chain.pq.items.length + calls.length < 2 ^ 32 →
      ∃ after left logged, enqueueAll platform outcomes calls chain = .ok after ∧
        HandedOut after.ledger ∧ after.pq.items = chain.pq.items ++ left ∧
        after.pq.nItems = after.pq.items.length ∧ after.calls = chain.calls ++ logged ∧
        Left platform (resultsFrom outcomes chain.calls.length calls) left ∧
        List.Forall₂ Logged (resultsFrom outcomes chain.calls.length calls) logged := by
  induction calls with
  | nil =>
      intro chain linked handedOut counted room
      exact ⟨chain, [], [], rfl, handedOut, (List.append_nil _).symm, counted,
        (List.append_nil _).symm, Left.nil, List.Forall₂.nil⟩
  | cons call rest ih =>
      intro chain linked handedOut counted room
      rw [List.length_cons] at room
      obtain ⟨callResolves, restResolve⟩ := List.forall_mem_cons.mp resolves
      obtain ⟨between, left, rv, run, handedOutBetween, items, countedBetween, log, success, extend⟩ :=
        enqueue_leaves platform outcomes callResolves linked handedOut counted (by omega)
      have leftOne := extend [] [] Left.nil
      rw [List.append_nil] at leftOne
      have short : left.length ≤ 1 := left_length_le platform leftOne
      have grown : between.pq.items.length = chain.pq.items.length + left.length := by
        rw [items, List.length_append]
      have linkedBetween : Linked between.pq.items := by
        rw [items]
        exact List.forall_mem_append.mpr ⟨linked, left_linked platform leftOne⟩
      obtain ⟨after, restLeft, restLogged, restRun, handedOutAfter, restItems, countedAfter, restLog,
        restLeaves, restSuccess⟩ := ih restResolve between linkedBetween handedOutBetween
          countedBetween (by omega)
      have next : between.calls.length = chain.calls.length + 1 := by
        rw [log]
        simp
      rw [next] at restLeaves restSuccess
      refine ⟨after, left ++ restLeft, (call, rv) :: restLogged, ?_, handedOutAfter, ?_, countedAfter,
        ?_, extend _ _ restLeaves, List.Forall₂.cons ⟨rfl, success⟩ restSuccess⟩
      · rw [enqueueAll, run, exec_bind_ok]
        exact restRun
      · rw [restItems, items, List.append_assoc]
      · rw [restLog, log, List.append_assoc]
        rfl

end Leftovers

/-- The queue as `main` creates it. -/
def emptyChain (Lib : Type) : Chain Lib := ⟨osmoGapkPqCreate "main", .empty, []⟩

section Results

variable {Lib : Type} (platform : Platform Lib) (opts : GapkOptions) (input output : Stream)
  (fmtIn fmtOut : FormatDesc)

/-- The ways to get from the input format to the form in the middle. -/
inductive Decoding : List (QueueCall Lib) → Prop where
  | native {codec : CodecDesc Lib} (needed : needDec fmtIn fmtOut = true)
      (found : platform.registry.codecGetFromType fmtIn.codecType = some codec)
      (same : fmtIn.type = codec.codecDecFormatType) : Decoding [.codec codec false]
  | foreign {codec : CodecDesc Lib} {fmtDec : FormatDesc} (needed : needDec fmtIn fmtOut = true)
      (found : platform.registry.codecGetFromType fmtIn.codecType = some codec)
      (decoder : platform.registry.fmtGetFromType codec.codecDecFormatType = some fmtDec) :
      Decoding [.fmtConvert fmtIn false, .fmtConvert fmtDec true, .codec codec false]
  | canonical (unneeded : needDec fmtIn fmtOut = false) (different : fmtIn.type ≠ fmtOut.type) :
      Decoding [.fmtConvert fmtIn false]
  | same (unneeded : needDec fmtIn fmtOut = false) (same : fmtIn.type = fmtOut.type) : Decoding []

/-- The ways to get from the form in the middle to the output format. -/
inductive Encoding : List (QueueCall Lib) → Prop where
  | native {codec : CodecDesc Lib} (needed : needEnc fmtIn fmtOut = true)
      (found : platform.registry.codecGetFromType fmtOut.codecType = some codec)
      (same : fmtOut.type = codec.codecEncFormatType) : Encoding [.codec codec true]
  | foreign {codec : CodecDesc Lib} {fmtEnc : FormatDesc} (needed : needEnc fmtIn fmtOut = true)
      (found : platform.registry.codecGetFromType fmtOut.codecType = some codec)
      (encoder : platform.registry.fmtGetFromType codec.codecEncFormatType = some fmtEnc) :
      Encoding [.codec codec true, .fmtConvert fmtEnc false, .fmtConvert fmtOut true]
  | canonical (unneeded : needEnc fmtIn fmtOut = false) (different : fmtIn.type ≠ fmtOut.type) :
      Encoding [.fmtConvert fmtOut true]
  | same (unneeded : needEnc fmtIn fmtOut = false) (same : fmtIn.type = fmtOut.type) : Encoding []

theorem decoding_cases {calls : List (QueueCall Lib)}
    (decoding : decodingCalls platform fmtIn fmtOut = some calls) :
    Decoding platform fmtIn fmtOut calls := by
  unfold decodingCalls at decoding
  by_cases needed : needDec fmtIn fmtOut = true
  · rw [if_pos needed] at decoding
    cases found : platform.registry.codecGetFromType fmtIn.codecType with
    | none =>
        rw [found] at decoding
        cases decoding
    | some codec =>
        simp only [found] at decoding
        by_cases native : fmtIn.type = codec.codecDecFormatType
        · rw [if_neg (not_not.mpr native)] at decoding
          cases decoding
          exact .native needed found native
        · rw [if_pos native] at decoding
          cases decoder : platform.registry.fmtGetFromType codec.codecDecFormatType with
          | none =>
              rw [decoder] at decoding
              cases decoding
          | some fmtDec =>
              simp only [decoder] at decoding
              cases decoding
              exact .foreign needed found decoder
  · rw [if_neg needed] at decoding
    have unneeded : needDec fmtIn fmtOut = false := Bool.eq_false_iff.mpr needed
    by_cases same : fmtIn.type = fmtOut.type
    · rw [if_neg (not_not.mpr same)] at decoding
      cases decoding
      exact .same unneeded same
    · rw [if_pos same] at decoding
      cases decoding
      exact .canonical unneeded same

theorem encoding_cases {calls : List (QueueCall Lib)}
    (encoding : encodingCalls platform fmtIn fmtOut = some calls) :
    Encoding platform fmtIn fmtOut calls := by
  unfold encodingCalls at encoding
  by_cases needed : needEnc fmtIn fmtOut = true
  · rw [if_pos needed] at encoding
    cases found : platform.registry.codecGetFromType fmtOut.codecType with
    | none =>
        rw [found] at encoding
        cases encoding
    | some codec =>
        simp only [found] at encoding
        by_cases native : fmtOut.type = codec.codecEncFormatType
        · rw [if_neg (not_not.mpr native)] at encoding
          cases encoding
          exact .native needed found native
        · rw [if_pos native] at encoding
          cases encoder : platform.registry.fmtGetFromType codec.codecEncFormatType with
          | none =>
              rw [encoder] at encoding
              cases encoding
          | some fmtEnc =>
              simp only [encoder] at encoding
              cases encoding
              exact .foreign needed found encoder
  · rw [if_neg needed] at encoding
    have unneeded : needEnc fmtIn fmtOut = false := Bool.eq_false_iff.mpr needed
    by_cases same : fmtIn.type = fmtOut.type
    · rw [if_neg (not_not.mpr same)] at encoding
      cases encoding
      exact .same unneeded same
    · rw [if_pos same] at encoding
      cases encoding
      exact .canonical unneeded same

/-- A source is a file, a socket or a sound device of the input block length. -/
theorem source_cases {call : QueueCall Lib}
    (source : sourceCall platform opts input fmtIn = some call) :
    call = .fileInput fmtIn.frameLen ∨ call = .rtpInput fmtIn.frameLen opts.rtpPtIn ∨
      call = .alsaInput fmtIn.frameLen := by
  unfold sourceCall at source
  split_ifs at source <;> cases source
  · exact Or.inl rfl
  · exact Or.inr (Or.inl rfl)
  · exact Or.inr (Or.inr rfl)

theorem sink_cases {call : QueueCall Lib}
    (sink : sinkCall platform opts output fmtOut = some call) :
    call = .fileOutput fmtOut.frameLen ∨ call = .rtpOutput fmtOut.frameLen opts.rtpPtOut ∨
      call = .alsaOutput fmtOut.frameLen := by
  unfold sinkCall at sink
  split_ifs at sink <;> cases sink
  · exact Or.inl rfl
  · exact Or.inr (Or.inl rfl)
  · exact Or.inr (Or.inr rfl)

theorem plan_length_le {calls : List (QueueCall Lib)}
    (planned : plan platform opts input output fmtIn fmtOut = some calls) : calls.length ≤ 8 := by
  obtain ⟨source, decoding, encoding, sink, _, isDecoding, isEncoding, _, rfl⟩ :=
    plan_eq_some platform opts input output fmtIn fmtOut planned
  have decodes : decoding.length ≤ 3 := by
    cases decoding_cases platform fmtIn fmtOut isDecoding <;> simp
  have encodes : encoding.length ≤ 3 := by
    cases encoding_cases platform fmtIn fmtOut isEncoding <;> simp
  simp only [List.length_append, List.length_singleton]
  omega

/-- A planned chain leaves what its calls leave, and passes the check when that
fits together. -/
theorem make_chain_result (outcomes : Nat → CallOutcome) {calls : List (QueueCall Lib)}
    (planned : plan platform opts input output fmtIn fmtOut = some calls)
    (resolves : ∀ call ∈ calls, Resolves platform call) :
    ∃ rc after, makeProcessingChain platform outcomes opts input output fmtIn fmtOut
        (emptyChain Lib) = .ok (rc, after) ∧
      (rc = 0 ↔ Fits (survivors platform (resultsFrom outcomes 0 calls))) ∧
      Left platform (resultsFrom outcomes 0 calls) after.pq.items ∧
      List.Forall₂ Logged (resultsFrom outcomes 0 calls) after.calls := by
  have short := plan_length_le platform opts input output fmtIn fmtOut planned
  obtain ⟨after, left, logged, run, _, items, counted, log, leaves, success⟩ :=
    enqueue_all_leaves platform outcomes calls resolves (emptyChain Lib)
      (fun item member => absurd member List.not_mem_nil)
      (fun handle member => absurd member List.not_mem_nil) rfl (by
        simp only [emptyChain, osmoGapkPqCreate, List.length_nil]
        omega)
  have sameItems : after.pq.items = left := items
  have sameLog : after.calls = logged := log
  rw [← sameItems] at leaves
  rw [← sameLog] at success
  obtain ⟨rc, checked, _, fits⟩ := pq_check_strict_eq (left_linked platform leaves) (by
    intro empty
    rw [counted, empty, List.length_nil])
  rw [left_signatures platform leaves] at fits
  refine ⟨rc, after, ?_, fits, leaves, success⟩
  rw [make_chain_planned platform opts input output fmtIn fmtOut outcomes planned, run, exec_bind_ok,
    checked]
  rfl

end Results

end Gapk.Chain
