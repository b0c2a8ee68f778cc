import Gapk.Chain

/-!
# Accepted options

Options that `check_options` accepts. A transcoding is accepted only if the codecs
on both sides can do their part, so the calls of a chain find everything they
look up.
-/

namespace Gapk.Options

open CheckedMemory
open Gapk.Formats Gapk.Procqueue Gapk.Streams Gapk.QueueOps Gapk.QueueLedger Gapk.Codecs Gapk.App
open Gapk.Chain

set_option autoImplicit false

/-- Options that passed the check. The parser takes formats from the table. -/
structure AcceptedOptions {Lib : Type} (registry : Registry Lib) where
  opts : GapkOptions
  fmtIn : FormatDesc
  fmtOut : FormatDesc
  isIn : opts.fmtIn = some fmtIn
  isOut : opts.fmtOut = some fmtOut
  registeredIn : registry.fmtGetFromType fmtIn.type = some fmtIn
  registeredOut : registry.fmtGetFromType fmtOut.type = some fmtOut
  accepted : checkOptions registry opts = 0

section Transcoding

variable {Lib : Type} {registry : Registry Lib} (request : AcceptedOptions registry)

namespace AcceptedOptions

theorem transcoding_accepted : checkTranscoding registry request.fmtIn request.fmtOut = 0 := by
  have accepted := request.accepted
  rw [checkOptions, request.isIn, request.isOut] at accepted
  simp only [] at accepted
  by_contra refused
  rw [if_pos refused] at accepted
  exact refused accepted

theorem need_dec_iff : needDec request.fmtIn request.fmtOut = true ↔
    request.fmtIn.codecType ≠ .pcm ∧ request.fmtIn.codecType ≠ request.fmtOut.codecType :=
  decide_eq_true_iff

theorem need_enc_iff : needEnc request.fmtIn request.fmtOut = true ↔
    request.fmtOut.codecType ≠ .pcm ∧ request.fmtOut.codecType ≠ request.fmtIn.codecType :=
  decide_eq_true_iff

end AcceptedOptions

theorem check_codec_callback (wellFormed : registry.WellFormed) {type : CodecType}
    {callback : CodecDesc Lib → Bool} (accepted : checkCodec registry type callback = 0)
    (coded : type ≠ .pcm) {codec : CodecDesc Lib} (found : registry.codecGetFromType type = some codec) :
    callback codec = true := by
  rw [checkCodec, found] at accepted
  have own : codec.type ≠ .pcm := by
    rw [wellFormed.codecType found]
    exact coded
  by_contra missing
  simp only [Bool.not_eq_true] at missing
  simp [own, missing, enotsup] at accepted

namespace AcceptedOptions

theorem decodes (wellFormed : registry.WellFormed)
    (needed : needDec request.fmtIn request.fmtOut = true) {codec : CodecDesc Lib}
    (found : registry.codecGetFromType request.fmtIn.codecType = some codec) :
    codec.codecDecode.isSome := by
  obtain ⟨coded, differ⟩ := request.need_dec_iff.mp needed
  have accepted := request.transcoding_accepted
  rw [checkTranscoding, if_pos differ] at accepted
  simp only [] at accepted
  by_cases able : checkCodec registry request.fmtIn.codecType
      (fun codec => codec.codecDecode.isSome) = 0
  · exact check_codec_callback wellFormed able coded found
  · rw [if_pos able] at accepted
    exact absurd accepted able

theorem encodes (wellFormed : registry.WellFormed)
    (needed : needEnc request.fmtIn request.fmtOut = true) {codec : CodecDesc Lib}
    (found : registry.codecGetFromType request.fmtOut.codecType = some codec) :
    codec.codecEncode.isSome := by
  obtain ⟨coded, differ⟩ := request.need_enc_iff.mp needed
  have accepted := request.transcoding_accepted
  rw [checkTranscoding, if_pos (Ne.symm differ)] at accepted
  simp only [] at accepted
  by_cases able : checkCodec registry request.fmtIn.codecType
      (fun codec => codec.codecDecode.isSome) = 0
  · rw [if_neg (not_not.mpr able)] at accepted
    exact check_codec_callback wellFormed accepted coded found
  · rw [if_pos able] at accepted
    exact absurd accepted able

end AcceptedOptions

theorem resolves_fmt_convert {platform : Platform Lib} (wellFormed : platform.registry.WellFormed)
    {type : FormatType} {fmt : FormatDesc} (found : platform.registry.fmtGetFromType type = some fmt)
    (toFromN : Bool) : Resolves platform (.fmtConvert fmt toFromN) :=
  wellFormed.codecKnown found

end Transcoding

section Build

variable {Lib : Type} (build : Build Lib)

theorem resolves_codec {type : CodecType} {codec : CodecDesc Lib}
    (found : build.registry.codecGetFromType type = some codec) (encDecN : Bool)
    (ready : (codecProc codec encDecN).isSome) :
    Resolves (platformOf build) (.codec codec encDecN) := by
  have wellFormed := build.registry_well_formed
  rw [build.codec_get_eq] at found
  obtain ⟨decodes, encodes⟩ := build.codec_table_formats found
  rw [← build.codec_get_eq] at found
  refine ⟨?_, rfl, ready⟩
  cases encDecN with
  | false =>
      obtain ⟨fmt, decoder, _⟩ := wellFormed.decoderFormat found (decodes ready)
      exact Option.isSome_iff_exists.mpr ⟨fmt, decoder⟩
  | true =>
      obtain ⟨fmt, encoder, _⟩ := wellFormed.encoderFormat found (encodes ready)
      exact Option.isSome_iff_exists.mpr ⟨fmt, encoder⟩

variable (request : AcceptedOptions build.registry) (input output : Stream)

theorem plan_resolves {calls : List (QueueCall Lib)}
    (planned : plan (platformOf build) request.opts input output request.fmtIn request.fmtOut =
      some calls) :
    ∀ call ∈ calls, Resolves (platformOf build) call := by
  have wellFormed := build.registry_well_formed
  obtain ⟨source, decoding, encoding, sink, isSource, isDecoding, isEncoding, isSink, rfl⟩ :=
    plan_eq_some _ _ _ _ _ _ planned
  have convertIn : ∀ toFromN, Resolves (platformOf build) (.fmtConvert request.fmtIn toFromN) :=
    resolves_fmt_convert wellFormed request.registeredIn
  have convertOut : ∀ toFromN, Resolves (platformOf build) (.fmtConvert request.fmtOut toFromN) :=
    resolves_fmt_convert wellFormed request.registeredOut
  have sourceResolves : Resolves (platformOf build) source := by
    rcases source_cases _ _ _ _ isSource with rfl | rfl | rfl <;> trivial
  have sinkResolves : Resolves (platformOf build) sink := by
    rcases sink_cases _ _ _ _ isSink with rfl | rfl | rfl <;> trivial
  have decodingResolves : ∀ call ∈ decoding, Resolves (platformOf build) call := by
    cases decoding_cases _ _ _ isDecoding with
    | native needed found same =>
        simpa using resolves_codec build found false (request.decodes wellFormed needed found)
    | foreign needed found decoder =>
        simpa using ⟨convertIn false, resolves_fmt_convert wellFormed decoder true,
          resolves_codec build found false (request.decodes wellFormed needed found)⟩
    | canonical unneeded different => simpa using convertIn false
    | same unneeded same => simp
  have encodingResolves : ∀ call ∈ encoding, Resolves (platformOf build) call := by
    cases encoding_cases _ _ _ isEncoding with
    | native needed found same =>
        simpa using resolves_codec build found true (request.encodes wellFormed needed found)
    | foreign needed found encoder =>
        simpa using ⟨resolves_codec build found true (request.encodes wellFormed needed found),
          resolves_fmt_convert wellFormed encoder false, convertOut true⟩
    | canonical unneeded different => simpa using convertOut true
    | same unneeded same => simp
  simp only [List.mem_append, List.mem_singleton]
  rintro call (((rfl | member) | member) | rfl)
  · exact sourceResolves
  · exact decodingResolves call member
  · exact encodingResolves call member
  · exact sinkResolves

end Build

end Gapk.Options
