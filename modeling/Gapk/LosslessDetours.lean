import Gapk.Detours
import Gapk.FrFormats
import Gapk.HrFormats
import Gapk.EfrFormats
import Gapk.RtpEfr

/-!
# Formats to make a detour through

PCM files give back the samples of any decoder, and the formats of a family that
lose nothing give back the canonical frames of their codec. A conversion through a
file of one of them is the conversion in one run.
-/

namespace Gapk.LosslessDetours

open CheckedMemory BitBuffer FixedWidth Blocks Paths Pipeline
open Gapk.Formats Gapk.Procqueue Gapk.Streams Gapk.QueueOps Gapk.QueueLedger Gapk.Codecs Gapk.App
open Gapk.Chain Gapk.Options Gapk.ChainTyping Gapk.AppMain Gapk.WholeFile Gapk.FramePassing
open Gapk.Converters Gapk.RtpSource Gapk.PayloadLengths Gapk.Stages Gapk.Endpoints Gapk.Session
open Gapk.Program Gapk.Detours

set_option autoImplicit false

section Examples

open Gapk.BitOrders

/-- Libraries that know no frame: every decoder refuses its input. -/
def refusingLibs : CodecLibs Unit where
  gsmCreate := ()
  gsmEncode := fun _ _ area => ((), 0, zeros area.length)
  gsmDecode := fun _ _ area => ((), -1, zeros area.length)
  gsmhrInit := ()
  gsmhrEncode := fun _ _ area => ((), 0, zeros area.length)
  gsmhrDecode := fun _ _ area => ((), -1, zeros area.length)
  interfaceInit := ()
  encoderInterfaceEncode := fun _ _ area => ((), 32, zeros area.length)
  decoderInterfaceDecode := fun _ _ area => ((), 0, zeros area.length)
  osmoEcuFrReset := fun _ frame => ⟨false, frame⟩
  osmoEcuFrConceal := fun state area => (state, 0, area)
  gsmEncodeArea := fun _ _ area => zeros_length area.length
  gsmDecodeArea := fun _ _ area => zeros_length area.length
  gsmhrEncodeArea := fun _ _ area => zeros_length area.length
  gsmhrDecodeArea := fun _ _ area => zeros_length area.length
  encoderArea := fun _ _ area => zeros_length area.length
  decoderArea := fun _ _ area => zeros_length area.length
  encodedLen := idleLibs.encodedLen
  concealArea := idleLibs.concealArea

theorem refusing_libs_overwrite (calls : List (QueueCall Unit)) : Overwrite refusingLibs calls := by
  intro desc encDecN step _ found lib frame area other room otherRoom
  have sameLength : zeros area.length = zeros other.length := by rw [room, otherRoom]
  unfold codecStep at found
  split at found <;> cases found <;> exact ⟨rfl, rfl, fun count _ => congrArg (List.take count) sameLength⟩

/-- A build with these libraries, and HR tables that exchange the voicing bits. -/
def refusingBuild : Build Unit where
  host := .little
  config := ⟨true, true, true, false⟩
  libs := refusingLibs
  tables := { Tables.identity with
    gsm620Voiced := HrOrders.exchanging.voiced, gsm620Unvoiced := HrOrders.exchanging.unvoiced }

theorem refusing_gsm_registered :
    refusingBuild.registry.fmtGetFromType FmtGsm.fmtGsm.type = some FmtGsm.fmtGsm := rfl

theorem refusing_ti_registered :
    refusingBuild.registry.fmtGetFromType (FmtTi.fmtTiFr (.identity 260)).type =
      some (FmtTi.fmtTiFr (.identity 260)) := rfl

def betweenFiles (fmtIn fmtOut : FormatDesc) : GapkOptions :=
  ⟨some "in", 0, none, some fmtIn, some "out", 0, none, some fmtOut, 0, 0, false⟩

def fileRun (fmtIn fmtOut : FormatDesc)
    (registeredIn : refusingBuild.registry.fmtGetFromType fmtIn.type = some fmtIn)
    (registeredOut : refusingBuild.registry.fmtGetFromType fmtOut.type = some fmtOut)
    (accepted : checkOptions refusingBuild.registry (betweenFiles fmtIn fmtOut) = 0) :
    Invocation refusingBuild where
  request := ⟨betweenFiles fmtIn fmtOut, fmtIn, fmtOut, rfl, rfl, registeredIn, registeredOut, accepted⟩
  env := fileEnvironment
  input := ⟨true, -1⟩
  output := ⟨true, -1⟩
  opened := rfl
  sound := nofun
  unthrottled := rfl
  pqAllocated := file_environment_queue
  headerAllocated := file_environment_headers
  works := always_works
  buffersAllocated := file_environment_buffers

end Examples

section Pcm

variable {Lib : Type} {build : Build Lib} {direct first second : Invocation build}

theorem convert_to_converts {fmt : FormatDesc} {toFromN : Bool} {frame out : Buf}
    (converts : Converts (converter fmt toFromN) frame out) (size : out.length = lenOut fmt toFromN)
    (fixed : lenOut fmt toFromN ≠ 0) : convertTo fmt toFromN frame = some out := by
  have room : (zeros (outputSize (lenOut fmt toFromN))).length = out.length := by
    rw [zeros_length, outputSize, if_neg fixed, size]
  rw [convert_to_run (converts _ room), if_neg (by omega), Int.toNat_natCast, List.take_length]

theorem convert_to_rejects {fmt : FormatDesc} {toFromN : Bool} {frame : Buf}
    (rejects : ∀ dst, converter fmt toFromN dst frame frame.length = .ok (-1, dst)) :
    convertTo fmt toFromN frame = none := by
  rw [convert_to_run (rejects _)]
  exact if_pos (by decide)

/-- A decoder either fails or fills its output area with samples. -/
theorem decoder_fills {libs : CodecLibs Lib} {type : FormatType} {step : LibStep Lib}
    (found : codecStep libs type false = some step) :
    step.outLen = pcmCanonLen ∧ ∀ rc, 0 ≤ step.returned rc → step.returned rc = pcmCanonLen := by
  have unlessFailed : ∀ rc, 0 ≤ lenUnlessFailed pcmCanonLen rc →
      lenUnlessFailed pcmCanonLen rc = pcmCanonLen := by
    intro rc fine
    rw [lenUnlessFailed] at fine ⊢
    split_ifs at fine ⊢ with failed
    · exact absurd fine (Int.not_le.mpr failed)
    · rfl
  cases type with
  | gsm =>
      cases found
      exact ⟨rfl, unlessFailed⟩
  | hrRefDec =>
      cases found
      exact ⟨rfl, unlessFailed⟩
  | amrEfr =>
      cases found
      exact ⟨rfl, fun _ _ => rfl⟩
  | _ => cases found

theorem decoded_length {desc : CodecDesc Lib} {stations : List (Station Lib)}
    (starts : List.Forall₂ (Starts build) [.codec desc false] stations) (frames : List Buf) :
    ∀ out ∈ outputs (chain Station.stage) stations frames, out.length = pcmCanonLen := by
  obtain ⟨station, none, start, empty, rfl⟩ := List.forall₂_cons_left_iff.mp starts
  cases empty
  cases start with
  | @codec _ _ step lib area found init room =>
      obtain ⟨whole, fills⟩ := decoder_fills found
      refine outputs_all (fun _ => True) _
        (fun state => ∃ lib area, state = [.codec step lib area] ∧ area.length = step.outLen) ?_
        ⟨lib, area, rfl, room⟩ fun _ _ => trivial
      rintro state frame after out ⟨lib, area, rfl, room⟩ _ works
      rw [chain, Station.stage, LibStep.apply] at works
      simp only [] at works
      split_ifs at works with failed
      · cases works
      · cases works
        have size := (step_keeps_area found lib frame area).trans room
        refine ⟨⟨_, _, rfl, size⟩, ?_⟩
        rw [fills _ (Int.not_lt.mp failed), Int.toNat_natCast, ← whole]
        exact List.length_take_of_le size.ge

theorem rawpcm_gives_back (host : HostWords.Endian) :
    GivesBack (FmtRawpcm.fmtRawpcmS16le host) fun canon => canon.length = pcmCanonLen where
  sized := (by decide : pcmCanonLen ≠ 0)
  undone := by
    intro canon size
    obtain ⟨words, count, bounded, rfl⟩ := HostWords.exists_words host 160 canon size
    have little : (HostWords.wordsBuf .little words).length = 320 := by
      rw [HostWords.words_buf_length, count]
    exact ⟨_, convert_to_converts (FmtRawpcm.rawpcm_from_canon_converts host count bounded) little
      (by decide : pcmCanonLen ≠ 0), little,
      convert_to_converts (FmtRawpcm.rawpcm_to_canon_converts host count bounded) size
      (by decide : pcmCanonLen ≠ 0)⟩

theorem decoding_lengths {fmtIn fmtOut : FormatDesc} {calls : List (QueueCall Lib)}
    (decodes : Decoding (platformOf build) fmtIn fmtOut calls) (needed : needDec fmtIn fmtOut = true)
    {fronts : List (Station Lib)} (starts : List.Forall₂ (Starts build) calls fronts)
    (frames : List Buf) :
    ∀ out ∈ outputs (chain Station.stage) fronts frames, out.length = pcmCanonLen := by
  cases decodes with
  | native _ _ _ => exact decoded_length starts frames
  | @foreign codec fmtDec _ _ _ =>
      have split : List.Forall₂ (Starts build)
          ([.fmtConvert fmtIn false, .fmtConvert fmtDec true] ++ [.codec codec false]) fronts := starts
      obtain ⟨readers, decoders, _, isDecoder, rfl⟩ := forall₂_append_left split
      rw [outputs_chain_append]
      exact decoded_length isDecoder _
  | canonical unneeded _ | same unneeded _ =>
      rw [unneeded] at needed
      cases needed

theorem decoding_unneeded {fmtIn fmtOut : FormatDesc} (unneeded : needDec fmtIn fmtOut = false)
    (differ : fmtIn.type ≠ fmtOut.type) :
    decodingCalls (platformOf build) fmtIn fmtOut = some [.fmtConvert fmtIn false] := by
  rw [decodingCalls, unneeded, if_neg Bool.false_ne_true, if_pos differ]

theorem encoding_unneeded {fmtIn fmtOut : FormatDesc} (unneeded : needEnc fmtIn fmtOut = false)
    (differ : fmtIn.type ≠ fmtOut.type) :
    encodingCalls (platformOf build) fmtIn fmtOut = some [.fmtConvert fmtOut true] := by
  rw [encodingCalls, unneeded, if_neg Bool.false_ne_true, if_pos differ]

theorem pcm_halves (runs : TwoRuns direct first second) (pcm : first.fmtOut.codecType = .pcm)
    (codedIn : direct.fmtIn.codecType ≠ .pcm) (codedOut : direct.fmtOut.codecType ≠ .pcm)
    (differ : direct.fmtIn.codecType ≠ direct.fmtOut.codecType) :
    ∃ decoding encoding, needDec direct.fmtIn direct.fmtOut = true ∧
      Decoding (platformOf build) direct.fmtIn direct.fmtOut decoding ∧
      Halves direct first second decoding encoding := by
  obtain ⟨_, decoding, encoding, _, _, _, run⟩ := direct.prepares
  have decodes := run.items.decodes
  have encodes := run.items.encodes
  have needsDecoder : needDec direct.fmtIn direct.fmtOut = true := decide_eq_true ⟨codedIn, differ⟩
  have needsEncoder : needEnc direct.fmtIn direct.fmtOut = true :=
    decide_eq_true ⟨codedOut, differ.symm⟩
  have decodesFirst : needDec first.fmtIn first.fmtOut = true := by
    rw [runs.source.formatIn]
    exact decide_eq_true ⟨codedIn, pcm ▸ codedIn⟩
  have copiesFirst : needEnc first.fmtIn first.fmtOut = false :=
    decide_eq_false fun needed => needed.1 pcm
  have copiesSecond : needDec second.fmtIn second.fmtOut = false := by
    rw [runs.via]
    exact decide_eq_false fun needed => needed.1 pcm
  have encodesSecond : needEnc second.fmtIn second.fmtOut = true := by
    rw [runs.via, runs.sink.formatOut]
    exact decide_eq_true ⟨codedOut, pcm ▸ codedOut⟩
  have typesFirst : first.fmtIn.type ≠ first.fmtOut.type :=
    codecs_differ_types first.request (by
      show first.fmtIn.codecType ≠ first.fmtOut.codecType
      rw [runs.source.formatIn, pcm]
      exact codedIn)
  have typesSecond : second.fmtIn.type ≠ second.fmtOut.type :=
    codecs_differ_types second.request (by
      show second.fmtIn.codecType ≠ second.fmtOut.codecType
      rw [runs.via, runs.sink.formatOut, pcm]
      exact codedOut.symm)
  refine ⟨decoding, encoding, needsDecoder, decoding_cases _ _ _ decodes, decodes, encodes, ?_, ?_, ?_, ?_⟩
  · rw [decodingCalls, if_pos needsDecoder] at decodes
    rw [decodingCalls, if_pos decodesFirst, runs.source.formatIn]
    exact decodes
  · exact encoding_unneeded copiesFirst typesFirst
  · exact decoding_unneeded copiesSecond typesSecond
  · rw [encodingCalls, if_pos needsEncoder] at encodes
    rw [encodingCalls, if_pos encodesSecond, runs.sink.formatOut]
    exact encodes

/-- Decoding into a PCM file and encoding that file comes to the same as transcoding
in one run, if the libraries overwrite what they write to. -/
theorem transcoding_through_pcm_file (runs : TwoRuns direct first second)
    (pcm : first.fmtOut.type = .rawpcmS16le) (codedIn : direct.fmtIn.codecType ≠ .pcm)
    (codedOut : direct.fmtOut.codecType ≠ .pcm)
    (differ : direct.fmtIn.codecType ≠ direct.fmtOut.codecType)
    (overwrite : ∀ calls, Overwrite build.libs calls) (fixed : direct.fmtIn.frameLen ≠ 0)
    {world : World} (fits : direct.HeaderFits world)
    (regular : ∀ source, sourceCall (platformOf build) direct.request.opts direct.input direct.fmtIn =
      some source → Regular source (sourceSide (direct.started world))) :
    Detoured direct first second world := by
  have raw : first.fmtOut = FmtRawpcm.fmtRawpcmS16le build.host := by
    have registered := first.request.registeredOut
    rw [pcm, build.fmt_get_eq] at registered
    exact (Option.some_inj.mp registered).symm
  obtain ⟨decoding, encoding, needed, decodes, halves⟩ :=
    pcm_halves runs (congrArg FormatDesc.codecType raw) codedIn codedOut differ
  apply detour_changes_nothing runs halves (overwrite _) (raw ▸ rawpcm_gives_back build.host) ?_ fixed
    fits regular
  intro fronts frames starts _
  exact decoding_lengths decodes needed starts frames

def gsmToHr : Invocation refusingBuild :=
  fileRun FmtGsm.fmtGsm (FmtHrRef.fmtHrRefEnc .little) rfl rfl rfl

def gsmToPcmFile : Invocation refusingBuild :=
  fileRun FmtGsm.fmtGsm (FmtRawpcm.fmtRawpcmS16le .little) rfl rfl rfl

def pcmToHrFile : Invocation refusingBuild :=
  fileRun (FmtRawpcm.fmtRawpcmS16le .little) (FmtHrRef.fmtHrRefEnc .little) rfl rfl rfl

/-- Frames without the magic number of the codec, which its library refuses. -/
theorem gsm_to_hr_through_pcm : Detoured gsmToHr gsmToPcmFile pcmToHrFile (zeroFile 67) := by
  have runs : TwoRuns gsmToHr gsmToPcmFile pcmToHrFile :=
    ⟨⟨rfl, rfl, rfl⟩, ⟨rfl, rfl, rfl, Or.inl rfl⟩, rfl, rfl, rfl⟩
  apply transcoding_through_pcm_file runs rfl (by decide) (by decide) (by decide)
    refusing_libs_overwrite (by decide) (fun _ => List.nil_prefix)
  intro source reads
  cases reads
  exact file_regular (by decide) _

end Pcm

section Families

open Gapk.BitOrders Gapk.FormatFamily

def speechBits : CodecType → Nat
  | .fr => 260
  | .hr => 112
  | .efr => 244
  | _ => 0

def IsCanon (type : CodecType) (bytes : Buf) : Prop :=
  ∃ canon : CanonFrame (canonFrameLen type) (speechBits type), canon.bytes = bytes

def Packed (type : CodecType) : Prop := type = .fr ∨ type = .hr ∨ type = .efr

/-- The formats that give back every canonical frame. -/
def Lossless : FormatType → Prop
  | .gsm | .racalFr | .tiFr | .racalHr | .tiHr | .hrRefDec | .hrRefEnc | .rtpHrEtsi | .rtpHrIetf
  | .amrEfr | .racalEfr => True
  | _ => False

variable {host : HostWords.Endian} {tables : Tables} {type : FormatType} {fmt : FormatDesc}
  (found : formatTable host tables type = some fmt)
  (voiced : PlacesVoicing tables.gsm620Voiced) (unvoiced : PlacesVoicing tables.gsm620Unvoiced)

include found

theorem packed_fixed (packed : Packed fmt.codecType) :
    fmt.frameLen ≠ 0 ∧ canonFrameLen fmt.codecType ≠ 0 := by
  rcases format_lengths found with (rfl | rfl) | fixed
  · rcases packed with fr | hr | efr
    · cases fr
    · cases hr
    · cases efr
  · rcases packed with fr | hr | efr
    · cases fr
    · cases hr
    · cases efr
  · exact fixed

include voiced unvoiced

theorem lossless_keeps (lossless : Lossless type)
    (canon : CanonFrame (canonFrameLen fmt.codecType) (speechBits fmt.codecType)) :
    ∃ frame : RawFrame fmt.frameLen, Converts fmt.convFromCanon canon.bytes frame.bytes ∧
      Converts fmt.convToCanon frame.bytes canon.bytes := by
  let orders : HrOrders := ⟨tables.gsm620Voiced, tables.gsm620Unvoiced, voiced, unvoiced⟩
  cases type with
  | gsm =>
      cases found
      exact FrFormats.fr_from_to_canon tables.gsm610 .gsm canon
  | racalFr =>
      cases found
      exact FrFormats.fr_from_to_canon tables.gsm610 .racalFr canon
  | tiFr =>
      cases found
      exact FrFormats.fr_from_to_canon tables.gsm610 .tiFr canon
  | racalHr =>
      cases found
      exact HrFormats.hr_from_to_canon host orders .racalHr canon
  | tiHr =>
      cases found
      exact HrFormats.hr_from_to_canon host orders .tiHr canon
  | hrRefDec =>
      cases found
      exact HrFormats.hr_from_to_canon host orders .hrRefDec canon
  | hrRefEnc =>
      cases found
      exact HrFormats.hr_from_to_canon host orders .hrRefEnc canon
  | rtpHrEtsi =>
      cases found
      exact HrFormats.hr_from_to_canon host orders .rtpHrEtsi canon
  | rtpHrIetf =>
      cases found
      exact HrFormats.hr_from_to_canon host orders .rtpHrIetf canon
  | amrEfr =>
      cases found
      exact (EfrFormats.amr_efr_keeps_speech tables.gsm690_12_2).canonBack canon
  | racalEfr =>
      cases found
      exact EfrFormats.racal_efr_keeps_speech.canonBack canon
  | _ => exact lossless.elim

theorem lossless_gives_back (lossless : Lossless type) (packed : Packed fmt.codecType) :
    GivesBack fmt (IsCanon fmt.codecType) := by
  obtain ⟨sized, fixed⟩ := packed_fixed found packed
  refine ⟨sized, ?_⟩
  rintro _ ⟨canon, rfl⟩
  obtain ⟨frame, writes, reads⟩ := lossless_keeps found voiced unvoiced lossless canon
  exact ⟨frame.bytes, convert_to_converts writes frame.size sized, frame.size,
    convert_to_converts reads canon.size fixed⟩

omit found voiced unvoiced in
/-- What the reader of TI EFR buffers leaves out is zero. -/
theorem ti_efr_reads_canon (order : BitLayout.BitOrder 260) (frame : Buf) :
    ∃ canon : CanonFrame 31 244,
      canon.bytes = (FmtTi.tiEfrLayout order).reverse.place frame (zeros 31) := by
  apply CanonFrame.exists_bytes (by rw [BitLayout.Layout.place_length, zeros_length])
  intro index beyond
  have free : index ∉ (FmtTi.tiEfrLayout order).reverse.targets := by
    rw [BitLayout.Layout.reverse_targets, FmtTi.mem_ti_efr_sources]
    rintro ⟨entry, _, speech⟩
    have inside := (FmtTi.speech_bit_eq_some.mp speech).1
    omega
  rw [BitLayout.Layout.bit_at_place_of_not_target _ (zeros_length 31) free, bit_at_zeros]

/-- A reader of packed speech makes a canonical frame of every frame that it takes. -/
theorem packed_reads (packed : Packed fmt.codecType) {frame : Buf} (size : frame.length = fmt.frameLen) :
    convertTo fmt false frame = none ∨
      ∃ canon : CanonFrame (canonFrameLen fmt.codecType) (speechBits fmt.codecType),
        Converts fmt.convToCanon frame canon.bytes := by
  let orders : HrOrders := ⟨tables.gsm620Voiced, tables.gsm620Unvoiced, voiced, unvoiced⟩
  cases type with
  | invalid => cases found
  | rawpcmS16le | amrOpencore | rtpAmr =>
      cases found
      rcases packed with fr | hr | efr
      · cases fr
      · cases hr
      · cases efr
  | gsm =>
      cases found
      exact Or.inr ((FrFormats.frFormats tables.gsm610).readsAny .gsm ⟨frame, size⟩)
  | racalFr =>
      cases found
      exact Or.inr ((FrFormats.frFormats tables.gsm610).readsAny .racalFr ⟨frame, size⟩)
  | tiFr =>
      cases found
      exact Or.inr ((FrFormats.frFormats tables.gsm610).readsAny .tiFr ⟨frame, size⟩)
  | racalHr =>
      cases found
      exact Or.inr (HrFormats.hr_reads_any host orders .racalHr ⟨frame, size⟩)
  | tiHr =>
      cases found
      exact Or.inr (HrFormats.hr_reads_any host orders .tiHr ⟨frame, size⟩)
  | hrRefDec =>
      cases found
      exact Or.inr (HrFormats.hr_reads_any host orders .hrRefDec ⟨frame, size⟩)
  | hrRefEnc =>
      cases found
      exact Or.inr (HrFormats.hr_reads_any host orders .hrRefEnc ⟨frame, size⟩)
  | rtpHrEtsi =>
      cases found
      exact Or.inr (HrFormats.hr_reads_any host orders .rtpHrEtsi ⟨frame, size⟩)
  | rtpHrIetf =>
      cases found
      exact Or.inr (HrFormats.hr_reads_any host orders .rtpHrIetf ⟨frame, size⟩)
  | racalEfr =>
      cases found
      obtain ⟨canon, reads, _⟩ := EfrFormats.racalEfrLaidOut.to_from_canon ⟨frame, size⟩
      exact Or.inr ⟨canon, reads⟩
  | rtpEfr =>
      cases found
      exact Or.inr (RtpEfr.rtp_efr_reads_any frame)
  | tiEfr =>
      cases found
      obtain ⟨canon, same⟩ := ti_efr_reads_canon tables.gsm660 frame
      exact Or.inr ⟨canon, same ▸ FmtTi.ti_efr_to_canon_converts tables.gsm660 size⟩
  | amrEfr =>
      cases found
      by_cases mode : EfrFormats.Mode122 frame
      · obtain ⟨canon, reads, _⟩ :=
          (EfrFormats.amr_efr_keeps_speech tables.gsm690_12_2).frameBack ⟨frame, size⟩ mode
        exact Or.inr ⟨canon, reads⟩
      · left
        apply convert_to_rejects
        intro dst
        rw [size]
        exact FmtAmr.amr_efr_to_canon_refuses tables.gsm690_12_2 size mode

end Families

section Lossless

open Gapk.BitOrders

variable {Lib : Type} {build : Build Lib} {direct first second : Invocation build}

theorem calls_of_one_codec (build : Build Lib) {fmtIn fmtOut : FormatDesc}
    (same : fmtIn.codecType = fmtOut.codecType)
    (differ : fmtIn.type ≠ fmtOut.type) :
    decodingCalls (platformOf build) fmtIn fmtOut = some [.fmtConvert fmtIn false] ∧
      encodingCalls (platformOf build) fmtIn fmtOut = some [.fmtConvert fmtOut true] := by
  have noDecoder : needDec fmtIn fmtOut = false := decide_eq_false fun needed => needed.2 same
  have noEncoder : needEnc fmtIn fmtOut = false := decide_eq_false fun needed => needed.2 same.symm
  exact ⟨decoding_unneeded noDecoder differ, encoding_unneeded noEncoder differ⟩

/-- Between formats of one codec, all three of them different, a detour through a file
of a lossless format changes nothing. -/
theorem detour_through_lossless_file (runs : TwoRuns direct first second)
    (packed : Packed direct.fmtIn.codecType)
    (via : first.fmtOut.codecType = direct.fmtIn.codecType)
    (out : direct.fmtOut.codecType = direct.fmtIn.codecType) (lossless : Lossless first.fmtOut.type)
    (differIn : direct.fmtIn.type ≠ first.fmtOut.type)
    (differOut : first.fmtOut.type ≠ direct.fmtOut.type)
    (differ : direct.fmtIn.type ≠ direct.fmtOut.type)
    (voiced : PlacesVoicing build.tables.gsm620Voiced)
    (unvoiced : PlacesVoicing build.tables.gsm620Unvoiced)
    {world : World} (fits : direct.HeaderFits world)
    (regular : ∀ source, sourceCall (platformOf build) direct.request.opts direct.input direct.fmtIn =
      some source → Regular source (sourceSide (direct.started world))) :
    Detoured direct first second world := by
  have found := (build.fmt_get_eq _).symm.trans direct.request.registeredIn
  have foundVia := (build.fmt_get_eq _).symm.trans first.request.registeredOut
  obtain ⟨fixed, fixedCanon⟩ := packed_fixed found packed
  have single := calls_of_one_codec build out.symm differ
  have toVia := calls_of_one_codec build via.symm differIn
  have fromVia := calls_of_one_codec build (via.trans out.symm) differOut
  have halves : Halves direct first second [.fmtConvert direct.fmtIn false]
      [.fmtConvert direct.fmtOut true] := by
    refine ⟨single.1, single.2, ?_, ?_, ?_, ?_⟩
    · rw [runs.source.formatIn]
      exact toVia.1
    · rw [runs.source.formatIn]
      exact toVia.2
    · rw [runs.via, runs.sink.formatOut]
      exact fromVia.1
    · rw [runs.via, runs.sink.formatOut]
      exact fromVia.2
  have noCodec : Overwrite build.libs
      ([.fmtConvert direct.fmtIn false] ++ [.fmtConvert direct.fmtOut true]) := by
    intro desc encDecN step member
    simp at member
  have givesBack := lossless_gives_back foundVia voiced unvoiced lossless (via ▸ packed)
  apply detour_changes_nothing runs halves noCodec givesBack ?_ fixed fits regular
  intro fronts frames starts sized
  rw [starts_converter starts]
  refine outputs_all (fun frame => frame.length = direct.fmtIn.frameLen) _
    (fun state => state = [.converter direct.fmtIn false]) ?_ rfl sized
  rintro state frame after canon rfl size works
  rw [chain, Station.stage] at works
  rcases packed_reads found voiced unvoiced packed size with none | ⟨read, converts⟩
  · rw [none] at works
    cases works
  · have some : convertTo direct.fmtIn false frame = some read.bytes :=
      convert_to_converts converts read.size fixedCanon
    rw [some] at works
    cases works
    rw [via]
    exact ⟨rfl, read, rfl⟩

def gsmToTi : Invocation refusingBuild :=
  fileRun FmtGsm.fmtGsm (FmtTi.fmtTiFr (.identity 260)) refusing_gsm_registered refusing_ti_registered
    rfl

def gsmToRacalFile : Invocation refusingBuild :=
  fileRun FmtGsm.fmtGsm (FmtRacal.fmtRacalFr (.identity 260)) rfl rfl rfl

def racalToTiFile : Invocation refusingBuild :=
  fileRun (FmtRacal.fmtRacalFr (.identity 260)) (FmtTi.fmtTiFr (.identity 260)) rfl rfl rfl

theorem gsm_to_ti_through_racal : Detoured gsmToTi gsmToRacalFile racalToTiFile (zeroFile 67) := by
  have runs : TwoRuns gsmToTi gsmToRacalFile racalToTiFile :=
    ⟨⟨rfl, rfl, rfl⟩, ⟨rfl, rfl, rfl, Or.inl rfl⟩, rfl, rfl, rfl⟩
  apply detour_through_lossless_file runs (Or.inl rfl) rfl rfl trivial (by decide) (by decide)
    (by decide) HrOrders.exchanging.voicedPlaces HrOrders.exchanging.unvoicedPlaces
    (fun _ => List.nil_prefix)
  intro source reads
  cases reads
  exact file_regular (by decide) _

end Lossless

end Gapk.LosslessDetours
