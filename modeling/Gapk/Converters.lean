import Gapk.AmrFormats
import Gapk.Codecs

/-!
# All converters of the format table

What holds of every converter in the buffer that the queue gives it. Most
converters insist on the length of their input; three readers of RTP payloads
substitute a frame for a payload of another length, and AMR frames are copied.
-/

namespace Gapk.Converters

open CheckedMemory BitBuffer BitLayout FixedWidth HostWords
open Gapk.BitOrders Gapk.Formats Gapk.Procqueue Gapk.QueueOps Gapk.Codecs
open Gapk.NibbleShift Gapk.FmtGsm Gapk.FmtRacal Gapk.FmtTi Gapk.FmtHrRef Gapk.FmtRtp Gapk.FmtAmr
open Gapk.FmtRawpcm Gapk.AmrFormats

set_option autoImplicit false

def converter (fmt : FormatDesc) (toFromN : Bool) : FmtConvCb :=
  if toFromN then fmt.convFromCanon else fmt.convToCanon

/-- A converter that insists on the length of its input. Then it converts the
frame, or refuses it. -/
structure Strict (convert : FmtConvCb) (lenIn lenOut : Nat) : Prop where
  asserts : ∀ (dst src : Buf) (srcLen : Nat), srcLen ≠ lenIn →
    convert dst src srcLen = .error .assertion
  converts : ∀ src : Buf, src.length = lenIn →
    (∃ out : Buf, out.length = lenOut ∧ Converts convert src out) ∨
      ∀ dst : Buf, convert dst src lenIn = .ok (-1, dst)

/-- A reader that substitutes a frame of `fillLen` zeros for a payload of another
length, whatever room there is. -/
structure Lenient (convert : FmtConvCb) (lenIn lenOut fillLen : Nat) : Prop where
  substitutes : ∀ (dst src : Buf) (srcLen : Nat), srcLen ≠ lenIn → fillLen ≤ dst.length →
    convert dst src srcLen = .ok (lenOut, zeros fillLen ++ dst.drop fillLen)
  overflows : ∀ (dst src : Buf) (srcLen : Nat), srcLen ≠ lenIn → dst.length < fillLen →
    convert dst src srcLen = .error .outOfBounds
  converts : ∀ src : Buf, src.length = lenIn →
    ∃ out : Buf, out.length = lenOut ∧ Converts convert src out

theorem Strict.of_require {convert : FmtConvCb} {lenIn lenOut : Nat} (body : FmtConvCb)
    (shape : convert = fun dst src srcLen => do
      require (srcLen = lenIn)
      body dst src srcLen)
    (converts : ∀ src : Buf, src.length = lenIn →
      ∃ out : Buf, out.length = lenOut ∧ Converts convert src out) :
    Strict convert lenIn lenOut where
  asserts := by
    intro dst src srcLen wrong
    simp only [shape, require_false wrong]
    rfl
  converts src size := Or.inl (converts src size)

theorem Lenient.of_fill {convert : FmtConvCb} {lenIn lenOut fillLen : Nat} (body : FmtConvCb)
    (shape : convert = fun dst src srcLen =>
      if srcLen ≠ lenIn then do
        let dst ← memset dst 0 fillLen
        return ((lenOut : Int), dst)
      else body dst src srcLen)
    (converts : ∀ src : Buf, src.length = lenIn →
      ∃ out : Buf, out.length = lenOut ∧ Converts convert src out) :
    Lenient convert lenIn lenOut fillLen where
  substitutes := by
    intro dst src srcLen wrong room
    simp only [shape, if_pos wrong]
    rw [memset_eq _ room]
    rfl
  overflows := by
    intro dst src srcLen wrong short
    simp only [shape, if_pos wrong]
    rw [memset_fault _ short]
    rfl
  converts := converts

def lenIn (fmt : FormatDesc) (toFromN : Bool) : Nat :=
  if toFromN then canonFrameLen fmt.codecType else fmt.frameLen

def lenOut (fmt : FormatDesc) (toFromN : Bool) : Nat :=
  if toFromN then fmt.frameLen else canonFrameLen fmt.codecType

/-- The formats whose readers take a payload of any length. -/
def ReadsAnyLength (type : FormatType) : Prop :=
  type = .rtpEfr ∨ type = .rtpHrEtsi ∨ type = .rtpHrIetf

instance (type : FormatType) : Decidable (ReadsAnyLength type) :=
  inferInstanceAs (Decidable (_ ∨ _))

section Tables

variable {host : Endian} {tables : Tables} {type : FormatType} {fmt : FormatDesc}

theorem format_small (found : formatTable host tables type = some fmt) :
    fmt.frameLen < 2 ^ 31 ∧ canonFrameLen fmt.codecType < 2 ^ 31 := by
  cases type <;> cases found <;> exact ⟨of_decide_eq_true rfl, of_decide_eq_true rfl⟩

theorem len_out_small (found : formatTable host tables type = some fmt) (toFromN : Bool) :
    lenOut fmt toFromN < 2 ^ 31 := by
  cases toFromN with
  | true => exact (format_small found).1
  | false => exact (format_small found).2

private theorem placed {srcLen dstLen : Nat} (layout : Layout srcLen dstLen) (src : Buf) :
    (layout.place src (zeros dstLen)).length = dstLen := by
  rw [Layout.place_length, zeros_length]

theorem writer_strict (found : formatTable host tables type = some fmt) (fixed : fmt.frameLen ≠ 0) :
    Strict fmt.convFromCanon (lenIn fmt true) (lenOut fmt true) := by
  cases type with
  | invalid => cases found
  | amrOpencore | rtpAmr =>
      cases found
      exact absurd rfl fixed
  | amrEfr =>
      cases found
      exact Strict.of_require _ rfl fun src size =>
        ⟨_, by rw [List.length_cons, placed]; rfl, amr_efr_from_canon_converts _ size⟩
  | gsm =>
      cases found
      exact Strict.of_require _ rfl fun src size =>
        ⟨_, (shifted_length _ (by rw [size]; decide)).trans size, gsm_from_canon_converts size⟩
  | hrRefDec =>
      cases found
      exact Strict.of_require _ rfl fun src size =>
        ⟨_, hr_frame_length host src _, hr_ref_dec_from_canon_converts host size⟩
  | hrRefEnc =>
      cases found
      exact Strict.of_require _ rfl fun src size =>
        ⟨_, hr_frame_length host src _, hr_ref_enc_from_canon_converts host size⟩
  | racalHr =>
      cases found
      exact Strict.of_require _ rfl fun src size =>
        ⟨_, placed _ _, racal_hr_from_canon_converts _ _ size⟩
  | racalFr =>
      cases found
      exact Strict.of_require _ rfl fun src size =>
        ⟨_, placed _ _, racal_fr_from_canon_converts _ size⟩
  | racalEfr =>
      cases found
      exact Strict.of_require _ rfl fun src size =>
        ⟨_, placed _ _, racal_efr_from_canon_converts size⟩
  | rawpcmS16le =>
      cases found
      refine Strict.of_require _ rfl fun src size => ?_
      obtain ⟨words, count, bounded, rfl⟩ := exists_words host 160 src size
      exact ⟨_, by rw [words_buf_length, count]; rfl, rawpcm_from_canon_converts host count bounded⟩
  | tiHr =>
      cases found
      exact Strict.of_require _ rfl fun src size =>
        ⟨_, placed _ _, ti_hr_from_canon_converts _ _ size⟩
  | tiFr =>
      cases found
      exact Strict.of_require _ rfl fun src size =>
        ⟨_, placed _ _, ti_fr_from_canon_converts _ size⟩
  | tiEfr =>
      cases found
      exact Strict.of_require _ rfl fun src size =>
        ⟨_, placed _ _, ti_efr_from_canon_converts _ size⟩
  | rtpEfr =>
      cases found
      exact Strict.of_require _ rfl fun src size =>
        ⟨_, (shifted_length _ (by rw [size]; decide)).trans size, rtp_efr_from_canon_converts size⟩
  | rtpHrEtsi =>
      cases found
      exact Strict.of_require _ rfl fun src size => ⟨_, size, rtp_hr_etsi_from_canon_converts size⟩
  | rtpHrIetf =>
      cases found
      exact Strict.of_require _ rfl fun src size =>
        ⟨_, by rw [List.length_cons, size]; rfl, rtp_hr_ietf_from_canon_converts size⟩

theorem reader_strict (found : formatTable host tables type = some fmt) (fixed : fmt.frameLen ≠ 0)
    (insists : ¬ReadsAnyLength type) :
    Strict fmt.convToCanon (lenIn fmt false) (lenOut fmt false) := by
  cases type with
  | invalid => cases found
  | amrOpencore | rtpAmr =>
      cases found
      exact absurd rfl fixed
  | rtpEfr | rtpHrEtsi | rtpHrIetf => exact absurd (by decide) insists
  | amrEfr =>
      cases found
      constructor
      · intro dst src srcLen wrong
        show amrEfrToCanon _ dst src srcLen = _
        rw [amrEfrToCanon, require_false (show srcLen ≠ FmtAmr.efrLen from wrong)]
        rfl
      · intro src size
        by_cases mode : src.getD 0 0 = 0x3c
        · obtain ⟨first, payload, rfl⟩ : ∃ first payload, src = first :: payload :=
            List.exists_cons_of_length_eq_add_one size
          obtain rfl : first = 0x3c := mode
          exact Or.inl ⟨_, placed _ _, amr_efr_to_canon_converts _ (Nat.succ.inj size)⟩
        · exact Or.inr fun dst => amr_efr_to_canon_refuses _ size mode
  | gsm =>
      cases found
      exact Strict.of_require _ rfl fun src size =>
        ⟨_, (unshifted_length src).trans size, gsm_to_canon_converts size⟩
  | hrRefDec =>
      cases found
      refine Strict.of_require _ rfl fun src size => ?_
      obtain ⟨words, count, bounded, rfl⟩ := exists_words host 22 src size
      exact ⟨_, hr_canon_length words, hr_ref_dec_to_canon_converts host count bounded⟩
  | hrRefEnc =>
      cases found
      refine Strict.of_require _ rfl fun src size => ?_
      obtain ⟨words, count, bounded, rfl⟩ := exists_words host 20 src size
      exact ⟨_, hr_canon_length words, hr_ref_enc_to_canon_converts host count bounded⟩
  | racalHr =>
      cases found
      exact Strict.of_require _ rfl fun src size =>
        ⟨_, placed _ _, racal_hr_to_canon_converts _ _ size⟩
  | racalFr =>
      cases found
      exact Strict.of_require _ rfl fun src size =>
        ⟨_, placed _ _, racal_fr_to_canon_converts _ size⟩
  | racalEfr =>
      cases found
      exact Strict.of_require _ rfl fun src size =>
        ⟨_, placed _ _, racal_efr_to_canon_converts size⟩
  | rawpcmS16le =>
      cases found
      refine Strict.of_require _ rfl fun src size => ?_
      obtain ⟨words, count, bounded, rfl⟩ := exists_words .little 160 src size
      exact ⟨_, by rw [words_buf_length, count]; rfl, rawpcm_to_canon_converts host count bounded⟩
  | tiHr =>
      cases found
      exact Strict.of_require _ rfl fun src size =>
        ⟨_, placed _ _, ti_hr_to_canon_converts _ _ size⟩
  | tiFr =>
      cases found
      exact Strict.of_require _ rfl fun src size =>
        ⟨_, placed _ _, ti_fr_to_canon_converts _ size⟩
  | tiEfr =>
      cases found
      exact Strict.of_require _ rfl fun src size =>
        ⟨_, placed _ _, ti_efr_to_canon_converts _ size⟩

def fillLen (fmt : FormatDesc) : Nat :=
  if fmt.type = .rtpHrIetf then fmt.frameLen else canonFrameLen fmt.codecType

/-- The readers of RTP payloads with a fixed length substitute a frame. One of
them fills as many bytes as the payload has. -/
theorem reader_lenient (found : formatTable host tables type = some fmt)
    (lenient : ReadsAnyLength type) :
    Lenient fmt.convToCanon (lenIn fmt false) (lenOut fmt false) (fillLen fmt) := by
  rcases lenient with rfl | rfl | rfl
  · cases found
    exact Lenient.of_fill _ rfl fun src size =>
      ⟨_, (unshifted_length _).trans (concealed_length size), rtp_efr_to_canon_converts size⟩
  · cases found
    exact Lenient.of_fill _ rfl fun src size => ⟨_, size, rtp_hr_etsi_to_canon_converts size⟩
  · cases found
    exact Lenient.of_fill _ rfl fun src size =>
      ⟨_, by rw [List.length_tail, size]; rfl, rtp_hr_ietf_to_canon_converts size⟩

end Tables

section Copies

variable {src dst : Buf}

theorem amr_opencore_run {len : Nat} (inside : len ≤ src.length) (room : len ≤ dst.length)
    (small : len < 2 ^ 31) (toFromN : Bool) :
    converter fmtAmrOpencore toFromN dst src len = .ok (len, src.take len ++ dst.drop len) := by
  have copied : memcpy dst 0 src 0 len = .ok (src.take len ++ dst.drop len) := by
    rw [memcpy_front room (by omega), List.drop_zero]
  have returned : toInt32 len = len := to_int32_eq (by omega) (by omega)
  cases toFromN with
  | true =>
      show amrOpencoreFromCanon dst src len = _
      rw [amrOpencoreFromCanon, copied, exec_bind_ok, returned]
      rfl
  | false =>
      show amrOpencoreToCanon dst src len = _
      rw [amrOpencoreToCanon, copied, exec_bind_ok, returned]
      rfl

theorem rtp_amr_reader_run (two : 2 ≤ src.length) (small : src.length < 2 ^ 31)
    (room : max (src.length - 1) 6 ≤ dst.length) :
    rtpAmrToCanon dst src src.length =
      .ok ((canonOf src).length, canonOf src ++ dst.drop (canonOf src).length) := by
  have run : rtpAmrToCanon dst (src ++ []) src.length = _ :=
    rtp_amr_to_canon_run two small (Nat.le_trans (canon_of_length_le src) room)
  rwa [List.append_nil] at run

end Copies

/-- A format of the table is one of the two AMR formats, or has fixed lengths on
both sides. -/
theorem format_lengths {host : Endian} {tables : Tables} {type : FormatType} {fmt : FormatDesc}
    (found : formatTable host tables type = some fmt) :
    (fmt = fmtAmrOpencore ∨ fmt = fmtRtpAmr) ∨
      fmt.frameLen ≠ 0 ∧ canonFrameLen fmt.codecType ≠ 0 := by
  cases type with
  | invalid => cases found
  | amrOpencore =>
      cases found
      exact Or.inl (Or.inl rfl)
  | rtpAmr =>
      cases found
      exact Or.inl (Or.inr rfl)
  | amrEfr | gsm | hrRefDec | hrRefEnc | racalHr | racalFr | racalEfr | rawpcmS16le | tiHr | tiFr
  | tiEfr | rtpEfr | rtpHrEtsi | rtpHrIetf =>
      cases found
      exact Or.inr ⟨Nat.succ_ne_zero _, Nat.succ_ne_zero _⟩

/-- The run is defined in a buffer of that size, so nothing is written behind it,
or it ends in the assertion on the input length. -/
def StaysInside (convert : FmtConvCb) (size : Nat) (src : Buf) : Prop :=
  ∀ dst : Buf, dst.length = size →
    convert dst src src.length = .error .assertion ∨
      ∃ rv out, convert dst src src.length = .ok (rv, out) ∧ rv ≤ size

theorem Strict.stays_inside {convert : FmtConvCb} {lenIn lenOut : Nat}
    (strict : Strict convert lenIn lenOut) (src : Buf) : StaysInside convert lenOut src := by
  intro dst dstSize
  by_cases size : src.length = lenIn
  · right
    rcases strict.converts src size with ⟨out, outSize, converts⟩ | refuses
    · exact ⟨_, _, converts dst (dstSize.trans outSize.symm), by rw [outSize]⟩
    · exact ⟨-1, dst, by rw [size, refuses], by omega⟩
  · exact Or.inl (strict.asserts dst src _ size)

theorem Lenient.stays_inside_iff {convert : FmtConvCb} {lenIn lenOut fillLen : Nat}
    (lenient : Lenient convert lenIn lenOut fillLen) (src : Buf) :
    StaysInside convert lenOut src ↔ (src.length = lenIn ∨ fillLen ≤ lenOut) := by
  constructor
  · intro inside
    by_contra outside
    rw [not_or, not_le] at outside
    have fault := lenient.overflows (zeros lenOut) src _ outside.1 (by
      rw [zeros_length]
      exact outside.2)
    rcases inside (zeros lenOut) (zeros_length _) with asserts | ⟨rv, out, run, _⟩
    · rw [fault] at asserts
      cases asserts
    · rw [fault] at run
      cases run
  · intro known dst dstSize
    right
    by_cases size : src.length = lenIn
    · obtain ⟨out, outSize, converts⟩ := lenient.converts src size
      exact ⟨_, _, converts dst (dstSize.trans outSize.symm), by rw [outSize]⟩
    · have fits : fillLen ≤ lenOut := known.resolve_left size
      exact ⟨_, _, lenient.substitutes dst src _ size (by omega), Int.le_refl _⟩

theorem amr_opencore_stays_inside {src : Buf} (bound : src.length ≤ 244) (toFromN : Bool) :
    StaysInside (converter fmtAmrOpencore toFromN) varBufSize src := by
  intro dst dstSize
  rw [varBufSize] at dstSize ⊢
  exact Or.inr ⟨_, _, amr_opencore_run (Nat.le_refl _) (by omega) (by omega) toFromN, by omega⟩

theorem rtp_amr_stays_inside {src : Buf} (two : 2 ≤ src.length) (bound : src.length ≤ 244)
    (toFromN : Bool) : StaysInside (converter fmtRtpAmr toFromN) varBufSize src := by
  intro dst dstSize
  rw [varBufSize] at dstSize ⊢
  right
  cases toFromN with
  | true =>
      exact ⟨_, _, rtp_amr_from_canon_run (Nat.le_refl _) (by omega) (by omega), by omega⟩
  | false =>
      have canon := canon_of_length_le src
      exact ⟨_, _, rtp_amr_reader_run two (by omega) (by omega), by omega⟩

section Queued

variable {Lib : Type} (build : Build Lib) {type : FormatType} {fmt : FormatDesc}
  {codec : CodecDesc Lib} (found : build.registry.fmtGetFromType type = some fmt)
  (codecFound : build.registry.codecGetFromType fmt.codecType = some codec)

include codecFound

theorem fmt_item_buf_size (toFromN : Bool) :
    bufSize (fmtItem fmt codec toFromN .zero : Item Lib) =
      if lenOut fmt toFromN = 0 then varBufSize else lenOut fmt toFromN := by
  rw [build.codec_get_eq] at codecFound
  have canon := build.codec_table_canon_len codecFound
  cases toFromN with
  | true => rfl
  | false =>
      simp only [bufSize, fmtItem, lenOut, canon]
      rfl

include found

/-- A converter writes inside the buffer of its item, for every input, except for
the one reader that fills a buffer for canonical frames with a frame of the
length of the payload. -/
theorem converters_stay_inside_iff (toFromN : Bool) (src : Buf)
    (delivered : fmt.frameLen = 0 → 2 ≤ src.length ∧ src.length ≤ 244) :
    StaysInside (converter fmt toFromN) (bufSize (fmtItem fmt codec toFromN .zero : Item Lib)) src ↔
      ¬(type = .rtpHrIetf ∧ toFromN = false ∧ src.length ≠ 15) := by
  rw [fmt_item_buf_size build codecFound]
  rw [build.fmt_get_eq] at found
  rcases format_lengths found with (rfl | rfl) | ⟨fixed, canonFixed⟩
  · have unsized : lenOut fmtAmrOpencore toFromN = 0 := by cases toFromN <;> rfl
    rw [if_pos unsized]
    refine iff_of_true (amr_opencore_stays_inside (delivered rfl).2 toFromN) ?_
    rintro ⟨rfl, _⟩
    cases found
  · have unsized : lenOut fmtRtpAmr toFromN = 0 := by cases toFromN <;> rfl
    obtain ⟨two, bound⟩ := delivered rfl
    rw [if_pos unsized]
    refine iff_of_true (rtp_amr_stays_inside two bound toFromN) ?_
    rintro ⟨rfl, _⟩
    cases found
  · have size : (if lenOut fmt toFromN = 0 then varBufSize else lenOut fmt toFromN) =
        lenOut fmt toFromN := by
      cases toFromN
      · exact if_neg canonFixed
      · exact if_neg fixed
    rw [size]
    cases toFromN with
    | true => exact iff_of_true ((writer_strict found fixed).stays_inside src) (by simp)
    | false =>
        by_cases lenient : ReadsAnyLength type
        · refine ((reader_lenient found lenient).stays_inside_iff src).trans ?_
          rcases lenient with rfl | rfl | rfl
          · cases found
            exact iff_of_true (Or.inr (Nat.le_refl 31)) (by simp)
          · cases found
            exact iff_of_true (Or.inr (Nat.le_refl 14)) (by simp)
          · cases found
            have longer : ¬fillLen fmtRtpHrIetf ≤ lenOut fmtRtpHrIetf false := by decide
            simp only [longer, or_false, true_and, ne_eq, not_not]
            rfl
        · refine iff_of_true ((reader_strict found fixed lenient).stays_inside src) ?_
          rintro ⟨rfl, _⟩
          exact lenient (by decide)

end Queued

/-- A payload of one octet less than RFC 5993 has it. -/
def shortPayload : Buf := List.replicate 14 0

theorem converters_stay_inside_iff_gsm :
    StaysInside (converter fmtGsm true) (bufSize (fmtItem fmtGsm
        (codecFrDesc Build.idle.config Build.idle.libs) true .zero : Item Unit)) shortPayload ↔
      ¬(FormatType.gsm = .rtpHrIetf ∧ true = false ∧ shortPayload.length ≠ 15) :=
  converters_stay_inside_iff Build.idle rfl rfl true shortPayload (by decide)

theorem short_payload_overflows :
    ¬∀ (build : Build Unit) (type : FormatType) (fmt : FormatDesc) (codec : CodecDesc Unit)
        (toFromN : Bool) (src : Buf), build.registry.fmtGetFromType type = some fmt →
      build.registry.codecGetFromType fmt.codecType = some codec →
      (fmt.frameLen = 0 → 2 ≤ src.length ∧ src.length ≤ 244) →
      StaysInside (converter fmt toFromN) (bufSize (fmtItem fmt codec toFromN .zero : Item Unit))
        src := by
  intro inside
  have stays := inside Build.idle .rtpHrIetf fmtRtpHrIetf
    (codecHrDesc Build.idle.config Build.idle.libs) false shortPayload rfl rfl (by decide)
  rw [fmt_item_buf_size Build.idle rfl] at stays
  have lenient := reader_lenient
    (rfl : formatTable .little .identity .rtpHrIetf = some fmtRtpHrIetf) (Or.inr (Or.inr rfl))
  exact absurd ((lenient.stays_inside_iff shortPayload).mp stays) (by decide)

/-- Both runs are defined and agree on what they return and on the bytes that
count, whatever the two buffers held before. -/
def SameOutput (convert : FmtConvCb) (src left right : Buf) : Prop :=
  ∃ rv leftOut rightOut, convert left src src.length = .ok (rv, leftOut) ∧
    convert right src src.length = .ok (rv, rightOut) ∧
    leftOut.take rv.toNat = rightOut.take rv.toNat

/-- A converter that puts the same bytes in front of either buffer. -/
theorem SameOutput.of_front {convert : FmtConvCb} {src left right : Buf} (out : Buf) (count : Nat)
    (returned : count ≤ out.length) (leftRun : convert left src src.length =
      .ok ((count : Int), out ++ left.drop out.length))
    (rightRun : convert right src src.length = .ok ((count : Int), out ++ right.drop out.length)) :
    SameOutput convert src left right := by
  refine ⟨count, _, _, leftRun, rightRun, ?_⟩
  rw [Int.toNat_natCast, List.take_append_of_le_length returned,
    List.take_append_of_le_length returned]

theorem SameOutput.of_converts {convert : FmtConvCb} {src left right out : Buf}
    (converts : Converts convert src out) (leftSize : left.length = out.length)
    (rightSize : right.length = out.length) : SameOutput convert src left right :=
  ⟨_, out, out, converts left leftSize, converts right rightSize, rfl⟩

/-- The lengths of input that a converter is for: the declared one, any length
for AMR frames and for the readers that substitute, and for the reader of AMR
payloads any from two on. -/
def TakesLength (fmt : FormatDesc) (toFromN : Bool) (srcLen : Nat) : Prop :=
  if fmt.frameLen = 0 then toFromN = false → fmt.type = .rtpAmr → 2 ≤ srcLen
  else toFromN = false ∧ ReadsAnyLength fmt.type ∨ srcLen = lenIn fmt toFromN

/-- The output buffers: of the size that the queue allocates, or any with enough
room where the length varies. A substitute of RFC 5993 needs the room of a
payload. -/
def HasRoom (fmt : FormatDesc) (toFromN : Bool) (srcLen size : Nat) : Prop :=
  match fmt.type, toFromN with
  | .amrOpencore, _ => srcLen ≤ size
  | .rtpAmr, true => srcLen < size
  | .rtpAmr, false => max (srcLen - 1) 6 ≤ size
  | .rtpHrIetf, false => hrLen ≤ size ∨ srcLen = hrLen ∧ size = hrCanonLen
  | _, _ => size = lenOut fmt toFromN

section Frames

variable {host : Endian} {tables : Tables} {type : FormatType} {fmt : FormatDesc}
  {src left right : Buf}

theorem format_type_eq (found : formatTable host tables type = some fmt) : fmt.type = type := by
  cases type <;> cases found <;> rfl

theorem has_room_fixed {toFromN : Bool} {size : Nat}
    (found : formatTable host tables type = some fmt) (fixed : fmt.frameLen ≠ 0)
    (other : ¬(type = .rtpHrIetf ∧ toFromN = false)) (room : HasRoom fmt toFromN src.length size) :
    size = lenOut fmt toFromN := by
  cases type with
  | invalid => cases found
  | amrOpencore | rtpAmr =>
      cases found
      exact absurd rfl fixed
  | rtpHrIetf =>
      cases found
      cases toFromN with
      | true => exact room
      | false => exact absurd ⟨rfl, rfl⟩ other
  | amrEfr | gsm | hrRefDec | hrRefEnc | racalHr | racalFr | racalEfr | rawpcmS16le | tiHr | tiFr
  | tiEfr | rtpEfr | rtpHrEtsi =>
      cases found
      exact room

theorem Strict.same_output {convert : FmtConvCb} {lenIn lenOut : Nat}
    (strict : Strict convert lenIn lenOut) (size : src.length = lenIn)
    (leftSize : left.length = lenOut) (rightSize : right.length = lenOut) :
    SameOutput convert src left right := by
  rcases strict.converts src size with ⟨out, outSize, converts⟩ | refuses
  · exact .of_converts converts (leftSize.trans outSize.symm) (rightSize.trans outSize.symm)
  · exact ⟨-1, left, right, by rw [size, refuses], by rw [size, refuses], rfl⟩

theorem Lenient.same_output {convert : FmtConvCb} {lenIn lenOut : Nat}
    (lenient : Lenient convert lenIn lenOut lenOut) (src : Buf)
    (leftSize : left.length = lenOut) (rightSize : right.length = lenOut) :
    SameOutput convert src left right := by
  by_cases size : src.length = lenIn
  · obtain ⟨out, outSize, converts⟩ := lenient.converts src size
    exact .of_converts converts (leftSize.trans outSize.symm) (rightSize.trans outSize.symm)
  · have leftRun := lenient.substitutes left src _ size (by omega)
    have rightRun := lenient.substitutes right src _ size (by omega)
    refine .of_front (zeros lenOut) lenOut (by rw [zeros_length]) ?_ ?_
    · rw [zeros_length, leftRun]
    · rw [zeros_length, rightRun]

/-- In a buffer with the room of a payload the reader of RFC 5993 is defined. -/
theorem rtp_hr_ietf_same_output (src : Buf) (same : left.length = right.length)
    (room : 15 ≤ left.length) : SameOutput rtpHrIetfToCanon src left right := by
  by_cases whole : src.length = 15
  · have frameSize : src.tail.length = 14 := by rw [List.length_tail, whole]
    have run : ∀ dst : Buf, 15 ≤ dst.length → rtpHrIetfToCanon dst src src.length =
        .ok ((14 : Nat), src.tail ++ dst.drop src.tail.length) := by
      intro dst roomy
      have copied : memcpy dst 0 src 1 14 = .ok (src.tail ++ dst.drop src.tail.length) := by
        rw [memcpy_front (by omega) (by omega), List.drop_one, frameSize,
          List.take_of_length_le (Nat.le_of_eq frameSize)]
      rw [rtpHrIetfToCanon, if_neg (not_not.mpr whole), hrCanonLen, copied]
      rfl
    exact .of_front src.tail 14 (Nat.le_of_eq frameSize.symm) (run left room)
      (run right (by omega))
  · have lenient := reader_lenient
      (rfl : formatTable .little .identity .rtpHrIetf = some fmtRtpHrIetf) (Or.inr (Or.inr rfl))
    have leftRun := lenient.substitutes left src _ whole room
    have rightRun := lenient.substitutes right src _ whole (by rw [← same]; exact room)
    exact .of_front (zeros 15) 14 (by rw [zeros_length]; decide) leftRun rightRun

theorem amr_opencore_same_output (toFromN : Bool) (small : src.length < 2 ^ 31)
    (leftRoom : src.length ≤ left.length) (rightRoom : src.length ≤ right.length) :
    SameOutput (converter fmtAmrOpencore toFromN) src left right := by
  have copies : ∀ dst : Buf, src.length ≤ dst.length →
      converter fmtAmrOpencore toFromN dst src src.length =
        .ok (src.length, src ++ dst.drop src.length) := by
    intro dst room
    rw [amr_opencore_run (Nat.le_refl _) room small, List.take_length]
  exact .of_front src src.length (Nat.le_refl _) (copies left leftRoom) (copies right rightRoom)

theorem rtp_amr_same_output (toFromN : Bool) (two : toFromN = false → 2 ≤ src.length)
    (small : src.length + 1 < 2 ^ 31) (same : left.length = right.length)
    (room : HasRoom fmtRtpAmr toFromN src.length left.length) :
    SameOutput (converter fmtRtpAmr toFromN) src left right := by
  cases toFromN with
  | true =>
      have leftRoom : src.length < left.length := room
      have writes : ∀ dst : Buf, src.length < dst.length →
          rtpAmrFromCanon dst src src.length =
            .ok ((src.length + 1 : Nat), (0xf0 :: src) ++ dst.drop (src.length + 1)) := by
        intro dst room
        rw [rtp_amr_from_canon_run (Nat.le_refl _) room small, List.take_length]
      exact .of_front (0xf0 :: src) (src.length + 1) (Nat.le_refl _) (writes left leftRoom)
        (writes right (by omega))
  | false =>
      have leftRoom : max (src.length - 1) 6 ≤ left.length := room
      exact .of_front (canonOf src) (canonOf src).length (Nat.le_refl _)
        (rtp_amr_reader_run (two rfl) (by omega) leftRoom)
        (rtp_amr_reader_run (two rfl) (by omega) (by omega))

/-- No converter lets through what its output buffer held before. -/
theorem no_stale_data (found : formatTable host tables type = some fmt) (toFromN : Bool)
    (takes : TakesLength fmt toFromN src.length) (small : src.length + 1 < 2 ^ 31)
    (same : left.length = right.length) (room : HasRoom fmt toFromN src.length left.length) :
    SameOutput (converter fmt toFromN) src left right := by
  rcases format_lengths found with (rfl | rfl) | ⟨fixed, _⟩
  · have leftRoom : src.length ≤ left.length := room
    exact amr_opencore_same_output toFromN (by omega) leftRoom (by omega)
  · exact rtp_amr_same_output toFromN (fun reads => takes reads rfl) small same room
  · rw [TakesLength, if_neg fixed] at takes
    by_cases ietf : type = .rtpHrIetf ∧ toFromN = false
    · obtain ⟨rfl, rfl⟩ := ietf
      cases found
      rcases room with roomy | ⟨whole, exactSize⟩
      · exact rtp_hr_ietf_same_output src same roomy
      · have frameSize : src.tail.length = 14 := by
          rw [List.length_tail, whole]
          rfl
        exact .of_converts (rtp_hr_ietf_to_canon_converts whole) (exactSize.trans frameSize.symm)
          (same.symm.trans (exactSize.trans frameSize.symm))
    · have leftSize := has_room_fixed found fixed ietf room
      have rightSize := same.symm.trans leftSize
      cases toFromN with
      | true =>
          have size := takes.resolve_left (fun reads => Bool.noConfusion reads.1)
          exact (writer_strict found fixed).same_output size leftSize rightSize
      | false =>
          by_cases lenient : ReadsAnyLength type
          · have exactFill : fillLen fmt = lenOut fmt false := by
              rcases lenient with rfl | rfl | rfl
              · cases found
                rfl
              · cases found
                rfl
              · exact absurd ⟨rfl, rfl⟩ ietf
            have reads := reader_lenient found lenient
            rw [exactFill] at reads
            exact reads.same_output src leftSize rightSize
          · have size := takes.resolve_left (fun reads => lenient ((format_type_eq found) ▸ reads.2))
            exact (reader_strict found fixed lenient).same_output size leftSize rightSize

theorem no_stale_data_gsm :
    SameOutput (converter fmtGsm true) (zeros 33) (zeros 33) (List.replicate 33 0xff) :=
  no_stale_data (rfl : formatTable .little .identity .gsm = some fmtGsm) true
    (by
      rw [TakesLength, if_neg (by decide)]
      exact Or.inr rfl) (by decide) rfl rfl

end Frames

end Gapk.Converters
