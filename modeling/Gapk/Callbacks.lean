import Gapk.Chain
import Gapk.Converters
import Gapk.Library.BufferSizes
import Gapk.QueueRuns

/-!
# Call-backs as C functions

What the call-backs of this program have in common with all functions of C: they get
a pointer to their output buffer and return an `int`. A format item hands its call-back
a converter, so this is a fact about every converter of the format table first.
-/

namespace Gapk.Callbacks

open CheckedMemory BufferSizes FixedWidth HostWords BitLayout
open Gapk.BitOrders Gapk.Formats Gapk.Utils Gapk.Procqueue Gapk.Streams Gapk.PqRtp Gapk.QueueOps
open Gapk.QueueLedger Gapk.Codecs Gapk.App Gapk.Chain Gapk.Converters Gapk.QueueRuns
open Gapk.NibbleShift Gapk.FmtGsm Gapk.FmtRacal Gapk.FmtTi Gapk.FmtHrRef Gapk.FmtRtp Gapk.FmtAmr
open Gapk.FmtRawpcm

set_option autoImplicit false

section Accessors

theorem put_bit_keeps_size (posByte posBit : Nat) (bit : Int) :
    KeepsSize fun buf => putBit buf posByte posBit bit :=
  keeps_size_read fun _ => store_keeps_size _ _

theorem shift_in_keeps_size (magic : Byte) (len : Nat) (src : Buf) :
    KeepsSize fun dst => shiftIn magic len dst src :=
  keeps_size_read fun _ => keeps_size_then (store_keeps_size _ _)
    (for_loop_keeps_size (fun _ => keeps_size_read fun _ => keeps_size_read fun _ =>
      store_keeps_size _ _) _)

theorem shift_out_keeps_size (len : Nat) (src : Buf) :
    KeepsSize fun dst => shiftOut len dst src :=
  keeps_size_then (for_loop_keeps_size (fun _ => keeps_size_read fun _ => keeps_size_read fun _ =>
    store_keeps_size _ _) _) (keeps_size_read fun _ => store_keeps_size _ _)

/-- A loop that puts one bit after the other. -/
theorem put_bits_keeps_size {Value : Type} {read : Nat → Exec Value} {posByte posBit : Nat → Nat}
    {bit : Value → Int} (count : Nat) :
    KeepsSize (forLoop count fun i dst => do putBit dst (posByte i) (posBit i) (bit (← read i))) :=
  for_loop_keeps_size (fun _ => keeps_size_read fun _ => put_bit_keeps_size _ _ _) count

end Accessors

section Converters

/-- A converter between fixed lengths returns the length of its output or minus one. -/
def FixedEnds (fmt : FormatDesc) : Prop :=
  ∀ (toFromN : Bool) (src : Buf) (srcLen : Nat),
    Ends (fun rv : Int => rv = lenOut fmt toFromN ∨ rv = -1) fun dst =>
      converter fmt toFromN dst src srcLen

theorem fmt_gsm_ends : FixedEnds fmtGsm := by
  intro toFromN src srcLen
  cases toFromN with
  | true => exact ends_read fun _ => ends_step (shift_in_keeps_size _ _ _) (ends_pure (Or.inl rfl))
  | false => exact ends_read fun _ => ends_step (shift_out_keeps_size _ _) (ends_pure (Or.inl rfl))

theorem fmt_amr_efr_ends (order : BitOrder 244) : FixedEnds (fmtAmrEfr order) := by
  intro toFromN src srcLen
  cases toFromN with
  | true =>
      refine ends_read fun _ => ends_step (store_keeps_size _ _) (ends_step (store_keeps_size _ _)
        (ends_step (for_loop_keeps_size ?_ _) (ends_pure (Or.inl rfl))))
      exact fun _ => keeps_size_read fun _ => with_offset_keeps_size (put_bit_keeps_size _ _ _) _
  | false =>
      refine ends_read fun _ => ends_read fun _ => ends_ite (ends_pure (Or.inr rfl)) ?_
      exact ends_step (store_keeps_size _ _) (ends_step (put_bits_keeps_size _)
        (ends_pure (Or.inl rfl)))

section Racal

theorem fmt_racal_hr_ends (voiced unvoiced : BitOrder 112) : FixedEnds (fmtRacalHr voiced unvoiced) := by
  intro toFromN src srcLen
  cases toFromN with
  | true | false =>
      exact ends_read fun _ => ends_read fun _ => ends_read fun _ =>
        ends_step (put_bits_keeps_size _) (ends_pure (Or.inl rfl))

theorem fmt_racal_fr_ends (order : BitOrder 260) : FixedEnds (fmtRacalFr order) := by
  intro toFromN src srcLen
  cases toFromN with
  | true | false =>
      exact ends_read fun _ => ends_step (store_keeps_size _ _)
        (ends_step (put_bits_keeps_size _) (ends_pure (Or.inl rfl)))

theorem fmt_racal_efr_ends : FixedEnds fmtRacalEfr := by
  intro toFromN src srcLen
  cases toFromN with
  | true | false =>
      exact ends_read fun _ => ends_step (store_keeps_size _ _)
        (ends_step (put_bits_keeps_size _) (ends_pure (Or.inl rfl)))

end Racal

section Ti

theorem fmt_ti_hr_ends (voiced unvoiced : BitOrder 112) : FixedEnds (fmtTiHr voiced unvoiced) := by
  intro toFromN src srcLen
  cases toFromN with
  | true =>
      exact ends_read fun _ => ends_step (memset_keeps_size _ _) (ends_read fun _ => ends_read fun _ =>
        ends_step (put_bits_keeps_size _) (ends_pure (Or.inl rfl)))
  | false =>
      exact ends_read fun _ => ends_read fun _ => ends_read fun _ =>
        ends_step (put_bits_keeps_size _) (ends_pure (Or.inl rfl))

theorem fmt_ti_fr_ends (order : BitOrder 260) : FixedEnds (fmtTiFr order) := by
  intro toFromN src srcLen
  cases toFromN with
  | true =>
      exact ends_read fun _ => ends_step (store_keeps_size _ _) (ends_step (store_keeps_size _ _)
        (ends_step (put_bits_keeps_size _) (ends_pure (Or.inl rfl))))
  | false =>
      exact ends_read fun _ => ends_step (store_keeps_size _ _)
        (ends_step (put_bits_keeps_size _) (ends_pure (Or.inl rfl)))

/-- Entries that are no speech bits are left out. -/
theorem fmt_ti_efr_ends (order : BitOrder 260) : FixedEnds (fmtTiEfr order) := by
  intro toFromN src srcLen
  cases toFromN with
  | true | false =>
      refine ends_read fun _ => ends_step (memset_keeps_size _ _)
        (ends_step (for_loop_keeps_size ?_ _) (ends_pure (Or.inl rfl)))
      intro i
      cases place : speechBit (order.entry i) with
      | none =>
          simp only [place]
          exact pure_keeps_size
      | some bit =>
          simp only [place]
          exact keeps_size_read fun _ => put_bit_keeps_size _ _ _

end Ti

section Host

variable (host : Endian)

theorem fmt_rawpcm_ends : FixedEnds (fmtRawpcmS16le host) := by
  intro toFromN src srcLen
  cases toFromN with
  | true =>
      refine ends_read fun _ => ends_step (for_loop_keeps_size ?_ _) (ends_pure (Or.inl rfl))
      exact fun _ => keeps_size_read fun _ =>
        keeps_size_then (store_keeps_size _ _) (store_keeps_size _ _)
  | false =>
      refine ends_read fun _ => ends_step (for_loop_keeps_size ?_ _) (ends_pure (Or.inl rfl))
      exact fun _ => keeps_size_read fun _ => keeps_size_read fun _ => store_word_keeps_size host _ _

theorem hr_ref_from_canon_ends (canon : Buf) :
    Ends (· = 0) fun hrRef => hrRefFromCanon host hrRef canon := by
  refine ends_read fun _ => ends_read fun _ => ends_then (ends_for_loop ?_ _ _) fun _ _ => ends_pure rfl
  exact fun _ _ => ends_read fun _ => ends_step (store_word_keeps_size host _ _) (ends_pure trivial)

theorem hr_ref_to_canon_ends (hrRef : Buf) :
    Ends (· = 0) fun canon => hrRefToCanon host canon hrRef := by
  refine ends_read fun _ => ends_then (ends_for_loop ?_ _ _) fun _ _ => ends_pure rfl
  refine fun _ _ => ends_read fun _ => ends_step (for_loop_keeps_size ?_ _) (ends_pure trivial)
  exact fun _ => put_bit_keeps_size _ _ _

theorem fmt_hr_ref_dec_ends : FixedEnds (fmtHrRefDec host) := by
  intro toFromN src srcLen
  cases toFromN with
  | true =>
      refine ends_read fun _ => ends_then (hr_ref_from_canon_ends host src) ?_
      rintro _ rfl
      exact ends_step (store_word_keeps_size host _ _) (ends_step (store_word_keeps_size host _ _)
        (ends_step (store_word_keeps_size host _ _) (ends_step (store_word_keeps_size host _ _)
          (ends_pure (Or.inl rfl)))))
  | false =>
      refine ends_read fun _ => ends_then (hr_ref_to_canon_ends host src) ?_
      rintro _ rfl
      exact ends_pure (Or.inl rfl)

theorem fmt_hr_ref_enc_ends : FixedEnds (fmtHrRefEnc host) := by
  intro toFromN src srcLen
  cases toFromN with
  | true =>
      refine ends_read fun _ => ends_then (hr_ref_from_canon_ends host src) ?_
      rintro _ rfl
      exact ends_step (store_word_keeps_size host _ _) (ends_step (store_word_keeps_size host _ _)
        (ends_pure (Or.inl rfl)))
  | false =>
      refine ends_read fun _ => ends_then (hr_ref_to_canon_ends host src) ?_
      rintro _ rfl
      exact ends_pure (Or.inl rfl)

end Host

section Rtp

theorem fmt_rtp_efr_ends : FixedEnds fmtRtpEfr := by
  intro toFromN src srcLen
  cases toFromN with
  | true => exact ends_read fun _ => ends_step (shift_in_keeps_size _ _ _) (ends_pure (Or.inl rfl))
  | false =>
      exact ends_ite (ends_step (memset_keeps_size _ _) (ends_pure (Or.inl rfl)))
        (ends_read fun _ => ends_step (shift_out_keeps_size _ _) (ends_pure (Or.inl rfl)))

theorem fmt_rtp_hr_etsi_ends : FixedEnds fmtRtpHrEtsi := by
  intro toFromN src srcLen
  cases toFromN with
  | true =>
      -- The length that is returned is the one that was asserted.
      by_cases whole : srcLen = hrCanonLen
      · subst whole
        exact ends_read fun _ => ends_step (memcpy_keeps_size _ _ _ _) (ends_pure (Or.inl rfl))
      · intro dst rv out run
        obtain ⟨_, asserted, _⟩ := (exec_bind_eq_ok _ _ _).mp run
        rw [require_false whole] at asserted
        cases asserted
  | false =>
      exact ends_ite (ends_step (memset_keeps_size _ _) (ends_pure (Or.inl rfl)))
        (ends_step (memcpy_keeps_size _ _ _ _) (ends_pure (Or.inl rfl)))

theorem fmt_rtp_hr_ietf_ends : FixedEnds fmtRtpHrIetf := by
  intro toFromN src srcLen
  cases toFromN with
  | true =>
      exact ends_read fun _ => ends_step (store_keeps_size _ _)
        (ends_step (memcpy_keeps_size _ _ _ _) (ends_pure (Or.inl rfl)))
  | false =>
      exact ends_ite (ends_step (memset_keeps_size _ _) (ends_pure (Or.inl rfl)))
        (ends_step (memcpy_keeps_size _ _ _ _) (ends_pure (Or.inl rfl)))

end Rtp

variable {host : Endian} {tables : Tables} {type : FormatType} {fmt : FormatDesc}

theorem fixed_converter_ends (found : formatTable host tables type = some fmt)
    (fixed : fmt.frameLen ≠ 0) : FixedEnds fmt := by
  cases type with
  | invalid => cases found
  | amrOpencore | rtpAmr =>
      cases found
      exact absurd rfl fixed
  | gsm =>
      cases found
      exact fmt_gsm_ends
  | amrEfr =>
      cases found
      exact fmt_amr_efr_ends _
  | racalHr =>
      cases found
      exact fmt_racal_hr_ends _ _
  | racalFr =>
      cases found
      exact fmt_racal_fr_ends _
  | racalEfr =>
      cases found
      exact fmt_racal_efr_ends
  | tiHr =>
      cases found
      exact fmt_ti_hr_ends _ _
  | tiFr =>
      cases found
      exact fmt_ti_fr_ends _
  | tiEfr =>
      cases found
      exact fmt_ti_efr_ends _
  | rawpcmS16le =>
      cases found
      exact fmt_rawpcm_ends host
  | hrRefDec =>
      cases found
      exact fmt_hr_ref_dec_ends host
  | hrRefEnc =>
      cases found
      exact fmt_hr_ref_enc_ends host
  | rtpEfr =>
      cases found
      exact fmt_rtp_efr_ends
  | rtpHrEtsi =>
      cases found
      exact fmt_rtp_hr_etsi_ends
  | rtpHrIetf =>
      cases found
      exact fmt_rtp_hr_ietf_ends

/-- AMR frames are copied, with one byte more or less. -/
theorem unsized_converter_ends (found : formatTable host tables type = some fmt)
    (unsized : fmt.frameLen = 0) (toFromN : Bool) (src : Buf) (srcLen : Nat) :
    Ends (fun rv : Int => rv < 2 ^ 31) fun dst => converter fmt toFromN dst src srcLen := by
  cases type with
  | invalid => cases found
  | amrOpencore =>
      cases found
      cases toFromN <;>
        exact ends_step (memcpy_keeps_size _ _ _ _) (ends_pure (to_int32_lt _))
  | rtpAmr =>
      cases found
      cases toFromN with
      | true =>
          exact ends_step (store_keeps_size _ _) (ends_step (memcpy_keeps_size _ _ _ _)
            (ends_pure (to_int32_lt _)))
      | false =>
          exact ends_read fun _ => ends_step (memcpy_keeps_size _ _ _ _) (ends_pure (to_int32_lt _))
  | amrEfr | gsm | hrRefDec | hrRefEnc | racalHr | racalFr | racalEfr | rawpcmS16le | tiHr | tiFr
  | tiEfr | rtpEfr | rtpHrEtsi | rtpHrIetf =>
      cases found
      cases unsized

end Converters

section Functions

variable {State World : Type}

/-- A call with that output buffer leaves one of the same size and returns an `int`. -/
def EndsIn (out : Option Buf) (run : Exec (ProcResult State World)) : Prop :=
  ∀ result, run = .ok result →
    result.out.map List.length = out.map List.length ∧ result.rv < 2 ^ 31

theorem ends_in_bind {Value : Type} {out : Option Buf} {first : Exec Value}
    {next : Value → Exec (ProcResult State World)}
    (ends : ∀ value, first = .ok value → EndsIn out (next value)) : EndsIn out (first >>= next) := by
  intro result run
  obtain ⟨value, first, last⟩ := (exec_bind_eq_ok _ _ _).mp run
  exact ends value first result last

theorem ends_in_pure {out written : Option Buf} {rv : Int} {state : ItemState State} {world : World}
    (same : written.map List.length = out.map List.length) (small : rv < 2 ^ 31) :
    EndsIn out (pure { rv := rv, state := state, out := written, world := world }) := by
  intro result run
  cases run
  exact ⟨same, small⟩

theorem ends_in_ite {out : Option Buf} {condition : Prop} [Decidable condition]
    {yes no : Exec (ProcResult State World)} (ends : EndsIn out yes) (endsElse : EndsIn out no) :
    EndsIn out (if condition then yes else no) := by
  split_ifs
  · exact ends
  · exact endsElse

theorem ends_in_deref {out : Option Buf} {next : Buf → Exec (ProcResult State World)}
    (ends : ∀ dst, EndsIn (some dst) (next dst)) : EndsIn out (deref out >>= next) := by
  cases out with
  | none =>
      intro result run
      cases run
  | some dst => exact ends dst

theorem ends_in_copy {dst src : Buf} {dstOffset srcOffset count : Nat}
    {next : Buf → Exec (ProcResult State World)}
    (ends : ∀ copied : Buf, copied.length = dst.length → EndsIn (some dst) (next copied)) :
    EndsIn (some dst) (memcpy dst dstOffset src srcOffset count >>= next) :=
  ends_in_bind fun copied copies => ends copied (memcpy_length copies)

theorem c_function_anywhere {proc : ProcCb State World}
    (ends : ∀ state out src srcLen world, EndsIn out (proc state out src srcLen world)) :
    CFunction (fun _ => True) proc where
  keepsState := fun _ _ _ _ _ _ _ _ => trivial
  keepsBuffer := fun _ _ _ _ _ result _ run => (ends _ _ _ _ _ result run).1
  returnsInt := fun _ _ _ _ _ result _ run => (ends _ _ _ _ _ result run).2

end Functions

section Streams

variable {Lib : Type}

theorem minus_one_or_int32_lt (condition : Prop) [Decidable condition] (value : Nat) :
    (if condition then -1 else toInt32 value) < 2 ^ 31 := by
  split_ifs
  · decide
  · exact to_int32_lt _

theorem zero_or_minus_one_lt (condition : Prop) [Decidable condition] :
    (if condition then 0 else -1 : Int) < 2 ^ 31 := by
  split_ifs <;> decide

theorem pq_cb_file_input_function :
    CFunction (fun _ => True) (pqCbFileInput : ProcCb (StateContent Lib) World) := by
  refine c_function_anywhere fun state out src srcLen world => ?_
  refine ends_in_bind fun blkLen _ => ends_in_deref fun dst => ?_
  obtain ⟨count, data, after⟩ := world.fread blkLen
  exact ends_in_copy fun copied same =>
    ends_in_pure (congrArg some same) (minus_one_or_int32_lt _ _)

theorem pq_cb_file_output_function :
    CFunction (fun _ => True) (pqCbFileOutput : ProcCb (StateContent Lib) World) :=
  c_function_anywhere fun _ _ _ _ _ => ends_in_bind fun _ _ => ends_in_bind fun _ _ =>
    ends_in_bind fun _ _ => ends_in_pure rfl (zero_or_minus_one_lt _)

theorem pq_cb_alsa_input_function :
    CFunction (fun _ => True) (pqCbAlsaInput : ProcCb (StateContent Lib) World) :=
  c_function_anywhere fun _ _ _ _ _ => ends_in_bind fun _ _ => ends_in_deref fun _ =>
    ends_in_copy fun _ same => ends_in_pure (congrArg some same) (minus_one_or_int32_lt _ _)

theorem pq_cb_alsa_output_function :
    CFunction (fun _ => True) (pqCbAlsaOutput : ProcCb (StateContent Lib) World) :=
  c_function_anywhere fun _ _ _ _ _ => ends_in_bind fun _ _ => ends_in_bind fun _ _ =>
    ends_in_bind fun _ _ => ends_in_pure rfl (zero_or_minus_one_lt _)

variable (host : Endian)

theorem accept_datagram_ends (rtp : PqStateRtp) (state : State Lib) (out : Option Buf)
    (world : World) {datagram rest : Buf} (small : datagram.length < 2 ^ 31) :
    EndsIn out (acceptDatagram host rtp (datagram ++ rest) datagram.length state out world) := by
  refine ends_in_bind fun accepted parsed => ?_
  rw [rtp_payload_eq host small] at parsed
  cases parsed
  split_ifs
  · refine ends_in_bind fun _ _ => ends_in_bind fun _ _ => ends_in_bind fun _ _ =>
      ends_in_deref fun _ => ends_in_copy fun _ same => ends_in_pure (congrArg some same) ?_
    unfold payloadLen
    omega
  · exact ends_in_pure rfl (by decide)

theorem pq_cb_rtp_input_function :
    CFunction (fun _ => True) (pqCbRtpInput host : ProcCb (StateContent Lib) World) := by
  refine c_function_anywhere fun state out src srcLen world => ?_
  refine ends_in_bind fun rtp _ => ends_in_bind fun size sized => ?_
  have small := (receive_size_lt sized).2
  have fits := delivered_length_le world size
  obtain ⟨count, same⟩ := read_socket_eq world size
  generalize world.readSocket size = read at count same
  obtain ⟨rv, data, after⟩ := read
  simp only at count same
  subst same
  rcases count with rfl | ⟨rfl, _⟩
  · exact ends_in_ite (ends_in_pure rfl (by decide))
      (accept_datagram_ends host rtp state out after (by omega))
  · exact ends_in_pure rfl (by decide)

theorem pq_cb_rtp_output_function :
    CFunction (fun _ => True) (pqCbRtpOutput host : ProcCb (StateContent Lib) World) := by
  refine c_function_anywhere fun state out src srcLen world => ?_
  refine ends_in_bind fun rtp _ => ends_in_ite (ends_in_bind nofun) ?_
  refine ends_in_bind fun _ _ => ends_in_bind fun _ _ => ends_in_bind fun _ _ =>
    ends_in_bind fun _ _ => ends_in_bind fun _ _ => ends_in_bind fun _ _ =>
      ends_in_bind fun buf _ => ?_
  obtain ⟨rv, after⟩ := world.writeSocket buf
  exact ends_in_pure rfl (zero_or_minus_one_lt _)

end Streams

section Codecs

variable {Lib : Type}

/-- The state of a format item is its converter, before and after a call. -/
theorem pq_cb_fmt_convert_function {convert : FmtConvCb}
    (ends : ∀ src srcLen, Ends (fun rv : Int => rv < 2 ^ 31) fun dst => convert dst src srcLen) :
    CFunction (· = .conv convert) (pqCbFmtConvert : ProcCb (StateContent Lib) World) := by
  have called : ∀ out src srcLen world result,
      pqCbFmtConvert (.conv convert : State Lib) out src srcLen world = .ok result →
      result.state = .conv convert ∧ result.out.map List.length = out.map List.length ∧
        result.rv < 2 ^ 31 := by
    intro out src srcLen world result run
    obtain ⟨dst, found, run⟩ := (exec_bind_eq_ok _ _ _).mp run
    obtain ⟨input, _, run⟩ := (exec_bind_eq_ok _ _ _).mp run
    obtain ⟨⟨rv, converted⟩, converts, run⟩ := (exec_bind_eq_ok _ _ _).mp run
    cases run
    obtain ⟨same, small⟩ := ends _ _ _ _ _ converts
    cases out with
    | none => cases found
    | some buf =>
        cases found
        exact ⟨rfl, congrArg some same, small⟩
  refine ⟨?_, ?_, ?_⟩
  · rintro _ out src srcLen world result rfl run
    exact (called _ _ _ _ _ run).1
  · rintro _ out src srcLen world result rfl run
    exact (called _ _ _ _ _ run).2.1
  · rintro _ out src srcLen world result rfl run
    exact (called _ _ _ _ _ run).2.2

theorem lib_call_ends {call : LibCall Lib} {returned : Int → Int}
    (small : ∀ lib input area, returned (call lib input area).2.1 < 2 ^ 31) (inLen outLen : Nat)
    (state : State Lib) (out src : Option Buf) (srcLen : Nat) (world : World) :
    EndsIn out (libCall call inLen outLen returned state out src srcLen world) := by
  refine ends_in_bind fun lib _ => ends_in_deref fun dst => ends_in_bind fun input _ =>
    ends_in_bind fun data _ => ends_in_bind fun area _ => ?_
  have returns := small lib data area
  generalize call lib data area = done at returns ⊢
  obtain ⟨_, rc, written⟩ := done
  exact ends_in_copy fun _ same => ends_in_pure (congrArg some same) returns

theorem require_ends {asserted : Prop} [Decidable asserted] {out : Option Buf}
    {next : Exec (ProcResult (StateContent Lib) World)} (ends : EndsIn out next) :
    EndsIn out (require asserted >>= fun _ => next) :=
  ends_in_bind fun _ _ => ends

theorem len_unless_failed_lt {len : Nat} (small : len < 2 ^ 31) (rc : Int) :
    lenUnlessFailed len rc < 2 ^ 31 := by
  unfold lenUnlessFailed
  split_ifs <;> omega

variable (libs : CodecLibs Lib)

theorem codec_fr_encode_function : CFunction (fun _ => True) (codecFrEncode libs) :=
  c_function_anywhere fun state out src srcLen world =>
    require_ends (lib_call_ends (fun _ _ _ => by decide) _ _ state out src srcLen world)

theorem codec_fr_decode_function : CFunction (fun _ => True) (codecFrDecode libs) :=
  c_function_anywhere fun state out src srcLen world => require_ends
    (lib_call_ends (fun _ _ _ => len_unless_failed_lt (by decide) _) _ _ state out src srcLen world)

theorem codec_hr_encode_function : CFunction (fun _ => True) (codecHrEncode libs) :=
  c_function_anywhere fun state out src srcLen world => require_ends
    (lib_call_ends (fun _ _ _ => len_unless_failed_lt (by decide) _) _ _ state out src srcLen world)

theorem codec_hr_decode_function : CFunction (fun _ => True) (codecHrDecode libs) :=
  c_function_anywhere fun state out src srcLen world => require_ends
    (lib_call_ends (fun _ _ _ => len_unless_failed_lt (by decide) _) _ _ state out src srcLen world)

theorem codec_efr_encode_function : CFunction (fun _ => True) (codecEfrEncode libs) :=
  c_function_anywhere fun state out src srcLen world => by
    refine require_ends (lib_call_ends (fun _ _ _ => ?_) _ _ state out src srcLen world)
    split_ifs <;> decide

theorem codec_efr_decode_function : CFunction (fun _ => True) (codecEfrDecode libs) :=
  c_function_anywhere fun state out src srcLen world =>
    require_ends (lib_call_ends (fun _ _ _ => by decide) _ _ state out src srcLen world)

theorem codec_amr_encode_function : CFunction (fun _ => True) (codecAmrEncode libs) :=
  c_function_anywhere fun state out src srcLen world => by
    refine lib_call_ends (fun lib input area => ?_) _ _ state out src srcLen world
    exact lt_of_le_of_lt (libs.encodedLen lib input area) (by decide)

theorem codec_amr_decode_function : CFunction (fun _ => True) (codecAmrDecode libs) :=
  c_function_anywhere fun state out src srcLen world =>
    lib_call_ends (fun _ _ _ => by decide) _ _ state out src srcLen world

theorem ecu_proc_fr_function
    (small : ∀ ecu area, (libs.osmoEcuFrConceal ecu area).2.1 < 2 ^ 31) :
    CFunction (fun _ => True) (ecuProcFr libs) := by
  refine c_function_anywhere fun state out src srcLen world => ?_
  refine ends_in_bind fun ecu _ => ends_in_deref fun dst => ends_in_bind fun input _ => ?_
  refine ends_in_bind fun _ whole => ends_in_bind fun frame _ => ?_
  have known : srcLen = frCanonLen := by
    by_contra other
    rw [require_false other] at whole
    cases whole
  subst known
  refine ends_in_ite (ends_in_copy fun _ same => ends_in_pure (congrArg some same) (by decide)) ?_
  refine ends_in_ite (ends_in_copy fun _ same => ends_in_pure (congrArg some same) (by decide)) ?_
  refine ends_in_bind fun area _ => ?_
  have returns := small ecu area
  generalize libs.osmoEcuFrConceal ecu area = done at returns ⊢
  obtain ⟨_, rc, written⟩ := done
  refine ends_in_copy fun _ same => ends_in_pure (congrArg some same) ?_
  split_ifs
  · exact returns
  · decide

end Codecs

section Items

variable {Lib : Type} (build : Build Lib)

theorem runs_in_c_anywhere {item : Item Lib}
    (function : ∀ proc, item.proc = some proc → CFunction (fun _ => True) proc) : RunsInC item :=
  ⟨fun _ => True, trivial, function⟩

theorem runs_in_c_of {item : Item Lib} {proc : ProcCb (StateContent Lib) World}
    (found : item.proc = some proc) (function : CFunction (fun _ => True) proc) : RunsInC item := by
  refine runs_in_c_anywhere fun other same => ?_
  rw [found] at same
  cases same
  exact function

theorem unfinished_runs_in_c {item : Item Lib} (unset : item.proc = none) : RunsInC item := by
  refine runs_in_c_anywhere fun proc found => ?_
  rw [unset] at found
  cases found

theorem fmt_item_runs_in_c {type : FormatType} {fmt : FormatDesc}
    (registered : formatTable build.host build.tables type = some fmt) (codec : CodecDesc Lib)
    (toFromN : Bool) : RunsInC (fmtItem fmt codec toFromN .zero) := by
  have ends : ∀ src srcLen, Ends (fun rv : Int => rv < 2 ^ 31) fun dst =>
      converter fmt toFromN dst src srcLen := by
    intro src srcLen
    by_cases unsized : fmt.frameLen = 0
    · exact unsized_converter_ends registered unsized toFromN src srcLen
    · refine (fixed_converter_ends registered unsized toFromN src srcLen).mono ?_
      rintro rv (rfl | rfl)
      · exact Int.ofNat_lt.mpr (len_out_small registered toFromN)
      · decide
  refine ⟨(· = .conv (converter fmt toFromN)), ?_, fun proc found => ?_⟩
  · rfl
  · cases found
    exact pq_cb_fmt_convert_function ends

theorem codec_procs_function {type : CodecType} {codec : CodecDesc Lib}
    (registered : codecTable build.config build.libs type = some codec) {encDecN : Bool}
    {proc : ProcCb (StateContent Lib) World} (found : codecProc codec encDecN = some proc) :
    CFunction (fun _ => True) proc := by
  cases type with
  | invalid => cases registered
  | pcm =>
      cases registered
      cases encDecN <;> cases found
  | hr =>
      cases registered
      unfold codecHrDesc at found
      split_ifs at found
      · cases encDecN <;> cases found
        · exact codec_hr_decode_function build.libs
        · exact codec_hr_encode_function build.libs
      · cases encDecN <;> cases found
  | fr =>
      cases registered
      unfold codecFrDesc at found
      split_ifs at found
      · cases encDecN <;> cases found
        · exact codec_fr_decode_function build.libs
        · exact codec_fr_encode_function build.libs
      · cases encDecN <;> cases found
  | efr =>
      cases registered
      unfold codecEfrDesc at found
      split_ifs at found
      · cases encDecN <;> cases found
        · exact codec_efr_decode_function build.libs
        · exact codec_efr_encode_function build.libs
      · cases encDecN <;> cases found
  | amr =>
      cases registered
      unfold codecAmrDesc at found
      split_ifs at found
      · cases encDecN <;> cases found
        · exact codec_amr_decode_function build.libs
        · exact codec_amr_encode_function build.libs
      · cases encDecN <;> cases found

/-- The one concealment unit is that of full rate. -/
theorem ecu_procs_function (small : ∀ ecu area, (build.libs.osmoEcuFrConceal ecu area).2.1 < 2 ^ 31)
    {type : CodecType} {codec : CodecDesc Lib}
    (registered : codecTable build.config build.libs type = some codec)
    {proc : ProcCb (StateContent Lib) World} (found : codec.ecuProc = some proc) :
    CFunction (fun _ => True) proc := by
  cases type with
  | invalid => cases registered
  | pcm =>
      cases registered
      cases found
  | hr =>
      cases registered
      unfold codecHrDesc at found
      split_ifs at found <;> cases found
  | fr =>
      cases registered
      unfold codecFrDesc at found
      split_ifs at found <;> cases found <;> exact ecu_proc_fr_function build.libs small
  | efr =>
      cases registered
      unfold codecEfrDesc at found
      split_ifs at found <;> cases found
  | amr =>
      cases registered
      unfold codecAmrDesc at found
      split_ifs at found <;> cases found

end Items

section Queues

variable {Lib : Type} (build : Build Lib)

/-- The format or the codec of the call is one of this program. -/
def Provided : QueueCall Lib → Prop
  | .fmtConvert fmt _ => build.registry.fmtGetFromType fmt.type = some fmt
  | .codec desc _ | .ecu desc => ∃ type, build.registry.codecGetFromType type = some desc
  | _ => True

/-- The queues that the queue functions make, whatever happens inside their calls. -/
inductive Queued : Queue Lib → Ledger → Prop where
  | create (name : String) (ledger : Ledger) : Queued (osmoGapkPqCreate name) ledger
  | call {pq after : Queue Lib} {ledger ledgerAfter : Ledger} {call : QueueCall Lib}
      {outcome : CallOutcome} {rv : Int} (queued : Queued pq ledger) (provided : Provided build call)
      (run : queueCall build.host build.registry call outcome pq ledger =
        .ok (rv, after, ledgerAfter)) : Queued after ledgerAfter

/-- What a call does to a queue: nothing, or there is one item more. -/
def Grows (fine : Item Lib → Prop) (pq : Queue Lib) (result : Exec (Int × Queue Lib × Ledger)) :
    Prop :=
  ∀ rv after ledgerAfter, result = .ok (rv, after, ledgerAfter) →
    after = pq ∨ ∃ item, fine item ∧ after = appended pq item

variable {fine : Item Lib → Prop} {pq : Queue Lib} (outcome : CallOutcome) (ledger : Ledger)

theorem grows_not (rv : Int) : Grows fine pq (.ok (rv, pq, ledger)) := by
  intro _ _ _ run
  cases run
  exact Or.inl rfl

theorem grows_by (rv : Int) {item : Item Lib} (isFine : fine item) :
    Grows fine pq (.ok (rv, appended pq item, ledger)) := by
  intro _ _ _ run
  cases run
  exact Or.inr ⟨item, isFine, rfl⟩

theorem grows_bind {Value : Type} {first : Exec Value}
    {next : Value → Exec (Int × Queue Lib × Ledger)}
    (grows : ∀ value, first = .ok value → Grows fine pq (next value)) :
    Grows fine pq (first >>= next) := by
  intro rv after ledgerAfter run
  obtain ⟨value, first, last⟩ := (exec_bind_eq_ok _ _ _).mp run
  exact grows value first rv after ledgerAfter last

/-- The item behind a call of `osmo_gapk_pq_add_item` is a cleared one. -/
theorem grows_add_item {next : Bool × Queue Lib → Exec (Int × Queue Lib × Ledger)}
    (refused : Grows fine pq (next (false, pq)))
    (added : Grows fine pq (next (true, appended pq .zero))) :
    Grows fine pq (osmoGapkPqAddItem pq outcome.itemAllocated >>= next) := by
  refine grows_bind fun value run => ?_
  obtain ⟨done, after⟩ := value
  obtain ⟨rfl, rfl⟩ := add_item_ok run
  cases outcome.itemAllocated with
  | false => exact refused
  | true => exact added

theorem set_last_appended (item : Item Lib) (change : Item Lib → Item Lib) :
    (appended pq item).setLast change = appended pq (change item) :=
  set_last_eq rfl change

theorem queue_state_op_grows (content : StateContent Lib) (fill : State Lib → Item Lib → Item Lib)
    (isFine : ∀ state, fine (fill state .zero)) :
    Grows fine pq (queueStateOp content fill outcome pq ledger) := by
  unfold queueStateOp
  cases outcome.stateAllocated with
  | false => exact grows_not ledger _
  | true =>
      refine grows_add_item outcome (grows_bind fun _ _ => grows_not _ _) ?_
      simp only [set_last_appended]
      exact grows_by _ 0 (isFine _)

theorem queue_alsa_op_grows (blkLen : Nat) (inOutN : Bool)
    (isFine : ∀ state, fine (alsaItem blkLen inOutN state .zero)) :
    Grows fine pq (pqQueueAlsaOp blkLen inOutN outcome pq ledger) := by
  unfold pqQueueAlsaOp
  cases outcome.stateAllocated with
  | false => exact grows_not ledger _
  | true =>
      by_cases closed : outcome.deviceOpened < 0
      · simp only [Bool.not_true, Bool.false_eq_true, if_false, if_pos closed]
        exact grows_not _ _
      by_cases misconfigured : outcome.deviceConfigured < 0
      · simp only [Bool.not_true, Bool.false_eq_true, if_false, if_neg closed, if_pos misconfigured]
        exact grows_bind fun _ _ => grows_not _ _
      · simp only [Bool.not_true, Bool.false_eq_true, if_false, if_neg closed, if_neg misconfigured]
        refine grows_add_item outcome (grows_bind fun _ _ => grows_not _ _) ?_
        simp only [set_last_appended]
        exact grows_by _ 0 (isFine _)

variable (registry : Registry Lib)

theorem queue_fmt_convert_grows (fmt : FormatDesc) (toFromN : Bool)
    (isFine : ∀ codec, fine (fmtItem fmt codec toFromN .zero)) :
    Grows fine pq (osmoGapkPqQueueFmtConvert registry fmt toFromN outcome pq ledger) := by
  unfold osmoGapkPqQueueFmtConvert
  cases registry.codecGetFromType fmt.codecType with
  | none => exact grows_not ledger _
  | some codec =>
      refine grows_add_item outcome (grows_not _ _) ?_
      simp only [set_last_appended]
      exact grows_by _ 0 (isFine _)

/-- The item of a codec is there before its fields are set, if they ever are. -/
theorem queue_codec_item_grows {desc : CodecDesc Lib} {encDecN : Bool} {item : Item Lib}
    (unset : fine item)
    (isFine : ∀ codecPcm fmt, fine (codecItem desc codecPcm fmt encDecN item)) :
    Grows fine pq (queueCodecItem registry desc encDecN (appended pq item) ledger) := by
  unfold queueCodecItem
  cases registry.fmtGetFromType (codecFormatType desc encDecN) with
  | none => exact grows_by ledger _ unset
  | some fmt =>
      refine grows_bind fun codecPcm _ => ?_
      rw [set_last_appended]
      exact grows_by ledger _ (isFine _ _)

theorem queue_codec_grows (desc : CodecDesc Lib) (encDecN : Bool)
    (unset : ∀ item : Item Lib, item.proc = none → fine item)
    (isFine : ∀ codecPcm fmt item, fine (codecItem desc codecPcm fmt encDecN item)) :
    Grows fine pq (osmoGapkPqQueueCodec registry desc encDecN outcome pq ledger) := by
  unfold osmoGapkPqQueueCodec
  refine grows_add_item outcome (grows_not _ _) ?_
  cases desc.codecInit with
  | none => exact queue_codec_item_grows ledger registry (unset _ rfl) fun _ _ => isFine _ _ _
  | some content =>
      cases outcome.codecInitialised with
      | false => exact grows_by _ _ (unset _ rfl)
      | true =>
          simp only [set_last_appended]
          exact queue_codec_item_grows _ registry (unset _ rfl) fun _ _ => isFine _ _ _

theorem queue_ecu_grows (desc : CodecDesc Lib)
    (unset : ∀ item : Item Lib, item.proc = none → fine item)
    (isFine : ∀ fmt state, fine (ecuItem desc fmt state .zero)) :
    Grows fine pq (osmoGapkPqQueueEcu registry desc outcome pq ledger) := by
  unfold osmoGapkPqQueueEcu
  cases desc.ecuProc with
  | none => exact grows_not ledger _
  | some proc =>
      refine grows_add_item outcome (grows_not _ _) ?_
      cases outcome.stateAllocated with
      | false =>
          simp only [set_last_appended]
          exact grows_by _ _ (unset _ rfl)
      | true =>
          refine grows_bind fun fmt _ => ?_
          simp only [set_last_appended]
          exact grows_by _ _ (isFine _ _)

end Queues

section Program

variable {Lib : Type} {build : Build Lib}
  (concealed : ∀ ecu area, (build.libs.osmoEcuFrConceal ecu area).2.1 < 2 ^ 31)

include concealed

/-- What a call adds to a queue is called like any function of C. -/
theorem queue_call_grows {call : QueueCall Lib} (provided : Provided build call)
    (outcome : CallOutcome) (pq : Queue Lib) (ledger : Ledger) :
    Grows RunsInC pq (queueCall build.host build.registry call outcome pq ledger) := by
  cases call with
  | fileInput blkLen =>
      exact queue_state_op_grows outcome ledger _ _ fun _ => runs_in_c_of rfl pq_cb_file_input_function
  | fileOutput blkLen =>
      exact queue_state_op_grows outcome ledger _ _ fun _ =>
        runs_in_c_of rfl pq_cb_file_output_function
  | rtpInput blkLen pt =>
      exact queue_state_op_grows outcome ledger _ _ fun _ =>
        runs_in_c_of rfl (pq_cb_rtp_input_function build.host)
  | rtpOutput blkLen pt =>
      exact queue_state_op_grows outcome ledger _ _ fun _ =>
        runs_in_c_of rfl (pq_cb_rtp_output_function build.host)
  | alsaInput blkLen =>
      exact queue_alsa_op_grows outcome ledger blkLen true fun _ =>
        runs_in_c_of rfl pq_cb_alsa_input_function
  | alsaOutput blkLen =>
      exact queue_alsa_op_grows outcome ledger blkLen false fun _ =>
        runs_in_c_of rfl pq_cb_alsa_output_function
  | fmtConvert fmt toFromN =>
      have registered := (build.fmt_get_eq _).symm.trans provided
      exact queue_fmt_convert_grows outcome ledger _ fmt toFromN fun codec =>
        fmt_item_runs_in_c build registered codec toFromN
  | codec desc encDecN =>
      obtain ⟨type, found⟩ := provided
      have registered := (build.codec_get_eq type).symm.trans found
      refine queue_codec_grows outcome ledger _ desc encDecN (fun _ => unfinished_runs_in_c) ?_
      intro codecPcm fmt item
      exact runs_in_c_anywhere fun _ => codec_procs_function build registered
  | ecu desc =>
      obtain ⟨type, found⟩ := provided
      have registered := (build.codec_get_eq type).symm.trans found
      refine queue_ecu_grows outcome ledger _ desc (fun _ => unfinished_runs_in_c) ?_
      intro fmt state
      exact runs_in_c_anywhere fun _ => ecu_procs_function build concealed registered

/-- Every call-back in a queue of this program is a function of C. -/
theorem queued_runs_in_c {pq : Queue Lib} {ledger : Ledger} (queued : Queued build pq ledger) :
    ∀ item ∈ pq.items, RunsInC item := by
  induction queued with
  | create name ledger => exact fun item member => absurd member List.not_mem_nil
  | call queued provided run ih =>
      rcases queue_call_grows concealed provided _ _ _ _ _ _ run with rfl | ⟨item, isFunction, rfl⟩
      · exact ih
      · exact List.forall_mem_append.mpr ⟨ih, List.forall_mem_singleton.mpr isFunction⟩

/-- A queue counts its items, also those that were never finished. -/
theorem queued_built {pq : Queue Lib} {ledger : Ledger} (queued : Queued build pq ledger) :
    Built pq := by
  rw [built_iff_counted]
  induction queued with
  | create name ledger => rfl
  | call queued provided run ih =>
      rcases queue_call_grows concealed provided _ _ _ _ _ _ run with rfl | ⟨item, _, rfl⟩
      · exact ih
      · show (_ + 1) % 2 ^ 32 = (_ ++ [item]).length % 2 ^ 32
        rw [ih, Nat.mod_add_mod, List.length_append, List.length_singleton]

end Program

end Gapk.Callbacks
