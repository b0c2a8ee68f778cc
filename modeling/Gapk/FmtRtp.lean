import Gapk.NibbleShift

/-!
# RTP payload formats of the fixed-rate codecs

HR according to TS 101 318 and to RFC 5993, and EFR according to RFC 3551. A
broken packet may be short, so these readers substitute a frame where all other
readers insist on the frame length.
-/

namespace Gapk.FmtRtp

open CheckedMemory BitBuffer
open Gapk.Formats Gapk.NibbleShift

set_option autoImplicit false

def rtpHrEtsiFromCanon : FmtConvCb := fun dst src srcLen => do
  require (srcLen = hrCanonLen)
  let dst ← memcpy dst 0 src 0 srcLen
  pure (srcLen, dst)

def rtpHrEtsiToCanon : FmtConvCb := fun dst src srcLen => do
  if srcLen ≠ hrCanonLen then
    let dst ← memset dst 0 hrCanonLen
    return (hrCanonLen, dst)
  let dst ← memcpy dst 0 src 0 srcLen
  pure (hrCanonLen, dst)

def fmtRtpHrEtsi : FormatDesc where
  type := .rtpHrEtsi
  codecType := .hr
  name := "rtp-hr-etsi"
  frameLen := hrCanonLen
  convFromCanon := rtpHrEtsiFromCanon
  convToCanon := rtpHrEtsiToCanon
  headerLen := 0
  header := []

/-- `HR_LEN`: a ToC byte precedes the frame. -/
abbrev hrLen : Nat := hrCanonLen + 1

/-- See Section 5.2 of RFC 5993. -/
inductive RtpHrIetfFt where
  | goodSpeech
  | goodSid
  | noData
  deriving DecidableEq, Repr

def RtpHrIetfFt.value : RtpHrIetfFt → Byte
  | .goodSpeech => 0
  | .goodSid => 2
  | .noData => 7

def tocByte (ft : RtpHrIetfFt) : Byte := (ft.value &&& 0x7) <<< 4

def rtpHrIetfFromCanon : FmtConvCb := fun dst src srcLen => do
  require (srcLen = hrCanonLen)
  let ft := RtpHrIetfFt.goodSpeech
  let dst ← store dst 0 (tocByte ft)
  let dst ← memcpy dst 1 src 0 srcLen
  pure (hrLen, dst)

-- The frame that is substituted here has the length of the payload, one byte
-- more than the canonical frame that is announced.
def rtpHrIetfToCanon : FmtConvCb := fun dst src srcLen => do
  if srcLen ≠ hrLen then
    let dst ← memset dst 0 hrLen
    return (hrCanonLen, dst)
  let dst ← memcpy dst 0 src 1 hrCanonLen
  pure (hrCanonLen, dst)

def fmtRtpHrIetf : FormatDesc where
  type := .rtpHrIetf
  codecType := .hr
  name := "rtp-hr-ietf"
  frameLen := hrLen
  convFromCanon := rtpHrIetfFromCanon
  convToCanon := rtpHrIetfToCanon
  headerLen := 0
  header := []

abbrev efrLen : Nat := 31

def efrMagic : Byte := 0xc

/-- EFR encoding starts with `0xc`; with all other bits zero the packet is
probably damaged. -/
def damagedPacket : Buf := 0xc0 :: List.replicate 30 0x00

/-- The EFR SID frame of TS 101 318, 5.3.2. -/
def silence : Buf := 0xcf :: List.replicate 11 0xff ++ [0xe0] ++ List.replicate 18 0x00

def rtpEfrFromCanon : FmtConvCb := fun dst src srcLen => do
  require (srcLen = efrCanonLen)
  let dst ← shiftIn efrMagic efrLen dst src
  pure (efrLen, dst)

def rtpEfrToCanon : FmtConvCb := fun dst src srcLen => do
  if srcLen ≠ efrLen then
    let dst ← memset dst 0 efrCanonLen
    return (efrCanonLen, dst)
  let damaged ← memEqual damagedPacket src efrLen
  let src := if damaged then silence else src
  let dst ← shiftOut efrLen dst src
  pure (efrCanonLen, dst)

def fmtRtpEfr : FormatDesc where
  type := .rtpEfr
  codecType := .efr
  name := "rtp-efr"
  frameLen := efrLen
  convFromCanon := rtpEfrFromCanon
  convToCanon := rtpEfrToCanon
  headerLen := 0
  header := []

section HalfRate

variable {dst src : Buf}

theorem rtp_hr_etsi_from_canon_converts (size : src.length = 14) :
    Converts rtpHrEtsiFromCanon src src := by
  intro dst dstSize
  rw [rtpHrEtsiFromCanon, require_true size, exec_bind_ok, memcpy_whole dstSize rfl]
  rfl

theorem rtp_hr_etsi_to_canon_converts (size : src.length = 14) :
    Converts rtpHrEtsiToCanon src src := by
  intro dst dstSize
  rw [rtpHrEtsiToCanon, if_neg (not_not.mpr size), memcpy_whole dstSize rfl, size]
  rfl

theorem rtp_hr_ietf_from_canon_converts (size : src.length = 14) :
    Converts rtpHrIetfFromCanon src (0 :: src) := by
  intro dst dstSize
  rw [List.length_cons, size] at dstSize
  obtain ⟨first, rest, rfl⟩ : ∃ first rest, dst = first :: rest :=
    List.exists_cons_of_length_eq_add_one dstSize
  rw [List.length_cons] at dstSize
  have copied : memcpy (0 :: rest) 1 src 0 src.length = .ok (0 :: src) := by
    rw [memcpy_eq (by rw [List.length_cons]; omega) (by omega), List.drop_zero, List.take_length,
      List.drop_eq_nil_of_le (by rw [List.length_cons]; omega), List.append_nil]
    rfl
  simp only [rtpHrIetfFromCanon]
  rw [require_true size, exec_bind_ok, store_eq _ (by simp), exec_bind_ok, List.set_cons_zero,
    show tocByte .goodSpeech = 0 from rfl, copied, List.length_cons, size]
  rfl

theorem rtp_hr_ietf_to_canon_converts (size : src.length = 15) :
    Converts rtpHrIetfToCanon src src.tail := by
  intro dst dstSize
  have frameSize : src.tail.length = 14 := by rw [List.length_tail, size]
  rw [frameSize] at dstSize
  have copied : memcpy dst 0 src 1 14 = .ok src.tail := by
    rw [memcpy_front (by omega) (by omega), List.drop_one, List.take_of_length_le (by omega),
      List.drop_eq_nil_of_le (by omega : dst.length ≤ 14), List.append_nil]
  rw [rtpHrIetfToCanon, if_neg (not_not.mpr size), hrCanonLen, copied, frameSize]
  rfl

end HalfRate

section EnhancedFullRate

variable {dst src : Buf}

theorem rtp_efr_from_canon_converts (size : src.length = 31) :
    Converts rtpEfrFromCanon src (shifted efrMagic src) := by
  intro dst dstSize
  have outSize := shifted_length efrMagic (by omega : 0 < src.length)
  rw [outSize] at dstSize
  rw [rtpEfrFromCanon, require_true size, exec_bind_ok, efrLen, ← size,
    shift_in_eq efrMagic (by omega) dstSize, outSize]
  rfl

/-- The payload that is converted in place of `src`. -/
def concealed (src : Buf) : Buf := if damagedPacket = src then silence else src

theorem concealed_length (size : src.length = 31) : (concealed src).length = 31 := by
  unfold concealed
  split_ifs
  · rfl
  · exact size

theorem rtp_efr_to_canon_converts (size : src.length = 31) :
    Converts rtpEfrToCanon src (unshifted (concealed src)) := by
  intro dst dstSize
  have payloadSize := concealed_length size
  rw [unshifted_length] at dstSize
  have compared : memEqual damagedPacket src efrLen = .ok (decide (damagedPacket = src)) := by
    rw [memEqual, if_pos ⟨Nat.le_refl 31, Nat.le_of_eq size.symm⟩, exec_pure,
      List.take_of_length_le (Nat.le_refl 31), List.take_of_length_le (Nat.le_of_eq size)]
  have shift := shift_out_eq (by omega : 0 < (concealed src).length) dstSize
  rw [payloadSize] at shift
  rw [rtpEfrToCanon, if_neg (not_not.mpr size), compared, exec_bind_ok, unshifted_length,
    payloadSize]
  simp only [decide_eq_true_eq]
  rw [← concealed, shift]
  rfl

end EnhancedFullRate

end Gapk.FmtRtp
