import Gapk.Library.BitLayout

/-!
# Frame formats

The enumerations and descriptors of `codecs.h` and `formats.h`, and what it
means for a conversion call-back to convert a frame. Output buffers are reused
from frame to frame, so a conversion is a fact about every earlier content.
-/

namespace Gapk.Formats

open CheckedMemory BitBuffer BitLayout

set_option autoImplicit false

abbrev frCanonLen : Nat := 33
abbrev hrCanonLen : Nat := 14
abbrev efrCanonLen : Nat := 31
abbrev pcmCanonLen : Nat := 160 * 2
abbrev hrRefEncLen : Nat := 20 * 2
abbrev hrRefDecLen : Nat := 22 * 2

/-- The speech bits of a codec fit into its canonical frame. -/
theorem fr_bits_fit : 260 ≤ 8 * 33 := by decide

theorem hr_bits_fit : 112 ≤ 8 * 14 := by decide

theorem efr_bits_fit : 244 ≤ 8 * 31 := by decide

inductive CodecType where
  | invalid
  | pcm
  | hr
  | fr
  | efr
  | amr
  deriving DecidableEq, Repr

inductive FormatType where
  | invalid
  | amrEfr
  | gsm
  | hrRefDec
  | hrRefEnc
  | racalHr
  | racalFr
  | racalEfr
  | rawpcmS16le
  | tiHr
  | tiFr
  | tiEfr
  | amrOpencore
  | rtpAmr
  | rtpEfr
  | rtpHrEtsi
  | rtpHrIetf
  deriving DecidableEq, Repr

/-- `osmo_gapk_fmt_conv_cb_t`: output buffer, input buffer, input length; the
result is the return value and the output buffer afterwards. -/
abbrev FmtConvCb := Buf → Buf → Nat → Exec (Int × Buf)

structure FormatDesc where
  type : FormatType
  codecType : CodecType
  name : String
  /-- Length of frames in this format, zero for a variable length. -/
  frameLen : Nat
  convFromCanon : FmtConvCb
  convToCanon : FmtConvCb
  headerLen : Nat
  header : Buf

/-- The call-back turns the frame `src` into the frame `out`, whatever the
output buffer of that size held before. -/
def Converts (convert : FmtConvCb) (src out : Buf) : Prop :=
  ∀ dst : Buf, dst.length = out.length →
    convert dst src src.length = .ok ((out.length : Int), out)

theorem Converts.unique {convert : FmtConvCb} {src left right : Buf}
    (toLeft : Converts convert src left) (toRight : Converts convert src right)
    (size : left.length = right.length) : left = right := by
  have leftRun := toLeft left rfl
  rw [toRight left size] at leftRun
  simp only [Except.ok.injEq, Prod.mk.injEq] at leftRun
  exact leftRun.2.symm

/-- What the call-back makes of `src` in a cleared buffer. -/
def converted (convert : FmtConvCb) (outLen : Nat) (src : Buf) : Buf :=
  match convert (zeros outLen) src src.length with
  | .ok (_, out) => out
  | .error _ => []

theorem Converts.converted_eq {convert : FmtConvCb} {src out : Buf}
    (converts : Converts convert src out) : converted convert out.length src = out := by
  rw [converted, converts (zeros out.length) (zeros_length _)]

/-- A frame of a codec in its canonical form: `speechBits` bits of speech and
zeros up to the byte boundary. -/
structure CanonFrame (len speechBits : Nat) where
  bytes : Buf
  size : bytes.length = len
  padding : ∀ index, speechBits ≤ index → bitAt bytes index = false

/-- A frame of a format, with nothing known of its bits. -/
structure RawFrame (len : Nat) where
  bytes : Buf
  size : bytes.length = len

theorem CanonFrame.exists_bytes {len speechBits : Nat} {bytes : Buf} (size : bytes.length = len)
    (padding : ∀ index, speechBits ≤ index → bitAt bytes index = false) :
    ∃ canon : CanonFrame len speechBits, canon.bytes = bytes :=
  ⟨⟨bytes, size, padding⟩, rfl⟩

section Layouts

variable {len speechBits dstLen : Nat} (layout : Layout len dstLen)
  (sources : ∀ index, index ∈ layout.sources ↔ index < speechBits)

include sources

/-- A layout of all speech bits gives a canonical frame back. -/
theorem CanonFrame.layout_round_trip (canon : CanonFrame len speechBits) :
    layout.reverse.place (layout.place canon.bytes (zeros dstLen)) (zeros len) = canon.bytes := by
  apply layout.reverse_place_zeros canon.size (zeros_length dstLen)
  intro index _ unused
  rw [sources] at unused
  exact canon.padding index (by omega)

/-- What a permuting reader produces is a canonical frame. -/
theorem CanonFrame.exists_layout (frame : Buf) :
    ∃ canon : CanonFrame len speechBits, canon.bytes = layout.reverse.place frame (zeros len) := by
  apply CanonFrame.exists_bytes (by rw [Layout.place_length, zeros_length])
  intro index beyond
  rw [layout.reverse.bit_at_place_of_not_target (zeros_length len), bit_at_zeros]
  rw [Layout.reverse_targets, sources]
  omega

end Layouts

theorem RawFrame.exists_bytes {len : Nat} {bytes : Buf} (size : bytes.length = len) :
    ∃ frame : RawFrame len, frame.bytes = bytes :=
  ⟨⟨bytes, size⟩, rfl⟩

end Gapk.Formats
