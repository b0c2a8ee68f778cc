import Gapk.Formats
import Gapk.Library.HubConversion

/-!
# Lossless formats of one codec

Formats of one codec that give back every canonical frame written in them. A
conversion between two of them is one call-back after the other, with the
canonical frame in between, and detours through a third format change nothing.
-/

namespace Gapk.FormatFamily

open CheckedMemory BitBuffer BitLayout
open Gapk.Formats

set_option autoImplicit false

/-- `source` to canonical and canonical to `target`, for all buffers on the way. -/
def ConvertsVia (source target : FormatDesc) (frame out : Buf) : Prop :=
  ∃ canon, Converts source.convToCanon frame canon ∧ Converts target.convFromCanon canon out

structure LosslessFormats (Format : Type) where
  desc : Format → FormatDesc
  canonLen : Nat
  speechBits : Nat
  roundTrip : ∀ format (canon : CanonFrame canonLen speechBits),
    ∃ frame : RawFrame (desc format).frameLen,
      Converts (desc format).convFromCanon canon.bytes frame.bytes ∧
      Converts (desc format).convToCanon frame.bytes canon.bytes
  readsAny : ∀ format (frame : RawFrame (desc format).frameLen),
    ∃ canon : CanonFrame canonLen speechBits,
      Converts (desc format).convToCanon frame.bytes canon.bytes

namespace LosslessFormats

variable {Format : Type} (formats : LosslessFormats Format)

def fromCanon (format : Format) : Buf → Buf :=
  converted (formats.desc format).convFromCanon (formats.desc format).frameLen

def toCanon (format : Format) : Buf → Buf :=
  converted (formats.desc format).convToCanon formats.canonLen

theorem from_canon_eq (format : Format)
    (canon : CanonFrame formats.canonLen formats.speechBits) :
    ∃ frame : RawFrame (formats.desc format).frameLen,
      formats.fromCanon format canon.bytes = frame.bytes ∧
      Converts (formats.desc format).convFromCanon canon.bytes frame.bytes ∧
      Converts (formats.desc format).convToCanon frame.bytes canon.bytes := by
  obtain ⟨frame, writes, reads⟩ := formats.roundTrip format canon
  have same := writes.converted_eq
  rw [frame.size] at same
  exact ⟨frame, same, writes, reads⟩

theorem to_canon_eq (format : Format) (frame : RawFrame (formats.desc format).frameLen) :
    ∃ canon : CanonFrame formats.canonLen formats.speechBits,
      formats.toCanon format frame.bytes = canon.bytes ∧
      Converts (formats.desc format).convToCanon frame.bytes canon.bytes := by
  obtain ⟨canon, reads⟩ := formats.readsAny format frame
  have same := reads.converted_eq
  rw [canon.size] at same
  exact ⟨canon, same, reads⟩

def family : HubConversion.Family Format Buf Buf where
  valid bytes := ∃ canon : CanonFrame formats.canonLen formats.speechBits, canon.bytes = bytes
  accepts format bytes := bytes.length = (formats.desc format).frameLen
  fromCanon := formats.fromCanon
  toCanon := formats.toCanon
  accepts_fromCanon := by
    rintro format _ ⟨canon, rfl⟩
    obtain ⟨frame, same, _⟩ := formats.from_canon_eq format canon
    rw [same, frame.size]
  valid_toCanon := by
    intro format bytes size
    obtain ⟨canon, same, _⟩ := formats.to_canon_eq format ⟨bytes, size⟩
    exact ⟨canon, same.symm⟩
  toCanon_fromCanon := by
    rintro format _ ⟨canon, rfl⟩
    obtain ⟨frame, same, _, reads⟩ := formats.from_canon_eq format canon
    have back := reads.converted_eq
    rw [canon.size] at back
    rw [same]
    exact back

theorem converts_via_convert (source target : Format) {bytes : Buf}
    (size : bytes.length = (formats.desc source).frameLen) :
    ConvertsVia (formats.desc source) (formats.desc target) bytes
      (formats.family.convert source target bytes) := by
  obtain ⟨canon, same, reads⟩ := formats.to_canon_eq source ⟨bytes, size⟩
  obtain ⟨frame, written, writes, _⟩ := formats.from_canon_eq target canon
  have converted : formats.family.convert source target bytes = frame.bytes :=
    (congrArg (formats.fromCanon target) same).trans written
  rw [converted]
  exact ⟨canon.bytes, reads, writes⟩

theorem path_independent (source via target : Format)
    (frame : RawFrame (formats.desc source).frameLen) :
    ∃ between out : Buf,
      ConvertsVia (formats.desc source) (formats.desc via) frame.bytes between ∧
      ConvertsVia (formats.desc via) (formats.desc target) between out ∧
      ConvertsVia (formats.desc source) (formats.desc target) frame.bytes out := by
  have accepted := formats.family.accepts_convert source via frame.size
  have detour := formats.converts_via_convert via target accepted
  rw [formats.family.convert_convert source via target frame.size] at detour
  exact ⟨_, _, formats.converts_via_convert source via frame.size, detour,
    formats.converts_via_convert source target frame.size⟩

end LosslessFormats

/-- A format that moves each speech bit to its place in a frame and back. The
layout may depend on the frame, if a reader finds the one that a writer chooses
and the other way round. -/
structure LaidOut (Choice : Type) (canonLen speechBits frameLen : Nat) where
  fromCanon : FmtConvCb
  toCanon : FmtConvCb
  layout : Choice → Layout canonLen frameLen
  ofCanon : Buf → Choice
  ofFrame : Buf → Choice
  unused : List Nat
  sources : ∀ choice index, index ∈ (layout choice).sources ↔ index < speechBits
  free : ∀ choice, ∀ index < 8 * frameLen, index ∈ unused ↔ index ∉ (layout choice).targets
  inside : ∀ index ∈ unused, index < 8 * frameLen
  found : ∀ canon,
    ofFrame ((layout (ofCanon canon)).place canon (zeros frameLen)) = ofCanon canon
  kept : ∀ frame,
    ofCanon ((layout (ofFrame frame)).reverse.place frame (zeros canonLen)) = ofFrame frame
  writes : ∀ canon : Buf, canon.length = canonLen →
    Converts fromCanon canon ((layout (ofCanon canon)).place canon (zeros frameLen))
  reads : ∀ frame : Buf, frame.length = frameLen →
    Converts toCanon frame ((layout (ofFrame frame)).reverse.place frame (zeros canonLen))

namespace LaidOut

variable {Choice : Type} {canonLen speechBits frameLen : Nat}
  (format : LaidOut Choice canonLen speechBits frameLen)

theorem from_to_canon (canon : CanonFrame canonLen speechBits) :
    ∃ frame : RawFrame frameLen, Converts format.fromCanon canon.bytes frame.bytes ∧
      Converts format.toCanon frame.bytes canon.bytes := by
  have forth := format.writes canon.bytes canon.size
  have frameSize : ((format.layout (format.ofCanon canon.bytes)).place canon.bytes
      (zeros frameLen)).length = frameLen := by
    rw [Layout.place_length, zeros_length]
  have back := format.reads _ frameSize
  rw [format.found, CanonFrame.layout_round_trip _ (format.sources _) canon] at back
  obtain ⟨frame, same⟩ := RawFrame.exists_bytes frameSize
  rw [← same] at forth back
  exact ⟨frame, forth, back⟩

/-- A frame comes back with zeros in the bits that no speech bit uses. -/
theorem to_from_canon (frame : RawFrame frameLen) :
    ∃ canon : CanonFrame canonLen speechBits,
      Converts format.toCanon frame.bytes canon.bytes ∧
      Converts format.fromCanon canon.bytes (clearBits format.unused frame.bytes) := by
  obtain ⟨canon, same⟩ := CanonFrame.exists_layout (format.layout (format.ofFrame frame.bytes))
    (format.sources _) frame.bytes
  have back := format.reads frame.bytes frame.size
  have forth := format.writes canon.bytes canon.size
  have kept := format.kept frame.bytes
  have cleared := (format.layout (format.ofFrame frame.bytes)).place_reverse_place format.unused
    frame.size (format.free _) format.inside
  rw [← same] at back kept cleared
  rw [kept, cleared] at forth
  exact ⟨canon, back, forth⟩

end LaidOut

end Gapk.FormatFamily
