import Gapk.FmtAmr

/-!
# AMR payloads

An AMR frame is an RTP payload without its first octet. The reader looks at the
second octet before anything else, so what it makes of a payload of less than
two octets depends on the traffic before, and an empty one makes the copy length
wrap around.
-/

namespace Gapk.AmrFormats

open CheckedMemory BitBuffer FixedWidth
open Gapk.Formats Gapk.FmtAmr

set_option autoImplicit false

def canonOf (payload : Buf) : Buf :=
  if payload.getD 1 0 &&& 0x04 = 0 then silence.tail else payload.tail

theorem canon_of_length_le (payload : Buf) :
    (canonOf payload).length ≤ max (payload.length - 1) 6 := by
  unfold canonOf
  split_ifs
  · exact Nat.le_max_right _ _
  · rw [List.length_tail]
    exact Nat.le_max_left _ _

private theorem copy_behind_first {src dst : Buf} {count : Nat} (inside : count + 1 ≤ src.length)
    (room : count ≤ dst.length) :
    memcpy dst 0 src 1 count = .ok (src.tail.take count ++ dst.drop count) := by
  rw [memcpy_front room (by omega), List.drop_one]

section Reader

variable {payload stale dst : Buf}

theorem rtp_amr_to_canon_run (two : 2 ≤ payload.length) (small : payload.length < 2 ^ 31)
    (room : (canonOf payload).length ≤ dst.length) :
    rtpAmrToCanon dst (payload ++ stale) payload.length =
      .ok ((canonOf payload).length, canonOf payload ++ dst.drop (canonOf payload).length) := by
  have quality : load (payload ++ stale) 1 = .ok (payload.getD 1 0) := by
    rw [load_eq (by rw [List.length_append]; omega), List.getD_append _ _ _ _ (by omega)]
  rw [rtpAmrToCanon, quality, exec_bind_ok]
  by_cases damaged : payload.getD 1 0 &&& 0x04 = 0
  · have canon : canonOf payload = silence.tail := if_pos damaged
    rw [canon] at room ⊢
    have substitute : memcpy dst 0 silence 1 (toUInt32 ((silence.length : Nat) - 1)) =
        .ok (silence.tail ++ dst.drop 6) := copy_behind_first (by decide) room
    simp only [if_pos damaged, substitute]
    rfl
  · have canon : canonOf payload = payload.tail := if_neg damaged
    rw [canon, List.length_tail] at room
    rw [canon, List.length_tail]
    simp only [if_neg damaged]
    have count : ((payload.length : Nat) : Int) - 1 = ((payload.length - 1 : Nat) : Int) := by omega
    rw [count, to_uint32_eq (by omega), to_int32_eq (by omega) (by omega),
      copy_behind_first (by rw [List.length_append]; omega) room, exec_bind_ok,
      List.tail_append_of_ne_nil (List.ne_nil_of_length_pos (by omega)),
      List.take_left' (List.length_tail)]
    rfl

end Reader

/-- The reader works on this payload: whatever follows it in the source buffer
and whatever the output buffer held, it copies the same octets and returns how
many, not more than the payload or the substitute has. -/
def WellDefined (payload : Buf) : Prop :=
  ∃ copied : Buf, copied.length ≤ max (payload.length - 1) 6 ∧
    (2 ≤ payload.length → copied = canonOf payload) ∧
    ∀ stale dst : Buf, 2 ≤ payload.length + stale.length →
      max (payload.length - 1) 6 ≤ dst.length →
      rtpAmrToCanon dst (payload ++ stale) payload.length =
        .ok (copied.length, copied ++ dst.drop copied.length)

/-- Without an octet the copy length wraps around as soon as the quality bit of
the octet behind is set. -/
theorem empty_payload_undefined : ¬WellDefined [] := by
  rintro ⟨copied, _, _, runs⟩
  have run := runs [0x00, 0x04] (zeros 320) (by decide) (by rw [zeros_length]; decide)
  have fault : rtpAmrToCanon (zeros 320) ([] ++ [0x00, 0x04]) (List.length ([] : Buf)) =
      .error .outOfBounds := by
    have wrapped : memcpy (zeros 320) 0 [0x00, 0x04] 1 (toUInt32 ((0 : Nat) - 1)) =
        .error .outOfBounds :=
      memcpy_fault (by rw [zeros_length]; decide)
    rw [rtpAmrToCanon, List.nil_append, load_eq (by decide), exec_bind_ok]
    simp only []
    rw [if_neg (by decide), if_neg (by decide), List.length_nil, wrapped]
    rfl
  rw [fault] at run
  cases run

/-- One octet is copied or replaced, depending on the octet behind it. -/
theorem single_octet_undefined (octet : Byte) : ¬WellDefined [octet] := by
  rintro ⟨copied, _, _, runs⟩
  have count : toUInt32 (([octet].length : Nat) - 1) = 0 := rfl
  have kept : memcpy (zeros 6) 0 ([octet] ++ [0x04]) 1 0 = .ok (zeros 6) :=
    copy_behind_first (by simp) (Nat.zero_le _)
  have replaced : memcpy (zeros 6) 0 silence 1 (toUInt32 ((silence.length : Nat) - 1)) =
      .ok silence.tail := copy_behind_first (by decide) (by decide)
  have good : rtpAmrToCanon (zeros 6) ([octet] ++ [0x04]) [octet].length =
      .ok (toInt32 (([octet].length : Nat) - 1), zeros 6) := by
    rw [rtpAmrToCanon, load_eq (by simp), exec_bind_ok]
    simp only []
    rw [if_neg (by simp), if_neg (by simp), count, kept]
    rfl
  have damaged : rtpAmrToCanon (zeros 6) ([octet] ++ [0x00]) [octet].length =
      .ok (toInt32 ((silence.length : Nat) - 1), silence.tail) := by
    rw [rtpAmrToCanon, load_eq (by simp), exec_bind_ok]
    simp only []
    rw [if_pos (by simp), if_pos (by simp), replaced]
    rfl
  have first := runs [0x04] (zeros 6) (by simp) (by simp)
  have second := runs [0x00] (zeros 6) (by simp) (by simp)
  simp only [good, Except.ok.injEq, Prod.mk.injEq] at first
  simp only [damaged, ← first.1, Except.ok.injEq, Prod.mk.injEq] at second
  exact absurd second.1 (by decide : ¬toInt32 ((7 : Nat) - 1) = toInt32 ((1 : Nat) - 1))

theorem well_defined_iff {payload : Buf} (small : payload.length < 2 ^ 31) :
    WellDefined payload ↔ 2 ≤ payload.length := by
  constructor
  · intro defined
    match payload, defined with
    | [], defined => exact absurd defined empty_payload_undefined
    | [octet], defined => exact absurd defined (single_octet_undefined octet)
    | _ :: _ :: rest, _ =>
        simp only [List.length_cons]
        omega
  · intro two
    have bound := canon_of_length_le payload
    refine ⟨canonOf payload, bound, fun _ => rfl, ?_⟩
    intro stale dst _ room
    exact rtp_amr_to_canon_run two small (Nat.le_trans bound room)

def RoundTrips (frame : Buf) : Prop :=
  ∀ mid dst : Buf, frame.length < mid.length → frame.length ≤ dst.length →
    ∃ payload, rtpAmrFromCanon mid frame frame.length = .ok ((frame.length + 1 : Nat), payload) ∧
      rtpAmrToCanon dst payload (frame.length + 1) =
        .ok (frame.length, frame ++ dst.drop frame.length)

theorem rtp_amr_from_canon_run {src dst : Buf} {len : Nat} (inside : len ≤ src.length)
    (room : len < dst.length) (small : len + 1 < 2 ^ 31) :
    rtpAmrFromCanon dst src len =
      .ok ((len + 1 : Nat), (0xf0 :: src.take len) ++ dst.drop (len + 1)) := by
  obtain ⟨first, rest, rfl⟩ : ∃ first rest, dst = first :: rest :=
    List.exists_cons_of_ne_nil (List.ne_nil_of_length_pos (by omega))
  rw [List.length_cons] at room
  have length : ((len : Nat) : Int) + 1 = ((len + 1 : Nat) : Int) := by omega
  rw [rtpAmrFromCanon, store_eq _ (by simp), exec_bind_ok, List.set_cons_zero,
    memcpy_eq (by rw [List.length_cons]; omega) (by omega), exec_bind_ok, List.drop_zero, length,
    to_int32_eq (by omega) (by omega), Nat.add_comm 1]
  rfl

theorem rtp_amr_round_trips {frame : Buf} (nonempty : frame ≠ []) (small : frame.length ≤ 319)
    (quality : frame.getD 0 0 &&& 0x04 ≠ 0) : RoundTrips frame := by
  intro mid dst midRoom dstRoom
  have positive := List.length_pos_of_ne_nil nonempty
  have whole : canonOf (0xf0 :: frame) = frame := if_neg quality
  have out := rtp_amr_from_canon_run (Nat.le_refl frame.length) midRoom (by omega)
  rw [List.take_length] at out
  refine ⟨_, out, ?_⟩
  have back : rtpAmrToCanon dst ((0xf0 :: frame) ++ mid.drop (frame.length + 1))
      ((0xf0 : Byte) :: frame).length = _ :=
    rtp_amr_to_canon_run (by rw [List.length_cons]; omega) (by rw [List.length_cons]; omega)
      (by rwa [whole])
  rw [whole] at back
  exact back

/-- The reader works on exactly the payloads of two octets or more, and all
frames of the queue's buffers come back. -/
theorem rtp_amr_to_canon_well_defined_iff (payload : Buf) (small : payload.length < 2 ^ 31) :
    (WellDefined payload ↔ 2 ≤ payload.length) ∧
    (∀ frame : Buf, frame ≠ [] → frame.length ≤ 319 → frame.getD 0 0 &&& 0x04 ≠ 0 →
      RoundTrips frame) :=
  ⟨well_defined_iff small, fun _ => rtp_amr_round_trips⟩

theorem rtp_amr_to_canon_well_defined_iff_short :
    (WellDefined [0xf0, 0x44] ↔ 2 ≤ ([0xf0, 0x44] : Buf).length) ∧ RoundTrips [0x44] :=
  have holds := rtp_amr_to_canon_well_defined_iff [0xf0, 0x44] (by decide)
  ⟨holds.1, holds.2 [0x44] (by decide) (by decide) (by decide)⟩

/-- An RTP packet may have no payload. -/
theorem rtp_amr_to_canon_wraps :
    ¬∀ payload : Buf, payload.length < 2 ^ 31 → WellDefined payload := by
  intro defined
  exact empty_payload_undefined (defined [] (by decide))

end Gapk.AmrFormats
