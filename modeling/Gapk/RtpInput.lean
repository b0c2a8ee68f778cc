import Gapk.PqRtp

/-!
# Datagrams at the RTP source

What the source makes of any datagram, and how that compares with the padding
rule of RFC 3550. The count is taken from the last octet of the datagram, also
when the headers reach up to there, and a count of zero is not looked at.
-/

namespace Gapk.RtpInput

open CheckedMemory HostWords
open Gapk.Procqueue Gapk.Streams Gapk.PqRtp

set_option autoImplicit false

section Outcome

variable {Lib : Type} (host : Endian) {handle size srcLen : Nat} {rtp : PqStateRtp} {dst : Buf}
  {src : Option Buf} {world : World} {datagram : Buf} {later : List (Option Buf)}

/-- The result for a datagram, in terms of its octets. A payload that is longer
than the output buffer is copied over the end of that buffer. -/
def outcome (handle : Nat) (rtp : PqStateRtp) (datagram dst : Buf) (world : World) :
    Exec (ProcResult (StateContent Lib) World) :=
  if RtpAccepts datagram then
    if payloadLen datagram ≤ dst.length then
      .ok { rv := payloadLen datagram
            state := .heap handle (.rtp (receivedState rtp datagram))
            out := some (payloadBytes datagram ++ dst.drop (payloadLen datagram))
            world := world }
    else .error .outOfBounds
  else .ok { rv := -1, state := .heap handle (.rtp rtp), out := some dst, world := world }

theorem delivered_whole (arrives : world.datagramsIn = some datagram :: later)
    (fits : datagram.length ≤ size) :
    delivered world size = datagram ∧
      (world.readSocket size).2.2 = { world with datagramsIn := later } := by
  rw [delivered, World.readSocket, arrives]
  exact ⟨List.take_of_length_le fits, rfl⟩

theorem accept_datagram_outcome (small : datagram.length < 2 ^ 31) (rest : Buf) :
    acceptDatagram host rtp (datagram ++ rest) datagram.length
        (.heap handle (.rtp rtp) : State Lib) (some dst) world =
      outcome handle rtp datagram dst world := by
  rw [outcome]
  split_ifs with accepted room
  · rw [accept_datagram_run host small accepted, if_pos room]
  · rw [accept_datagram_run host small accepted, if_neg room]
  · rw [accept_datagram_refuses host small accepted]

theorem input_outcome (sized : receiveSize rtp.blkLen = .ok size)
    (arrives : world.datagramsIn = some datagram :: later) (fits : datagram.length ≤ size) :
    pqCbRtpInput host (.heap handle (.rtp rtp) : State Lib) (some dst) src srcLen world =
      outcome handle rtp datagram dst { world with datagramsIn := later } := by
  obtain ⟨whole, after⟩ := delivered_whole arrives fits
  rw [outcome]
  split_ifs with accepted room
  · rw [pq_cb_rtp_input_run host sized (by rwa [whole]), whole, if_pos room, after]
  · rw [pq_cb_rtp_input_run host sized (by rwa [whole]), whole, if_neg room]
  · rw [pq_cb_rtp_input_refuses host sized (by rwa [whole]), after]

/-- The call-back does to every datagram what its octets say. It reads no octet
behind the datagram: the run is the same, and defined, in an array that goes on
with anything or ends there. -/
theorem rtp_input_exact (sized : receiveSize rtp.blkLen = .ok size)
    (arrives : world.datagramsIn = some datagram :: later) (fits : datagram.length ≤ size) :
    pqCbRtpInput host (.heap handle (.rtp rtp) : State Lib) (some dst) src srcLen world =
      outcome handle rtp datagram dst { world with datagramsIn := later } ∧
    ∀ rest : Buf, acceptDatagram host rtp (datagram ++ rest) datagram.length
        (.heap handle (.rtp rtp) : State Lib) (some dst) world =
      outcome handle rtp datagram dst world := by
  have small := (receive_size_lt sized).2
  exact ⟨input_outcome host sized arrives fits,
    accept_datagram_outcome host (by omega)⟩

end Outcome

def arriving (datagram : Buf) : World where
  inFile := []
  outFile := []
  datagramsIn := [some datagram]
  datagramsOut := []
  samplesIn := []
  samplesOut := []
  sinkOk _ := true
  sinkCalls := 0
  sinkBusy := 0

/-- The state of a source for blocks of 33 bytes. -/
def freshRtp : PqStateRtp where
  blkLen := 33
  duration := 160
  payloadType := 3
  sequence := 0
  timestamp := 0
  ssrc := 0

/-- Two octets of payload behind a header extension of one word, with padding. -/
def extendedDatagram : Buf :=
  [0xb0, 0x03, 0x00, 0x01, 0x00, 0x00, 0x00, 0xa0, 0x00, 0x00, 0x00, 0x07,
    0xbe, 0xde, 0x00, 0x01, 0x01, 0x02, 0x03, 0x04, 0xd5, 0x5d, 0x00, 0x02]

theorem rtp_input_exact_extended :
    pqCbRtpInput .little (.heap 0 (.rtp freshRtp) : State Unit) (some (List.replicate 33 0)) none 0
        (arriving extendedDatagram) =
      outcome 0 freshRtp extendedDatagram (List.replicate 33 0)
        { arriving extendedDatagram with datagramsIn := [] } ∧
    ∀ rest : Buf, acceptDatagram .little freshRtp (extendedDatagram ++ rest) extendedDatagram.length
        (.heap 0 (.rtp freshRtp) : State Unit) (some (List.replicate 33 0))
        (arriving extendedDatagram) =
      outcome 0 freshRtp extendedDatagram (List.replicate 33 0) (arriving extendedDatagram) :=
  rtp_input_exact .little (rfl : receiveSize freshRtp.blkLen = .ok 289) rfl (by decide)

def Padded (datagram : Buf) : Prop := (datagram.getD 0 0).toNat / 32 % 2 = 1

instance (datagram : Buf) : Decidable (Padded datagram) := inferInstanceAs (Decidable (_ = _))

/-- A current header with its list and its extension lies in the datagram. -/
def HeadersFit (datagram : Buf) : Prop :=
  12 ≤ datagram.length ∧ (datagram.getD 0 0).toNat / 64 = 2 ∧
    12 + 4 * ((datagram.getD 0 0).toNat % 16) ≤ datagram.length ∧
    ((datagram.getD 0 0).toNat / 16 % 2 ≠ 0 →
      12 + 4 * ((datagram.getD 0 0).toNat % 16) + 4 ≤ datagram.length) ∧
    headerLen datagram ≤ datagram.length

theorem rtp_accepts_iff (datagram : Buf) :
    RtpAccepts datagram ↔
      HeadersFit datagram ∧ headerLen datagram + paddingLen datagram ≤ datagram.length := by
  unfold RtpAccepts HeadersFit
  constructor
  · rintro ⟨fixed, current, list, extension, room⟩
    exact ⟨⟨fixed, current, list, extension, by omega⟩, room⟩
  · rintro ⟨⟨fixed, current, list, extension, _⟩, room⟩
    exact ⟨fixed, current, list, extension, room⟩

section Padding

variable {Lib : Type} (host : Endian) {handle size srcLen : Nat} {rtp : PqStateRtp} {dst : Buf}
  {src : Option Buf} {world : World} {datagram : Buf} {later : List (Option Buf)}

/-- What the padding rule asks of a call on a datagram: a count that was used
lies behind the headers and counts itself, and every other datagram with the
padding bit is refused. The count is the last octet of the datagram. -/
structure PaddingRule (handle : Nat) (rtp : PqStateRtp) (datagram dst : Buf) (after : World)
    (call : Exec (ProcResult (StateContent Lib) World)) : Prop where
  accepted : Padded datagram → ∀ result, call = .ok result → 0 ≤ result.rv →
    headerLen datagram < datagram.length ∧ 1 ≤ paddingLen datagram
  refused : Padded datagram → datagram.length ≤ headerLen datagram ∨ paddingLen datagram = 0 →
    call = .ok { rv := -1, state := .heap handle (.rtp rtp), out := some dst, world := after }

theorem outcome_padding_rule_iff (after : World) :
    PaddingRule handle rtp datagram dst after
        (outcome handle rtp datagram dst after : Exec (ProcResult (StateContent Lib) World)) ↔
      ¬(Padded datagram ∧ HeadersFit datagram ∧ paddingLen datagram = 0) := by
  constructor
  · rintro rule ⟨padded, headers, silent⟩
    have accepts : RtpAccepts datagram :=
      (rtp_accepts_iff datagram).mpr ⟨headers, by rw [silent]; exact headers.2.2.2.2⟩
    have refusal := rule.refused padded (Or.inr silent)
    rw [outcome, if_pos accepts] at refusal
    split_ifs at refusal
    have negative : ((payloadLen datagram : Nat) : Int) = -1 :=
      congrArg ProcResult.rv (Except.ok.inj refusal)
    omega
  · intro counted
    constructor
    · intro padded result run positive
      rw [outcome] at run
      split_ifs at run with accepts room
      · obtain ⟨headers, total⟩ := (rtp_accepts_iff datagram).mp accepts
        have count : paddingLen datagram ≠ 0 := fun silent => counted ⟨padded, headers, silent⟩
        omega
      · cases run
        exact absurd positive (by decide : ¬(0 : Int) ≤ -1)
    · intro padded missing
      have refuses : ¬RtpAccepts datagram := by
        intro accepts
        obtain ⟨headers, total⟩ := (rtp_accepts_iff datagram).mp accepts
        exact counted ⟨padded, headers, by omega⟩
      rw [outcome, if_neg refuses]

/-- The source keeps the padding rule except for a complete header whose
datagram has the padding bit and ends with a zero octet. -/
theorem padding_rule_iff (sized : receiveSize rtp.blkLen = .ok size)
    (arrives : world.datagramsIn = some datagram :: later) (fits : datagram.length ≤ size) :
    PaddingRule handle rtp datagram dst { world with datagramsIn := later }
        (pqCbRtpInput host (.heap handle (.rtp rtp) : State Lib) (some dst) src srcLen world) ↔
      ¬(Padded datagram ∧ HeadersFit datagram ∧ paddingLen datagram = 0) := by
  rw [input_outcome host sized arrives fits, outcome_padding_rule_iff]

theorem padding_rule_iff_extended :
    PaddingRule 0 freshRtp extendedDatagram (List.replicate 33 0)
        { arriving extendedDatagram with datagramsIn := [] }
        (pqCbRtpInput .little (.heap 0 (.rtp freshRtp) : State Unit) (some (List.replicate 33 0))
          none 0 (arriving extendedDatagram)) ↔
      ¬(Padded extendedDatagram ∧ HeadersFit extendedDatagram ∧ paddingLen extendedDatagram = 0) :=
  padding_rule_iff .little (rfl : receiveSize freshRtp.blkLen = .ok 289) rfl (by decide)

def headerOnly : Buf := 0xa0 :: List.replicate 11 0

/-- The last octet of the SSRC is taken as the count, and the datagram accepted. -/
theorem header_octet_as_padding :
    ¬∀ (host : Endian) (handle : Nat) (rtp : PqStateRtp) (datagram dst : Buf) (size : Nat)
        (world : World) (later : List (Option Buf)), receiveSize rtp.blkLen = .ok size →
      world.datagramsIn = some datagram :: later → datagram.length ≤ size →
      PaddingRule handle rtp datagram dst { world with datagramsIn := later }
        (pqCbRtpInput host (.heap handle (.rtp rtp) : State Unit) (some dst) none 0 world) := by
  intro keeps
  have rule := keeps .little 0 freshRtp headerOnly (List.replicate 33 0) 289 (arriving headerOnly) []
    rfl rfl (by decide)
  rw [input_outcome .little (rfl : receiveSize freshRtp.blkLen = .ok 289) rfl (by decide),
    outcome_padding_rule_iff] at rule
  exact rule ⟨rfl, ⟨by decide, rfl, by decide, by decide, by decide⟩, rfl⟩

end Padding

end Gapk.RtpInput
