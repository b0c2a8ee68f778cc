import Gapk.Library.HostWords
import Gapk.Streams

/-!
# RTP call-backs

The source parses a datagram with C's mixed signed and unsigned arithmetic on
untrusted bytes. What it accepts and which part of the datagram is the payload
is first read off the code and then said in terms of the bytes alone.
-/

namespace Gapk.PqRtp

open CheckedMemory FixedWidth HostWords
open Gapk.Procqueue Gapk.Streams

set_option autoImplicit false

abbrev rtpVersion : Nat := 2
/-- `sizeof(struct rtp_hdr)`. -/
abbrev rtpHdrLen : Nat := 12
/-- `sizeof(struct rtp_x_hdr)`. -/
abbrev rtpXHdrLen : Nat := 4

def toSizeT (value : Int) : Nat := (value % 2 ^ 64).toNat

/-- A bit-field of `width` bits declared after `before` other bits. Little-endian
hosts allocate from the least significant bit on, big-endian hosts from the most
significant one. -/
def bitField (host : Endian) (byte : Byte) (before width : Nat) : Nat :=
  match host with
  | .little => byte.toNat / 2 ^ before % 2 ^ width
  | .big => byte.toNat / 2 ^ (8 - before - width) % 2 ^ width

-- The two variants of struct rtp_hdr declare the fields in opposite order.
section Header

variable (host : Endian) (byte : Byte)

def csrcCount : Nat :=
  match host with
  | .little => bitField .little byte 0 4
  | .big => bitField .big byte 4 4

def extension : Nat :=
  match host with
  | .little => bitField .little byte 4 1
  | .big => bitField .big byte 3 1

def padding : Nat :=
  match host with
  | .little => bitField .little byte 5 1
  | .big => bitField .big byte 2 1

def version : Nat :=
  match host with
  | .little => bitField .little byte 6 2
  | .big => bitField .big byte 0 2

/-- `version`, `padding`, `extension`, `csrc_count` assigned in this order. -/
def firstByte (version padding extension csrcCount : Nat) : Byte :=
  match host with
  | .little => BitVec.ofNat 8 (csrcCount % 16 + 16 * (extension % 2) + 32 * (padding % 2) +
      64 * (version % 4))
  | .big => BitVec.ofNat 8 (64 * (version % 4) + 32 * (padding % 2) + 16 * (extension % 2) +
      csrcCount % 16)

def secondByte (marker payloadType : Nat) : Byte :=
  match host with
  | .little => BitVec.ofNat 8 (payloadType % 128 + 128 * (marker % 2))
  | .big => BitVec.ofNat 8 (128 * (marker % 2) + payloadType % 128)

end Header

section Callbacks

variable {Lib : Type} (host : Endian)

/-- The size of the receive buffer. The behaviour is undefined when the addition
overflows or the size is not positive. -/
def receiveSize (blkLen : Int) : Exec Nat :=
  if 0 < blkLen + 256 ∧ blkLen + 256 < 2 ^ 31 then pure (blkLen + 256).toNat
  else throw .outOfBounds

/-- The extension header: the payload starts later and gets shorter. -/
def skipExtension (buf : Buf) (first : Byte) (payload : Nat) (payloadLen : Int) :
    Exec (Option (Nat × Int)) := do
  if extension host first = 0 then return some (payload, payloadLen)
  if toSizeT payloadLen < rtpXHdrLen then return none
  let length ← loadWord host (buf.drop payload) 1
  let xLen := toInt32 (ntohs host length * 4 + rtpXHdrLen)
  let payloadLen := payloadLen - xLen
  if payloadLen < 0 then return none
  pure (some (payload + xLen.toNat, payloadLen))

/-- The padding count is the octet in front of the end of the payload. -/
def dropPadding (buf : Buf) (first : Byte) (payload : Nat) (payloadLen : Int) :
    Exec (Option (Nat × Int)) := do
  if padding host first = 0 then return some (payload, payloadLen)
  if payloadLen < 0 then return none
  let count ← load buf (payload + payloadLen - 1).toNat
  let payloadLen := payloadLen - count.toNat
  if payloadLen < 0 then return none
  pure (some (payload, payloadLen))

/-- Where the payload of the received `rv` bytes is, and how long; nothing for a
datagram that is refused. -/
def rtpPayload (buf : Buf) (rv : Int) : Exec (Option (Nat × Int)) := do
  if toSizeT rv < rtpHdrLen then return none
  let first ← load buf 0
  if version host first ≠ rtpVersion then return none
  let payload := rtpHdrLen + (csrcCount host first <<< 2)
  let payloadLen := toInt32 (toSizeT (rv - rtpHdrLen - (csrcCount host first <<< 2)))
  if payloadLen < 0 then return none
  match ← skipExtension host buf first payload payloadLen with
  | none => pure none
  | some (payload, payloadLen) => dropPadding host buf first payload payloadLen

/-- What follows the `read` of `rv` bytes into the array `buf`. -/
def acceptDatagram (rtp : PqStateRtp) (buf : Buf) (rv : Int) (state : State Lib) (out : Option Buf)
    (world : World) : Exec (ProcResult (StateContent Lib) World) := do
  match ← rtpPayload host buf rv with
  | none => pure { rv := -1, state := state, out := out, world := world }
  | some (payload, payloadLen) => do
      let ssrc ← loadLong host buf 2
      let timestamp ← loadLong host buf 1
      let sequence ← loadWord host buf 1
      let rtp := { rtp with
        ssrc := ntohl host ssrc, timestamp := ntohl host timestamp,
        sequence := ntohs host sequence }
      let dst ← deref out
      let dst ← memcpy dst 0 buf payload (toSizeT payloadLen)
      pure { rv := payloadLen, state := withContent state (.rtp rtp), out := some dst,
             world := world }

def pqCbRtpInput : ProcCb (StateContent Lib) World := fun state out _ _ world => do
  let rtp ← rtpState state
  let size ← receiveSize rtp.blkLen
  let (rv, data, world) := world.readSocket size
  if rv ≤ 0 then return { rv := -1, state := state, out := out, world := world }
  -- The rest of the array is never read.
  let buf := data ++ List.replicate (size - data.length) 0
  acceptDatagram host rtp buf rv state out world

def pqCbRtpOutput : ProcCb (StateContent Lib) World := fun state out src srcLen world => do
  let rtp ← rtpState state
  let len := toInt32 (srcLen + rtpHdrLen)
  if len ≤ 0 then throw .outOfBounds
  let buf := List.replicate len.toNat 0
  let buf ← store buf 0 (firstByte host rtpVersion 0 0 0)
  let buf ← store buf 1 (secondByte host 0 rtp.payloadType)
  let buf ← storeWord host buf 1 (ntohs host rtp.sequence)
  let buf ← storeLong host buf 1 (ntohl host rtp.timestamp)
  let buf ← storeLong host buf 2 (ntohl host rtp.ssrc)
  let rtp := { rtp with
    sequence := (rtp.sequence + 1) % 2 ^ 16
    timestamp := (rtp.timestamp + rtp.duration) % 2 ^ 32 }
  let input ← deref src
  let buf ← memcpy buf rtpHdrLen input 0 srcLen
  let (rv, world) := world.writeSocket buf
  pure { rv := if rv = len then 0 else -1, state := withContent state (.rtp rtp), out := out,
         world := world }

end Callbacks

theorem to_size_t_eq {value : Nat} (bound : value < 2 ^ 31) : toSizeT value = value := by
  rw [toSizeT]
  omega

/-- Small values survive a detour through `size_t`, negative ones included. -/
theorem to_int32_to_size_t {value : Int} (low : -2 ^ 31 ≤ value) (high : value < 2 ^ 31) :
    toInt32 (toSizeT value) = value := by
  rw [toInt32, toSizeT, Int.bmod_def]
  split_ifs <;> omega

section Fields

variable (host : Endian) (byte : Byte)

theorem csrc_count_eq : csrcCount host byte = byte.toNat % 16 := by
  cases host <;> simp [csrcCount, bitField]

theorem extension_eq : extension host byte = byte.toNat / 16 % 2 := by
  cases host <;> rfl

theorem padding_eq : padding host byte = byte.toNat / 32 % 2 := by
  cases host <;> rfl

theorem version_eq : version host byte = byte.toNat / 64 := by
  have bound := byte.isLt
  cases host <;> simp only [version, bitField] <;> omega

end Fields

/-- The number of octets in front of the payload that the header announces. -/
def headerLen (datagram : Buf) : Nat :=
  let fixed := 12 + 4 * ((datagram.getD 0 0).toNat % 16)
  if (datagram.getD 0 0).toNat / 16 % 2 = 0 then fixed
  else fixed + 4 + 4 * (256 * (datagram.getD (fixed + 2) 0).toNat +
    (datagram.getD (fixed + 3) 0).toNat)

def paddingLen (datagram : Buf) : Nat :=
  if (datagram.getD 0 0).toNat / 32 % 2 = 0 then 0
  else (datagram.getD (datagram.length - 1) 0).toNat

/-- The datagrams that the source accepts. -/
def RtpAccepts (datagram : Buf) : Prop :=
  12 ≤ datagram.length ∧ (datagram.getD 0 0).toNat / 64 = 2 ∧
    12 + 4 * ((datagram.getD 0 0).toNat % 16) ≤ datagram.length ∧
    ((datagram.getD 0 0).toNat / 16 % 2 ≠ 0 →
      12 + 4 * ((datagram.getD 0 0).toNat % 16) + 4 ≤ datagram.length) ∧
    headerLen datagram + paddingLen datagram ≤ datagram.length

instance (datagram : Buf) : Decidable (RtpAccepts datagram) :=
  inferInstanceAs (Decidable (_ ∧ _))

def payloadLen (datagram : Buf) : Nat :=
  datagram.length - headerLen datagram - paddingLen datagram

private theorem getD_drop (buf : Buf) (count index : Nat) :
    (buf.drop count).getD index 0 = buf.getD (count + index) 0 := by
  simp only [List.getD_eq_getElem?_getD, List.getElem?_drop]

theorem header_len_ge (datagram : Buf) :
    12 + 4 * ((datagram.getD 0 0).toNat % 16) ≤ headerLen datagram := by
  rw [headerLen]
  split_ifs <;> omega

section Payload

variable (host : Endian) {datagram rest : Buf} (small : datagram.length < 2 ^ 31)

include small

theorem skip_extension_eq {payload : Nat}
    (start : payload = 12 + 4 * ((datagram.getD 0 0).toNat % 16)) (inside : payload ≤ datagram.length) :
    skipExtension host (datagram ++ rest) (datagram.getD 0 0) payload
        ((datagram.length - payload : Nat) : Int) =
      .ok (if ((datagram.getD 0 0).toNat / 16 % 2 ≠ 0 → payload + 4 ≤ datagram.length) ∧
          headerLen datagram ≤ datagram.length then
        some (headerLen datagram, ((datagram.length - headerLen datagram : Nat) : Int)) else none) := by
  rw [skipExtension, extension_eq, headerLen, ← start, rtpXHdrLen]
  by_cases bit : (datagram.getD 0 0).toNat / 16 % 2 = 0
  · rw [if_pos bit, if_pos bit, if_pos ⟨by omega, inside⟩]
    rfl
  · rw [if_neg bit, if_neg bit, to_size_t_eq (by omega)]
    by_cases room : payload + 4 ≤ datagram.length
    · have third : (datagram ++ rest).getD (payload + 2) 0 = datagram.getD (payload + 2) 0 :=
        List.getD_append _ _ _ _ (by omega)
      have fourth : (datagram ++ rest).getD (payload + 3) 0 = datagram.getD (payload + 3) 0 :=
        List.getD_append _ _ _ _ (by omega)
      have loaded : loadWord host ((datagram ++ rest).drop payload) 1 =
          .ok (joinBytes host (datagram.getD (payload + 2) 0) (datagram.getD (payload + 3) 0)) := by
        rw [loadWord, load_eq (by rw [List.length_drop, List.length_append]; omega), exec_bind_ok,
          load_eq (by rw [List.length_drop, List.length_append]; omega), exec_bind_ok, exec_pure,
          getD_drop, getD_drop, ← third, ← fourth]
      have highBound := (datagram.getD (payload + 2) 0).isLt
      have lowBound := (datagram.getD (payload + 3) 0).isLt
      rw [if_neg (by omega), loaded, exec_bind_ok, ntohs_join_bytes]
      generalize length : 256 * (datagram.getD (payload + 2) 0).toNat +
        (datagram.getD (payload + 3) 0).toNat = count
      have xLen : toInt32 (count * 4 + (4 : Nat)) = ((4 + 4 * count : Nat) : Int) := by
        rw [to_int32_eq (by omega) (by omega)]
        omega
      simp only [xLen]
      by_cases short : payload + 4 + 4 * count ≤ datagram.length
      · rw [if_neg (by omega), if_pos ⟨fun _ => room, short⟩, exec_pure]
        have newStart : payload + ((4 + 4 * count : Nat) : Int).toNat = payload + 4 + 4 * count := by
          omega
        have newLen : ((datagram.length - payload : Nat) : Int) - ((4 + 4 * count : Nat) : Int) =
            ((datagram.length - (payload + 4 + 4 * count) : Nat) : Int) := by
          omega
        rw [newStart, newLen]
      · rw [if_pos (by omega), if_neg (by omega)]
        rfl
    · rw [if_pos (by omega), if_neg (by omega)]
      rfl

/-- The count is the last octet of the datagram, even if no payload is left and
that octet belongs to a header. -/
theorem drop_padding_eq (fixed : 12 ≤ headerLen datagram)
    (fits : headerLen datagram ≤ datagram.length) :
    dropPadding host (datagram ++ rest) (datagram.getD 0 0) (headerLen datagram)
        ((datagram.length - headerLen datagram : Nat) : Int) =
      .ok (if headerLen datagram + paddingLen datagram ≤ datagram.length then
        some (headerLen datagram, (payloadLen datagram : Int)) else none) := by
  rw [dropPadding, padding_eq, payloadLen, paddingLen]
  by_cases bit : (datagram.getD 0 0).toNat / 32 % 2 = 0
  · rw [if_pos bit, if_pos bit, if_pos (by omega)]
    rfl
  · have position : (((headerLen datagram : Nat) : Int) +
        ((datagram.length - headerLen datagram : Nat) : Int) - 1).toNat = datagram.length - 1 := by
      omega
    have octet : (datagram ++ rest).getD (datagram.length - 1) 0 =
        datagram.getD (datagram.length - 1) 0 :=
      List.getD_append _ _ _ _ (by omega)
    rw [if_neg bit, if_neg bit, if_neg (by omega), position,
      load_eq (by rw [List.length_append]; omega), exec_bind_ok, octet]
    generalize (datagram.getD (datagram.length - 1) 0).toNat = count
    simp only []
    by_cases room : headerLen datagram + count ≤ datagram.length
    · have left : ((datagram.length - headerLen datagram : Nat) : Int) - (count : Nat) =
          ((datagram.length - headerLen datagram - count : Nat) : Int) := by
        omega
      rw [left, if_neg (by omega), if_pos room]
      rfl
    · rw [if_pos (by omega), if_neg room]
      rfl

/-- What the source makes of a datagram, whatever the array held behind it. -/
theorem rtp_payload_eq :
    rtpPayload host (datagram ++ rest) datagram.length =
      .ok (if RtpAccepts datagram then
        some (headerLen datagram, (payloadLen datagram : Int)) else none) := by
  have start := header_len_ge datagram
  rw [rtpPayload, to_size_t_eq small, rtpHdrLen]
  by_cases fixed : datagram.length < 12
  · rw [if_pos fixed, if_neg (fun accepts => by unfold RtpAccepts at accepts; omega)]
    rfl
  have head : (datagram ++ rest).getD 0 0 = datagram.getD 0 0 :=
    List.getD_append _ _ _ _ (by omega)
  rw [if_neg fixed, load_eq (by rw [List.length_append]; omega), exec_bind_ok, head, version_eq]
  by_cases current : (datagram.getD 0 0).toNat / 64 = 2
  · rw [if_neg (not_not.mpr current), csrc_count_eq, Nat.shiftLeft_eq,
      to_int32_to_size_t (by omega) (by omega)]
    have csrc : (datagram.getD 0 0).toNat % 16 * 2 ^ 2 =
        4 * ((datagram.getD 0 0).toNat % 16) := by omega
    rw [csrc]
    by_cases listFits : 12 + 4 * ((datagram.getD 0 0).toNat % 16) ≤ datagram.length
    · have left : ((datagram.length : Nat) : Int) - ((12 : Nat) : Int) -
          ((4 * ((datagram.getD 0 0).toNat % 16) : Nat) : Int) =
          ((datagram.length - (12 + 4 * ((datagram.getD 0 0).toNat % 16)) : Nat) : Int) := by
        omega
      simp only [left]
      rw [if_neg (by omega), skip_extension_eq host small rfl listFits, exec_bind_ok]
      by_cases extensionFits : ((datagram.getD 0 0).toNat / 16 % 2 ≠ 0 →
          12 + 4 * ((datagram.getD 0 0).toNat % 16) + 4 ≤ datagram.length) ∧
          headerLen datagram ≤ datagram.length
      · rw [if_pos extensionFits]
        simp only []
        rw [drop_padding_eq host small (by omega) extensionFits.2]
        congr 1
        refine if_congr ?_ rfl rfl
        unfold RtpAccepts
        exact ⟨fun room => ⟨by omega, current, listFits, extensionFits.1, room⟩,
          fun accepts => accepts.2.2.2.2⟩
      · rw [if_neg extensionFits, if_neg]
        · rfl
        · intro accepts
          exact extensionFits ⟨accepts.2.2.2.1, by unfold RtpAccepts at accepts; omega⟩
    · simp only []
      rw [if_pos (by omega), if_neg (fun accepts => listFits accepts.2.2.1)]
      rfl
  · rw [if_pos current, if_neg (fun accepts => current accepts.2.1)]
    rfl

end Payload

def delivered (world : World) (size : Nat) : Buf :=
  match world.datagramsIn with
  | some datagram :: _ => datagram.take size
  | _ => []

def receivedState (rtp : PqStateRtp) (datagram : Buf) : PqStateRtp :=
  let octet index := (datagram.getD index 0).toNat
  { rtp with
    ssrc := 65536 * (256 * octet 8 + octet 9) + (256 * octet 10 + octet 11)
    timestamp := 65536 * (256 * octet 4 + octet 5) + (256 * octet 6 + octet 7)
    sequence := 256 * octet 2 + octet 3 }

def payloadBytes (datagram : Buf) : Buf :=
  (datagram.drop (headerLen datagram)).take (payloadLen datagram)

section Accept

variable {Lib : Type} (host : Endian) {handle : Nat} {rtp : PqStateRtp} {out : Option Buf}
  {world : World} {datagram rest : Buf} (small : datagram.length < 2 ^ 31)

include small

theorem accept_datagram_refuses (refused : ¬RtpAccepts datagram) :
    acceptDatagram host rtp (datagram ++ rest) datagram.length
        (.heap handle (.rtp rtp) : State Lib) out world =
      .ok { rv := -1, state := .heap handle (.rtp rtp), out := out, world := world } := by
  rw [acceptDatagram, rtp_payload_eq host small, if_neg refused]
  rfl

/-- Nothing behind the datagram is read, so the array may as well end there. -/
theorem accept_datagram_run (accepted : RtpAccepts datagram) (dst : Buf) :
    acceptDatagram host rtp (datagram ++ rest) datagram.length
        (.heap handle (.rtp rtp) : State Lib) (some dst) world =
      if payloadLen datagram ≤ dst.length then
        .ok { rv := payloadLen datagram
              state := .heap handle (.rtp (receivedState rtp datagram))
              out := some (payloadBytes datagram ++ dst.drop (payloadLen datagram))
              world := world }
      else .error .outOfBounds := by
  have fixed := accepted.1
  have room := accepted.2.2.2.2
  have start := header_len_ge datagram
  have octet : ∀ index < 12, (datagram ++ rest).getD index 0 = datagram.getD index 0 := by
    intro index bound
    exact List.getD_append _ _ _ _ (by omega)
  have inside : ∀ index < 12, load (datagram ++ rest) index = .ok (datagram.getD index 0) := by
    intro index bound
    rw [load_eq (by rw [List.length_append]; omega), octet index bound]
  have payload : payloadLen datagram = datagram.length - headerLen datagram - paddingLen datagram :=
    rfl
  rw [acceptDatagram, rtp_payload_eq host small, if_pos accepted]
  simp only [exec_bind_ok, loadLong, loadWord, Nat.reduceMul, Nat.reduceAdd]
  rw [inside 8 (by decide), exec_bind_ok, inside 9 (by decide), exec_bind_ok, inside 10 (by decide),
    exec_bind_ok, inside 11 (by decide), exec_bind_ok, inside 4 (by decide), exec_bind_ok,
    inside 5 (by decide), exec_bind_ok, inside 6 (by decide), exec_bind_ok, inside 7 (by decide),
    exec_bind_ok, inside 2 (by decide), exec_bind_ok, inside 3 (by decide), exec_bind_ok]
  simp only [exec_pure, exec_bind_ok, deref_some, ntohl_join_long, ntohs_join_bytes]
  rw [to_size_t_eq (by omega)]
  split_ifs with roomy
  · rw [memcpy_front roomy (by rw [List.length_append]; omega), exec_bind_ok, payloadBytes,
      List.drop_append_of_le_length (by omega),
      List.take_append_of_le_length (by rw [List.length_drop]; omega)]
    rfl
  · rw [memcpy_fault (by omega)]
    rfl

end Accept

section Input

variable {Lib : Type} (host : Endian) {handle size : Nat} {rtp : PqStateRtp} {out src : Option Buf}
  {srcLen : Nat} {world : World} (sized : receiveSize rtp.blkLen = .ok size)

theorem receive_size_lt {blkLen : Int} (sized : receiveSize blkLen = .ok size) :
    (size : Int) = blkLen + 256 ∧ size < 2 ^ 31 := by
  rw [receiveSize] at sized
  split_ifs at sized with positive
  cases sized
  omega

theorem delivered_length_le (world : World) (size : Nat) : (delivered world size).length ≤ size := by
  unfold delivered
  split
  · exact List.length_take_le _ _
  · exact Nat.zero_le _

theorem read_socket_eq (world : World) (size : Nat) :
    ((world.readSocket size).1 = (delivered world size).length ∨
      ((world.readSocket size).1 = -1 ∧ delivered world size = [])) ∧
      (world.readSocket size).2.1 = delivered world size := by
  unfold World.readSocket delivered
  match world.datagramsIn with
  | [] => simp
  | none :: rest => simp
  | some datagram :: rest => simp

include sized

theorem pq_cb_rtp_input_refuses (refused : ¬RtpAccepts (delivered world size)) :
    pqCbRtpInput host (.heap handle (.rtp rtp) : State Lib) out src srcLen world =
      .ok { rv := -1, state := .heap handle (.rtp rtp), out := out,
            world := (world.readSocket size).2.2 } := by
  have small := (receive_size_lt sized).2
  have fits := delivered_length_le world size
  obtain ⟨count, data⟩ := read_socket_eq world size
  simp only [pqCbRtpInput, rtpState, exec_pure, exec_bind_ok, sized, data]
  rcases count with count | ⟨count, _⟩
  · rw [count]
    by_cases empty : (((delivered world size).length : Nat) : Int) ≤ 0
    · rw [if_pos empty]
    · rw [if_neg empty, accept_datagram_refuses host (by omega) refused]
  · rw [count, if_pos (by decide)]

theorem pq_cb_rtp_input_run (accepted : RtpAccepts (delivered world size)) (dst : Buf) :
    pqCbRtpInput host (.heap handle (.rtp rtp) : State Lib) (some dst) src srcLen world =
      if payloadLen (delivered world size) ≤ dst.length then
        .ok { rv := payloadLen (delivered world size)
              state := .heap handle (.rtp (receivedState rtp (delivered world size)))
              out := some (payloadBytes (delivered world size) ++
                dst.drop (payloadLen (delivered world size)))
              world := (world.readSocket size).2.2 }
      else .error .outOfBounds := by
  have small := (receive_size_lt sized).2
  have fits := delivered_length_le world size
  obtain ⟨count, data⟩ := read_socket_eq world size
  have fixed := accepted.1
  have positive : (world.readSocket size).1 = (delivered world size).length := by
    rcases count with count | ⟨_, empty⟩
    · exact count
    · rw [empty] at fixed
      exact absurd fixed (by decide)
  simp only [pqCbRtpInput, rtpState, exec_pure, exec_bind_ok, sized, data, positive]
  rw [if_neg (by omega), accept_datagram_run host (by omega) accepted]

end Input

end Gapk.PqRtp
