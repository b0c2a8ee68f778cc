import Gapk.RtpInput

/-!
# From RTP sink to RTP source

The sink counts on with every datagram, in a sequence number and a timestamp of
different width. A source that gets the datagrams whole and in order has the
payloads and the counters of the sink, on hosts of either byte order.
-/

namespace Gapk.RtpStream

open CheckedMemory FixedWidth HostWords
open Gapk.Procqueue Gapk.Streams Gapk.PqRtp Gapk.RtpInput

set_option autoImplicit false

/-- The state of a new sink. Its fields are as wide as in the source. -/
structure SinkStart where
  blkLen : Int
  payloadType : Nat
  sequence : Nat
  timestamp : Nat
  ssrc : Nat
  payloadTypeBound : payloadType < 2 ^ 8
  sequenceBound : sequence < 2 ^ 16
  timestampBound : timestamp < 2 ^ 32
  ssrcBound : ssrc < 2 ^ 32

def SinkStart.state (start : SinkStart) (sent : Nat) : PqStateRtp where
  blkLen := start.blkLen
  duration := 160
  payloadType := start.payloadType
  sequence := (start.sequence + sent) % 2 ^ 16
  timestamp := (start.timestamp + 160 * sent) % 2 ^ 32
  ssrc := start.ssrc

def headerOf (rtp : PqStateRtp) : Buf :=
  [0x80, BitVec.ofNat 8 (rtp.payloadType % 128)] ++ wordBytes .big rtp.sequence ++
    longBytes .big rtp.timestamp ++ longBytes .big rtp.ssrc

def datagramOf (rtp : PqStateRtp) (payload : Buf) : Buf := headerOf rtp ++ payload

@[simp] theorem header_of_length (rtp : PqStateRtp) : (headerOf rtp).length = 12 := rfl

theorem datagram_of_length (rtp : PqStateRtp) (payload : Buf) :
    (datagramOf rtp payload).length = payload.length + 12 := by
  rw [datagramOf, List.length_append, header_of_length, Nat.add_comm]

/-- What an item finds in the buffer before it: some bytes, of which `len` count. -/
structure Frame where
  buf : Buf
  len : Nat
  inside : len ≤ buf.length

def Frame.input (frame : Frame) : Option Buf × Nat := (some frame.buf, frame.len)

def Frame.payload (frame : Frame) : Buf := frame.buf.take frame.len

theorem Frame.payload_length (frame : Frame) : frame.payload.length = frame.len := by
  rw [Frame.payload, List.length_take]
  exact Nat.min_eq_left frame.inside

section Calls

variable {State World : Type}

/-- A call-back called again and again, each time on another input, with its
state and its output buffer kept between the calls. -/
def callAll (proc : ProcCb State World) :
    List (Option Buf × Nat) → ItemState State → Option Buf → World →
      Exec (List (ProcResult State World) × World)
  | [], _, _, world => pure ([], world)
  | (src, srcLen) :: rest, state, out, world => do
      let result ← proc state out src srcLen world
      let (results, world) ← callAll proc rest result.state result.out result.world
      pure (result :: results, world)

end Calls

section Output

variable {Lib : Type} (host : Endian) {handle : Nat} (frame : Frame) {out : Option Buf}

theorem first_byte_eq : firstByte host rtpVersion 0 0 0 = 0x80 := by
  cases host <;> rfl

theorem second_byte_eq (payloadType : Nat) :
    secondByte host 0 payloadType = BitVec.ofNat 8 (payloadType % 128) := by
  cases host <;> simp [secondByte]

theorem header_stores {rtp : PqStateRtp} (sequence : rtp.sequence < 2 ^ 16)
    (timestamp : rtp.timestamp < 2 ^ 32) (ssrc : rtp.ssrc < 2 ^ 32) (payloadLen : Nat) :
    (do
      let buf ← store (List.replicate (payloadLen + 12) 0) 0 (firstByte host rtpVersion 0 0 0)
      let buf ← store buf 1 (secondByte host 0 rtp.payloadType)
      let buf ← storeWord host buf 1 (ntohs host rtp.sequence)
      let buf ← storeLong host buf 1 (ntohl host rtp.timestamp)
      storeLong host buf 2 (ntohl host rtp.ssrc)) =
      .ok (headerOf rtp ++ List.replicate payloadLen 0) := by
  have blank : List.replicate (payloadLen + 12) (0 : Byte) =
      0 :: 0 :: 0 :: 0 :: 0 :: 0 :: 0 :: 0 :: 0 :: 0 :: 0 :: 0 :: List.replicate payloadLen 0 := rfl
  rw [first_byte_eq, second_byte_eq, blank, store_eq _ (by simp), exec_bind_ok, List.set_cons_zero,
    store_eq _ (by simp), exec_bind_ok, List.set_cons_succ, List.set_cons_zero]
  generalize payloadType : BitVec.ofNat 8 (rtp.payloadType % 128) = second
  generalize tail : List.replicate payloadLen (0 : Byte) = rest
  have third := store_word_at host [0x80, second] (rfl : _ = 2 * 1) 0 0
    (0 :: 0 :: 0 :: 0 :: 0 :: 0 :: 0 :: 0 :: rest) (ntohs host rtp.sequence)
  have fourth := store_long_at host ([0x80, second] ++ wordBytes .big rtp.sequence)
    (rfl : _ = 4 * 1) 0 0 0 0 (0 :: 0 :: 0 :: 0 :: rest) (ntohl host rtp.timestamp)
  have last := store_long_at host
    ([0x80, second] ++ wordBytes .big rtp.sequence ++ longBytes .big rtp.timestamp)
    (rfl : _ = 4 * 2) 0 0 0 0 rest (ntohl host rtp.ssrc)
  rw [word_bytes_ntohs host sequence] at third
  rw [long_bytes_ntohl host timestamp] at fourth
  rw [long_bytes_ntohl host ssrc] at last
  simp only [List.cons_append, List.nil_append] at third fourth last
  rw [third, exec_bind_ok, fourth, exec_bind_ok, last, headerOf, payloadType]
  rfl

theorem write_socket_fst (world : World) (data : Buf) :
    (world.writeSocket data).1 =
      if world.sinkOk world.sinkCalls = true then (data.length : Int) else -1 := by
  rw [World.writeSocket, World.countWrite]
  cases world.sinkOk world.sinkCalls <;> rfl

theorem pq_cb_rtp_output_run {rtp : PqStateRtp} (sequence : rtp.sequence < 2 ^ 16)
    (timestamp : rtp.timestamp < 2 ^ 32) (ssrc : rtp.ssrc < 2 ^ 32)
    (small : frame.len + 12 < 2 ^ 31) (world : World) :
    pqCbRtpOutput host (.heap handle (.rtp rtp) : State Lib) out (some frame.buf) frame.len world =
      .ok { rv := if world.sinkOk world.sinkCalls = true then 0 else -1
            state := .heap handle (.rtp { rtp with
              sequence := (rtp.sequence + 1) % 2 ^ 16
              timestamp := (rtp.timestamp + rtp.duration) % 2 ^ 32 })
            out := out
            world := (world.writeSocket (datagramOf rtp frame.payload)).2 } := by
  have len : toInt32 ((frame.len : Nat) + (12 : Nat)) = ((frame.len + 12 : Nat) : Int) := by
    rw [to_int32_eq (by omega) (by omega)]
    rfl
  have header := header_stores host sequence timestamp ssrc frame.len
  obtain ⟨afterFirst, first, rest⟩ := (exec_bind_eq_ok _ _ _).mp header
  obtain ⟨afterSecond, second, rest⟩ := (exec_bind_eq_ok _ _ _).mp rest
  obtain ⟨afterSequence, third, rest⟩ := (exec_bind_eq_ok _ _ _).mp rest
  obtain ⟨afterTimestamp, fourth, last⟩ := (exec_bind_eq_ok _ _ _).mp rest
  simp only [pqCbRtpOutput, rtpState, exec_pure, exec_bind_ok, rtpHdrLen, len, Int.toNat_natCast]
  have copied : (headerOf rtp ++ List.replicate frame.len 0).take 12 ++
      (frame.buf.drop 0).take frame.len ++
      (headerOf rtp ++ List.replicate frame.len 0).drop (12 + frame.len) =
      datagramOf rtp frame.payload := by
    rw [List.take_left' (header_of_length rtp), List.drop_zero, List.drop_eq_nil_of_le (by
      rw [List.length_append, List.length_replicate, header_of_length]), List.append_nil]
    rfl
  have inside := frame.inside
  rw [if_neg (by omega), first, exec_bind_ok, second, exec_bind_ok, third, exec_bind_ok, fourth,
    exec_bind_ok, last, exec_bind_ok, deref_some, exec_bind_ok, memcpy_eq (by
      rw [List.length_append, List.length_replicate, header_of_length]) (by omega), exec_bind_ok,
    copied, write_socket_fst, datagram_of_length, frame.payload_length]
  cases world.sinkOk world.sinkCalls with
  | false =>
      simp only [Bool.false_eq_true, if_false]
      rw [if_neg (by omega : ¬(-1 : Int) = ((frame.len + 12 : Nat) : Int))]
      rfl
  | true =>
      simp only [if_true]
      rfl

end Output

section Input

variable {rtp : PqStateRtp} (payload : Buf)

private theorem first_octet : ((datagramOf rtp payload).getD 0 0).toNat = 128 := rfl

theorem header_len_datagram_of : headerLen (datagramOf rtp payload) = 12 := by
  simp only [headerLen, first_octet]
  rfl

theorem padding_len_datagram_of : paddingLen (datagramOf rtp payload) = 0 := by
  simp only [paddingLen, first_octet]
  rfl

theorem datagram_of_accepted : RtpAccepts (datagramOf rtp payload) := by
  have size := datagram_of_length rtp payload
  rw [RtpAccepts, first_octet, header_len_datagram_of, padding_len_datagram_of, size]
  omega

theorem payload_len_datagram_of : payloadLen (datagramOf rtp payload) = payload.length := by
  rw [payloadLen, header_len_datagram_of, padding_len_datagram_of, datagram_of_length]
  omega

theorem payload_bytes_datagram_of : payloadBytes (datagramOf rtp payload) = payload := by
  rw [payloadBytes, header_len_datagram_of, payload_len_datagram_of, datagramOf,
    List.drop_left' (header_of_length rtp), List.take_length]

theorem received_state_datagram_of (sequence : rtp.sequence < 2 ^ 16)
    (timestamp : rtp.timestamp < 2 ^ 32) (ssrc : rtp.ssrc < 2 ^ 32) (receiver : PqStateRtp) :
    receivedState receiver (datagramOf rtp payload) =
      { receiver with
        ssrc := rtp.ssrc, timestamp := rtp.timestamp, sequence := rtp.sequence } := by
  simp only [receivedState, datagramOf, headerOf, wordBytes, longBytes, List.cons_append,
    List.nil_append, List.getD_cons_succ, List.getD_cons_zero, lowByte, highByte,
    BitVec.toNat_ofNat, PqStateRtp.mk.injEq, true_and]
  refine ⟨?_, ?_, ?_⟩ <;> omega

end Input

/-- The datagrams for these frames, after `sent` earlier ones. -/
def SinkStart.datagrams (start : SinkStart) : Nat → List Frame → List Buf
  | _, [] => []
  | sent, frame :: rest => datagramOf (start.state sent) frame.payload :: start.datagrams (sent + 1) rest

section Runs

variable (Lib : Type) (host : Endian) (start : SinkStart) (handle : Nat)

theorem state_bounds (sent : Nat) :
    (start.state sent).sequence < 2 ^ 16 ∧ (start.state sent).timestamp < 2 ^ 32 ∧
      (start.state sent).ssrc < 2 ^ 32 :=
  ⟨Nat.mod_lt _ (by decide), Nat.mod_lt _ (by decide), start.ssrcBound⟩

theorem state_zero :
    start.state 0 = ⟨start.blkLen, 160, start.payloadType, start.sequence, start.timestamp,
      start.ssrc⟩ := by
  have sequence := start.sequenceBound
  have timestamp := start.timestampBound
  simp only [SinkStart.state, PqStateRtp.mk.injEq, true_and, and_true]
  omega

theorem state_succ (sent : Nat) :
    { start.state sent with
      sequence := ((start.state sent).sequence + 1) % 2 ^ 16
      timestamp := ((start.state sent).timestamp + (start.state sent).duration) % 2 ^ 32 } =
      start.state (sent + 1) := by
  simp only [SinkStart.state, PqStateRtp.mk.injEq, true_and, and_true]
  omega

theorem sink_run (frames : List Frame) (small : ∀ frame ∈ frames, frame.len + 12 < 2 ^ 31) :
    ∀ (sent : Nat) (out : Option Buf) (world : World), (∀ call, world.sinkOk call = true) →
      ∃ results after, callAll (pqCbRtpOutput host) (frames.map Frame.input)
          (.heap handle (.rtp (start.state sent)) : State Lib) out world = .ok (results, after) ∧
        after.datagramsOut = world.datagramsOut ++ start.datagrams sent frames := by
  induction frames with
  | nil =>
      intro sent out world _
      exact ⟨[], world, rfl, (List.append_nil _).symm⟩
  | cons frame frames ih =>
      intro sent out world writes
      obtain ⟨sequence, timestamp, ssrc⟩ := state_bounds start sent
      have written : (world.writeSocket (datagramOf (start.state sent) frame.payload)).2 =
          { world with
            sinkCalls := world.sinkCalls + 1
            datagramsOut := world.datagramsOut ++
              [datagramOf (start.state sent) frame.payload] } := by
        simp only [World.writeSocket, World.countWrite, writes, if_true]
      have step : pqCbRtpOutput host (.heap handle (.rtp (start.state sent)) : State Lib) out
          (some frame.buf) frame.len world = _ :=
        pq_cb_rtp_output_run host frame sequence timestamp ssrc (small frame (by simp)) world
      rw [state_succ, written] at step
      obtain ⟨results, after, run, sentAll⟩ := ih
        (fun other member => small other (List.mem_cons_of_mem _ member)) (sent + 1) out
        { world with
          sinkCalls := world.sinkCalls + 1
          datagramsOut := world.datagramsOut ++ [datagramOf (start.state sent) frame.payload] }
        writes
      rw [List.map_cons, Frame.input, callAll, step, exec_bind_ok]
      simp only [run, exec_bind_ok]
      refine ⟨_, after, rfl, ?_⟩
      rw [sentAll, List.append_assoc]
      rfl

/-- What a call of the source yields for the datagram of that number. -/
structure Delivered {Lib : Type} (start : SinkStart) (handle : Nat) (rtp : PqStateRtp) (index : Nat) (frame : Frame)
    (result : ProcResult (StateContent Lib) World) : Prop where
  rv : result.rv = frame.len
  payload : ∃ out, result.out = some out ∧ out.take frame.len = frame.payload
  state : result.state = .heap handle (.rtp { rtp with
    ssrc := start.ssrc
    sequence := (start.sequence + index) % 2 ^ 16
    timestamp := (start.timestamp + 160 * index) % 2 ^ 32 })

theorem source_run (frames : List Frame) (later : List (Option Buf)) :
    ∀ (sent : Nat) (rtp : PqStateRtp) (size : Nat) (dst : Buf) (world : World),
      receiveSize rtp.blkLen = .ok size → (∀ frame ∈ frames, (frame.len : Int) ≤ rtp.blkLen) →
      rtp.blkLen ≤ dst.length →
      world.datagramsIn = (start.datagrams sent frames).map some ++ later →
      ∃ results after, callAll (pqCbRtpInput host) (List.replicate frames.length (none, 0))
          (.heap handle (.rtp rtp) : State Lib) (some dst) world = .ok (results, after) ∧
        results.length = frames.length ∧
        ∀ index frame result, frames[index]? = some frame → results[index]? = some result →
          Delivered start handle rtp (sent + index) frame result := by
  induction frames with
  | nil =>
      intro sent rtp size dst world _ _ _ _
      refine ⟨[], world, rfl, rfl, ?_⟩
      intro index frame result found
      simp at found
  | cons frame frames ih =>
      intro sent rtp size dst world sized fits room arrives
      obtain ⟨sequence, timestamp, ssrc⟩ := state_bounds start sent
      obtain ⟨sizeEq, _⟩ := receive_size_lt sized
      have frameFits := fits frame (by simp)
      have step : pqCbRtpInput host (.heap handle (.rtp rtp) : State Lib) (some dst) none 0 world =
          outcome handle rtp (datagramOf (start.state sent) frame.payload) dst
            { world with datagramsIn := (start.datagrams (sent + 1) frames).map some ++ later } :=
        input_outcome host sized arrives (by
          rw [datagram_of_length, frame.payload_length]
          omega)
      rw [outcome, if_pos (datagram_of_accepted frame.payload),
        payload_len_datagram_of, if_pos (by rw [frame.payload_length]; omega),
        payload_bytes_datagram_of, frame.payload_length,
        received_state_datagram_of frame.payload sequence timestamp ssrc] at step
      obtain ⟨results, after, run, count, delivered⟩ := ih (sent + 1)
        { rtp with
          ssrc := (start.state sent).ssrc
          timestamp := (start.state sent).timestamp
          sequence := (start.state sent).sequence } size
        (frame.payload ++ dst.drop frame.len)
        { world with datagramsIn := (start.datagrams (sent + 1) frames).map some ++ later } sized
        (fun other member => fits other (List.mem_cons_of_mem _ member)) (by
          rw [List.length_append, List.length_drop, frame.payload_length]
          simp only []
          omega) rfl
      rw [List.length_cons, List.replicate_succ, callAll, step, exec_bind_ok]
      simp only []
      rw [run, exec_bind_ok]
      refine ⟨_, after, rfl, by rw [List.length_cons, count], ?_⟩
      intro index found result foundFrame foundResult
      cases index with
      | zero =>
          cases foundFrame
          cases foundResult
          exact ⟨rfl, ⟨_, rfl, List.take_left' frame.payload_length⟩, rfl⟩
      | succ index =>
          have next := delivered index found result foundFrame foundResult
          have number : sent + 1 + index = sent + (index + 1) := by omega
          rw [number] at next
          exact ⟨next.rv, next.payload, next.state⟩

theorem datagrams_second (frames : List Frame) :
    ∀ (sent : Nat), ∀ datagram ∈ start.datagrams sent frames,
      (datagram.getD 1 0).toNat = start.payloadType % 128 := by
  induction frames with
  | nil =>
      intro sent datagram member
      exact absurd member List.not_mem_nil
  | cons frame frames ih =>
      intro sent datagram member
      rcases List.mem_cons.mp member with rfl | later
      · show (BitVec.ofNat 8 (start.payloadType % 128)).toNat = _
        rw [BitVec.toNat_ofNat]
        omega
      · exact ih (sent + 1) datagram later

end Runs

/-- What the sink writes reaches a source, whole and in order, and is what was
sent, with the counters that go with it. A value below 128 in the second octet
is a payload type without the marker bit. -/
theorem rtp_round_trip {Lib : Type} (sender receiver : Endian) (start : SinkStart)
    (frames : List Frame) {sinkHandle handle size : Nat} {rtp : PqStateRtp} {out : Option Buf}
    {dst : Buf} {world : World} (sized : receiveSize rtp.blkLen = .ok size)
    (fits : ∀ frame ∈ frames, (frame.len : Int) ≤ rtp.blkLen) (room : rtp.blkLen ≤ dst.length)
    (writes : ∀ call, world.sinkOk call = true) :
    ∃ sinkResults sent written,
      callAll (pqCbRtpOutput sender) (frames.map Frame.input)
        (.heap sinkHandle (.rtp ⟨start.blkLen, 160, start.payloadType, start.sequence,
          start.timestamp, start.ssrc⟩) : State Lib) out world = .ok (sinkResults, sent) ∧
      sent.datagramsOut = world.datagramsOut ++ written ∧
      (∀ datagram ∈ written, (datagram.getD 1 0).toNat = start.payloadType % 128) ∧
      ∀ (later : List (Option Buf)) (reached : World),
        reached.datagramsIn = written.map some ++ later →
        ∃ results after,
          callAll (pqCbRtpInput receiver) (List.replicate frames.length (none, 0))
            (.heap handle (.rtp rtp) : State Lib) (some dst) reached = .ok (results, after) ∧
          results.length = frames.length ∧
          ∀ index frame result, frames[index]? = some frame → results[index]? = some result →
            Delivered start handle rtp index frame result := by
  obtain ⟨sizeEq, bound⟩ := receive_size_lt sized
  obtain ⟨sinkResults, sent, run, written⟩ := sink_run Lib sender start sinkHandle frames (by
    intro frame member
    have frameFits := fits frame member
    omega) 0 out world writes
  rw [state_zero] at run
  refine ⟨sinkResults, sent, start.datagrams 0 frames, run, written, datagrams_second start frames 0,
    ?_⟩
  intro later reached arrives
  have delivered := source_run Lib receiver start handle frames later 0 rtp size dst reached sized
    fits room arrives
  simpa only [Nat.zero_add] using delivered

def wrappingStart : SinkStart where
  blkLen := 33
  payloadType := 131
  sequence := 65535
  timestamp := 4294967200
  ssrc := 7
  payloadTypeBound := by decide
  sequenceBound := by decide
  timestampBound := by decide
  ssrcBound := by decide

def twoFrames : List Frame := [⟨[0xd5, 0x5d, 0x00], 2, by decide⟩, ⟨[0xd5], 0, by decide⟩]

theorem rtp_round_trip_wraps :
    ∃ sinkResults sent written,
      callAll (pqCbRtpOutput .little) (twoFrames.map Frame.input)
        (.heap 0 (.rtp ⟨wrappingStart.blkLen, 160, wrappingStart.payloadType,
          wrappingStart.sequence, wrappingStart.timestamp, wrappingStart.ssrc⟩) : State Unit)
        none (arriving []) = .ok (sinkResults, sent) ∧
      sent.datagramsOut = (arriving []).datagramsOut ++ written ∧
      (∀ datagram ∈ written, (datagram.getD 1 0).toNat = wrappingStart.payloadType % 128) ∧
      ∀ (later : List (Option Buf)) (reached : World),
        reached.datagramsIn = written.map some ++ later →
        ∃ results after,
          callAll (pqCbRtpInput .big) (List.replicate twoFrames.length (none, 0))
            (.heap 1 (.rtp freshRtp) : State Unit) (some (List.replicate 33 0)) reached =
              .ok (results, after) ∧
          results.length = twoFrames.length ∧
          ∀ index frame result, twoFrames[index]? = some frame → results[index]? = some result →
            Delivered wrappingStart 1 freshRtp index frame result :=
  rtp_round_trip .little .big wrappingStart twoFrames
    (rfl : receiveSize freshRtp.blkLen = .ok 289) (by decide) (by decide) (fun _ => rfl)

end Gapk.RtpStream
