import Gapk.Stages

/-!
# Sources and sinks as streams

What a source hands on, frame by frame, is a list that its side of the world
determines. What a sink makes of frames is a stage whose outputs are the records
that it writes. Each reaches its own side of the world only.
-/

namespace Gapk.Endpoints

open CheckedMemory BitBuffer Blocks FixedWidth Pipeline
open Gapk.Formats Gapk.Procqueue Gapk.Streams Gapk.PqRtp Gapk.RtpSource Gapk.RtpStream Gapk.QueueOps
open Gapk.QueueLedger Gapk.Codecs Gapk.App Gapk.Chain Gapk.ChainTyping Gapk.QueueRuns Gapk.WholeFile
open Gapk.FramePassing

set_option autoImplicit false

section Sides

structure Written where
  file : Buf
  datagrams : List Buf
  samples : Buf

/-- The side of a world that only sinks reach. -/
structure SinkSide where
  written : Written
  ok : Nat → Bool
  calls : Nat
  busy : Nat

def sinkSide (world : World) : SinkSide where
  written := ⟨world.outFile, world.datagramsOut, world.samplesOut⟩
  ok := world.sinkOk
  calls := world.sinkCalls
  busy := world.sinkBusy

/-- The side of a world that only sources reach. -/
structure SourceSide where
  file : Buf
  datagrams : List (Option Buf)
  samples : List (Option Buf)

def sourceSide (world : World) : SourceSide where
  file := world.inFile
  datagrams := world.datagramsIn
  samples := world.samplesIn

end Sides

section Sources

variable {Lib : Type}

def blockLen : QueueCall Lib → Nat
  | .fileInput blkLen | .rtpInput blkLen _ | .alsaInput blkLen | .fileOutput blkLen
  | .rtpOutput blkLen _ | .alsaOutput blkLen => blkLen
  | _ => 0

def rtpFrame (blkLen : Nat) (datagram : Buf) : Option Buf :=
  if RtpAccepts (datagram.take (blkLen + 256)) then
    some (payloadBytes (datagram.take (blkLen + 256)))
  else none

def alsaFrame (blkLen : Nat) (samples : Buf) : Option Buf :=
  let read := samples.take (2 * (blkLen / 2))
  if read.length / 2 = 0 then none else some (read.take (read.length / 2 * 2))

/-- What the calls of a source are going to return: a frame each, or a failure. -/
def arrivals (call : QueueCall Lib) (side : SourceSide) : List (Option Buf) :=
  match call with
  | .fileInput blkLen => (blocks blkLen side.file).map some
  | .rtpInput blkLen _ => side.datagrams.map fun arrival => arrival.bind (rtpFrame blkLen)
  | .alsaInput blkLen => side.samples.map fun arrival => arrival.bind (alsaFrame blkLen)
  | _ => []

/-- Every frame of the source has the length of a block. -/
def Regular (call : QueueCall Lib) (side : SourceSide) : Prop :=
  ∀ frame, some frame ∈ arrivals call side → frame.length = blockLen call

theorem file_regular {blkLen : Nat} (positive : 0 < blkLen) (side : SourceSide) :
    Regular (.fileInput blkLen : QueueCall Lib) side := by
  intro frame member
  obtain ⟨block, isBlock, same⟩ := List.mem_map.mp member
  cases same
  obtain ⟨index, inRange, rfl⟩ := List.mem_map.mp isBlock
  have bound := List.mem_range.mp inRange
  have fits := Nat.mul_le_of_le_div _ _ _ (Nat.succ_le_of_lt bound)
  rw [Nat.succ_eq_add_one, Nat.add_one_mul] at fits
  rw [List.length_take, List.length_drop, blockLen]
  omega

/-- A source at which more is going to arrive. -/
structure Grows (side longer : SourceSide) : Prop where
  file : side.file <+: longer.file
  datagrams : side.datagrams <+: longer.datagrams
  samples : side.samples <+: longer.samples

theorem arrivals_extend {call : QueueCall Lib} {side longer : SourceSide} (fixed : blockLen call ≠ 0)
    (grows : Grows side longer) : arrivals call side <+: arrivals call longer := by
  cases call with
  | fileInput blkLen => exact (blocks_extend (Nat.pos_of_ne_zero fixed) grows.file).map some
  | rtpInput blkLen pt => exact grows.datagrams.map _
  | alsaInput blkLen => exact grows.samples.map _
  | fileOutput _ | rtpOutput _ _ | alsaOutput _ | fmtConvert _ _ | codec _ _ | ecu _ =>
      exact List.nil_prefix

theorem arrivals_length_le (call : QueueCall Lib) (side : SourceSide) :
    (arrivals call side).length ≤
      side.file.length + side.datagrams.length + side.samples.length := by
  cases call with
  | fileInput blkLen =>
      have bound := Nat.div_le_self side.file.length blkLen
      rw [arrivals, List.length_map, blocks_length]
      omega
  | rtpInput blkLen pt =>
      rw [arrivals, List.length_map]
      omega
  | alsaInput blkLen =>
      rw [arrivals, List.length_map]
      omega
  | fileOutput _ | rtpOutput _ _ | alsaOutput _ | fmtConvert _ _ | codec _ _ | ecu _ =>
      exact Nat.zero_le _

theorem regular_tail {call : QueueCall Lib} {side after : SourceSide} {arrival : Option Buf}
    (regular : Regular call side) (arrives : arrivals call side = arrival :: arrivals call after) :
    Regular call after := by
  intro frame member
  apply regular frame
  rw [arrives]
  exact List.mem_cons_of_mem _ member

end Sources

section SourceCalls

variable {Lib : Type} (build : Build Lib)

inductive SourceState : QueueCall Lib → State Lib → Prop where
  | file (blkLen handle : Nat) : SourceState (.fileInput blkLen) (.heap handle (.file blkLen))
  | rtp (blkLen pt handle : Nat) (rtp : PqStateRtp) (same : rtp.blkLen = toInt32 blkLen) :
      SourceState (.rtpInput blkLen pt) (.heap handle (.rtp rtp))
  | alsa (blkLen handle : Nat) : SourceState (.alsaInput blkLen) (.heap handle (.alsa blkLen))

/-- The item of a source at any time after the queue was prepared. -/
structure SourceStands (call : QueueCall Lib) (item : Item Lib) : Prop where
  serves : Serves (platformOf build) call item
  state : SourceState call item.state
  buffer : ∃ buf, item.buf = some buf ∧ buf.length = blockLen call

variable {build} {call : QueueCall Lib} {item : Item Lib} {world : World}

theorem source_after (stands : SourceStands build call item)
    {result : ProcResult (StateContent Lib) World}
    (run : callBack (platformOf build) call item.state item.buf none 0 world = .ok result)
    (state : SourceState call result.state)
    (buffer : ∃ buf, result.out = some buf ∧ buf.length = blockLen call) :
    callItem item (firstCall world) = .ok result ∧
      SourceStands build call (afterCall item result) := by
  obtain ⟨same, serving⟩ := serving_call stands.serves (firstCall world)
  have called := same.trans run
  exact ⟨called, serving result called, state, buffer⟩

/-- What a call of the source that returns a frame does. -/
structure Fetches (build : Build Lib) (call : QueueCall Lib) (item : Item Lib) (world : World)
    (frame : Buf) (rest : List (Option Buf)) (result : ProcResult (StateContent Lib) World) : Prop where
  called : callItem item (firstCall world) = .ok result
  fine : 0 ≤ result.rv
  handedOn : handedOn result = ⟨some frame, frame.length, result.world⟩
  arrivals : arrivals call (sourceSide result.world) = rest
  untouched : sinkSide result.world = sinkSide world
  stands : SourceStands build call (afterCall item result)

theorem fetches_block (stands : SourceStands build call item) (small : blockLen call < 2 ^ 31)
    {frame : Buf} {rest : List (Option Buf)} {state : State Lib} {after : World}
    (whole : frame.length = blockLen call)
    (run : callBack (platformOf build) call item.state item.buf none 0 world =
      .ok ⟨frame.length, state, some frame, after⟩)
    (stillState : SourceState call state) (arrives : arrivals call (sourceSide after) = rest)
    (untouched : sinkSide after = sinkSide world) :
    ∃ result, Fetches build call item world frame rest result := by
  obtain ⟨called, still⟩ := source_after stands run stillState ⟨frame, rfl, whole⟩
  refine ⟨_, called, Int.natCast_nonneg _, ?_, arrives, untouched, still⟩
  rw [handedOn, to_uint32_eq (by omega)]

theorem payload_bytes_length {datagram : Buf} (accepted : RtpAccepts datagram) :
    (payloadBytes datagram).length = payloadLen datagram := by
  have inside := accepted.2.2.2.2
  rw [payloadBytes, List.length_take, List.length_drop, payloadLen]
  omega

/-- A read that fills a block holds nothing but the samples of the frame. -/
theorem alsa_frame_whole {blkLen : Nat} {samples frame : Buf}
    (taken : alsaFrame blkLen samples = some frame) (whole : frame.length = blkLen) :
    samples.take (2 * (blkLen / 2)) = frame ∧ blkLen / 2 * 2 = blkLen ∧ blkLen / 2 ≠ 0 := by
  have bound := List.length_take_le (2 * (blkLen / 2)) samples
  rw [alsaFrame] at taken
  generalize samples.take (2 * (blkLen / 2)) = read at taken bound ⊢
  split_ifs at taken with empty
  cases taken
  rw [List.length_take] at whole
  refine ⟨(List.take_of_length_le (by omega)).symm, by omega, by omega⟩

theorem accepted_arrives {blkLen : Nat} (pt : Nat)
    (accepted : RtpAccepts (delivered world (blkLen + 256))) :
    ∃ frame rest,
      arrivals (.rtpInput blkLen pt : QueueCall Lib) (sourceSide world) = some frame :: rest := by
  have fixed := accepted.1
  rw [delivered] at accepted fixed
  cases arriving : world.datagramsIn with
  | nil =>
      rw [arriving] at fixed
      exact absurd fixed (Nat.not_succ_le_zero 11)
  | cons arrival later =>
      cases arrival with
      | none =>
          rw [arriving] at fixed
          exact absurd fixed (Nat.not_succ_le_zero 11)
      | some datagram =>
          rw [arriving] at accepted
          refine ⟨payloadBytes (datagram.take (blkLen + 256)),
            later.map fun arrival => arrival.bind (rtpFrame blkLen), ?_⟩
          rw [arrivals, sourceSide, arriving, List.map_cons, Option.bind_some, rtpFrame,
            if_pos accepted]

variable (stands : SourceStands build call item) (fixed : blockLen call ≠ 0)
  (small : blockLen call + 256 < 2 ^ 31)

include stands fixed small

theorem source_fetches {frame : Buf} {rest : List (Option Buf)}
    (arrives : arrivals call (sourceSide world) = some frame :: rest)
    (whole : frame.length = blockLen call) :
    ∃ result, Fetches build call item world frame rest result := by
  obtain ⟨dst, isDst, room⟩ := stands.buffer
  have state := stands.state
  generalize isState : item.state = held at state
  cases state with
  | file blkLen handle =>
      have short : blkLen < 2 ^ 31 := by
        rw [blockLen] at small
        omega
      by_cases enough : blkLen ≤ world.inFile.length
      · have split : arrivals (.fileInput blkLen : QueueCall Lib) (sourceSide world) = _ :=
          congrArg (List.map some) (blocks_cons (Nat.pos_of_ne_zero fixed) enough)
        cases arrives.symm.trans split
        have run : callBack (platformOf build) (.fileInput blkLen) item.state item.buf none 0 world =
            .ok ⟨(blkLen : Int), .heap handle (.file blkLen), some (world.inFile.take blkLen),
              behindBlock world blkLen⟩ := by
          rw [isState, isDst]
          exact source_call_block (Nat.pos_of_ne_zero fixed) short room enough
        have size : ((world.inFile.take blkLen).length : Int) = blkLen := congrArg Nat.cast whole
        rw [← size] at run
        exact fetches_block stands short whole run (.file blkLen handle) rfl rfl
      · have none : arrivals (.fileInput blkLen : QueueCall Lib) (sourceSide world) = [] :=
          congrArg (List.map some) (blocks_short (Nat.lt_of_not_le enough))
        cases none.symm.trans arrives
  | rtp blkLen pt handle rtp same =>
      have short : blkLen + 256 < 2 ^ 31 := small
      have sized : receiveSize rtp.blkLen = .ok (blkLen + 256) := by
        rw [same, to_int32_eq (by omega) (by omega), receiveSize, if_pos (by omega)]
        rfl
      obtain ⟨arrival, later, isArrival, fetched, rfl⟩ := List.map_eq_cons_iff.mp arrives
      obtain ⟨datagram, rfl, taken⟩ := Option.bind_eq_some_iff.mp fetched
      have arriving : world.datagramsIn = some datagram :: later := isArrival
      have isDelivered : delivered world (blkLen + 256) = datagram.take (blkLen + 256) := by
        rw [delivered, arriving]
      have after : (world.readSocket (blkLen + 256)).2.2 = { world with datagramsIn := later } := by
        rw [World.readSocket, arriving]
      rw [rtpFrame, ← isDelivered] at taken
      split_ifs at taken with accepted
      cases taken
      have len := payload_bytes_length accepted
      have fits : payloadLen (delivered world (blkLen + 256)) = dst.length :=
        len.symm.trans (whole.trans room.symm)
      have run : pqCbRtpInput build.host (.heap handle (.rtp rtp) : State Lib) (some dst) none 0 world =
          _ := pq_cb_rtp_input_run build.host sized accepted dst
      rw [if_pos fits.le, List.drop_eq_nil_of_le fits.ge, List.append_nil, ← len, after, ← isState,
        ← isDst] at run
      exact fetches_block stands (by omega) whole run (.rtp blkLen pt handle _ same) rfl rfl
  | alsa blkLen handle =>
      obtain ⟨arrival, later, isArrival, fetched, rfl⟩ := List.map_eq_cons_iff.mp arrives
      obtain ⟨samples, rfl, taken⟩ := Option.bind_eq_some_iff.mp fetched
      have arriving : world.samplesIn = some samples :: later := isArrival
      obtain ⟨read, even, many⟩ := alsa_frame_whole taken whole
      have size : frame.length = blkLen := whole
      have space : dst.length = blkLen := room
      have bound : blkLen + 256 < 2 ^ 31 := small
      have arrived : world.samplesIn = some samples :: later := isArrival
      have returned : toInt32 ((blkLen : Int) / 2 * 2) = blkLen := by
        rw [to_int32_eq (by omega) (by omega)]
        omega
      have run : callBack (platformOf build) (.alsaInput blkLen) item.state item.buf none 0 world =
          .ok ⟨frame.length, .heap handle (.alsa blkLen), some frame,
            { world with samplesIn := later }⟩ := by
        rw [isState, isDst]
        simp only [callBack, pqCbAlsaInput, alsaState, exec_pure, exec_bind_ok, deref_some, arrived,
          read, size, memcpy_whole space size, if_neg many, returned]
      exact fetches_block stands (by omega) whole run (.alsa blkLen handle) rfl rfl

theorem source_ends (ended : ∀ frame rest, arrivals call (sourceSide world) ≠ some frame :: rest) :
    ∃ result, callItem item (firstCall world) = .ok result ∧ result.rv < 0 ∧
      sinkSide result.world = sinkSide world := by
  obtain ⟨dst, isDst, room⟩ := stands.buffer
  have state := stands.state
  have finish : ∀ result : ProcResult (StateContent Lib) World,
      callBack (platformOf build) call item.state item.buf none 0 world = .ok result →
      result.rv < 0 → sinkSide result.world = sinkSide world →
      ∃ result, callItem item (firstCall world) = .ok result ∧ result.rv < 0 ∧
        sinkSide result.world = sinkSide world := by
    intro result run negative untouched
    exact ⟨result, (serving_call stands.serves (firstCall world)).1.trans run, negative, untouched⟩
  generalize isState : item.state = held at state finish
  rw [isDst] at finish
  cases state with
  | file blkLen handle =>
      have positive : 0 < blkLen := Nat.pos_of_ne_zero fixed
      have short : world.inFile.length < blkLen := by
        by_contra enough
        exact ended _ _ (congrArg (List.map some) (blocks_cons positive (Nat.le_of_not_lt enough)))
      obtain ⟨next, _, run⟩ : ∃ next : Buf, next.length = blkLen ∧
          callItem (sourceItem blkLen handle dst : Item Lib) (firstCall world) = _ :=
        source_call_short positive room short
      exact finish _ run (by decide : (-1 : Int) < 0) rfl
  | rtp blkLen pt handle rtp same =>
      have short : blkLen + 256 < 2 ^ 31 := small
      have sized : receiveSize rtp.blkLen = .ok (blkLen + 256) := by
        rw [same, to_int32_eq (by omega) (by omega), receiveSize, if_pos (by omega)]
        rfl
      have refused : ¬RtpAccepts (delivered world (blkLen + 256)) := by
        intro accepted
        obtain ⟨frame, rest, arrives⟩ := accepted_arrives pt accepted
        exact ended frame rest arrives
      have run : pqCbRtpInput build.host (.heap handle (.rtp rtp) : State Lib) (some dst) none 0 world =
          _ := pq_cb_rtp_input_refuses build.host sized refused
      refine finish _ run (by decide : (-1 : Int) < 0) ?_
      rw [World.readSocket]
      split <;> rfl
  | alsa blkLen handle =>
      have space : dst.length = blkLen := room
      cases arriving : world.samplesIn with
      | nil =>
          have run : pqCbAlsaInput (.heap handle (.alsa blkLen) : State Lib) (some dst) none 0 world =
              .ok ⟨-1, .heap handle (.alsa blkLen), some dst, world⟩ := by
            simp only [pqCbAlsaInput, alsaState, exec_pure, exec_bind_ok, deref_some, arriving]
            rfl
          exact finish _ run (by decide : (-1 : Int) < 0) rfl
      | cons arrival later =>
          cases arrival with
          | none =>
              have run : pqCbAlsaInput (.heap handle (.alsa blkLen) : State Lib) (some dst) none 0
                  world = .ok ⟨-1, .heap handle (.alsa blkLen), some dst,
                    { world with samplesIn := later }⟩ := by
                simp only [pqCbAlsaInput, alsaState, exec_pure, exec_bind_ok, deref_some, arriving]
                rfl
              exact finish _ run (by decide : (-1 : Int) < 0) rfl
          | some samples =>
              have few : (samples.take (2 * (blkLen / 2))).length / 2 = 0 := by
                by_contra many
                obtain ⟨frame, taken⟩ : ∃ frame, alsaFrame blkLen samples = some frame :=
                  ⟨_, if_neg many⟩
                refine ended frame (later.map fun arrival => arrival.bind (alsaFrame blkLen)) ?_
                rw [arrivals, sourceSide, arriving, List.map_cons, Option.bind_some, taken]
              have bound := List.length_take_le (2 * (blkLen / 2)) samples
              have inside : (samples.take (2 * (blkLen / 2))).length ≤ dst.length := by omega
              obtain ⟨left, copied⟩ : ∃ left, memcpy dst 0 (samples.take (2 * (blkLen / 2))) 0
                  (samples.take (2 * (blkLen / 2))).length = .ok left :=
                ⟨_, memcpy_front inside ((Nat.zero_add _).trans_le (Nat.le_refl _))⟩
              have run : pqCbAlsaInput (.heap handle (.alsa blkLen) : State Lib) (some dst) none 0
                  world = .ok ⟨-1, .heap handle (.alsa blkLen), some left,
                    { world with samplesIn := later }⟩ := by
                simp only [pqCbAlsaInput, alsaState, exec_pure, exec_bind_ok, deref_some, arriving,
                  copied, if_pos few]
              exact finish _ run (by decide : (-1 : Int) < 0) rfl

end SourceCalls

section Sinks

/-- A sink, with the number of writes that it has made and the counters of a stream. -/
inductive Sink where
  | file (calls : Nat)
  | rtp (calls : Nat) (state : PqStateRtp)
  | alsa (calls : Nat)

def Sink.calls : Sink → Nat
  | .file calls | .rtp calls _ | .alsa calls => calls

def nextRtp (rtp : PqStateRtp) : PqStateRtp :=
  { rtp with
    sequence := (rtp.sequence + 1) % 2 ^ 16
    timestamp := (rtp.timestamp + rtp.duration) % 2 ^ 32 }

/-- What a sink writes for a frame, when these writes succeed. An empty frame is no
block of a file; samples are written a second time if need be. -/
def Sink.stage (ok : Nat → Bool) : Stage Sink Buf Buf
  | .file calls, frame =>
      if frame.length ≠ 0 ∧ ok calls = true then some (.file (calls + 1), frame) else none
  | .rtp calls state, frame =>
      if ok calls = true then some (.rtp (calls + 1) (nextRtp state), datagramOf state frame) else none
  | .alsa calls, frame =>
      if ok calls = true then some (.alsa (calls + 1), frame.take (2 * (frame.length / 2)))
      else if ok (calls + 1) = true then
        some (.alsa (calls + 2), frame.take (2 * (frame.length / 2)))
      else none

def Sink.put (sink : Sink) (written : Written) (records : List Buf) : Written :=
  match sink with
  | .file _ => { written with file := written.file ++ records.flatten }
  | .rtp _ _ => { written with datagrams := written.datagrams ++ records }
  | .alsa _ => { written with samples := written.samples ++ records.flatten }

/-- What has been written is still there, and more may be. -/
structure Written.Prefix (written more : Written) : Prop where
  file : written.file <+: more.file
  datagrams : written.datagrams <+: more.datagrams
  samples : written.samples <+: more.samples

theorem written_prefix_refl (written : Written) : written.Prefix written :=
  ⟨List.prefix_rfl, List.prefix_rfl, List.prefix_rfl⟩

theorem written_prefix_trans {written more most : Written} (first : written.Prefix more)
    (second : more.Prefix most) : written.Prefix most :=
  ⟨first.file.trans second.file, first.datagrams.trans second.datagrams,
    first.samples.trans second.samples⟩

theorem put_prefix (sink : Sink) (written : Written) {records more : List Buf}
    (longer : records <+: more) : (sink.put written records).Prefix (sink.put written more) := by
  obtain ⟨later, rfl⟩ := longer
  cases sink with
  | file _ =>
      refine ⟨?_, List.prefix_rfl, List.prefix_rfl⟩
      rw [Sink.put, Sink.put, List.flatten_append, ← List.append_assoc]
      exact List.prefix_append _ _
  | rtp _ _ =>
      refine ⟨List.prefix_rfl, ?_, List.prefix_rfl⟩
      rw [Sink.put, Sink.put, ← List.append_assoc]
      exact List.prefix_append _ _
  | alsa _ =>
      refine ⟨List.prefix_rfl, List.prefix_rfl, ?_⟩
      rw [Sink.put, Sink.put, List.flatten_append, ← List.append_assoc]
      exact List.prefix_append _ _

variable {sink after : Sink} {ok : Nat → Bool} {frame record : Buf}

theorem sink_put_cons (done : sink.stage ok frame = some (after, record)) (written : Written)
    (records : List Buf) :
    after.put (sink.put written [record]) records = sink.put written (record :: records) := by
  cases sink with
  | file calls =>
      rw [Sink.stage] at done
      split_ifs at done
      cases done
      simp [Sink.put]
  | rtp calls state =>
      rw [Sink.stage] at done
      split_ifs at done
      cases done
      simp [Sink.put]
  | alsa calls =>
      rw [Sink.stage] at done
      split_ifs at done <;> cases done <;> simp [Sink.put]

theorem sink_put_nil (sink : Sink) (written : Written) : sink.put written [] = written := by
  cases sink <;> simp [Sink.put]

end Sinks

section SinkCalls

variable {Lib : Type} (build : Build Lib)

inductive SinkState : QueueCall Lib → State Lib → Sink → Prop where
  | file (declared handle blkLen calls : Nat) :
      SinkState (.fileOutput declared) (.heap handle (.file blkLen)) (.file calls)
  | rtp (declared pt handle calls : Nat) (rtp : PqStateRtp) (sequence : rtp.sequence < 2 ^ 16)
      (timestamp : rtp.timestamp < 2 ^ 32) (ssrc : rtp.ssrc < 2 ^ 32) :
      SinkState (.rtpOutput declared pt) (.heap handle (.rtp rtp)) (.rtp calls rtp)
  | alsa (declared handle blkLen calls : Nat) :
      SinkState (.alsaOutput declared) (.heap handle (.alsa blkLen)) (.alsa calls)

/-- Only a sound device is waited for. -/
def sinkWait : QueueCall Lib → Option (WaitCb (StateContent Lib) World)
  | .alsaOutput _ => some pqCbAlsaWait
  | _ => none

/-- The item of a sink at any time after the queue was prepared. -/
structure SinkStands (call : QueueCall Lib) (item : Item Lib) (sink : Sink) : Prop where
  serves : Serves (platformOf build) call item
  state : SinkState call item.state sink
  wait : item.wait = sinkWait call

/-- What a call of the sink does on a frame. -/
structure Delivers (build : Build Lib) (call : QueueCall Lib) (item : Item Lib) (sink : Sink)
    (frame : Buf) (world : World) (result : ProcResult (StateContent Lib) World) : Prop where
  arrivals : sourceSide result.world = sourceSide world
  ok : result.world.sinkOk = world.sinkOk
  busy : result.world.sinkBusy = world.sinkBusy
  fails : sink.stage world.sinkOk frame = none → result.rv < 0 ∧
    (sinkSide result.world).written = (sinkSide world).written
  writes : ∀ after record, sink.stage world.sinkOk frame = some (after, record) → result.rv = 0 ∧
    (sinkSide result.world).written = sink.put (sinkSide world).written [record] ∧
    after.calls = result.world.sinkCalls ∧ SinkStands build call (afterCall item result) after

variable {build} {call : QueueCall Lib} {item : Item Lib} {sink : Sink} {world : World} {data : Buf}
  {len : Nat}

section Writes

variable {world : World} {data : Buf}

def behindFailure (world : World) : World := { world with sinkCalls := world.sinkCalls + 1 }

theorem fwrite_empty (empty : data.length = 0) : world.fwrite data = (0, world) := if_pos empty

theorem fwrite_works (some : data.length ≠ 0) (works : world.sinkOk world.sinkCalls = true) :
    world.fwrite data = (1, withOutput world data) := by
  rw [World.fwrite, if_neg some, World.countWrite, works]
  rfl

theorem fwrite_fails (some : data.length ≠ 0) (fails : ¬world.sinkOk world.sinkCalls = true) :
    world.fwrite data = (0, behindFailure world) := by
  rw [World.fwrite, if_neg some, World.countWrite, Bool.eq_false_iff.mpr fails]
  rfl

theorem write_socket_works (works : world.sinkOk world.sinkCalls = true) :
    (world.writeSocket data).2 = { behindFailure world with
      datagramsOut := world.datagramsOut ++ [data] } := by
  rw [World.writeSocket, World.countWrite, works]
  rfl

theorem write_socket_fails (fails : ¬world.sinkOk world.sinkCalls = true) :
    (world.writeSocket data).2 = behindFailure world := by
  rw [World.writeSocket, World.countWrite, Bool.eq_false_iff.mpr fails]
  rfl

end Writes

theorem delivers_record (stands : SinkStands build call item sink) {after : Sink} {record : Buf}
    {state : State Lib} {out : Option Buf} {worldAfter : World}
    (run : callBack (platformOf build) call item.state item.buf (some data) len world =
      .ok ⟨0, state, out, worldAfter⟩)
    (staged : sink.stage world.sinkOk (data.take len) = some (after, record))
    (stillState : SinkState call state after) (counted : after.calls = worldAfter.sinkCalls)
    (written : (sinkSide worldAfter).written = sink.put (sinkSide world).written [record])
    (arrivals : sourceSide worldAfter = sourceSide world)
    (same : worldAfter.sinkOk = world.sinkOk ∧ worldAfter.sinkBusy = world.sinkBusy) :
    ∃ result, callItem item { buf := some data, len := len, world := world } = .ok result ∧
      Delivers build call item sink (data.take len) world result := by
  obtain ⟨called, serving⟩ := serving_call stands.serves ⟨some data, len, world⟩
  have called := called.trans run
  refine ⟨_, called, arrivals, same.1, same.2, ?_, ?_⟩
  · intro none
    rw [staged] at none
    cases none
  · intro other record' isStaged
    rw [staged] at isStaged
    cases isStaged
    exact ⟨rfl, written, counted, serving _ called, stillState, stands.wait⟩

theorem delivers_nothing (stands : SinkStands build call item sink) {state : State Lib}
    {out : Option Buf} {worldAfter : World}
    (run : callBack (platformOf build) call item.state item.buf (some data) len world =
      .ok ⟨-1, state, out, worldAfter⟩)
    (staged : sink.stage world.sinkOk (data.take len) = none)
    (written : (sinkSide worldAfter).written = (sinkSide world).written)
    (arrivals : sourceSide worldAfter = sourceSide world)
    (same : worldAfter.sinkOk = world.sinkOk ∧ worldAfter.sinkBusy = world.sinkBusy) :
    ∃ result, callItem item { buf := some data, len := len, world := world } = .ok result ∧
      Delivers build call item sink (data.take len) world result := by
  obtain ⟨called, _⟩ := serving_call stands.serves ⟨some data, len, world⟩
  refine ⟨_, called.trans run, arrivals, same.1, same.2, ?_, ?_⟩
  · intro _
    exact ⟨(by decide : (-1 : Int) < 0), written⟩
  · intro after record isStaged
    rw [staged] at isStaged
    cases isStaged

theorem sink_delivers (stands : SinkStands build call item sink) (counted : sink.calls = world.sinkCalls)
    (inside : len ≤ data.length) (small : len + 12 < 2 ^ 31) :
    ∃ result, callItem item { buf := some data, len := len, world := world } = .ok result ∧
      Delivers build call item sink (data.take len) world result := by
  have size : (data.take len).length = len := List.length_take_of_le inside
  have state := stands.state
  generalize isState : item.state = held at state
  cases state with
  | file declared handle blkLen calls =>
      cases (counted : calls = world.sinkCalls)
      have run : callBack (platformOf build) (.fileOutput declared) item.state item.buf (some data) len
          world = .ok { rv := if (world.fwrite (data.take len)).1 = 1 then 0 else -1
                        state := .heap handle (.file blkLen), out := item.buf
                        world := (world.fwrite (data.take len)).2 } := by
        simp only [callBack, pqCbFileOutput, isState, fileState, exec_pure, exec_bind_ok, deref_some,
          read_bytes_eq inside]
      by_cases empty : (data.take len).length = 0
      · rw [fwrite_empty empty] at run
        exact delivers_nothing stands run (if_neg fun some => some.1 empty) rfl rfl ⟨rfl, rfl⟩
      · by_cases works : world.sinkOk world.sinkCalls = true
        · rw [fwrite_works empty works] at run
          exact delivers_record stands run (if_pos ⟨empty, works⟩)
            (.file declared handle blkLen (world.sinkCalls + 1)) rfl
            (by simp [Sink.put, sinkSide, withOutput]) rfl ⟨rfl, rfl⟩
        · rw [fwrite_fails empty works] at run
          exact delivers_nothing stands run (if_neg fun some => works some.2) rfl rfl ⟨rfl, rfl⟩
  | rtp declared pt handle calls rtp sequence timestamp ssrc =>
      cases (counted : calls = world.sinkCalls)
      have run : pqCbRtpOutput build.host (.heap handle (.rtp rtp) : State Lib) item.buf (some data) len
          world = _ :=
        pq_cb_rtp_output_run build.host ⟨data, len, inside⟩ sequence timestamp ssrc small world
      rw [← isState] at run
      by_cases works : world.sinkOk world.sinkCalls = true
      · rw [if_pos works, write_socket_works works] at run
        exact delivers_record stands run (if_pos works)
          (.rtp declared pt handle _ (nextRtp rtp) (Nat.mod_lt _ (Nat.two_pow_pos 16))
            (Nat.mod_lt _ (Nat.two_pow_pos 32)) ssrc) rfl rfl rfl ⟨rfl, rfl⟩
      · rw [if_neg works, write_socket_fails works] at run
        exact delivers_nothing stands run (if_neg works) rfl rfl ⟨rfl, rfl⟩
  | alsa declared handle blkLen calls =>
      cases (counted : calls = world.sinkCalls)
      have samples : (data.take len).take (2 * ((data.take len).length / 2)) =
          data.take (2 * (len / 2)) := by
        rw [size, List.take_take]
        congr 1
        omega
      have readable : 2 * (len / 2) ≤ data.length := by omega
      by_cases first : world.sinkOk world.sinkCalls = true
      · have staged : (Sink.alsa world.sinkCalls).stage world.sinkOk (data.take len) = _ :=
          if_pos first
        have run : callBack (platformOf build) (.alsaOutput declared) item.state item.buf (some data)
            len world = .ok ⟨0, .heap handle (.alsa blkLen), item.buf, { behindFailure world with
              samplesOut := world.samplesOut ++ data.take (2 * (len / 2)) }⟩ := by
          simp only [callBack, pqCbAlsaOutput, isState, alsaState, exec_pure, exec_bind_ok, deref_some,
            read_bytes_eq readable, World.countWrite, first, if_true]
          rfl
        rw [samples] at staged
        exact delivers_record stands run staged (.alsa declared handle blkLen _) rfl
          (by simp [Sink.put, sinkSide, behindFailure]) rfl ⟨rfl, rfl⟩
      · by_cases second : world.sinkOk (world.sinkCalls + 1) = true
        · have staged : (Sink.alsa world.sinkCalls).stage world.sinkOk (data.take len) = _ :=
            (if_neg first).trans (if_pos second)
          have run : callBack (platformOf build) (.alsaOutput declared) item.state item.buf (some data)
              len world = .ok ⟨0, .heap handle (.alsa blkLen), item.buf,
                { behindFailure (behindFailure world) with
                  samplesOut := world.samplesOut ++ data.take (2 * (len / 2)) }⟩ := by
            simp only [callBack, pqCbAlsaOutput, isState, alsaState, exec_pure, exec_bind_ok,
              deref_some, read_bytes_eq readable, World.countWrite, Bool.eq_false_iff.mpr first,
              second, Bool.false_eq_true, if_false, if_true]
            rfl
          rw [samples] at staged
          exact delivers_record stands run staged (.alsa declared handle blkLen _) rfl
            (by simp [Sink.put, sinkSide, behindFailure]) rfl ⟨rfl, rfl⟩
        · have run : callBack (platformOf build) (.alsaOutput declared) item.state item.buf (some data)
              len world = .ok ⟨-1, .heap handle (.alsa blkLen), item.buf,
                behindFailure (behindFailure world)⟩ := by
            simp only [callBack, pqCbAlsaOutput, isState, alsaState, exec_pure, exec_bind_ok,
              deref_some, read_bytes_eq readable, World.countWrite, Bool.eq_false_iff.mpr first,
              Bool.eq_false_iff.mpr second, Bool.false_eq_true, if_false]
            rfl
          exact delivers_nothing stands run ((if_neg first).trans (if_neg second)) rfl rfl ⟨rfl, rfl⟩

end SinkCalls

section Prepared

variable {Lib : Type} {build : Build Lib} {opts : GapkOptions} {stream : Stream} {fmt : FormatDesc}
  {call : QueueCall Lib} {item : Item Lib}

theorem source_block_len
    (reads : sourceCall (platformOf build) opts stream fmt = some call) :
    blockLen call = fmt.frameLen := by
  rcases source_cases _ _ _ _ reads with rfl | rfl | rfl <;> rfl

theorem sink_block_len (writes : sinkCall (platformOf build) opts stream fmt = some call) :
    blockLen call = fmt.frameLen := by
  rcases sink_cases _ _ _ _ writes with rfl | rfl | rfl <;> rfl

theorem source_no_sink : ItemType.source ≠ ItemType.sink := by decide

theorem prepared_source_stands
    (reads : sourceCall (platformOf build) opts stream fmt = some call) (fixed : fmt.frameLen ≠ 0)
    (made : PreparedFor (platformOf build) call item) : SourceStands build call item := by
  obtain ⟨queued, finished, prepared⟩ := made
  have len := source_block_len reads
  have serves : Serves (platformOf build) call item := by
    have queuedServes := finished_serves (platformOf build) finished
    rw [prepared.same]
    exact queuedServes
  have buffer : queued.type ≠ .sink → bufSize queued = outputSize queued.lenOut →
      queued.lenOut = fmt.frameLen → ∃ buf, item.buf = some buf ∧ buf.length = blockLen call := by
    intro notSink sized declared
    obtain ⟨buf, isBuf, room⟩ := prepared.allocated notSink
    refine ⟨buf, isBuf, ?_⟩
    rw [room, sized, declared, outputSize, if_neg fixed, len]
  rcases source_cases _ _ _ _ reads with rfl | rfl | rfl
  · obtain ⟨handle, rfl⟩ := finished
    refine ⟨serves, ?_, buffer source_no_sink rfl rfl⟩
    rw [prepared.same]
    exact .file fmt.frameLen handle
  · obtain ⟨handle, outcome, rfl⟩ := finished
    have same : (newRtpState fmt.frameLen true opts.rtpPtIn outcome).blkLen = toInt32 fmt.frameLen := by
      rw [newRtpState]
    refine ⟨serves, ?_, buffer source_no_sink rfl rfl⟩
    rw [prepared.same]
    exact .rtp fmt.frameLen opts.rtpPtIn handle _ same
  · obtain ⟨handle, rfl⟩ := finished
    refine ⟨serves, ?_, buffer source_no_sink rfl rfl⟩
    rw [prepared.same]
    exact .alsa fmt.frameLen handle

/-- A new sink: a stream starts with counters that are drawn at random. -/
inductive SinkStarts : QueueCall Lib → Sink → Prop where
  | file (blkLen : Nat) : SinkStarts (.fileOutput blkLen) (.file 0)
  | rtp (blkLen pt : Nat) (outcome : CallOutcome) :
      SinkStarts (.rtpOutput blkLen pt) (.rtp 0 (newRtpState blkLen false pt outcome))
  | alsa (blkLen : Nat) : SinkStarts (.alsaOutput blkLen) (.alsa 0)

def Sink.behind (calls : Nat) : Sink → Sink
  | .file _ => .file calls
  | .rtp _ state => .rtp calls state
  | .alsa _ => .alsa calls

@[simp] theorem sink_behind_calls (calls : Nat) (sink : Sink) : (sink.behind calls).calls = calls := by
  cases sink <;> rfl

theorem prepared_sink_stands
    (writes : sinkCall (platformOf build) opts stream fmt = some call)
    (made : PreparedFor (platformOf build) call item) :
    ∃ sink, SinkStarts call sink ∧ ∀ calls, SinkStands build call item (sink.behind calls) := by
  obtain ⟨queued, finished, prepared⟩ := made
  have serves : Serves (platformOf build) call item := by
    have queuedServes := finished_serves (platformOf build) finished
    rw [prepared.same]
    exact queuedServes
  rcases sink_cases _ _ _ _ writes with rfl | rfl | rfl
  · obtain ⟨handle, rfl⟩ := finished
    refine ⟨_, .file fmt.frameLen, fun calls => ⟨serves, ?_, ?_⟩⟩
    · rw [prepared.same]
      exact .file fmt.frameLen handle fmt.frameLen calls
    · rw [prepared.same]
      rfl
  · obtain ⟨handle, outcome, rfl⟩ := finished
    refine ⟨_, .rtp fmt.frameLen opts.rtpPtOut outcome, fun calls => ⟨serves, ?_, ?_⟩⟩
    · rw [prepared.same]
      exact .rtp fmt.frameLen opts.rtpPtOut handle calls _ (Nat.mod_lt _ (Nat.two_pow_pos 16))
        (Nat.mod_lt _ (Nat.two_pow_pos 32)) (Nat.mod_lt _ (Nat.two_pow_pos 32))
    · rw [prepared.same]
      rfl
  · obtain ⟨handle, rfl⟩ := finished
    refine ⟨_, .alsa fmt.frameLen, fun calls => ⟨serves, ?_, ?_⟩⟩
    · rw [prepared.same]
      exact .alsa fmt.frameLen handle fmt.frameLen calls
    · rw [prepared.same]
      rfl

end Prepared

end Gapk.Endpoints
