import Gapk.Procqueue

/-!
# Input and output streams

What the call-backs of a queue reach outside of their arguments: one input and
one output, each a file, a socket or a sound device, and the states that the
items keep about them.
-/

namespace Gapk.Streams

open CheckedMemory
open Gapk.Procqueue

set_option autoImplicit false

/-- Outcomes of coming operations are given from outside: the datagrams and
samples that arrive, with `none` for a failed read, and whether the n-th write
to the sink succeeds. Behind the end of the datagrams every read fails. -/
structure World where
  inFile : Buf
  outFile : Buf
  datagramsIn : List (Option Buf)
  datagramsOut : List Buf
  samplesIn : List (Option Buf)
  samplesOut : Buf
  sinkOk : Nat → Bool
  sinkCalls : Nat
  /-- Number of polls for which the sound device stays busy. -/
  sinkBusy : Nat

structure PqStateRtp where
  blkLen : Int
  duration : Nat
  payloadType : Nat
  sequence : Nat
  timestamp : Nat
  ssrc : Nat
  deriving DecidableEq, Repr

/-- `struct osmo_ecu_fr_state` of libosmocodec. -/
structure EcuFrState where
  subsequentLostFrame : Bool
  frameBackup : Buf
  deriving DecidableEq, Repr

/-- States of queue items. `Lib` is the state of a codec library. -/
inductive StateContent (Lib : Type) where
  | file (blkLen : Nat)
  | rtp (state : PqStateRtp)
  | alsa (blkLen : Nat)
  | ecu (state : EcuFrState)
  | codec (state : Lib)

section States

variable {Lib : Type}

abbrev State (Lib : Type) := ItemState (StateContent Lib)

/-- A call-back casts its state pointer; it is never called on another kind. -/
def fileState : State Lib → Exec Nat
  | .heap _ (.file blkLen) => pure blkLen
  | _ => throw .nullPointer

def rtpState : State Lib → Exec PqStateRtp
  | .heap _ (.rtp state) => pure state
  | _ => throw .nullPointer

def alsaState : State Lib → Exec Nat
  | .heap _ (.alsa blkLen) => pure blkLen
  | _ => throw .nullPointer

def ecuState : State Lib → Exec EcuFrState
  | .heap _ (.ecu state) => pure state
  | _ => throw .nullPointer

def codecState : State Lib → Exec Lib
  | .heap _ (.codec state) => pure state
  | _ => throw .nullPointer

def withContent (state : State Lib) (content : StateContent Lib) : State Lib :=
  match state with
  | .heap handle _ => .heap handle content
  | other => other

end States

namespace World

/-- `fread(.., size, 1, fh)`: the number of blocks, the bytes transferred. -/
def fread (world : World) (size : Nat) : Nat × Buf × World :=
  if size = 0 then (0, [], world)
  else if size ≤ world.inFile.length then
    (1, world.inFile.take size, { world with inFile := world.inFile.drop size })
  else (0, world.inFile, { world with inFile := [] })

def countWrite (world : World) : Bool × World :=
  (world.sinkOk world.sinkCalls, { world with sinkCalls := world.sinkCalls + 1 })

def fwrite (world : World) (data : Buf) : Nat × World :=
  if data.length = 0 then (0, world)
  else
    let (done, world) := world.countWrite
    if done then (1, { world with outFile := world.outFile ++ data }) else (0, world)

/-- `read(fd, buf, size)` of the socket, which cuts a longer datagram off. With no
datagram left the read fails, where a blocking socket would wait for the next one: a
world ends with the read that never returns. -/
def readSocket (world : World) (size : Nat) : Int × Buf × World :=
  match world.datagramsIn with
  | [] => (-1, [], world)
  | none :: rest => (-1, [], { world with datagramsIn := rest })
  | some datagram :: rest =>
      ((datagram.take size).length, datagram.take size, { world with datagramsIn := rest })

def writeSocket (world : World) (data : Buf) : Int × World :=
  let (done, world) := world.countWrite
  if done then (data.length, { world with datagramsOut := world.datagramsOut ++ [data] })
  else (-1, world)

end World

end Gapk.Streams
