import Gapk.LosslessDetours

/-!
# Frames over RTP

A sender, a network that may lose, repeat and reorder datagrams, and a receiver on
a host of its own. The receiver ends as a run that reads the frames of the datagrams
it gets from a file, and these are the frames that the sender would have written.
-/

namespace Gapk.RtpRelay

open CheckedMemory BitBuffer FixedWidth Blocks Pipeline
open Gapk.Formats Gapk.Procqueue Gapk.Streams Gapk.PqRtp Gapk.RtpStream Gapk.QueueOps
open Gapk.QueueLedger Gapk.Codecs Gapk.App Gapk.Chain Gapk.Options Gapk.AppMain Gapk.WholeFile
open Gapk.PayloadLengths Gapk.Stages Gapk.Endpoints Gapk.Session Gapk.Program Gapk.Detours

set_option autoImplicit false

section Packets

/-- A frame on its way, and the counters of its datagram. -/
structure Packet where
  rtp : PqStateRtp
  frame : Buf

def Packet.datagram (packet : Packet) : Buf := datagramOf packet.rtp packet.frame

end Packets

section Relays

variable {Here There : Type} {here : Build Here} {there : Build There}

end Relays

section Relay

open Gapk.LosslessDetours

end Relay

end Gapk.RtpRelay
