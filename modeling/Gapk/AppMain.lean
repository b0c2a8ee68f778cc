import Gapk.Chain
import Gapk.MainLoop

/-!
# The application

`run` and `main` around the processing queue, from the parsed options to the exit
value. What is released at the end is not part of it.
-/

namespace Gapk.AppMain

open CheckedMemory FixedWidth
open Gapk.Formats Gapk.Procqueue Gapk.Streams Gapk.QueueOps Gapk.App Gapk.Chain Gapk.MainLoop

set_option autoImplicit false

/-- What the program meets on its way: the allocations, what opening the streams
returns, what happens inside the queue calls, and the reports of the timer. -/
structure Environment where
  pqAllocated : Bool
  opened : OpenResults
  headerAllocated : Bool
  outcomes : Nat → CallOutcome
  memory : BufferAlloc
  expirations : List Nat

structure Finish where
  rv : Int
  reported : Option Int
  world : World

section Application

variable {Lib : Type} (platform : Platform Lib) (env : Environment) (opts : GapkOptions)

/-- Behind the loops: report the frames, wait for the sink, for at most that many
polls. The counter is printed as a signed number. -/
def finishRun (polls : Nat) (verdict : Verdict)
    (loop : Loop (StateContent Lib) World) : Exec (Option Finish) := do
  let reported := some (toInt32 verdict.numFrames)
  if verdict.waits then
    let item ← deref loop.pq.items.getLast?
    let wait ← deref item.wait
    return (waitSink wait item.state polls loop.world).map fun world => ⟨verdict.rv, reported, world⟩
  pure (some ⟨verdict.rv, reported, loop.world⟩)

/-- `run`, for at most that many rounds of its loops. -/
def run (rounds : Nat) (pq : Queue Lib) (world : World) : Exec (Option Finish) := do
  let (rv, pq) ← osmoGapkPqPrepare env.memory pq
  if rv ≠ 0 then return some ⟨rv, none, world⟩
  let ended ←
    if opts.throttle then runThrottled env.expirations pq world else runUnthrottled rounds pq world
  match ended with
  | none => pure none
  | some (verdict, loop) => finishRun rounds verdict loop

/-- `main`, with the options parsed. -/
def gapkMain (rounds : Nat) (world : World) : Exec (Option Finish) := do
  let rv := checkOptions platform.registry opts
  if rv ≠ 0 then return some ⟨rv, none, world⟩
  if !env.pqAllocated then return some ⟨-enomem, none, world⟩
  let (rv, input, output) := filesOpen env.opened opts
  if rv ≠ 0 then return some ⟨rv, none, world⟩
  let fmtIn ← deref opts.fmtIn
  let fmtOut ← deref opts.fmtOut
  let (rv, world) ← handleHeaders fmtIn fmtOut input output env.headerAllocated world
  if rv ≠ 0 then return some ⟨rv, none, world⟩
  let (rv, chain) ← makeProcessingChain platform env.outcomes opts input output fmtIn fmtOut
    (emptyChain Lib)
  if rv ≠ 0 then return some ⟨rv, none, world⟩
  run env opts rounds chain.pq world

end Application

end Gapk.AppMain
