import Gapk.Procqueue

/-!
# Main loop

The two ways to run a queue: as fast as it goes, or paced by a timer that
reports how often it has expired. Both loops tell after the given steps whether
they have ended, and keep the results of the executions.
-/

namespace Gapk.MainLoop

open CheckedMemory FixedWidth
open Gapk.Procqueue

set_option autoImplicit false

structure Loop (State World : Type) where
  pq : Pq State World
  world : World
  numFrames : Nat
  exit : Bool
  /-- What the calls of `osmo_gapk_pq_execute` returned so far. -/
  executed : List Int

section Loops

variable {State World : Type}

def Loop.countFrame (loop : Loop State World) : Loop State World :=
  { loop with numFrames := (loop.numFrames + 1) % 2 ^ 32 }

def Loop.execute (loop : Loop State World) : Exec (Int × Loop State World) := do
  let (rv, pq, world) ← osmoGapkPqExecute loop.pq loop.world
  pure (rv, { loop with pq := pq, world := world, executed := loop.executed ++ [rv] })

/-- The loop without a timer, for at most that many rounds. -/
def unthrottledLoop : Nat → Int → Loop State World → Exec (Bool × Int × Loop State World)
  | 0, rv, loop => pure (false, rv, loop)
  | rounds + 1, rv, loop =>
      if loop.exit then pure (true, rv, loop)
      else do
        let (rv, loop) ← loop.execute
        if rv ≠ 0 then pure (true, rv, loop)
        else unthrottledLoop rounds rv loop.countFrame

/-- `timerfd_cb` for a timer that has expired `expireCount` times. -/
def timerfdCb : Nat → Loop State World → Exec (Loop State World)
  | 0, loop => pure loop
  | expireCount + 1, loop => do
      let (rc, loop) ← loop.countFrame.execute
      timerfdCb expireCount (if rc < 0 then { loop with exit := true } else loop)

def throttledLoop : List Nat → Loop State World → Exec (Bool × Loop State World)
  | [], loop => pure (loop.exit, loop)
  | expireCount :: rest, loop =>
      if loop.exit then pure (true, loop)
      else do
        let loop ← timerfdCb expireCount loop
        throttledLoop rest loop

def startLoop (pq : Pq State World) (world : World) : Loop State World :=
  { pq := pq, world := world, numFrames := 0, exit := false, executed := [] }

/-- What `run` does behind the loops: the calls it made, the frame counter, whether
it waits for the sink, and what it returns. -/
structure Verdict where
  executed : List Int
  numFrames : Nat
  waits : Bool
  rv : Int
  deriving DecidableEq, Repr

def verdict (rv : Int) (loop : Loop State World) : Exec Verdict := do
  let item ← deref loop.pq.items.getLast?
  touch item
  pure {
    executed := loop.executed
    numFrames := loop.numFrames
    waits := item.wait.isSome && !loop.exit
    rv := if loop.numFrames > 0 then 0 else rv }

def runUnthrottled (rounds : Nat) (pq : Pq State World) (world : World) :
    Exec (Option (Verdict × Loop State World)) := do
  let (done, rv, loop) ← unthrottledLoop rounds 0 (startLoop pq world)
  if done then return some (← verdict rv loop, loop)
  pure none

/-- The branch of `run` with a timer. Setting the timer up leaves `rv` at zero. -/
def runThrottled (expirations : List Nat) (pq : Pq State World) (world : World) :
    Exec (Option (Verdict × Loop State World)) := do
  let (done, loop) ← throttledLoop expirations (startLoop pq world)
  if done then return some (← verdict 0 loop, loop)
  pure none

/-- `while (item->wait(item->state)) continue;`, for at most that many polls. -/
def waitSink (wait : WaitCb State World) (state : ItemState State) : Nat → World → Option World
  | 0, _ => none
  | polls + 1, world =>
      let (busy, world) := wait state world
      if busy then waitSink wait state polls world else some world

end Loops

end Gapk.MainLoop
