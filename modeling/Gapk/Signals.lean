import Gapk.AppMain

/-!
# SIGINT

The first SIGINT sets a flag that the loops of `run` look at between two executions,
and so does a failing execution of the loop with a timer. A signal that finds the flag
set ends the program where it is. Nobody looks at the flag while the sink is waited for.
-/

namespace Gapk.Signals

open CheckedMemory FixedWidth
open Gapk.Formats Gapk.Procqueue Gapk.Streams Gapk.QueueOps Gapk.App Gapk.MainLoop Gapk.AppMain

set_option autoImplicit false

/-- When SIGINT comes, if it comes once in `run`. -/
inductive Moment where
  /-- So many executions have begun, and so many call-backs of the last one returned. -/
  | execution (begun calls : Nat)
  /-- The loop is over, and the frames are not reported yet. -/
  | unreported
  /-- The frames are reported, and the flag was not tested for the last time yet. -/
  | reported
  /-- The sink was polled so many times; or it is not waited for at all. -/
  | waiting (polls : Nat)
  deriving DecidableEq, Repr

namespace Moment

/-- The number of the execution that the signal comes in; zero for none. -/
def begun : Moment → Nat
  | .execution begun _ => begun
  | .unreported | .reported | .waiting _ => 0

def calls : Moment → Nat
  | .execution _ calls => calls
  | .unreported | .reported | .waiting _ => 0

def isFirst : Moment → Bool
  | .execution begun _ => begun = 0
  | .unreported | .reported | .waiting _ => false

end Moment

section Loops

variable {State World : Type}

/-- `signal_handler`: `gs->exit++`, or nothing if it shuts the program down. -/
def signalHandler (loop : Loop State World) : Option (Loop State World) :=
  if loop.exit then none else some { loop with exit := true }

/-- An execution up to that many returned call-backs. -/
def beginExecution (calls : Nat) (loop : Loop State World) : Exec (Loop State World) := do
  let (_, items, passed) ← executeItems (loop.pq.items.take calls)
    { buf := none, len := 0, world := loop.world }
  pure { loop with
    pq := { loop.pq with items := items ++ loop.pq.items.drop calls }
    world := passed.world }

/-- An execution, in which the signal comes or not; it returns nothing if the program
ends in it. -/
def interruptedExecute (calls : Nat) (comes : Bool) (loop : Loop State World) :
    Exec (Option Int × Loop State World) :=
  if comes then
    match signalHandler loop with
    | none => do
        let loop ← beginExecution calls loop
        pure (none, loop)
    | some loop => do
        let (rv, loop) ← loop.execute
        pure (some rv, loop)
  else do
    let (rv, loop) ← loop.execute
    pure (some rv, loop)

/-- How a loop is left: it needs more rounds, it has stopped, or the program has ended in it. -/
inductive Looped (State World : Type) where
  | going (rv : Int) (loop : Loop State World)
  | stopped (rv : Int) (loop : Loop State World)
  | shutDown (loop : Loop State World)

/-- The loop without a timer. The signal comes in the execution number `begun`. -/
def interruptedLoop (calls : Nat) :
    Nat → Nat → Int → Loop State World → Exec (Looped State World)
  | 0, _, rv, loop => pure (.going rv loop)
  | rounds + 1, begun, rv, loop =>
      if loop.exit then pure (.stopped rv loop)
      else do
        match ← interruptedExecute calls (begun = 1) loop with
        | (none, loop) => pure (.shutDown loop)
        | (some rv, loop) =>
            if rv ≠ 0 then pure (.stopped rv loop)
            else interruptedLoop calls rounds (begun - 1) rv loop.countFrame

/-- `timerfd_cb`, which does not look at the flag between its executions. -/
def interruptedTimerfdCb (calls : Nat) : Nat → Nat → Loop State World → Exec (Looped State World)
  | 0, _, loop => pure (.going 0 loop)
  | expireCount + 1, begun, loop => do
      match ← interruptedExecute calls (begun = 1) loop.countFrame with
      | (none, loop) => pure (.shutDown loop)
      | (some rc, loop) =>
          interruptedTimerfdCb calls expireCount (begun - 1)
            (if rc < 0 then { loop with exit := true } else loop)

def interruptedTimer (calls : Nat) :
    List Nat → Nat → Loop State World → Exec (Looped State World)
  | [], _, loop => pure (if loop.exit then .stopped 0 loop else .going 0 loop)
  | expireCount :: rest, begun, loop =>
      if loop.exit then pure (.stopped 0 loop)
      else do
        match ← interruptedTimerfdCb calls expireCount begun loop with
        | .going _ loop => interruptedTimer calls rest (begun - expireCount) loop
        | ended => pure ended

/-- The wait for the sink. The flag was clear when it began, so the signal sets it. -/
def interruptedWait (wait : WaitCb State World) (state : ItemState State) :
    Nat → Nat → Loop State World → Option (Loop State World)
  | 0, _, _ => none
  | rounds + 1, polls, loop =>
      let loop := if polls = 0 then { loop with exit := true } else loop
      let (busy, world) := wait state loop.world
      let loop := { loop with world := world }
      if busy then interruptedWait wait state rounds (polls - 1) loop else some loop

end Loops

section Runs

variable {Lib : Type}

def finishKeeping (rounds : Nat) (verdict : Verdict) (loop : Loop (StateContent Lib) World) :
    Exec (Option (Finish × Queue Lib)) := do
  let finish ← finishRun rounds verdict loop
  pure (finish.map fun finish => (finish, loop.pq))

/-- The handler has shut the program down. -/
def ended (reported : Option Int) (loop : Loop (StateContent Lib) World) :
    Option (Finish × Queue Lib) :=
  some (⟨0, reported, loop.world⟩, loop.pq)

/-- What `run` does behind a loop that was over, if the signal comes at that moment. -/
def finishInterrupted (moment : Moment) (rounds : Nat) (rv : Int)
    (loop : Loop (StateContent Lib) World) : Exec (Option (Finish × Queue Lib)) := do
  let reported := some (toInt32 loop.numFrames)
  match moment with
  | .execution _ _ => finishKeeping rounds (← verdict rv loop) loop
  | .unreported =>
      match signalHandler loop with
      | none => pure (ended none loop)
      | some loop => finishKeeping rounds (← verdict rv loop) loop
  | .reported =>
      match signalHandler loop with
      | none => pure (ended reported loop)
      | some loop => finishKeeping rounds (← verdict rv loop) loop
  | .waiting polls =>
      let verdict ← verdict rv loop
      if verdict.waits then
        let item ← deref loop.pq.items.getLast?
        let wait ← deref item.wait
        return (interruptedWait wait item.state rounds polls loop).map fun loop =>
          (⟨verdict.rv, reported, loop.world⟩, loop.pq)
      match signalHandler loop with
      | none => pure (ended reported loop)
      | some loop => pure (some (⟨verdict.rv, reported, loop.world⟩, loop.pq))

variable (env : Environment) (opts : GapkOptions)

/-- `run` with SIGINT at that moment, and the queue as it leaves it. -/
def runInterrupted (moment : Moment) (rounds : Nat) (pq : Queue Lib) (world : World) :
    Exec (Option (Finish × Queue Lib)) := do
  let (rv, pq) ← osmoGapkPqPrepare env.memory pq
  if rv ≠ 0 then return some (⟨rv, none, world⟩, pq)
  let start := { startLoop pq world with exit := moment.isFirst }
  let looped ←
    if opts.throttle then interruptedTimer moment.calls env.expirations moment.begun start
    else interruptedLoop moment.calls rounds moment.begun 0 start
  match looped with
  | .going _ _ => pure none
  | .stopped rv loop => finishInterrupted moment rounds rv loop
  | .shutDown loop => pure (ended none loop)

def forgetful (runQueue : Queue Lib → World → Exec (Option (Finish × Queue Lib))) (pq : Queue Lib)
    (world : World) : Exec (Option Finish) :=
  (runQueue pq world).map (Option.map Prod.fst)

end Runs

end Gapk.Signals
