import Gapk.ProgramInputs
import Gapk.Signals

/-!
# Interrupted runs

A run without a timer that SIGINT interrupts in its loop has written the records of the
executions that had begun, reports them and does not wait for its sink. A signal that
comes while it waits makes no difference.
-/

namespace Gapk.Interrupts

open CheckedMemory BitBuffer FixedWidth Blocks Pipeline
open Gapk.Formats Gapk.Procqueue Gapk.Streams Gapk.QueueOps Gapk.QueueLedger Gapk.Codecs Gapk.App
open Gapk.Chain Gapk.AppMain Gapk.WholeFile Gapk.MainLoop Gapk.Signals Gapk.Stages Gapk.Endpoints
open Gapk.Session Gapk.Program

set_option autoImplicit false

section Loops

variable {State World : Type}

def flagged (comes : Bool) (loop : Loop State World) : Loop State World :=
  if comes then { loop with exit := true } else loop

variable {calls rounds count begun : Nat} {rv rvEnd : Int} {loop after : Loop State World} {done : Bool}

section Rounds

variable {rvNow : Int} {next : Loop State World} (running : loop.exit = false)
  (executed : loop.execute = .ok (rvNow, next))

include running executed

end Rounds

theorem interrupted_wait_eq (wait : WaitCb State World) (state : ItemState State) (rounds : Nat) :
    ∀ (polls : Nat) (loop : Loop State World),
      (interruptedWait wait state rounds polls loop).map Loop.world =
          waitSink wait state rounds loop.world ∧
        ∀ after ∈ interruptedWait wait state rounds polls loop, after.pq = loop.pq := by
  induction rounds with
  | zero => exact fun polls loop => ⟨rfl, fun after member => absurd member (Option.not_mem_none after)⟩
  | succ rounds ih =>
      intro polls loop
      have world : (if polls = 0 then { loop with exit := true } else loop).world = loop.world := by
        split_ifs <;> rfl
      have pq : (if polls = 0 then { loop with exit := true } else loop).pq = loop.pq := by
        split_ifs <;> rfl
      simp only [interruptedWait, waitSink, world]
      cases busy : (wait state loop.world).1 with
      | false =>
          refine ⟨rfl, fun after member => ?_⟩
          cases member
          exact pq
      | true =>
          obtain ⟨waits, keeps⟩ := ih (polls - 1)
            { (if polls = 0 then { loop with exit := true } else loop) with
              world := (wait state loop.world).2 }
          exact ⟨waits, fun after member => (keeps after member).trans pq⟩

end Loops

section Records

variable {Lib : Type} {build : Build Lib} {course : Course build} {stations : List (Station Lib)}
  {sink : Sink} {ok : Nat → Bool}

end Records

section Runs

variable {Lib : Type} {build : Build Lib}

/-- How many executions of the loop had begun when the flag was set, if the run looks at
it once more. The last execution is the one that fails. -/
def seen (executions : Nat) : Moment → Option Nat
  | .execution begun _ => if begun ≤ executions then some begun else none
  | .unreported | .reported => some executions
  | .waiting _ => none

variable {course : Course build} {stations : List (Station Lib)} {sink : Sink}
  {call : QueueCall Lib} {pq prepared : Queue Lib} {world : World} {records : List Buf}
  {env : Environment} {opts : GapkOptions} {rounds begun : Nat} {rvEnd : Int}

theorem finish_forgets (verdict : Verdict) (loop : Loop (StateContent Lib) World) :
    Except.map (Option.map Prod.fst) (finishKeeping rounds verdict loop) =
      finishRun rounds verdict loop := by
  rw [finishKeeping]
  cases finishRun rounds verdict loop with
  | error fault => rfl
  | ok finished => cases finished <;> rfl

section Ends

variable (unthrottled : opts.throttle = false)
  (prepares : osmoGapkPqPrepare env.memory pq = .ok (0, prepared)) (moment : Moment)
  {after : Loop (StateContent Lib) World}

include unthrottled prepares

end Ends

end Runs

section Program

variable {Lib : Type} {build : Build Lib} {setup : Invocation build}

def interruptedMain (platform : Platform Lib) (env : Environment) (opts : GapkOptions)
    (moment : Moment) (rounds : Nat) (world : World) : Exec (Option Finish) :=
  mainWith platform env opts (forgetful (runInterrupted env opts moment rounds)) world

end Program

end Gapk.Interrupts
