import Gapk.Options

/-!
# Reporting incomplete chains

The application looks at no return value while it builds a chain. A failed call
is noticed by the final check or not at all, and the check sees nothing but the
kinds and lengths of the items that are left.
-/

namespace Gapk.ChainComplete

open CheckedMemory HostWords
open Gapk.Formats Gapk.Procqueue Gapk.Streams Gapk.QueueOps Gapk.QueueLedger Gapk.Codecs Gapk.App
open Gapk.Chain Gapk.Options

set_option autoImplicit false

section Build

variable {Lib : Type} (build : Build Lib) (request : AcceptedOptions build.registry)
  (input output : Stream) (outcomes : Nat → CallOutcome)

def intendedCalls : Option (List (QueueCall Lib)) :=
  plan (platformOf build) request.opts input output request.fmtIn request.fmtOut

/-- Every call returned zero, and the queue consists of the finished items of all
intended calls, each with its call-back. -/
structure BuiltCompletely (chain : Chain Lib) : Prop where
  succeeded : ∀ log ∈ chain.calls, log.2 = 0
  complete : ∃ calls ∈ intendedCalls build request input output,
    chain.calls.map Prod.fst = calls ∧
      List.Forall₂ (Finished (platformOf build)) calls chain.pq.items
  ready : ∀ item ∈ chain.pq.items, item.proc.isSome

/-- A chain is reported as built only if it was built completely. -/
def ReportsFailures : Prop :=
  ∀ chain, makeProcessingChain (platformOf build) outcomes request.opts input output request.fmtIn
      request.fmtOut (emptyChain Lib) = .ok (0, chain) →
    BuiltCompletely build request input output chain

/-- Calls that all succeed, or whose remains the check refuses. -/
def FailuresShow (calls : List (QueueCall Lib)) : Prop :=
  (∀ pair ∈ resultsFrom outcomes 0 calls, pair.2 = .finished) ∨
    ¬Fits (survivors (platformOf build) (resultsFrom outcomes 0 calls))

theorem planned_reports_failures_iff {calls : List (QueueCall Lib)}
    (planned : intendedCalls build request input output = some calls) :
    ReportsFailures build request input output outcomes ↔ FailuresShow build outcomes calls := by
  obtain ⟨rc, after, run, fits, left, logged⟩ := make_chain_result (platformOf build)
    request.opts input output request.fmtIn request.fmtOut outcomes planned
    (plan_resolves build request input output planned)
  obtain ⟨sameCalls, allSucceeded⟩ := logged_succeeded logged
  rw [results_from_calls] at sameCalls
  constructor
  · intro reports
    by_cases fitting : Fits (survivors (platformOf build) (resultsFrom outcomes 0 calls))
    · have zero := fits.mpr fitting
      rw [zero] at run
      exact Or.inl (allSucceeded.mpr (reports after run).succeeded)
    · exact Or.inr fitting
  · intro shows chain built
    rw [run] at built
    cases built
    rcases shows with all | unfit
    · obtain ⟨complete, ready⟩ := finished_items (platformOf build) (left_all_finished _ left all)
      rw [results_from_calls] at complete
      exact ⟨allSucceeded.mp all, ⟨calls, planned, sameCalls, complete⟩, ready⟩
    · exact absurd (fits.mp rfl) unfit

/-- The application reports a failure exactly when the check can see it. -/
theorem chain_reports_failures_iff :
    ReportsFailures build request input output outcomes ↔
      ∀ calls ∈ intendedCalls build request input output, FailuresShow build outcomes calls := by
  cases planned : intendedCalls build request input output with
  | none =>
      constructor
      · intro _ calls member
        cases member
      · intro _ chain run
        exact absurd run (make_chain_unplanned _ _ _ _ _ _ _ planned _ _)
  | some calls =>
      rw [planned_reports_failures_iff build request input output outcomes planned]
      simp

end Build

def gsmToRacal : AcceptedOptions Build.idle.registry where
  opts := ⟨some "in", 0, none, some FmtGsm.fmtGsm, some "out", 0, none,
    some (FmtRacal.fmtRacalFr (.identity 260)), 0, 0, false⟩
  fmtIn := FmtGsm.fmtGsm
  fmtOut := FmtRacal.fmtRacalFr (.identity 260)
  isIn := rfl
  isOut := rfl
  registeredIn := Build.gsm_registered
  registeredOut := rfl
  accepted := rfl

def secondCallFails (index : Nat) : CallOutcome :=
  { workingOutcome with itemAllocated := decide (index ≠ 1) }

/-- A conversion between frames of one length is missing, and the chain is
reported as built. -/
theorem missing_conversion_unreported :
    ¬∀ (build : Build Unit) (request : AcceptedOptions build.registry) (input output : Stream)
      (outcomes : Nat → CallOutcome), ReportsFailures build request input output outcomes := by
  intro always
  have reports := always .idle gsmToRacal ⟨true, -1⟩ ⟨true, -1⟩ secondCallFails
  have shows := (planned_reports_failures_iff .idle gsmToRacal ⟨true, -1⟩ ⟨true, -1⟩ secondCallFails
    rfl).mp reports
  rcases shows with all | unfit
  · exact nomatch all _ (List.mem_cons_of_mem _ List.mem_cons_self)
  · exact unfit (by decide)

end Gapk.ChainComplete
