import Gapk.Interrupts
import Gapk.QueueLifetimes

/-!
# Shutting down

What the program has opened and taken when it comes to the end of `main`, by whichever
way, and what `app_shutdown` closes and gives back there.
-/

namespace Gapk.Shutdown

open CheckedMemory
open Gapk.Formats Gapk.Procqueue Gapk.Streams Gapk.QueueOps Gapk.QueueLedger Gapk.Codecs Gapk.App
open Gapk.Chain Gapk.MainLoop Gapk.AppMain Gapk.Signals Gapk.WholeFile Gapk.Program Gapk.Interrupts
open Gapk.ItemOwners Gapk.QueueLifetimes

set_option autoImplicit false

/-- What `files_open` opens by itself: neither `stdin` nor `stdout`. -/
inductive Handle where
  | inFile
  | inSocket (fd : Int)
  | outFile
  | outSocket (fd : Int)
  deriving DecidableEq, Repr

section Files

section Sides

variable (named : Bool) (port : Nat) (alsa : Bool) (errno sock : Int)

def openSide : Int × Stream :=
  if named then if errno ≠ 0 then (-errno, ⟨false, -1⟩) else (0, ⟨true, -1⟩)
  else if port ≠ 0 then if sock < 0 then (sock, ⟨false, sock⟩) else (0, ⟨false, sock⟩)
  else if alsa then (0, ⟨false, -1⟩)
  else (0, ⟨true, -1⟩)

variable (file : Handle) (socket : Int → Handle)

def sideOpened : List Handle :=
  if named then if errno ≠ 0 then [] else [file]
  else if port ≠ 0 then if sock < 0 then [] else [socket sock]
  else []

def sideClose (standard : Bool) (stream : Stream) : List Handle :=
  (if stream.fh ∧ !standard then [file] else []) ++ if 0 ≤ stream.fd then [socket stream.fd] else []

/-- The file of a side is a standard stream if nothing else was asked for. -/
def isStandard : Bool := !named && decide (port = 0) && !alsa

theorem side_closed : sideClose file socket (isStandard named port alsa)
    (openSide named port alsa errno sock).2 = sideOpened named port errno sock file socket := by
  cases named with
  | true => by_cases failed : errno = 0 <;> simp [sideClose, isStandard, openSide, sideOpened, failed]
  | false =>
      by_cases noPort : port = 0
      · cases alsa <;> simp [sideClose, isStandard, openSide, sideOpened, noPort]
      · by_cases failed : sock < 0
        · simp [sideClose, isStandard, openSide, sideOpened, noPort, failed]
        · simp [sideClose, isStandard, openSide, sideOpened, noPort, failed, Int.not_lt.mp failed]

end Sides

variable (results : OpenResults) (opts : GapkOptions)

def inputOpened : List Handle :=
  sideOpened opts.fnameIn.isSome opts.rtpInPort results.fopenIn results.sockIn .inFile .inSocket

def outputOpened : List Handle :=
  sideOpened opts.fnameOut.isSome opts.rtpOutPort results.fopenOut results.sockOut .outFile .outSocket

/-- All that is open behind `files_open`, which stops at an input that cannot be opened. -/
def filesOpened : List Handle :=
  if (openInput results opts).1 ≠ 0 then inputOpened results opts
  else inputOpened results opts ++ outputOpened results opts

def closeInput (input : Stream) : List Handle :=
  sideClose .inFile .inSocket (isStandard opts.fnameIn.isSome opts.rtpInPort opts.alsaIn.isSome) input

def closeOutput (output : Stream) : List Handle :=
  sideClose .outFile .outSocket (isStandard opts.fnameOut.isSome opts.rtpOutPort opts.alsaOut.isSome)
    output

/-- `files_close`: what it closes. -/
def filesClose (input output : Stream) : List Handle :=
  closeInput opts input ++ closeOutput opts output

def nothingOpen : Stream := ⟨false, -1⟩

/-- What was opened is closed, whether `files_open` succeeds or not. -/
theorem files_closed :
    filesClose opts (filesOpen results opts).2.1 (filesOpen results opts).2.2 =
      filesOpened results opts := by
  have input : closeInput opts (openInput results opts).2 = inputOpened results opts :=
    side_closed _ _ opts.alsaIn.isSome _ _ _ _
  have output : closeOutput opts (openOutput results opts).2 = outputOpened results opts :=
    side_closed _ _ opts.alsaOut.isSome _ _ _ _
  have opening : filesOpen results opts =
      if (openInput results opts).1 ≠ 0 then
        ((openInput results opts).1, (openInput results opts).2, nothingOpen)
      else ((openOutput results opts).1, (openInput results opts).2, (openOutput results opts).2) := rfl
  rw [opening, filesOpened, filesClose]
  by_cases failed : (openInput results opts).1 ≠ 0
  · rw [if_pos failed, if_pos failed, input]
    exact List.append_nil _
  · rw [if_neg failed, if_neg failed, input, output]

end Files

section Making

variable {Lib : Type} {build : Build Lib} {outcomes : Nat → CallOutcome}

/-- How many of the calls got a state for a sound device that could not be opened. -/
def lostStates (outcomes : Nat → CallOutcome) (calls : List (QueueCall Lib)) : Nat :=
  calls.zipIdx.countP fun call => loses call.1 (outcomes call.2)

/-- A chain of at most that many items, with its states accounted for. -/
def Kept (outcomes : Nat → CallOutcome) (count : Nat) (chain : Chain Lib) : Prop :=
  chain.pq.items.length ≤ count ∧ ∃ lost, Accounted chain.pq chain.ledger lost ∧
    lost.length = lostStates outcomes (chain.calls.map Prod.fst)

theorem kept_empty (outcomes : Nat → CallOutcome) : Kept outcomes 0 (emptyChain Lib) :=
  ⟨Nat.le_refl 0, [], accounted_create "main", rfl⟩

theorem Kept.mono {count more : Nat} {chain : Chain Lib} (kept : Kept outcomes count chain)
    (le : count ≤ more) : Kept outcomes more chain :=
  ⟨kept.1.trans le, kept.2⟩

theorem lost_states_append (calls : List (QueueCall Lib)) (call : QueueCall Lib) :
    lostStates outcomes (calls ++ [call]) =
      lostStates outcomes calls + (loses call (outcomes calls.length)).toNat := by
  rw [lostStates, lostStates, List.zipIdx_append, List.countP_append, Nat.zero_add, List.zipIdx_singleton,
    List.countP_singleton]
  cases loses call (outcomes calls.length) <;> rfl

theorem loses_closed {call : QueueCall Lib} {outcome : CallOutcome} (loss : loses call outcome = true) :
    outcome.deviceOpened < 0 := by
  cases call with
  | alsaInput _ | alsaOutput _ => exact of_decide_eq_true (Bool.and_eq_true_iff.mp loss).2
  | _ => cases loss

theorem lost_states_none {calls : List (QueueCall Lib)}
    (opens : ∀ index, 0 ≤ (outcomes index).deviceOpened) : lostStates outcomes calls = 0 := by
  rw [lostStates, List.countP_eq_zero]
  intro call _ loss
  exact absurd (loses_closed loss) (Int.not_lt.mpr (opens call.2))

theorem enqueue_kept {call : QueueCall Lib} {chain after : Chain Lib} {count : Nat}
    (orderly : ∀ outcome, Orderly build.registry call outcome) (small : count + 1 < 2 ^ 32)
    (kept : Kept outcomes count chain)
    (run : enqueue (platformOf build) outcomes call chain = .ok after) :
    Kept outcomes (count + 1) after := by
  obtain ⟨short, lost, accounted, counted⟩ := kept
  obtain ⟨⟨rv, pq, ledger⟩, called, last⟩ := (exec_bind_eq_ok _ _ _).mp run
  cases last
  obtain ⟨accountedAfter, grown⟩ := queue_call_accounts build.host build.registry accounted (by omega)
    (outcomes chain.calls.length) call (orderly _) _ _ _ called
  refine ⟨grown.trans (Nat.succ_le_succ short), _, accountedAfter, ?_⟩
  rw [List.map_append, List.map_singleton, lost_states_append, List.length_map, ← counted]
  cases loses call (outcomes chain.calls.length) <;> rfl

theorem last_call_kept {call : QueueCall Lib} {chain after : Chain Lib} {rc : Int} {count : Nat}
    (orderly : ∀ outcome, Orderly build.registry call outcome) (small : count + 1 < 2 ^ 32)
    (kept : Kept outcomes count chain)
    (run : (do pure (0, ← enqueue (platformOf build) outcomes call chain)) = Except.ok (rc, after)) :
    Kept outcomes (count + 1) after := by
  obtain ⟨next, queued, last⟩ := (exec_bind_eq_ok _ _ _).mp run
  cases last
  exact enqueue_kept orderly small kept queued

/-- What a part of `make_processing_chain` may add. -/
def Adds (outcomes : Nat → CallOutcome) (more : Nat)
    (stage : Chain Lib → Exec (Int × Chain Lib)) : Prop :=
  ∀ chain after rc count, Kept outcomes count chain → count + more < 2 ^ 32 →
    stage chain = .ok (rc, after) → Kept outcomes (count + more) after

theorem adds_then {first next : Chain Lib → Exec (Int × Chain Lib)} {more others : Nat}
    (adds : Adds outcomes more first) (addsNext : Adds outcomes others next) :
    Adds outcomes (more + others) (stageThen first next) := by
  intro chain after rc count kept small run
  obtain ⟨⟨rcFirst, between⟩, staged, run⟩ := (exec_bind_eq_ok _ _ _).mp run
  have keptBetween := adds _ _ _ _ kept (by omega) staged
  simp only [] at run
  split_ifs at run
  · cases run
    exact keptBetween.mono (by omega)
  · rw [← Nat.add_assoc]
    exact addsNext _ _ _ _ keptBetween (by omega) run

variable {opts : GapkOptions} {input output : Stream} {fmtIn fmtOut : FormatDesc}

theorem input_adds : Adds outcomes 1 (queueInput (platformOf build) outcomes opts input fmtIn) := by
  intro chain after rc count kept small run
  unfold queueInput at run
  split_ifs at run
  case neg =>
    cases run
    exact kept.mono (Nat.le_succ _)
  all_goals
    refine last_call_kept ?_ small kept run
    exact fun _ => trivial

theorem output_adds : Adds outcomes 1 (queueOutput (platformOf build) outcomes opts output fmtOut) := by
  intro chain after rc count kept small run
  unfold queueOutput at run
  split_ifs at run
  case neg =>
    cases run
    exact kept.mono (Nat.le_succ _)
  all_goals
    refine last_call_kept ?_ small kept run
    exact fun _ => trivial

theorem decoding_adds : Adds outcomes 3 (queueDecoding (platformOf build) outcomes fmtIn fmtOut
    (build.registry.codecGetFromType fmtIn.codecType)) := by
  intro chain after rc count kept small run
  have convert : ∀ fmt toFromN outcome, Orderly build.registry (.fmtConvert fmt toFromN) outcome :=
    fun _ _ _ => trivial
  unfold queueDecoding at run
  split_ifs at run
  · cases found : build.registry.codecGetFromType fmtIn.codecType with
    | none =>
        rw [found] at run
        cases run
    | some codec =>
        have decode := offered_codec found false
        simp only [found, deref_some, exec_bind_ok] at run
        split_ifs at run
        · cases decoder : (platformOf build).registry.fmtGetFromType codec.codecDecFormatType with
          | none =>
              rw [decoder] at run
              cases run
              exact kept.mono (by omega)
          | some fmtDec =>
              simp only [decoder] at run
              obtain ⟨first, queued, run⟩ := (exec_bind_eq_ok _ _ _).mp run
              have keptFirst := enqueue_kept (convert _ _) (by omega) kept queued
              obtain ⟨second, queued, run⟩ := (exec_bind_eq_ok _ _ _).mp run
              have keptSecond := enqueue_kept (convert _ _) (by omega) keptFirst queued
              exact last_call_kept decode small keptSecond run
        · exact (last_call_kept decode (by omega) kept run).mono (by omega)
  · exact (last_call_kept (convert _ _) (by omega) kept run).mono (by omega)
  · cases run
    exact kept.mono (by omega)

theorem encoding_adds : Adds outcomes 3 (queueEncoding (platformOf build) outcomes fmtIn fmtOut
    (build.registry.codecGetFromType fmtOut.codecType)) := by
  intro chain after rc count kept small run
  have convert : ∀ fmt toFromN outcome, Orderly build.registry (.fmtConvert fmt toFromN) outcome :=
    fun _ _ _ => trivial
  unfold queueEncoding at run
  split_ifs at run
  · cases found : build.registry.codecGetFromType fmtOut.codecType with
    | none =>
        rw [found] at run
        cases run
    | some codec =>
        simp only [found, deref_some, exec_bind_ok] at run
        obtain ⟨first, queued, run⟩ := (exec_bind_eq_ok _ _ _).mp run
        have keptFirst := enqueue_kept (offered_codec found true) (by omega) kept queued
        split_ifs at run
        · cases encoder : (platformOf build).registry.fmtGetFromType codec.codecEncFormatType with
          | none =>
              rw [encoder] at run
              cases run
              exact keptFirst.mono (by omega)
          | some fmtEnc =>
              simp only [encoder] at run
              obtain ⟨second, queued, run⟩ := (exec_bind_eq_ok _ _ _).mp run
              have keptSecond := enqueue_kept (convert _ _) (by omega) keptFirst queued
              exact last_call_kept (convert _ _) small keptSecond run
        · cases run
          exact keptFirst.mono (by omega)
  · exact (last_call_kept (convert _ _) (by omega) kept run).mono (by omega)
  · cases run
    exact kept.mono (by omega)

theorem made_kept {chain : Chain Lib} {rc : Int}
    (made : makeProcessingChain (platformOf build) outcomes opts input output fmtIn fmtOut
      (emptyChain Lib) = .ok (rc, chain)) :
    ∃ lost, Accounted chain.pq chain.ledger lost ∧
      lost.length = lostStates outcomes (chain.calls.map Prod.fst) := by
  have check : Adds outcomes 0 fun chain : Chain Lib =>
      (do pure (← osmoGapkPqCheck chain.pq true, chain)) := by
    intro chain after rc count kept _ run
    obtain ⟨rv, _, last⟩ := (exec_bind_eq_ok _ _ _).mp run
    cases last
    exact kept
  rw [make_chain_stages] at made
  have all := adds_then input_adds (adds_then decoding_adds (adds_then encoding_adds
    (adds_then output_adds check))) _ _ _ _ (kept_empty outcomes) (by decide) made
  exact all.2

end Making

section Ending

variable {Lib : Type}

/-- `gs` as far as `app_shutdown` looks at it, the ledger, and the calls of the queue
functions that were made. -/
structure InHand (Lib : Type) where
  input : Stream
  output : Stream
  pq : Option (Queue Lib)
  ledger : Ledger
  calls : List (QueueCall Lib)

/-- Nothing is open and there is no queue. -/
def cleared : InHand Lib := ⟨nothingOpen, nothingOpen, none, .empty, []⟩

/-- `app_shutdown` without the benchmarks: what it closes, and the ledger behind it. -/
def appShutdown (opts : GapkOptions) (inHand : InHand Lib) : Exec (List Handle × Ledger) := do
  let closed := filesClose opts inHand.input inHand.output
  match inHand.pq with
  | none => pure (closed, inHand.ledger)
  | some pq => do
      let ledger ← osmoGapkPqDestroy pq inHand.ledger
      pure (closed, ledger)

def runLoops (env : Environment) (opts : GapkOptions) (rounds : Nat) (pq : Queue Lib) (world : World) :
    Exec (Option (Verdict × Loop (StateContent Lib) World)) :=
  if opts.throttle then runThrottled env.expirations pq world else runUnthrottled rounds pq world

/-- `run`, and the queue as it leaves it. -/
def runKeeping (env : Environment) (opts : GapkOptions) (rounds : Nat) (pq : Queue Lib)
    (world : World) : Exec (Option (Finish × Queue Lib)) := do
  let (rv, pq) ← osmoGapkPqPrepare env.memory pq
  if rv ≠ 0 then return some (⟨rv, none, world⟩, pq)
  match ← runLoops env opts rounds pq world with
  | none => pure none
  | some (verdict, loop) =>
      finishKeeping rounds verdict loop

/-- `main` from the creation of the queue to the label `error`. -/
def mainToError (platform : Platform Lib) (env : Environment) (opts : GapkOptions)
    (runQueue : Queue Lib → World → Exec (Option (Finish × Queue Lib))) (world : World) :
    Exec (Option (Finish × InHand Lib)) := do
  if !env.pqAllocated then return some (⟨-enomem, none, world⟩, cleared)
  let pq := osmoGapkPqCreate "main"
  let (rv, input, output) := filesOpen env.opened opts
  if rv ≠ 0 then return some (⟨rv, none, world⟩, ⟨input, output, some pq, .empty, []⟩)
  let fmtIn ← deref opts.fmtIn
  let fmtOut ← deref opts.fmtOut
  let (rv, world) ← handleHeaders fmtIn fmtOut input output env.headerAllocated world
  if rv ≠ 0 then return some (⟨rv, none, world⟩, ⟨input, output, some pq, .empty, []⟩)
  let (rv, chain) ← makeProcessingChain platform env.outcomes opts input output fmtIn fmtOut
    ⟨pq, .empty, []⟩
  if rv ≠ 0 then
    return some (⟨rv, none, world⟩,
      ⟨input, output, some chain.pq, chain.ledger, chain.calls.map Prod.fst⟩)
  let ran ← runQueue chain.pq world
  pure (ran.map fun (finish, pq) =>
    (finish, ⟨input, output, some pq, chain.ledger, chain.calls.map Prod.fst⟩))

/-- How the program ends, what it closed, the ledger that it leaves, and the calls of the
queue functions that it made. -/
structure Ending (Lib : Type) where
  finish : Finish
  closed : List Handle
  ledger : Ledger
  calls : List (QueueCall Lib)

def mainReleasing (platform : Platform Lib) (env : Environment) (opts : GapkOptions)
    (runQueue : Queue Lib → World → Exec (Option (Finish × Queue Lib))) (world : World) :
    Exec (Option (Ending Lib)) := do
  let rv := checkOptions platform.registry opts
  if rv ≠ 0 then return some ⟨⟨rv, none, world⟩, [], .empty, []⟩
  match ← mainToError platform env opts runQueue world with
  | none => pure none
  | some (finish, inHand) => do
      let (closed, ledger) ← appShutdown opts inHand
      pure (some ⟨finish, closed, ledger, inHand.calls⟩)

section Runs

/-- A queue has the same items behind a run as before it. -/
def KeepsItems (runQueue : Queue Lib → World → Exec (Option (Finish × Queue Lib))) : Prop :=
  ∀ pq world finish after, Faithful (identities pq) →
    runQueue pq world = .ok (some (finish, after)) → identities after = identities pq

variable {env : Environment} {opts : GapkOptions} {rounds : Nat} {pq : Queue Lib} {world : World}

theorem loops_keep (faithful : Faithful (identities pq))
    {ended : Verdict × Loop (StateContent Lib) World}
    (ran : runLoops env opts rounds pq world = .ok (some ended)) :
    identities ended.2.pq = identities pq := by
  unfold runLoops at ran
  split_ifs at ran
  · obtain ⟨⟨done, loop⟩, looped, ran⟩ := (exec_bind_eq_ok _ _ _).mp ran
    have same : identities loop.pq = identities (startLoop pq world).pq :=
      throttled_keeps faithful looped
    simp only [] at ran
    split_ifs at ran
    · obtain ⟨verdict, _, last⟩ := (exec_bind_eq_ok _ _ _).mp ran
      cases last
      exact same
    · cases ran
  · obtain ⟨⟨done, rv, loop⟩, looped, ran⟩ := (exec_bind_eq_ok _ _ _).mp ran
    have same : identities loop.pq = identities (startLoop pq world).pq :=
      unthrottled_keeps faithful looped
    simp only [] at ran
    split_ifs at ran
    · obtain ⟨verdict, _, last⟩ := (exec_bind_eq_ok _ _ _).mp ran
      cases last
      exact same
    · cases ran

theorem finish_leaves {verdict : Verdict} {loop : Loop (StateContent Lib) World} {finish : Finish}
    {after : Queue Lib} (ran : finishKeeping rounds verdict loop = .ok (some (finish, after))) :
    after = loop.pq := by
  obtain ⟨finished, _, last⟩ := (exec_bind_eq_ok _ _ _).mp ran
  cases finished with
  | none => cases last
  | some _ =>
      cases last
      rfl

theorem run_keeps : KeepsItems (runKeeping env opts rounds : Queue Lib → World → _) := by
  intro pq world finish after faithful ran
  obtain ⟨⟨rv, prepared⟩, prepares, ran⟩ := (exec_bind_eq_ok _ _ _).mp ran
  have same := prepare_keeps prepares
  simp only [] at ran
  by_cases failed : rv ≠ 0
  · rw [if_pos failed] at ran
    cases ran
    exact same
  · rw [if_neg failed] at ran
    obtain ⟨ended, looped, ran⟩ := (exec_bind_eq_ok _ _ _).mp ran
    cases ended with
    | none => cases ran
    | some ended =>
        rw [finish_leaves ran]
        exact (loops_keep (same ▸ faithful) looped).trans same

section Interrupted

variable {loop : Loop (StateContent Lib) World} {calls : Nat}

def queueOf : Looped (StateContent Lib) World → Queue Lib
  | .going _ loop | .stopped _ loop | .shutDown loop => loop.pq

theorem begin_execution_keeps {after : Loop (StateContent Lib) World}
    (faithful : Faithful (identities loop.pq)) (begun : beginExecution calls loop = .ok after) :
    identities after.pq = identities loop.pq := by
  obtain ⟨⟨rv, items, passed⟩, run, last⟩ := (exec_bind_eq_ok _ _ _).mp begun
  cases last
  have front : Faithful ((loop.pq.items.take calls).map identity) := by
    rw [List.map_take]
    exact fun id member => faithful id (List.mem_of_mem_take member)
  show (items ++ loop.pq.items.drop calls).map identity = loop.pq.items.map identity
  rw [List.map_append, execute_items_keep _ _ _ _ _ front run, ← List.map_append,
    List.take_append_drop]

theorem signal_keeps {after : Loop (StateContent Lib) World} (raised : signalHandler loop = some after) :
    after.pq = loop.pq := by
  unfold signalHandler at raised
  split_ifs at raised
  cases raised
  rfl

theorem interrupted_execute_keeps {comes : Bool} {rv : Option Int}
    {after : Loop (StateContent Lib) World} (faithful : Faithful (identities loop.pq))
    (run : interruptedExecute calls comes loop = .ok (rv, after)) :
    identities after.pq = identities loop.pq := by
  have whole : ∀ {start : Loop (StateContent Lib) World}, start.pq = loop.pq →
      (do
        let (rv, loop) ← start.execute
        pure (some rv, loop)) = Except.ok (rv, after) → identities after.pq = identities loop.pq := by
    intro start same run
    obtain ⟨⟨rv, next⟩, executed, last⟩ := (exec_bind_eq_ok _ _ _).mp run
    cases last
    rw [← same] at faithful ⊢
    exact loop_execute_keeps faithful executed
  unfold interruptedExecute at run
  cases comes with
  | false => exact whole rfl run
  | true =>
      rw [if_pos rfl] at run
      cases raised : signalHandler loop with
      | none =>
          rw [raised] at run
          obtain ⟨next, begun, last⟩ := (exec_bind_eq_ok _ _ _).mp run
          cases last
          exact begin_execution_keeps faithful begun
      | some flagged =>
          rw [raised] at run
          exact whole (signal_keeps raised) run

theorem interrupted_loop_keeps {begun : Nat} {rv : Int} {looped : Looped (StateContent Lib) World}
    (faithful : Faithful (identities loop.pq))
    (ran : interruptedLoop calls rounds begun rv loop = .ok looped) :
    identities (queueOf looped) = identities loop.pq := by
  induction rounds generalizing begun rv loop with
  | zero =>
      cases ran
      rfl
  | succ rounds ih =>
      rw [interruptedLoop] at ran
      split_ifs at ran
      · cases ran
        rfl
      · obtain ⟨⟨rvNow, next⟩, executed, ran⟩ := (exec_bind_eq_ok _ _ _).mp ran
        have same := interrupted_execute_keeps faithful executed
        cases rvNow with
        | none =>
            cases ran
            exact same
        | some rvNow =>
            simp only [] at ran
            split_ifs at ran
            · cases ran
              exact same
            · have goesOn : Faithful (identities next.countFrame.pq) := same ▸ faithful
              exact (ih goesOn ran).trans same

theorem interrupted_batch_keeps {expireCount begun : Nat} {looped : Looped (StateContent Lib) World}
    (faithful : Faithful (identities loop.pq))
    (ran : interruptedTimerfdCb calls expireCount begun loop = .ok looped) :
    identities (queueOf looped) = identities loop.pq := by
  induction expireCount generalizing begun loop with
  | zero =>
      cases ran
      rfl
  | succ expireCount ih =>
      obtain ⟨⟨rc, next⟩, executed, ran⟩ := (exec_bind_eq_ok _ _ _).mp ran
      have counted : Faithful (identities loop.countFrame.pq) := faithful
      have same : identities next.pq = identities loop.countFrame.pq :=
        interrupted_execute_keeps counted executed
      cases rc with
      | none =>
          cases ran
          exact same
      | some rc =>
          have flagged : (if rc < 0 then { next with exit := true } else next).pq = next.pq := by
            split_ifs <;> rfl
          have goesOn := ih (by rw [flagged, same]; exact faithful) ran
          rw [flagged] at goesOn
          exact goesOn.trans same

theorem interrupted_timer_keeps {expirations : List Nat} {begun : Nat}
    {looped : Looped (StateContent Lib) World} (faithful : Faithful (identities loop.pq))
    (ran : interruptedTimer calls expirations begun loop = .ok looped) :
    identities (queueOf looped) = identities loop.pq := by
  induction expirations generalizing begun loop with
  | nil =>
      rw [interruptedTimer] at ran
      split_ifs at ran <;> cases ran <;> rfl
  | cons expireCount rest ih =>
      rw [interruptedTimer] at ran
      split_ifs at ran
      · cases ran
        rfl
      · obtain ⟨batch, batched, ran⟩ := (exec_bind_eq_ok _ _ _).mp ran
        have same := interrupted_batch_keeps faithful batched
        cases batch with
        | going rv next => exact (ih (by rw [← same] at faithful; exact faithful) ran).trans same
        | stopped rv next | shutDown next =>
            cases ran
            exact same

theorem ended_leaves {reported : Option Int} {finish : Finish} {after : Queue Lib}
    (ran : (pure (ended reported loop) : Exec (Option (Finish × Queue Lib))) =
      .ok (some (finish, after))) : after = loop.pq := by
  cases ran
  rfl

theorem finish_interrupted_leaves {moment : Moment} {rv : Int} {finish : Finish} {after : Queue Lib}
    (ran : finishInterrupted moment rounds rv loop = .ok (some (finish, after))) :
    after = loop.pq := by
  have told : ∀ {start : Loop (StateContent Lib) World},
      (do finishKeeping rounds (← verdict rv start) start) = Except.ok (some (finish, after)) →
      after = start.pq := by
    intro start ran
    obtain ⟨_, _, ran⟩ := (exec_bind_eq_ok _ _ _).mp ran
    exact finish_leaves ran
  unfold finishInterrupted at ran
  cases moment with
  | execution begun calls => exact told ran
  | unreported | reported =>
      cases raised : signalHandler loop with
      | none =>
          rw [raised] at ran
          exact ended_leaves ran
      | some flagged =>
          rw [raised] at ran
          exact (told ran).trans (signal_keeps raised)
  | waiting polls =>
      obtain ⟨verdict, _, ran⟩ := (exec_bind_eq_ok _ _ _).mp ran
      by_cases waits : verdict.waits = true
      · simp only [waits, if_true] at ran
        obtain ⟨item, _, ran⟩ := (exec_bind_eq_ok _ _ _).mp ran
        obtain ⟨wait, _, ran⟩ := (exec_bind_eq_ok _ _ _).mp ran
        have waited := Except.ok.inj ran
        obtain ⟨next, found, last⟩ := Option.map_eq_some_iff.mp waited
        cases last
        exact (interrupted_wait_eq wait item.state rounds polls loop).2 next found
      · simp only [waits, Bool.false_eq_true, if_false] at ran
        cases raised : signalHandler loop with
        | none =>
            rw [raised] at ran
            exact ended_leaves ran
        | some flagged =>
            rw [raised] at ran
            cases ran
            exact signal_keeps raised

theorem looped_leaves {moment : Moment} {looped : Looped (StateContent Lib) World} {finish : Finish}
    {after : Queue Lib} (ran : (match looped with
      | .going _ _ => pure none
      | .stopped rv loop => finishInterrupted moment rounds rv loop
      | .shutDown loop => pure (ended none loop)) = Except.ok (some (finish, after))) :
    identities after = identities (queueOf looped) := by
  cases looped with
  | going rv loop => cases ran
  | stopped rv loop => rw [finish_interrupted_leaves ran, queueOf]
  | shutDown loop => rw [ended_leaves ran, queueOf]

theorem run_interrupted_keeps (moment : Moment) :
    KeepsItems (runInterrupted env opts moment rounds : Queue Lib → World → _) := by
  intro pq world finish after faithful ran
  obtain ⟨⟨rv, prepared⟩, prepares, ran⟩ := (exec_bind_eq_ok _ _ _).mp ran
  have same := prepare_keeps prepares
  simp only [] at ran
  by_cases failed : rv ≠ 0
  · rw [if_pos failed] at ran
    cases ran
    exact same
  · rw [if_neg failed] at ran
    have start : Faithful (identities prepared) := same ▸ faithful
    split_ifs at ran
    · obtain ⟨looped, loops, ran⟩ := (exec_bind_eq_ok _ _ _).mp ran
      exact (looped_leaves ran).trans ((interrupted_timer_keeps start loops).trans same)
    · obtain ⟨looped, loops, ran⟩ := (exec_bind_eq_ok _ _ _).mp ran
      exact (looped_leaves ran).trans ((interrupted_loop_keeps start loops).trans same)

end Interrupted

theorem run_forgets : forgetful (runKeeping env opts rounds) =
    (run env opts rounds : Queue Lib → World → _) := by
  funext pq world
  have finishes : ∀ looped : Exec (Option (Verdict × Loop (StateContent Lib) World)),
      Except.map (Option.map Prod.fst) (do
        match ← looped with
        | none => pure none
        | some (verdict, loop) =>
            let finish ← finishRun rounds verdict loop
            pure (finish.map fun finish => (finish, loop.pq))) = (do
        match ← looped with
        | none => pure none
        | some (verdict, loop) => finishRun rounds verdict loop) := by
    intro looped
    cases looped with
    | error fault => rfl
    | ok ended =>
        cases ended with
        | none => rfl
        | some ended => exact finish_forgets ended.1 ended.2
  rw [forgetful, runKeeping, run]
  cases osmoGapkPqPrepare env.memory pq with
  | error fault => rfl
  | ok prepared =>
      obtain ⟨rv, prepared⟩ := prepared
      simp only [exec_bind_ok]
      by_cases failed : rv ≠ 0
      · rw [if_pos failed, if_pos failed]
        rfl
      · rw [if_neg failed, if_neg failed]
        refine (finishes _).trans ?_
        rw [runLoops]
        split_ifs <;> rfl

end Runs

section Main

variable {build : Build Lib} {env : Environment} {opts : GapkOptions} {world : World}
  {runQueue : Queue Lib → World → Exec (Option (Finish × Queue Lib))}

/-- All that is open when `main` comes to its label. -/
def opened (env : Environment) (opts : GapkOptions) : List Handle :=
  if env.pqAllocated then filesOpened env.opened opts else []

/-- All that is open can be closed, and the states of the queue are accounted for. -/
structure InOrder (env : Environment) (opts : GapkOptions) (inHand : InHand Lib) : Prop where
  streams : filesClose opts inHand.input inHand.output = opened env opts
  states : ∃ pq lost, Accounted pq inHand.ledger lost ∧
    lost.length = lostStates env.outcomes inHand.calls ∧
    identities (inHand.pq.getD (osmoGapkPqCreate "main")) = identities pq

theorem nothing_taken : ∃ pq lost, Accounted (pq : Queue Lib) .empty lost ∧
    lost.length = lostStates env.outcomes ([] : List (QueueCall Lib)) ∧
    identities (osmoGapkPqCreate "main") = identities pq :=
  ⟨osmoGapkPqCreate "main", [], accounted_create "main", rfl, rfl⟩

/-- By whichever way `main` comes to its label, everything is in order there. -/
theorem main_in_order (keeps : KeepsItems runQueue) {finish : Finish} {inHand : InHand Lib}
    (ran : mainToError (platformOf build) env opts runQueue world = .ok (some (finish, inHand))) :
    InOrder env opts inHand := by
  unfold mainToError at ran
  cases allocated : env.pqAllocated with
  | false =>
      rw [allocated] at ran
      cases ran
      refine ⟨?_, nothing_taken⟩
      rw [opened, allocated]
      rfl
  | true =>
      have streams := files_closed env.opened opts
      have isOpened : opened env opts = filesOpened env.opened opts := by
        rw [opened, allocated]
        rfl
      rw [allocated] at ran
      rw [← isOpened] at streams
      generalize filesOpen env.opened opts = files at ran streams
      obtain ⟨rv, input, output⟩ := files
      simp only [Bool.not_true, Bool.false_eq_true, if_false] at ran streams
      by_cases unopened : rv ≠ 0
      · rw [if_pos unopened] at ran
        cases ran
        exact ⟨streams, nothing_taken⟩
      · rw [if_neg unopened] at ran
        obtain ⟨fmtIn, _, ran⟩ := (exec_bind_eq_ok _ _ _).mp ran
        obtain ⟨fmtOut, _, ran⟩ := (exec_bind_eq_ok _ _ _).mp ran
        obtain ⟨⟨rv, worldRun⟩, _, ran⟩ := (exec_bind_eq_ok _ _ _).mp ran
        simp only [] at ran
        by_cases unheaded : rv ≠ 0
        · rw [if_pos unheaded] at ran
          cases ran
          exact ⟨streams, nothing_taken⟩
        · rw [if_neg unheaded] at ran
          obtain ⟨⟨rc, chain⟩, made, ran⟩ := (exec_bind_eq_ok _ _ _).mp ran
          obtain ⟨lost, accounted, counted⟩ := made_kept made
          simp only [] at ran
          by_cases unmade : rc ≠ 0
          · rw [if_pos unmade] at ran
            cases ran
            exact ⟨streams, chain.pq, lost, accounted, counted, rfl⟩
          · rw [if_neg unmade] at ran
            obtain ⟨ended, kept, last⟩ := (exec_bind_eq_ok _ _ _).mp ran
            cases ended with
            | none => cases last
            | some ended =>
                obtain ⟨finishRun, after⟩ := ended
                cases last
                exact ⟨streams, chain.pq, lost, accounted, counted,
                  keeps _ _ _ _ accounted.faithful kept⟩

theorem main_to_error_forgets {platform : Platform Lib}
    (accepted : checkOptions platform.registry opts = 0) :
    (mainToError platform env opts runQueue world).map (Option.map Prod.fst) =
      mainWith platform env opts (forgetful runQueue) world := by
  simp only [mainToError, mainWith, accepted, emptyChain]
  cases env.pqAllocated with
  | false => rfl
  | true =>
      generalize filesOpen env.opened opts = files
      obtain ⟨rv, input, output⟩ := files
      simp only [Bool.not_true, Bool.false_eq_true, if_false, ne_eq, not_true_eq_false]
      by_cases unopened : rv = 0
      · rw [if_neg (not_not.mpr unopened), if_neg (not_not.mpr unopened)]
        cases opts.fmtIn with
        | none => rfl
        | some fmtIn =>
            cases opts.fmtOut with
            | none => rfl
            | some fmtOut =>
                simp only [deref_some, exec_bind_ok]
                cases handleHeaders fmtIn fmtOut input output env.headerAllocated world with
                | error fault => rfl
                | ok headed =>
                    obtain ⟨rv, worldRun⟩ := headed
                    simp only [exec_bind_ok]
                    by_cases unheaded : rv = 0
                    · rw [if_neg (not_not.mpr unheaded), if_neg (not_not.mpr unheaded)]
                      cases makeProcessingChain platform env.outcomes opts input output fmtIn fmtOut
                          ⟨osmoGapkPqCreate "main", .empty, []⟩ with
                      | error fault => rfl
                      | ok made =>
                          obtain ⟨rc, chain⟩ := made
                          simp only [exec_bind_ok]
                          by_cases unmade : rc = 0
                          · rw [if_neg (not_not.mpr unmade), if_neg (not_not.mpr unmade), forgetful]
                            cases runQueue chain.pq worldRun with
                            | error fault => rfl
                            | ok ended => cases ended <;> rfl
                          · rw [if_pos unmade, if_pos unmade]
                            rfl
                    · rw [if_pos unheaded, if_pos unheaded]
                      rfl
      · rw [if_pos unopened, if_pos unopened]
        rfl

/-- How a program ends that keeps order: it has closed what it had opened and given back
every state once, and misses exactly one for each sound device that it could not open. -/
structure GivesBack (closed : List Handle) (outcomes : Nat → CallOutcome) (ending : Ending Lib) :
    Prop where
  closed : ending.closed = closed
  states : ∃ lost, (ending.ledger.released ++ lost).Perm (List.range ending.ledger.next) ∧
    lost.length = lostStates outcomes ending.calls

theorem shutdown_gives_back {inHand : InHand Lib} (inOrder : InOrder env opts inHand)
    (finish : Finish) :
    ∃ closed ledger, appShutdown opts inHand = .ok (closed, ledger) ∧
      GivesBack (opened env opts) env.outcomes ⟨finish, closed, ledger, inHand.calls⟩ := by
  obtain ⟨streams, pq, lost, accounted, counted, same⟩ := inOrder
  obtain ⟨final, destroyed, _, all⟩ := destroy_accounted accounted same
  refine ⟨_, final, ?_, streams, lost, all, counted⟩
  rw [appShutdown]
  cases present : inHand.pq with
  | none =>
      rw [present] at destroyed
      cases destroyed
      rfl
  | some last =>
      rw [present] at destroyed
      simp only [Option.getD_some] at destroyed
      simp only [destroyed, exec_bind_ok]
      rfl

/-- The release at the end goes well and is complete, and it is the only difference to the
program that ends without it. -/
structure Releases (build : Build Lib) (env : Environment) (opts : GapkOptions)
    (runQueue : Queue Lib → World → Exec (Option (Finish × Queue Lib))) (world : World)
    (plain : Exec (Option Finish)) : Prop where
  same : (mainReleasing (platformOf build) env opts runQueue world).map (Option.map Ending.finish) =
    plain
  complete : ∀ ending, mainReleasing (platformOf build) env opts runQueue world = .ok (some ending) →
    GivesBack (if checkOptions build.registry opts = 0 then opened env opts else []) env.outcomes ending

theorem main_releases (keeps : KeepsItems runQueue) : Releases build env opts runQueue world
    (mainWith (platformOf build) env opts (forgetful runQueue) world) := by
  by_cases accepted : checkOptions (platformOf build).registry opts = 0
  · have sameRegistry : checkOptions build.registry opts = 0 := accepted
    rw [← main_to_error_forgets accepted]
    cases toError : mainToError (platformOf build) env opts runQueue world with
    | error fault =>
        have same : mainReleasing (platformOf build) env opts runQueue world = .error fault := by
          rw [mainReleasing, if_neg (not_not.mpr accepted), toError]
          rfl
        refine ⟨congrArg _ same, ?_⟩
        intro ending ended
        cases same.symm.trans ended
    | ok reached =>
        cases reached with
        | none =>
            have same : mainReleasing (platformOf build) env opts runQueue world = .ok none := by
              rw [mainReleasing, if_neg (not_not.mpr accepted), toError]
              rfl
            refine ⟨congrArg _ same, ?_⟩
            intro ending ended
            cases same.symm.trans ended
        | some reached =>
            obtain ⟨finish, inHand⟩ := reached
            obtain ⟨closed, ledger, shut, gives⟩ :=
              shutdown_gives_back (main_in_order keeps toError) finish
            have same : mainReleasing (platformOf build) env opts runQueue world =
                .ok (some ⟨finish, closed, ledger, inHand.calls⟩) := by
              rw [mainReleasing, if_neg (not_not.mpr accepted), toError]
              simp only [exec_bind_ok, shut]
              rfl
            refine ⟨congrArg _ same, ?_⟩
            intro ending ended
            cases same.symm.trans ended
            rw [if_pos sameRegistry]
            exact gives
  · have refused : ¬checkOptions build.registry opts = 0 := accepted
    have same : mainReleasing (platformOf build) env opts runQueue world =
        .ok (some ⟨⟨checkOptions build.registry opts, none, world⟩, [], .empty, []⟩) := by
      rw [mainReleasing, if_pos accepted]
      rfl
    refine ⟨?_, ?_⟩
    · rw [same, mainWith, if_pos accepted]
      rfl
    · intro ending ended
      cases same.symm.trans ended
      rw [if_neg refused]
      exact ⟨rfl, [], List.Perm.refl _, rfl⟩

end Main

end Ending

/-- On every way through `main`, with or without a timer, and whenever SIGINT comes in
`run`, a program that ends has closed what it had opened and given back every state once,
save for those of sound devices that it could not open. -/
theorem main_gives_back {Lib : Type} (build : Build Lib) (env : Environment) (opts : GapkOptions)
    (rounds : Nat) (world : World) :
    Releases build env opts (runKeeping env opts rounds) world
        (gapkMain (platformOf build) env opts rounds world) ∧
      ∀ moment, Releases build env opts (runInterrupted env opts moment rounds) world
        (interruptedMain (platformOf build) env opts moment rounds world) := by
  constructor
  · rw [gapk_main_eq, ← run_forgets]
    exact main_releases run_keeps
  · intro moment
    exact main_releases (run_interrupted_keeps moment)

/-- A file is decoded: both files are closed again, and no state is left. -/
theorem decoded_file_gives_back :
    ∃ ending, mainReleasing (platformOf .idle) decodedFile.env decodedFile.request.opts
        (runKeeping decodedFile.env decodedFile.request.opts 68) (zeroFile 67) = .ok (some ending) ∧
      ending.closed = [.inFile, .outFile] ∧
      ending.ledger.released.Perm (List.range ending.ledger.next) := by
  obtain ⟨course, stations, start, chain, prepared, ready⟩ := decodedFile.gets_ready decoded_file_fixed
  have few : (decodedFile.records course.source stations start (zeroFile 67)).length < 68 :=
    (Invocation.records_length_le course.source (zeroFile 67)).trans_lt (by decide)
  obtain ⟨finish, ran, _⟩ := Invocation.ready_finishes ready
    (decoded_file_regular _ course.source ready.begins.reads) few (by decide)
  obtain ⟨same, complete⟩ :=
    (main_gives_back .idle decodedFile.env decodedFile.request.opts 68 (zeroFile 67)).1
  rw [ran] at same
  cases ended : mainReleasing (platformOf .idle) decodedFile.env decodedFile.request.opts
      (runKeeping decodedFile.env decodedFile.request.opts 68) (zeroFile 67) with
  | error fault =>
      rw [ended] at same
      cases same
  | ok result =>
      cases result with
      | none =>
          rw [ended] at same
          cases same
      | some ending =>
          obtain ⟨closed, lost, all, counted⟩ := complete ending ended
          have none : lost = [] := by
            rw [lost_states_none fun index => (decodedFile.works index).opened] at counted
            exact List.length_eq_zero_iff.mp counted
          rw [none, List.append_nil] at all
          exact ⟨ending, rfl, closed, all⟩

end Gapk.Shutdown
