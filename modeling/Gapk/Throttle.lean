import Gapk.MainLoop
import Gapk.QueueOps
import Gapk.QueueRuns

/-!
# Throttled and unthrottled runs

Both loops make the same calls while every execution succeeds. After the first
failure they part: the timer call-back goes on to the end of its batch, counts
the frame that failed, and leaves the exit flag behind.
-/

namespace Gapk.Throttle

open CheckedMemory FixedWidth
open Gapk.Procqueue Gapk.MainLoop Gapk.Streams Gapk.QueueOps
open Gapk.QueueRuns hiding Reached

set_option autoImplicit false

section Executions

variable {State World : Type}

def executions : Nat → Pq State World → World → Exec (List Int × Pq State World × World)
  | 0, pq, world => pure ([], pq, world)
  | count + 1, pq, world => do
      let (rv, pq, world) ← osmoGapkPqExecute pq world
      let (results, pq, world) ← executions count pq world
      pure (rv :: results, pq, world)

def NeverNegative (bound : Nat) (pq : Pq State World) (world : World) : Prop :=
  ∀ count ≤ bound, ∀ results after worldAfter,
    executions count pq world = .ok (results, after, worldAfter) → ∀ rv ∈ results, 0 ≤ rv

/-- The first negative value is returned after that many executions. -/
inductive FailsAfter : Nat → Pq State World → World → Prop where
  | now {pq after : Pq State World} {world worldAfter : World} {rv : Int}
      (run : osmoGapkPqExecute pq world = .ok (rv, after, worldAfter)) (negative : rv < 0) :
      FailsAfter 0 pq world
  | later {count : Nat} {pq after : Pq State World} {world worldAfter : World}
      (run : osmoGapkPqExecute pq world = .ok (0, after, worldAfter))
      (others : FailsAfter count after worldAfter) : FailsAfter (count + 1) pq world

theorem execute_nonpositive {pq after : Pq State World} {world worldAfter : World} {rv : Int}
    (run : osmoGapkPqExecute pq world = .ok (rv, after, worldAfter)) : rv ≤ 0 := by
  obtain ⟨items, passed, itemsRun, _, _⟩ := execute_ok run
  rcases execute_outcome _ _ _ _ _ itemsRun with ⟨_, _, _, _, _, _, negative⟩ | ⟨zero, _⟩
  · omega
  · omega

theorem executions_succ {count : Nat} {pq between : Pq State World} {world worldBetween : World}
    {rv : Int} (run : osmoGapkPqExecute pq world = .ok (rv, between, worldBetween)) :
    executions (count + 1) pq world =
      (executions count between worldBetween).map fun r => (rv :: r.1, r.2.1, r.2.2) := by
  simp only [executions, run, exec_bind_ok]
  cases executions count between worldBetween <;> rfl

theorem executions_succ_fault {count : Nat} {pq : Pq State World} {world : World} {fault : Fault}
    (run : osmoGapkPqExecute pq world = .error fault) :
    executions (count + 1) pq world = .error fault := by
  rw [executions, run]
  rfl

theorem never_negative_step {bound : Nat} {pq after : Pq State World} {world worldAfter : World}
    {rv : Int} (never : NeverNegative (bound + 1) pq world)
    (run : osmoGapkPqExecute pq world = .ok (rv, after, worldAfter)) :
    rv = 0 ∧ NeverNegative bound after worldAfter := by
  constructor
  · have once : executions 1 pq world = .ok ([rv], after, worldAfter) := executions_succ run
    have low := never 1 (by omega) _ _ _ once rv (List.mem_singleton_self rv)
    have high := execute_nonpositive run
    omega
  · intro count within results last worldLast more other member
    have all : executions (count + 1) pq world = .ok (rv :: results, last, worldLast) := by
      rw [executions_succ run, more]
      rfl
    exact never _ (by omega) _ _ _ all other (List.mem_cons_of_mem _ member)

theorem executions_append (first second : Nat) (pq : Pq State World) (world : World) :
    executions (first + second) pq world =
      executions first pq world >>= fun r =>
        (executions second r.2.1 r.2.2).map fun s => (r.1 ++ s.1, s.2.1, s.2.2) := by
  induction first generalizing pq world with
  | zero =>
      rw [Nat.zero_add, executions, exec_pure, exec_bind_ok]
      cases executions second pq world <;> rfl
  | succ first ih =>
      rw [Nat.add_right_comm]
      cases run : osmoGapkPqExecute pq world with
      | error fault =>
          rw [executions_succ_fault run, executions_succ_fault run]
          rfl
      | ok result =>
          obtain ⟨rv, between, worldBetween⟩ := result
          rw [executions_succ run, executions_succ run, ih]
          cases executions first between worldBetween with
          | error fault => rfl
          | ok ended =>
              show Except.map _ (Except.map _ (executions second _ _)) = Except.map _ _
              cases executions second ended.2.1 ended.2.2 <;> rfl

theorem never_negative_executions {count more : Nat} {pq after : Pq State World}
    {world worldAfter : World} {results : List Int} (never : NeverNegative (count + more) pq world)
    (run : executions count pq world = .ok (results, after, worldAfter)) :
    NeverNegative more after worldAfter := by
  intro later within others last worldLast laterRun rv member
  have all : executions (count + later) pq world = .ok (results ++ others, last, worldLast) := by
    rw [executions_append, run, exec_bind_ok, laterRun]
    rfl
  exact never _ (by omega) _ _ _ all rv (List.mem_append_right _ member)

theorem never_negative_mono {bound lower : Nat} {pq : Pq State World} {world : World}
    (never : NeverNegative bound pq world) (below : lower ≤ bound) :
    NeverNegative lower pq world :=
  fun count within => never count (within.trans below)

/-- If some execution is negative, there is a first one. -/
theorem fails_of_negative (count : Nat) :
    ∀ (pq : Pq State World) (world : World) (results : List Int) (after : Pq State World)
      (worldAfter : World), executions count pq world = .ok (results, after, worldAfter) →
      (∃ rv ∈ results, rv < 0) → ∃ first < count, FailsAfter first pq world := by
  induction count with
  | zero =>
      rintro pq world results after worldAfter run ⟨rv, member, _⟩
      cases run
      cases member
  | succ count ih =>
      rintro pq world results after worldAfter run ⟨rv, member, negative⟩
      obtain ⟨⟨first, between, worldBetween⟩, firstRun, rest⟩ := (exec_bind_eq_ok _ _ _).mp run
      obtain ⟨⟨others, last, worldLast⟩, othersRun, same⟩ := (exec_bind_eq_ok _ _ _).mp rest
      cases same
      by_cases failed : first < 0
      · exact ⟨0, Nat.succ_pos count, .now firstRun failed⟩
      · have zero : first = 0 := by
          have high := execute_nonpositive firstRun
          omega
        rw [zero] at firstRun member
        rcases List.mem_cons.mp member with rfl | later
        · exact absurd negative (by decide)
        · obtain ⟨index, below, fails⟩ := ih _ _ _ _ _ othersRun ⟨rv, later, negative⟩
          exact ⟨index + 1, Nat.succ_lt_succ below, .later firstRun fails⟩

theorem never_negative_or_fails (bound : Nat) (pq : Pq State World) (world : World) :
    NeverNegative bound pq world ∨ ∃ first < bound, FailsAfter first pq world := by
  by_cases never : NeverNegative bound pq world
  · exact Or.inl never
  · unfold NeverNegative at never
    simp only [not_forall, Int.not_le] at never
    obtain ⟨count, within, results, after, worldAfter, run, rv, member, negative⟩ := never
    obtain ⟨first, below, fails⟩ := fails_of_negative count _ _ _ _ _ run ⟨rv, member, negative⟩
    exact Or.inr ⟨first, by omega, fails⟩

end Executions

section Loops

variable {State World : Type}

/-- A running loop after some executions with these results. -/
structure Reached (loop : Loop State World) (results : List Int) (pq : Pq State World)
    (world : World) (after : Loop State World) : Prop where
  pq : after.pq = pq
  world : after.world = world
  executed : after.executed = loop.executed ++ results
  running : after.exit = false

/-- A loop makes exactly these executions, and goes on running. -/
def Follows (loop : Loop State World) (run : Exec (List Int × Pq State World × World))
    (result : Exec (Bool × Loop State World)) : Prop :=
  match run with
  | .error fault => result = .error fault
  | .ok (results, pq, world) =>
      ∃ after, result = .ok (false, after) ∧ Reached loop results pq world after

def advanced (loop : Loop State World) (rv : Int) (pq : Pq State World) (world : World) :
    Loop State World :=
  { loop with pq := pq, world := world, executed := loop.executed ++ [rv] }

theorem loop_execute_eq (loop : Loop State World) {rv : Int} {pq : Pq State World} {world : World}
    (run : osmoGapkPqExecute loop.pq loop.world = .ok (rv, pq, world)) :
    loop.execute = .ok (rv, advanced loop rv pq world) := by
  rw [Loop.execute, run]
  rfl

theorem loop_execute_fault (loop : Loop State World) {fault : Fault}
    (run : osmoGapkPqExecute loop.pq loop.world = .error fault) : loop.execute = .error fault := by
  rw [Loop.execute, run]
  rfl

theorem follows_step {loop : Loop State World} (next : Loop State World) {count : Nat} {pq : Pq State World}
    {world : World} {result : Exec (Bool × Loop State World)}
    (run : osmoGapkPqExecute loop.pq loop.world = .ok (0, pq, world))
    (reached : Reached loop [0] pq world next)
    (follows : Follows next (executions count next.pq next.world) result) :
    Follows loop (executions (count + 1) loop.pq loop.world) result := by
  rw [executions_succ run]
  rw [reached.pq, reached.world] at follows
  unfold Follows at follows ⊢
  cases more : executions count pq world with
  | error fault =>
      rw [more] at follows
      exact follows
  | ok ended =>
      rw [more] at follows
      obtain ⟨after, same, end_⟩ := follows
      refine ⟨after, same, end_.pq, end_.world, ?_, end_.running⟩
      rw [end_.executed, reached.executed, List.append_assoc]
      rfl

theorem follows_append {loop : Loop State World} {first second : Nat}
    {batch : Exec (Loop State World)} {next : Loop State World → Exec (Bool × Loop State World)}
    (front : Follows loop (executions first loop.pq loop.world)
      (batch.map fun after => (false, after)))
    (others : ∀ results after, executions first loop.pq loop.world =
        .ok (results, after.pq, after.world) → after.exit = false →
      Follows after (executions second after.pq after.world) (next after)) :
    Follows loop (executions (first + second) loop.pq loop.world) (batch >>= next) := by
  rw [executions_append]
  unfold Follows at front
  cases run : executions first loop.pq loop.world with
  | error fault =>
      rw [run] at front
      cases batch with
      | error other =>
          cases front
          rfl
      | ok after => cases front
  | ok result =>
      obtain ⟨results, pq, world⟩ := result
      rw [run] at front
      obtain ⟨after, same, reached⟩ := front
      cases batch with
      | error other => cases same
      | ok reachedLoop =>
          cases same
          have rest := others results after (by rw [run, reached.pq, reached.world]) reached.running
          rw [reached.pq, reached.world] at rest
          unfold Follows at rest ⊢
          simp only [exec_bind_ok]
          cases more : executions second pq world with
          | error fault =>
              rw [more] at rest
              exact rest
          | ok last =>
              rw [more] at rest
              obtain ⟨final, finalRun, end_⟩ := rest
              refine ⟨final, finalRun, end_.pq, end_.world, ?_, end_.running⟩
              rw [end_.executed, reached.executed, List.append_assoc]

theorem unthrottled_follows (rounds : Nat) :
    ∀ (rv : Int) (loop : Loop State World), loop.exit = false →
      NeverNegative rounds loop.pq loop.world →
      Follows loop (executions rounds loop.pq loop.world)
        ((unthrottledLoop rounds rv loop).map fun r => (r.1, r.2.2)) := by
  induction rounds with
  | zero =>
      intro rv loop running never
      exact ⟨loop, rfl, rfl, rfl, (List.append_nil _).symm, running⟩
  | succ rounds ih =>
      intro rv loop running never
      rw [unthrottledLoop, running]
      cases run : osmoGapkPqExecute loop.pq loop.world with
      | error fault =>
          rw [loop_execute_fault loop run, executions_succ_fault run]
          rfl
      | ok result =>
          obtain ⟨first, pq, world⟩ := result
          obtain ⟨rfl, never⟩ := never_negative_step never run
          rw [loop_execute_eq loop run]
          refine follows_step (advanced loop 0 pq world).countFrame run ⟨rfl, rfl, rfl, running⟩ ?_
          exact ih 0 _ running never

theorem timerfd_cb_follows (count : Nat) :
    ∀ loop : Loop State World, loop.exit = false → NeverNegative count loop.pq loop.world →
      Follows loop (executions count loop.pq loop.world)
        ((timerfdCb count loop).map fun after => (false, after)) := by
  induction count with
  | zero =>
      intro loop running never
      exact ⟨loop, rfl, rfl, rfl, (List.append_nil _).symm, running⟩
  | succ count ih =>
      intro loop running never
      rw [timerfdCb]
      cases run : osmoGapkPqExecute loop.pq loop.world with
      | error fault =>
          rw [loop_execute_fault loop.countFrame run, executions_succ_fault run]
          rfl
      | ok result =>
          obtain ⟨first, pq, world⟩ := result
          obtain ⟨rfl, never⟩ := never_negative_step never run
          rw [loop_execute_eq loop.countFrame run]
          refine follows_step (advanced loop.countFrame 0 pq world) run
            ⟨rfl, rfl, rfl, running⟩ ?_
          exact ih _ running never

theorem throttled_follows (expirations : List Nat) :
    ∀ loop : Loop State World, loop.exit = false →
      NeverNegative expirations.sum loop.pq loop.world →
      Follows loop (executions expirations.sum loop.pq loop.world)
        (throttledLoop expirations loop) := by
  induction expirations with
  | nil =>
      intro loop running never
      refine ⟨loop, ?_, rfl, rfl, (List.append_nil _).symm, running⟩
      rw [throttledLoop, running]
      rfl
  | cons expireCount rest ih =>
      intro loop running never
      rw [List.sum_cons] at never ⊢
      have batch := timerfd_cb_follows expireCount loop running
        (never_negative_mono never (Nat.le_add_right _ _))
      rw [throttledLoop, running]
      refine follows_append batch ?_
      intro results after run stillRunning
      exact ih after stillRunning (never_negative_executions never run)

/-- What a loop has done so far: whether it has ended, and its executions with
the state they led to. -/
def observed (ended : Bool × Loop State World) : Bool × List Int × Pq State World × World :=
  (ended.1, ended.2.executed, ended.2.pq, ended.2.world)

theorem follows_observed {loop : Loop State World}
    {run : Exec (List Int × Pq State World × World)} {result : Exec (Bool × Loop State World)}
    (follows : Follows loop run result) :
    result.map observed = run.map fun r => (false, loop.executed ++ r.1, r.2.1, r.2.2) := by
  unfold Follows at follows
  cases run with
  | error fault =>
      rw [follows]
      rfl
  | ok ended =>
      obtain ⟨after, rfl, reached⟩ := follows
      show Except.ok (false, after.executed, after.pq, after.world) = _
      rw [reached.executed, reached.pq, reached.world]
      rfl

end Loops

section Failures

variable {State World : Type}

/-- Executions neither add nor remove items, and free none. -/
def SameItems (before after : Pq State World) : Prop :=
  after.items.map PqItem.freed = before.items.map PqItem.freed

theorem execute_items_same (items : List (PqItem State World)) :
    ∀ (passed : Passed World) (rv : Int) (after : List (PqItem State World))
      (passedAfter : Passed World), executeItems items passed = .ok (rv, after, passedAfter) →
      after.map PqItem.freed = items.map PqItem.freed := by
  induction items with
  | nil =>
      intro passed rv after passedAfter run
      cases run
      rfl
  | cons item rest ih =>
      intro passed rv after passedAfter run
      obtain ⟨result, _, ⟨_, _, rfl, _⟩ | ⟨_, restAfter, restRun, rfl⟩⟩ := execute_cons_ok run
      · rfl
      · rw [List.map_cons, ih _ _ _ _ restRun]
        rfl

theorem execute_same_items {pq after : Pq State World} {world worldAfter : World} {rv : Int}
    (run : osmoGapkPqExecute pq world = .ok (rv, after, worldAfter)) : SameItems pq after := by
  obtain ⟨items, passed, itemsRun, rfl, _⟩ := execute_ok run
  exact execute_items_same _ _ _ _ _ itemsRun

theorem fails_nonempty {first : Nat} {pq : Pq State World} {world : World}
    (fails : FailsAfter first pq world) : pq.items ≠ [] := by
  induction fails with
  | now run negative =>
      intro empty
      rw [osmoGapkPqExecute, empty] at run
      cases run
      exact absurd negative (by decide)
  | later run _ ih =>
      intro empty
      have same := execute_same_items run
      rw [SameItems, empty] at same
      exact ih (List.map_eq_nil_iff.mp same)

/-- A loop after that many executions more, of which it counted some as frames. -/
structure Counted (loop after : Loop State World) (made frames : Nat) : Prop where
  executed : after.executed.length = loop.executed.length + made
  numFrames : after.numFrames % 2 ^ 32 = (loop.numFrames + frames) % 2 ^ 32
  items : SameItems loop.pq after.pq

theorem counted_advanced {loop : Loop State World} {rv : Int} {pq : Pq State World} {world : World}
    (run : osmoGapkPqExecute loop.pq loop.world = .ok (rv, pq, world)) :
    Counted loop (advanced loop rv pq world) 1 0 where
  executed := by simp [advanced]
  numFrames := rfl
  items := execute_same_items run

theorem counted_frame (loop : Loop State World) : Counted loop loop.countFrame 0 1 where
  executed := rfl
  numFrames := by simp [Loop.countFrame]
  items := rfl

theorem counted_trans {loop between after : Loop State World}
    {made frames more others total allFrames : Nat} (first : Counted loop between made frames)
    (second : Counted between after more others) (madeSum : total = made + more)
    (framesSum : allFrames = frames + others) : Counted loop after total allFrames where
  executed := by
    rw [second.executed, first.executed, madeSum, Nat.add_assoc]
  numFrames := by
    have earlier := first.numFrames
    rw [second.numFrames, framesSum]
    omega
  items := second.items.trans first.items

theorem counted_exit {loop after : Loop State World} {made frames : Nat}
    (counted : Counted loop after made frames) (exit : Bool) :
    Counted loop { after with exit := exit } made frames :=
  ⟨counted.executed, counted.numFrames, counted.items⟩

theorem unthrottled_stops {first : Nat} {pq : Pq State World} {world : World}
    (fails : FailsAfter first pq world) :
    ∀ (rounds : Nat) (rv : Int) (loop : Loop State World), loop.pq = pq → loop.world = world →
      loop.exit = false →
      (∃ last after, unthrottledLoop rounds rv loop = .ok (false, last, after)) ∨
        ∃ last after, unthrottledLoop rounds rv loop = .ok (true, last, after) ∧
          Counted loop after (first + 1) first := by
  induction fails with
  | @now _ after _ worldAfter value run negative =>
      rintro rounds rv loop rfl rfl running
      cases rounds with
      | zero => exact Or.inl ⟨rv, loop, rfl⟩
      | succ rounds =>
          refine Or.inr ⟨value, advanced loop value after worldAfter, ?_, counted_advanced run⟩
          have failed : value ≠ 0 := by omega
          rw [unthrottledLoop, running, loop_execute_eq loop run]
          exact if_pos failed
  | @later count _ next _ worldNext run _ ih =>
      rintro rounds rv loop rfl rfl running
      cases rounds with
      | zero => exact Or.inl ⟨rv, loop, rfl⟩
      | succ rounds =>
          have counted : Counted loop (advanced loop 0 next worldNext).countFrame 1 1 :=
            counted_trans (counted_advanced run) (counted_frame _) rfl rfl
          rw [unthrottledLoop, running, loop_execute_eq loop run]
          rcases ih rounds 0 (advanced loop 0 next worldNext).countFrame rfl rfl running with
            stillRunning | ⟨last, after, ended, stopped⟩
          · exact Or.inl stillRunning
          · exact Or.inr ⟨last, after, ended,
              counted_trans counted stopped (by omega) (by omega)⟩

theorem timerfd_cb_step (count : Nat) {loop : Loop State World} {rv : Int} {pq : Pq State World}
    {world : World} (run : osmoGapkPqExecute loop.pq loop.world = .ok (rv, pq, world)) :
    timerfdCb (count + 1) loop =
      timerfdCb count { advanced loop.countFrame rv pq world with
        exit := if rv < 0 then true else loop.exit } := by
  rw [timerfdCb, loop_execute_eq loop.countFrame run, exec_bind_ok]
  by_cases failed : rv < 0
  · simp only [if_pos failed]
  · simp only [if_neg failed]
    rfl

/-- A defined call of the timer call-back counts as many frames as it executes. -/
theorem timerfd_cb_counts (count : Nat) :
    ∀ loop after : Loop State World, timerfdCb count loop = .ok after →
      Counted loop after count count ∧ (loop.exit = true → after.exit = true) := by
  induction count with
  | zero =>
      intro loop after run
      cases run
      exact ⟨⟨rfl, rfl, rfl⟩, id⟩
  | succ count ih =>
      intro loop after run
      cases executed : osmoGapkPqExecute loop.pq loop.world with
      | error fault =>
          rw [timerfdCb, loop_execute_fault loop.countFrame executed] at run
          cases run
      | ok result =>
          obtain ⟨rv, pq, world⟩ := result
          have step : Counted loop (advanced loop.countFrame rv pq world) 1 1 :=
            counted_trans (counted_frame loop) (counted_advanced executed) rfl rfl
          rw [timerfd_cb_step count executed] at run
          obtain ⟨counted, exits⟩ := ih _ _ run
          refine ⟨counted_trans (counted_exit step _) counted (by omega) (by omega), ?_⟩
          intro exited
          refine exits ?_
          rw [exited, ite_self]

/-- A batch that ends in front of the failure. -/
theorem timerfd_cb_before (count first : Nat) :
    ∀ loop : Loop State World, loop.exit = false →
      FailsAfter (count + first) loop.pq loop.world →
      ∃ after, timerfdCb count loop = .ok after ∧ after.exit = false ∧
        FailsAfter first after.pq after.world := by
  induction count with
  | zero =>
      intro loop running fails
      rw [Nat.zero_add] at fails
      exact ⟨loop, rfl, running, fails⟩
  | succ count ih =>
      intro loop running fails
      rw [Nat.add_right_comm] at fails
      cases fails with
      | later run others =>
          rw [timerfd_cb_step count run]
          exact ih _ running others

theorem timerfd_cb_fails {first : Nat} {pq : Pq State World} {world : World}
    (fails : FailsAfter first pq world) :
    ∀ (count : Nat) (loop after : Loop State World), loop.pq = pq → loop.world = world →
      first < count → timerfdCb count loop = .ok after → after.exit = true := by
  induction fails with
  | @now _ next _ worldNext value run negative =>
      rintro (_ | count) loop after rfl rfl within ended
      · omega
      · rw [timerfd_cb_step count run] at ended
        exact (timerfd_cb_counts count _ _ ended).2 (if_pos negative)
  | @later _ _ next _ worldNext run _ ih =>
      rintro (_ | count) loop after rfl rfl within ended
      · omega
      · rw [timerfd_cb_step count run] at ended
        exact ih count _ after rfl rfl (by omega) ended

theorem throttled_exited (expirations : List Nat) {loop : Loop State World}
    (exited : loop.exit = true) : throttledLoop expirations loop = .ok (true, loop) := by
  cases expirations with
  | nil =>
      rw [throttledLoop, exited]
      rfl
  | cons expireCount rest =>
      rw [throttledLoop, exited]
      rfl

/-- With the timer the loop ends behind the batch with the failure, if it ends at
all: every execution of the batch is made and counted. -/
theorem throttled_stops (expirations : List Nat) :
    ∀ (first : Nat) (loop : Loop State World), loop.exit = false →
      FailsAfter first loop.pq loop.world → first < expirations.sum →
      (∃ fault, throttledLoop expirations loop = .error fault) ∨
        ∃ after total, throttledLoop expirations loop = .ok (true, after) ∧ first < total ∧
          Counted loop after total total := by
  induction expirations with
  | nil =>
      intro first loop running fails within
      exact absurd within (Nat.not_lt_zero first)
  | cons expireCount rest ih =>
      intro first loop running fails within
      rw [List.sum_cons] at within
      rw [throttledLoop, running]
      by_cases inBatch : first < expireCount
      · cases ended : timerfdCb expireCount loop with
        | error fault => exact Or.inl ⟨fault, rfl⟩
        | ok after =>
            have exited := timerfd_cb_fails fails expireCount loop after rfl rfl inBatch ended
            exact Or.inr ⟨after, expireCount, throttled_exited rest exited, inBatch,
              (timerfd_cb_counts expireCount loop after ended).1⟩
      · obtain ⟨between, ended, still, later⟩ :=
          timerfd_cb_before expireCount (first - expireCount) loop running (by
            rwa [Nat.add_sub_cancel' (Nat.not_lt.mp inBatch)])
        rw [ended]
        rcases ih _ between still later (by omega) with faulted | ⟨after, total, run, reached, counted⟩
        · exact Or.inl faulted
        · exact Or.inr ⟨after, expireCount + total, run, by omega,
            counted_trans (timerfd_cb_counts expireCount loop between ended).1 counted rfl rfl⟩

end Failures

section Agreement

variable {State World : Type}

/-- No call-back of an item returns a negative value in that many executions. -/
def NoItemFails (bound : Nat) (pq : Pq State World) (world : World) : Prop :=
  ∀ count < bound, ∀ results after worldAfter,
    executions count pq world = .ok (results, after, worldAfter) →
    ∀ call ∈ calls after worldAfter, ∀ result, call.result = .ok result → 0 ≤ result.rv

/-- A call that returns a negative value is the last one, and its value is returned. -/
theorem negative_call_returned (items : List (PqItem State World)) :
    ∀ passed : Passed World, ∀ call ∈ callsOf items passed, ∀ result, call.result = .ok result →
      result.rv < 0 →
      ∃ after passedAfter, executeItems items passed = .ok (result.rv, after, passedAfter) := by
  induction items with
  | nil =>
      intro passed call member
      cases member
  | cons item rest ih =>
      intro passed call member result returned negative
      rw [callsOf] at member
      cases called : callItem item passed with
      | error fault =>
          rw [called] at member
          obtain rfl := List.mem_singleton.mp member
          cases returned
      | ok first =>
          rw [called] at member
          by_cases failed : first.rv < 0
          · simp only [if_pos failed] at member
            obtain rfl := List.mem_singleton.mp member
            cases returned
            exact ⟨_, _, execute_cons_stops called failed⟩
          · simp only [if_neg failed] at member
            rcases List.mem_cons.mp member with rfl | later
            · cases returned
              exact absurd negative failed
            · obtain ⟨after, passedAfter, run⟩ := ih _ _ later _ returned negative
              exact ⟨_, _, execute_cons_goes_on called (Int.not_lt.mp failed) run⟩

theorem no_item_fails_iff (bound : Nat) (pq : Pq State World) (world : World) :
    NoItemFails bound pq world ↔ NeverNegative bound pq world := by
  constructor
  · intro none count
    induction count with
    | zero =>
        intro _ results after worldAfter run
        cases run
        exact fun rv member => absurd member List.not_mem_nil
    | succ count ih =>
        intro within results after worldAfter run
        rw [executions_append] at run
        obtain ⟨⟨front, between, worldBetween⟩, frontRun, rest⟩ := (exec_bind_eq_ok _ _ _).mp run
        cases last : osmoGapkPqExecute between worldBetween with
        | error fault =>
            rw [executions_succ_fault last] at rest
            cases rest
        | ok ended =>
            obtain ⟨rv, final, worldFinal⟩ := ended
            rw [executions_succ last] at rest
            cases rest
            intro value member
            rcases List.mem_append.mp member with early | late
            · exact ih (by omega) _ _ _ frontRun value early
            · obtain rfl := List.mem_singleton.mp late
              obtain ⟨items, passed, itemsRun, _, _⟩ := execute_ok last
              rcases execute_outcome _ _ _ _ _ itemsRun with
                ⟨front, call, result, made, returned, same, negative⟩ | ⟨zero, _⟩
              · have member : call ∈ calls between worldBetween := by
                  show call ∈ callsOf _ _
                  rw [made]
                  exact List.mem_append_right _ (List.mem_singleton_self call)
                have fine := none count (by omega) _ _ _ frontRun call member result returned
                omega
              · omega
  · intro never count within results after worldAfter run call member result returned
    by_contra negative
    obtain ⟨items, passed, itemsRun⟩ :=
      negative_call_returned _ _ call member result returned (by omega)
    have executed : osmoGapkPqExecute after worldAfter =
        .ok (result.rv, { after with items := items }, passed.world) := by
      rw [osmoGapkPqExecute, itemsRun]
      rfl
    have once := never_negative_executions (never_negative_mono never (by omega : count + 1 ≤ bound)) run
    have fine := (never_negative_step once executed).1
    omega

/-- For some number of rounds the loop without a timer has done what the loop with
the timer has done after these reports, and ends as that one does. -/
def AgreeAfter (expirations : List Nat) (pq : Pq State World) (world : World) : Prop :=
  ∃ rounds,
    (unthrottledLoop rounds 0 (startLoop pq world)).map (fun r => observed (r.1, r.2.2)) =
      (throttledLoop expirations (startLoop pq world)).map observed ∧
    (runUnthrottled rounds pq world).map (Option.map Prod.fst) =
      (runThrottled expirations pq world).map (Option.map Prod.fst)

theorem never_negative_agrees {expirations : List Nat} {pq : Pq State World} {world : World}
    (never : NeverNegative expirations.sum pq world) : AgreeAfter expirations pq world := by
  have left := unthrottled_follows expirations.sum 0 (startLoop pq world) rfl never
  have right := throttled_follows expirations (startLoop pq world) rfl never
  have seen := (follows_observed left).trans (follows_observed right).symm
  refine ⟨expirations.sum, ?_, ?_⟩
  · rw [← seen]
    cases unthrottledLoop expirations.sum 0 (startLoop pq world) <;> rfl
  · -- Neither loop has ended, so neither branch has a verdict.
    unfold Follows at left right
    cases made : executions expirations.sum (startLoop pq world).pq (startLoop pq world).world with
    | error fault =>
        rw [made] at left right
        cases unthrottled : unthrottledLoop expirations.sum 0 (startLoop pq world) with
        | error other =>
            rw [unthrottled] at left
            cases left
            rw [runUnthrottled, unthrottled, runThrottled, right]
            rfl
        | ok ended =>
            rw [unthrottled] at left
            cases left
    | ok ended =>
        rw [made] at left right
        obtain ⟨_, leftSame, _⟩ := left
        obtain ⟨_, rightSame, _⟩ := right
        cases unthrottled : unthrottledLoop expirations.sum 0 (startLoop pq world) with
        | error other =>
            rw [unthrottled] at leftSame
            cases leftSame
        | ok reached =>
            obtain ⟨done, rv, loop⟩ := reached
            rw [unthrottled] at leftSame
            cases leftSame
            rw [runUnthrottled, unthrottled, runThrottled, rightSame]
            rfl

theorem verdict_counts {pq : Pq State World} {loop : Loop State World} (rv : Int)
    (linked : Linked pq.items) (nonempty : pq.items ≠ []) (same : SameItems pq loop.pq) :
    ∃ verdictAfter, verdict rv loop = .ok verdictAfter ∧
      verdictAfter.numFrames = loop.numFrames := by
  have filled : loop.pq.items ≠ [] := by
    intro empty
    rw [SameItems, empty] at same
    exact nonempty (List.map_eq_nil_iff.mp same.symm)
  have last : loop.pq.items.getLast?.map PqItem.freed = pq.items.getLast?.map PqItem.freed := by
    rw [← List.getLast?_map, ← List.getLast?_map, same]
  rw [List.getLast?_eq_some_getLast filled, List.getLast?_eq_some_getLast nonempty] at last
  have kept : (loop.pq.items.getLast filled).freed = false :=
    (Option.some.inj last).trans (linked _ (List.getLast_mem nonempty))
  have run : verdict rv loop = .ok {
      executed := loop.executed
      numFrames := loop.numFrames
      waits := (loop.pq.items.getLast filled).wait.isSome && !loop.exit
      rv := if loop.numFrames > 0 then 0 else rv } := by
    rw [verdict, List.getLast?_eq_some_getLast filled, deref_some, exec_bind_ok, touch_eq kept,
      exec_bind_ok]
    rfl
  exact ⟨_, run, rfl⟩

/-- A failure in an execution that the timer asks for shows: either the batch ends
with it, and the frame counters differ, or more executions are made. -/
theorem failure_disagrees {expirations : List Nat} {pq : Pq State World} {world : World}
    {first : Nat} (linked : Linked pq.items) (fails : FailsAfter first pq world)
    (within : first < expirations.sum) : ¬AgreeAfter expirations pq world := by
  rintro ⟨rounds, seen, same⟩
  have nonempty := fails_nonempty fails
  rcases unthrottled_stops fails rounds 0 (startLoop pq world) rfl rfl rfl with
    ⟨rv, unthrottled, run⟩ | ⟨rv, unthrottled, run, early⟩
  all_goals
    rw [run] at seen
    rcases throttled_stops expirations first (startLoop pq world) rfl fails within with
      ⟨fault, throttledRun⟩ | ⟨throttled, total, throttledRun, reached, late⟩
    all_goals rw [throttledRun] at seen
  · cases seen
  · cases seen
  · cases seen
  · have executed : unthrottled.executed = throttled.executed :=
      congrArg (fun r => r.2.1) (Except.ok.inj seen)
    have made := congrArg List.length executed
    rw [early.executed, late.executed] at made
    obtain ⟨earlyVerdict, earlyRun, earlyCount⟩ := verdict_counts rv linked nonempty early.items
    obtain ⟨lateVerdict, lateRun, lateCount⟩ := verdict_counts 0 linked nonempty late.items
    have leftRun : runUnthrottled rounds pq world = .ok (some (earlyVerdict, unthrottled)) := by
      rw [runUnthrottled, run, exec_bind_ok]
      simp only [earlyRun, exec_bind_ok, if_true]
      rfl
    have rightRun : runThrottled expirations pq world = .ok (some (lateVerdict, throttled)) := by
      rw [runThrottled, throttledRun, exec_bind_ok]
      simp only [lateRun, exec_bind_ok, if_true]
      rfl
    rw [leftRun, rightRun] at same
    have frames : earlyVerdict.numFrames = lateVerdict.numFrames :=
      congrArg Verdict.numFrames (Option.some.inj (Except.ok.inj same))
    have earlyFrames := early.numFrames
    have lateFrames := late.numFrames
    simp only [startLoop] at made earlyFrames lateFrames
    omega

theorem prepared_still_linked {items after : List (PqItem State World)}
    (buffers : List.Forall₂ Prepared items after) : Linked after := by
  induction buffers with
  | nil => exact fun item member => absurd member List.not_mem_nil
  | @cons item made _ _ pair _ ih =>
      have linked : made.freed = false := by
        rw [pair.same]
        exact pair.linked
      exact List.forall_mem_cons.mpr ⟨linked, ih⟩

/-- The two branches of `run` agree on a sequence of timer reports exactly if no
call-back of an item returns a negative value in the executions that it asks for. -/
theorem throttling_agrees_iff {memory : BufferAlloc} {pq prepared : Pq State World}
    (prepares : osmoGapkPqPrepare memory pq = .ok (0, prepared)) (world : World)
    (expirations : List Nat) :
    AgreeAfter expirations prepared world ↔ NoItemFails expirations.sum prepared world := by
  rw [no_item_fails_iff]
  constructor
  · intro agree
    rcases never_negative_or_fails expirations.sum prepared world with
      never | ⟨first, within, fails⟩
    · exact never
    · exact absurd agree (failure_disagrees (prepared_still_linked (pq_prepare_ok prepares)) fails within)
  · exact never_negative_agrees

theorem throttling_agrees_iff_idle :
    AgreeAfter [1, 2] (idlePrepared [.source, .proc, .sink]) () ↔
      NoItemFails [1, 2].sum (idlePrepared [.source, .proc, .sink]) () :=
  throttling_agrees_iff
    (rfl : osmoGapkPqPrepare .cleared (idleQueue [.source, .proc, .sink]) = .ok (0, _)) () [1, 2]

end Agreement

def fileCopy : Queue Unit where
  items := [fileItem 33 true (.heap 0 (.file 33)) .zero, fileItem 33 false (.heap 1 (.file 33)) .zero]
  nItems := 2
  name := "main"

def fileCopyPrepared : Queue Unit :=
  { fileCopy with
    items := [{ fileItem 33 true (.heap 0 (.file 33)) .zero with buf := some (List.replicate 33 0) },
      fileItem 33 false (.heap 1 (.file 33)) .zero] }

def emptyInput : World := ⟨[], [], [], [], [], [], fun _ => true, 0, 0⟩

/-- At the end of the input the timer call-back counts a frame that was not read. -/
theorem end_of_input_counted :
    ¬∀ (memory : BufferAlloc) (pq prepared : Queue Unit) (world : World),
      osmoGapkPqPrepare memory pq = .ok (0, prepared) → ∀ expirations : List Nat,
      (∀ expireCount ∈ expirations, 1 ≤ expireCount) → AgreeAfter expirations prepared world := by
  intro agree
  have prepares : osmoGapkPqPrepare .cleared fileCopy = .ok (0, fileCopyPrepared) := rfl
  have fails : FailsAfter 0 fileCopyPrepared emptyInput :=
    .now (rfl : osmoGapkPqExecute fileCopyPrepared emptyInput = .ok (-1, _, _)) (by decide)
  exact failure_disagrees (prepared_still_linked (pq_prepare_ok prepares)) fails (by decide)
    (agree .cleared fileCopy fileCopyPrepared emptyInput prepares [1] (by decide))

end Gapk.Throttle
