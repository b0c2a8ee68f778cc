import Gapk.Codecs
import Gapk.Library.Transducer
import Mathlib.Logic.Function.Iterate

/-!
# Runs of the FR error concealment unit

A good frame goes through and becomes the backup. Bad frames go through as long as
there is no backup, and are replaced by what the library makes of its state
afterwards. The state after any history is that of its last good frame, concealed
once for each bad frame since.
-/

namespace Gapk.EcuRuns

open CheckedMemory BitBuffer Transducer
open Gapk.Formats Gapk.Procqueue Gapk.Streams Gapk.QueueOps Gapk.Codecs

set_option autoImplicit false

/-- The scan of the backup finds a byte. -/
def HasBackup (ecu : EcuFrState) : Prop := ∃ byte ∈ ecu.frameBackup, byte ≠ 0

instance : DecidablePred HasBackup := fun ecu =>
  inferInstanceAs (Decidable (∃ byte ∈ ecu.frameBackup, byte ≠ 0))

/-- What the unit relies on in libosmocodec. A reset stores the frame and clears
the flag of a lost frame. Concealment succeeds, depends on the state alone and
does not wipe out the backup. -/
structure EcuContract {Lib : Type} (libs : CodecLibs Lib) where
  conceal : EcuFrState → EcuFrState × Buf
  resets : ∀ ecu frame, libs.osmoEcuFrReset ecu frame = ⟨false, frame⟩
  conceals : ∀ ecu (area : Buf), area.length = frCanonLen →
    libs.osmoEcuFrConceal ecu area = ((conceal ecu).1, 0, (conceal ecu).2)
  keepsBackup : ∀ ecu, HasBackup ecu → HasBackup (conceal ecu).1

abbrev FrFrame := RawFrame frCanonLen

/-- Bytes 1 to 32 are zero, whatever the first one with the signature is. -/
def BadFrame (frame : FrFrame) : Prop := ∀ byte ∈ frame.bytes.drop 1, byte = 0

instance : DecidablePred BadFrame := fun frame =>
  inferInstanceAs (Decidable (∀ byte ∈ frame.bytes.drop 1, byte = 0))

section Calls

variable {Lib : Type} (libs : CodecLibs Lib)

/-- The item of the unit between two calls, with the return values and the frames
that it has put out. All calls write to the buffer of the item. -/
structure EcuRun (Lib : Type) where
  state : State Lib
  area : Buf
  world : World
  past : List (Int × Buf)

def ecuCall (run : EcuRun Lib) (frame : FrFrame) : Exec (EcuRun Lib) := do
  let result ← ecuProcFr libs run.state (some run.area) (some frame.bytes) frame.bytes.length
    run.world
  let area ← deref result.out
  pure ⟨result.state, area, result.world, run.past ++ [(result.rv, area)]⟩

def ecuCalls (frames : List FrFrame) (run : EcuRun Lib) : Exec (EcuRun Lib) :=
  frames.foldlM (ecuCall libs) run

end Calls

namespace EcuContract

variable {Lib : Type} {libs : CodecLibs Lib} (unit : EcuContract libs)

theorem conceal_length (ecu : EcuFrState) : (unit.conceal ecu).2.length = frCanonLen := by
  have area := libs.concealArea ecu (zeros frCanonLen)
  rwa [unit.conceals ecu _ (zeros_length _), zeros_length] at area

def step (ecu : EcuFrState) (frame : FrFrame) : EcuFrState × Buf :=
  if BadFrame frame then
    if HasBackup ecu then unit.conceal ecu else (ecu, frame.bytes)
  else (⟨false, frame.bytes⟩, frame.bytes)

private theorem scan_frame (frame : FrFrame) :
    (frame.bytes.drop 1).all (· = 0) = decide (BadFrame frame) := by
  rw [Bool.eq_iff_iff, List.all_eq_true, decide_eq_true_iff]
  simp only [BadFrame, decide_eq_true_eq]

private theorem scan_backup (ecu : EcuFrState) :
    ecu.frameBackup.any (· ≠ 0) = decide (HasBackup ecu) := by
  rw [Bool.eq_iff_iff, List.any_eq_true, decide_eq_true_iff]
  simp only [HasBackup, decide_eq_true_eq]

theorem ecu_proc_fr_eq (ecu : EcuFrState) (frame : FrFrame) (handle : Nat) {area : Buf}
    (areaSize : area.length = frCanonLen) (world : World) :
    ecuProcFr libs (.heap handle (.ecu ecu)) (some area) (some frame.bytes) frame.bytes.length world =
      .ok { rv := frCanonLen, state := .heap handle (.ecu (unit.step ecu frame).1),
            out := some (unit.step ecu frame).2, world := world } := by
  have size := frame.size
  have read : readBytes frame.bytes frCanonLen = .ok frame.bytes := by
    rw [read_bytes_eq (Nat.le_of_eq size.symm), List.take_of_length_le (Nat.le_of_eq size)]
  have passed : memcpy area 0 frame.bytes 0 frCanonLen = .ok frame.bytes :=
    memcpy_whole areaSize size
  rw [ecuProcFr, ecuState, exec_pure, exec_bind_ok, deref_some, exec_bind_ok, deref_some,
    exec_bind_ok, require_true size, exec_bind_ok, size, read, exec_bind_ok]
  simp only [scan_frame, scan_backup]
  by_cases bad : BadFrame frame
  · rw [decide_eq_true bad, step, if_pos bad]
    by_cases backup : HasBackup ecu
    · have readArea : readBytes area frCanonLen = .ok area := by
        rw [read_bytes_eq (Nat.le_of_eq areaSize.symm),
          List.take_of_length_le (Nat.le_of_eq areaSize)]
      have concealed : memcpy area 0 (unit.conceal ecu).2 0 frCanonLen =
          .ok (unit.conceal ecu).2 :=
        memcpy_whole areaSize (unit.conceal_length ecu)
      rw [decide_eq_true backup, if_pos backup]
      simp only [Bool.not_true, Bool.false_eq_true, if_false, readArea, exec_bind_ok,
        unit.conceals ecu area areaSize, concealed, exec_pure, ne_eq, not_true_eq_false]
      rfl
    · rw [decide_eq_false backup, if_neg backup]
      simp only [Bool.not_true, Bool.not_false, Bool.false_eq_true, if_false, if_true]
      rw [passed]
      rfl
  · rw [decide_eq_false bad, step, if_neg bad]
    simp only [Bool.not_false, if_true]
    rw [passed, unit.resets]
    rfl

theorem ecu_call_eq (ecu : EcuFrState) (frame : FrFrame) (handle : Nat) {area : Buf}
    (areaSize : area.length = frCanonLen) (world : World) (past : List (Int × Buf)) :
    ecuCall libs ⟨.heap handle (.ecu ecu), area, world, past⟩ frame =
      .ok ⟨.heap handle (.ecu (unit.step ecu frame).1), (unit.step ecu frame).2, world,
        past ++ [((frCanonLen : Int), (unit.step ecu frame).2)]⟩ := by
  rw [ecuCall, unit.ecu_proc_fr_eq ecu frame handle areaSize world]
  rfl

theorem step_length (ecu : EcuFrState) (frame : FrFrame) :
    (unit.step ecu frame).2.length = frCanonLen := by
  unfold step
  split_ifs
  · exact unit.conceal_length ecu
  · exact frame.size
  · exact frame.size

/-- The state with which the unit conceals after `lost` bad frames in a row. -/
def concealedState (good : Buf) (lost : Nat) : EcuFrState :=
  (fun ecu => (unit.conceal ecu).1)^[lost] ⟨false, good⟩

def concealment (good : Buf) (lost : Nat) : Buf := (unit.conceal (unit.concealedState good lost)).2

theorem concealed_state_succ (good : Buf) (lost : Nat) :
    unit.concealedState good (lost + 1) = (unit.conceal (unit.concealedState good lost)).1 :=
  Function.iterate_succ_apply' _ lost _

theorem concealed_state_has_backup {good : FrFrame} (received : ¬BadFrame good) (lost : Nat) :
    HasBackup (unit.concealedState good.bytes lost) := by
  induction lost with
  | zero =>
      simp only [BadFrame, not_forall] at received
      obtain ⟨byte, member, nonzero⟩ := received
      exact ⟨byte, List.mem_of_mem_drop member, nonzero⟩
  | succ lost ih =>
      rw [concealed_state_succ]
      exact unit.keepsBackup _ ih

theorem step_good (ecu : EcuFrState) {good : FrFrame} (received : ¬BadFrame good) :
    unit.step ecu good = (unit.concealedState good.bytes 0, good.bytes) := by
  rw [step, if_neg received]
  rfl

theorem step_lost {good frame : FrFrame} (received : ¬BadFrame good) (bad : BadFrame frame)
    (lost : Nat) :
    unit.step (unit.concealedState good.bytes lost) frame =
      (unit.concealedState good.bytes (lost + 1), unit.concealment good.bytes lost) := by
  rw [step, if_pos bad, if_pos (unit.concealed_state_has_backup received lost),
    concealed_state_succ]
  rfl

theorem step_zero {frame : FrFrame} (bad : BadFrame frame) :
    unit.step zeroEcuState frame = (zeroEcuState, frame.bytes) := by
  have none : ¬HasBackup zeroEcuState := by
    rintro ⟨byte, member, nonzero⟩
    exact nonzero (List.eq_of_mem_replicate member)
  rw [step, if_pos bad, if_neg none]

theorem after_all_bad {history : List FrFrame} (bad : ∀ frame ∈ history, BadFrame frame) :
    after unit.step zeroEcuState history = zeroEcuState := by
  apply after_invariant unit.step (· = zeroEcuState) rfl
  rintro frame member _ rfl
  rw [unit.step_zero (bad frame member)]

/-- The state does not tell what came before the last good frame. -/
theorem after_last_good (before : List FrFrame) {good : FrFrame} (received : ¬BadFrame good)
    {lost : List FrFrame} (bad : ∀ frame ∈ lost, BadFrame frame) :
    after unit.step zeroEcuState (before ++ good :: lost) =
      unit.concealedState good.bytes lost.length := by
  have counted : ∀ count, after unit.step (unit.concealedState good.bytes count) lost =
      unit.concealedState good.bytes (count + lost.length) := by
    induction lost with
    | nil => intro count; rfl
    | cons frame lost ih =>
        intro count
        have rest := ih (fun later member => bad later (List.mem_cons_of_mem _ member)) (count + 1)
        rw [List.length_cons, Nat.add_comm lost.length 1, ← Nat.add_assoc, ← rest, after,
          List.foldl_cons, unit.step_lost received (bad frame (by simp)) count, after]
  rw [after_append_cons, unit.step_good _ received]
  simpa only [Nat.zero_add] using counted 0

end EcuContract

section Runs

variable {Lib : Type} {libs : CodecLibs Lib}

/-- From a zeroed state, the calls on these frames all return the frame length;
they put out these frames and leave that state. -/
def Reaches (libs : CodecLibs Lib) (handle : Nat) (area : FrFrame) (world : World)
    (frames : List FrFrame) (out : List Buf) (ecu : EcuFrState) : Prop :=
  ∃ last, ecuCalls libs frames ⟨.heap handle (.ecu zeroEcuState), area.bytes, world, []⟩ =
    .ok ⟨.heap handle (.ecu ecu), last, world, out.map fun frame => ((frCanonLen : Int), frame)⟩

variable (unit : EcuContract libs) (handle : Nat) (area : FrFrame) (world : World)

theorem ecu_calls_reach (frames : List FrFrame) :
    Reaches libs handle area world frames (outputs unit.step zeroEcuState frames)
      (after unit.step zeroEcuState frames) := by
  obtain ⟨final, run, last, _, reached⟩ := simulates_run unit.step (ecuCall libs)
    (fun ecu past run => ∃ area : Buf, area.length = frCanonLen ∧
      run = ⟨.heap handle (.ecu ecu), area, world, past.map fun frame => ((frCanonLen : Int), frame)⟩)
    (by
      rintro ecu past _ frame ⟨area, areaSize, rfl⟩
      refine ⟨_, unit.ecu_call_eq ecu frame handle areaSize world _, _,
        unit.step_length ecu frame, ?_⟩
      rw [List.map_append, List.map_singleton])
    [] frames ⟨area.bytes, area.size, rfl⟩
  rw [reached, List.nil_append] at run
  exact ⟨last, run⟩

theorem reaches_next {history : List FrFrame} {ecu next : EcuFrState} {frame : FrFrame} {out : Buf}
    (reached : after unit.step zeroEcuState history = ecu)
    (stepped : unit.step ecu frame = (next, out)) :
    Reaches libs handle area world (history ++ [frame])
      (outputs unit.step zeroEcuState history ++ [out]) next := by
  have run := ecu_calls_reach unit handle area world (history ++ [frame])
  rw [after_append_cons, outputs_append_cons, reached, stepped, outputs, List.append_nil] at run
  exact run

/-- The unit over whole runs. A good frame is put out unchanged and becomes the
backup, a bad frame without a good one before it changes nothing, and any later
one is concealed from the last good frame and the number of bad frames since. Two
histories that end in one good frame are not told apart any more. -/
theorem ecu_fr_conceals_from_last_good :
    (∀ history : List FrFrame, ∃ out ecu, out.length = history.length ∧
      Reaches libs handle area world history out ecu ∧
      (∀ good, ¬BadFrame good →
        Reaches libs handle area world (history ++ [good]) (out ++ [good.bytes])
          ⟨false, good.bytes⟩) ∧
      (∀ frame, BadFrame frame → (∀ earlier ∈ history, BadFrame earlier) →
        Reaches libs handle area world (history ++ [frame]) (out ++ [frame.bytes]) zeroEcuState) ∧
      (∀ frame before good lost, BadFrame frame → history = before ++ good :: lost →
        ¬BadFrame good → (∀ later ∈ lost, BadFrame later) →
        Reaches libs handle area world (history ++ [frame])
          (out ++ [unit.concealment good.bytes lost.length])
          (unit.concealedState good.bytes (lost.length + 1)))) ∧
    (∀ left right good continuation, ¬BadFrame good → ∃ leftOut rightOut common ecu,
      leftOut.length = left.length + 1 ∧ rightOut.length = right.length + 1 ∧
      Reaches libs handle area world (left ++ good :: continuation) (leftOut ++ common) ecu ∧
      Reaches libs handle area world (right ++ good :: continuation) (rightOut ++ common) ecu) := by
  constructor
  · intro history
    refine ⟨outputs unit.step zeroEcuState history, after unit.step zeroEcuState history,
      outputs_length _ _ _, ecu_calls_reach unit handle area world history, ?_, ?_, ?_⟩
    · intro good received
      exact reaches_next unit handle area world rfl (unit.step_good _ received)
    · intro frame bad all
      exact reaches_next unit handle area world (unit.after_all_bad all) (unit.step_zero bad)
    · rintro frame before good lost bad rfl received allLost
      exact reaches_next unit handle area world (unit.after_last_good before received allLost)
        (unit.step_lost received bad lost.length)
  · intro left right good continuation received
    let met := unit.concealedState good.bytes 0
    have split : ∀ before : List FrFrame, ∃ out : List Buf, out.length = before.length + 1 ∧
        Reaches libs handle area world (before ++ good :: continuation)
          (out ++ outputs unit.step met continuation) (after unit.step met continuation) := by
      intro before
      have run := ecu_calls_reach unit handle area world (before ++ good :: continuation)
      rw [after_append_cons, outputs_append_cons, unit.step_good _ received] at run
      exact ⟨_, by simp, run⟩
    obtain ⟨leftOut, leftSize, leftRun⟩ := split left
    obtain ⟨rightOut, rightSize, rightRun⟩ := split right
    exact ⟨leftOut, rightOut, _, _, leftSize, rightSize, leftRun, rightRun⟩

end Runs

/-- Libraries whose unit repeats the backup, as libosmocodec does for the first
frame that is lost. -/
def repeatingLibs : CodecLibs Unit :=
  { idleLibs with
    osmoEcuFrConceal := fun ecu area =>
      (⟨true, ecu.frameBackup⟩, 0, (ecu.frameBackup ++ zeros area.length).take area.length)
    concealArea := by simp }

def repeatingContract : EcuContract repeatingLibs where
  conceal ecu :=
    (⟨true, ecu.frameBackup⟩, (ecu.frameBackup ++ zeros frCanonLen).take frCanonLen)
  resets _ _ := rfl
  conceals ecu area size := by
    rw [← size]
    rfl
  keepsBackup _ backup := backup

def lostFrame : FrFrame := ⟨0xd0 :: zeros 32, rfl⟩

def receivedFrame : FrFrame := ⟨0xd1 :: List.replicate 32 0x5a, rfl⟩

theorem ecu_fr_repeats_backup :
    ∃ out ecu, Reaches repeatingLibs 0 lostFrame ⟨[], [], [], [], [], [], fun _ => true, 0, 0⟩
      [lostFrame, receivedFrame] out ecu ∧
      Reaches repeatingLibs 0 lostFrame ⟨[], [], [], [], [], [], fun _ => true, 0, 0⟩
        [lostFrame, receivedFrame, lostFrame] (out ++ [receivedFrame.bytes])
        ⟨true, receivedFrame.bytes⟩ := by
  obtain ⟨out, ecu, _, reached, _, _, concealed⟩ :=
    (ecu_fr_conceals_from_last_good repeatingContract 0 lostFrame
      ⟨[], [], [], [], [], [], fun _ => true, 0, 0⟩).1 [lostFrame, receivedFrame]
  have bad : BadFrame lostFrame := fun _ member => List.eq_of_mem_replicate member
  have received : ¬BadFrame receivedFrame := by
    intro all
    exact absurd (all 0x5a (List.mem_cons_self ..)) (by decide)
  exact ⟨out, ecu, reached, concealed lostFrame [lostFrame] receivedFrame [] bad rfl received
    (by simp)⟩

end Gapk.EcuRuns
