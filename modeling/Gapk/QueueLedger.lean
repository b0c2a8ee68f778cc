import Gapk.QueueOps
import Mathlib.Data.List.Count

/-!
# Ownership of item states

A call is all-or-nothing when it either appends one finished item or changes
nothing, with every state it took given back. The ledger of a queue built by
such calls is balanced: each state is owned by one item or was released once.
-/

namespace Gapk.QueueLedger

open CheckedMemory HostWords
open Gapk.Formats Gapk.Procqueue Gapk.Streams Gapk.QueueOps

set_option autoImplicit false

/-- One call of a queue function. -/
inductive QueueCall (Lib : Type) where
  | fileInput (blkLen : Nat)
  | fileOutput (blkLen : Nat)
  | rtpInput (blkLen pt : Nat)
  | rtpOutput (blkLen pt : Nat)
  | alsaInput (blkLen : Nat)
  | alsaOutput (blkLen : Nat)
  | fmtConvert (fmt : FormatDesc) (toFromN : Bool)
  | codec (desc : CodecDesc Lib) (encDecN : Bool)
  | ecu (desc : CodecDesc Lib)

section Calls

variable {Lib : Type} (host : Endian) (registry : Registry Lib)

def queueCall : QueueCall Lib → QueueOp Lib
  | .fileInput blkLen => osmoGapkPqQueueFileInput blkLen
  | .fileOutput blkLen => osmoGapkPqQueueFileOutput blkLen
  | .rtpInput blkLen pt => osmoGapkPqQueueRtpInput host blkLen pt
  | .rtpOutput blkLen pt => osmoGapkPqQueueRtpOutput host blkLen pt
  | .alsaInput blkLen => osmoGapkPqQueueAlsaInput blkLen
  | .alsaOutput blkLen => osmoGapkPqQueueAlsaOutput blkLen
  | .fmtConvert fmt toFromN => osmoGapkPqQueueFmtConvert registry fmt toFromN
  | .codec desc encDecN => osmoGapkPqQueueCodec registry desc encDecN
  | .ecu desc => osmoGapkPqQueueEcu registry desc

/-- The condition under which a call is all-or-nothing: once an item is linked,
nothing may fail any more, and a device that is allocated for must open. -/
def CallSound (call : QueueCall Lib) (outcome : CallOutcome) : Prop :=
  match call with
  | .codec desc encDecN =>
      outcome.itemAllocated = true →
        (desc.codecInit.isSome → outcome.codecInitialised = true) ∧
        (registry.fmtGetFromType (codecFormatType desc encDecN)).isSome ∧
        (registry.codecGetFromType .pcm).isSome ∧ (codecProc desc encDecN).isSome
  | .ecu desc =>
      desc.ecuProc.isSome → outcome.itemAllocated = true →
        outcome.stateAllocated = true ∧
        (registry.fmtGetFromType desc.codecDecFormatType).isSome
  | .alsaInput _ | .alsaOutput _ => outcome.stateAllocated = true → 0 ≤ outcome.deviceOpened
  | _ => True

/-- A codec that is initialised can be released again. -/
def HasExit (call : QueueCall Lib) : Prop :=
  match call with
  | .codec desc _ => desc.codecInit.isSome → desc.codecExit = true
  | _ => True

end Calls

/-- States that were handed out and not given back. -/
def live (ledger : Ledger) : List Nat :=
  (List.range ledger.next).filter fun handle => handle ∉ ledger.released

/-- A queue in use: its items exist and only states that were handed out were
released. -/
structure QueueState (Lib : Type) where
  pq : Queue Lib
  ledger : Ledger
  linked : Linked pq.items
  handedOut : ∀ handle ∈ ledger.released, handle < ledger.next

section Effects

variable {Lib : Type}

/-- Zero and one finished item more, or a negative value and nothing changed. -/
def AllOrNothing (pq : Queue Lib) (ledger : Ledger) (result : Exec (Int × Queue Lib × Ledger)) :
    Prop :=
  ∃ rv after ledgerAfter, result = .ok (rv, after, ledgerAfter) ∧
    ((rv = 0 ∧ ∃ item : Item Lib, item.proc.isSome ∧ item.freed = false ∧
        after.items = pq.items ++ [item] ∧ after.nItems = (pq.nItems + 1) % 2 ^ 32) ∨
      (rv < 0 ∧ after.items = pq.items ∧ after.nItems = pq.nItems ∧
        live ledgerAfter = live ledger))

/-- The state that the exit handler of an item will release. -/
def ownedHandle (item : Item Lib) : Option Nat :=
  match item.exit, item.state with
  | some _, .heap handle _ => some handle
  | _, _ => none

/-- A finished item, and who owns a state that was taken for it. -/
def Appended (keeps : Prop) (pq : Queue Lib) (ledger : Ledger) (after : Queue Lib)
    (ledgerAfter : Ledger) : Prop :=
  ∃ item : Item Lib, after = { pq.extended with items := pq.items ++ [item] } ∧
    item.proc.isSome ∧ item.freed = false ∧
    ((ledgerAfter = ledger ∧ ownedHandle item = none) ∨
      (ledgerAfter = ledger.acquire.2 ∧ (keeps → ownedHandle item = some ledger.next)))

def Refused (pq : Queue Lib) (ledger : Ledger) (after : Queue Lib) (ledgerAfter : Ledger) : Prop :=
  after = pq ∧ (ledgerAfter = ledger ∨
    ledgerAfter = ⟨ledger.next + 1, ledger.next :: ledger.released⟩)

/-- Everything that a sound call can do. -/
def CallEffect (keeps : Prop) (pq : Queue Lib) (ledger : Ledger)
    (result : Exec (Int × Queue Lib × Ledger)) : Prop :=
  ∃ rv after ledgerAfter, result = .ok (rv, after, ledgerAfter) ∧
    ((rv = 0 ∧ Appended keeps pq ledger after ledgerAfter) ∨
      (rv < 0 ∧ Refused pq ledger after ledgerAfter))

theorem next_fresh {ledger : Ledger} (handedOut : ∀ handle ∈ ledger.released, handle < ledger.next) :
    ledger.next ∉ ledger.released := by
  intro member
  exact Nat.lt_irrefl _ (handedOut _ member)

theorem live_refused {pq after : Queue Lib} {ledger ledgerAfter : Ledger}
    (refused : Refused pq ledger after ledgerAfter) : live ledgerAfter = live ledger := by
  rcases refused.2 with rfl | rfl
  · rfl
  · simp only [live, List.range_succ, List.filter_append, List.mem_cons, not_or]
    rw [List.filter_cons_of_neg (by simp), List.filter_nil, List.append_nil]
    apply List.filter_congr
    intro handle member
    have earlier := List.mem_range.mp member
    simp [Nat.ne_of_lt earlier]

theorem effect_all_or_nothing {keeps : Prop} {pq : Queue Lib} {ledger : Ledger}
    {result : Exec (Int × Queue Lib × Ledger)} (effect : CallEffect keeps pq ledger result) :
    AllOrNothing pq ledger result := by
  obtain ⟨rv, after, ledgerAfter, run, ⟨zero, item, rfl, ready, present, _⟩ | ⟨negative, refused⟩⟩ :=
    effect
  · exact ⟨rv, _, ledgerAfter, run, Or.inl ⟨zero, item, ready, present, rfl, rfl⟩⟩
  · have same := live_refused refused
    obtain ⟨rfl, _⟩ := refused
    exact ⟨rv, after, ledgerAfter, run, Or.inr ⟨negative, rfl, rfl, same⟩⟩

section Results

variable {keeps : Prop} {pq : Queue Lib} {ledger : Ledger} {rv : Int} {item : Item Lib}

theorem effect_refused (negative : rv < 0) : CallEffect keeps pq ledger (.ok (rv, pq, ledger)) :=
  ⟨rv, pq, ledger, rfl, Or.inr ⟨negative, rfl, Or.inl rfl⟩⟩

theorem effect_released (negative : rv < 0) : CallEffect keeps pq ledger
    (.ok (rv, pq, ⟨ledger.next + 1, ledger.next :: ledger.released⟩)) :=
  ⟨rv, pq, _, rfl, Or.inr ⟨negative, rfl, Or.inr rfl⟩⟩

variable (ready : item.proc.isSome) (present : item.freed = false)

include ready present

theorem effect_unowned (unowned : ownedHandle item = none) : CallEffect keeps pq ledger
    (.ok (0, { pq.extended with items := pq.items ++ [item] }, ledger)) :=
  ⟨0, _, ledger, rfl, Or.inl ⟨rfl, item, rfl, ready, present, Or.inl ⟨rfl, unowned⟩⟩⟩

theorem effect_owned (owned : keeps → ownedHandle item = some ledger.next) :
    CallEffect keeps pq ledger
      (.ok (0, { pq.extended with items := pq.items ++ [item] }, ledger.acquire.2)) :=
  ⟨0, _, _, rfl, Or.inl ⟨rfl, item, rfl, ready, present, Or.inr ⟨rfl, owned⟩⟩⟩

end Results

end Effects

section Specifications

variable {Lib : Type} (host : Endian) (registry : Registry Lib) {pq : Queue Lib} {ledger : Ledger}
  (outcome : CallOutcome) (linked : Linked pq.items)

include linked

theorem queue_fmt_convert_effect (fmt : FormatDesc) (toFromN : Bool) :
    CallEffect True pq ledger
      (osmoGapkPqQueueFmtConvert registry fmt toFromN outcome pq ledger) := by
  cases found : registry.codecGetFromType fmt.codecType with
  | none =>
      rw [osmoGapkPqQueueFmtConvert, found]
      exact effect_refused (by decide)
  | some codec =>
      rw [queue_fmt_convert_eq registry outcome linked toFromN found]
      cases outcome.itemAllocated with
      | false => exact effect_refused (by decide)
      | true =>
          have ready : (fmtItem fmt codec toFromN .zero : Item Lib).proc.isSome := rfl
          exact effect_unowned ready rfl rfl

theorem queue_codec_effect (desc : CodecDesc Lib) (encDecN : Bool)
    (sound : CallSound registry (.codec desc encDecN) outcome) :
    CallEffect (HasExit (.codec desc encDecN)) pq ledger
      (osmoGapkPqQueueCodec registry desc encDecN outcome pq ledger) := by
  cases allocated : outcome.itemAllocated with
  | false =>
      rw [osmoGapkPqQueueCodec, allocated]
      exact effect_refused (by decide)
  | true =>
      obtain ⟨initialised, found, pcm, ready⟩ := sound allocated
      obtain ⟨fmt, found⟩ := Option.isSome_iff_exists.mp found
      obtain ⟨codecPcm, pcm⟩ := Option.isSome_iff_exists.mp pcm
      rw [queue_codec_eq registry outcome linked found pcm ready, allocated]
      cases init : desc.codecInit with
      | none =>
          have unowned : ownedHandle (codecItem desc codecPcm fmt encDecN .zero) = none := by
            rw [ownedHandle, codecItem]
            split_ifs <;> rfl
          exact effect_unowned ready rfl unowned
      | some content =>
          have works : outcome.codecInitialised = true := initialised (by rw [init]; rfl)
          rw [works]
          refine effect_owned ready rfl ?_
          intro keeps
          have exits : desc.codecExit = true := keeps (by rw [init]; rfl)
          rw [ownedHandle, codecItem, exits]
          rfl

theorem queue_ecu_effect (desc : CodecDesc Lib) (sound : CallSound registry (.ecu desc) outcome) :
    CallEffect True pq ledger (osmoGapkPqQueueEcu registry desc outcome pq ledger) := by
  cases ready : desc.ecuProc with
  | none =>
      rw [osmoGapkPqQueueEcu, ready]
      exact effect_refused (by decide)
  | some proc =>
      have present : desc.ecuProc.isSome := by
        rw [ready]
        rfl
      cases allocated : outcome.itemAllocated with
      | false =>
          rw [osmoGapkPqQueueEcu, ready, allocated]
          exact effect_refused (by decide)
      | true =>
          obtain ⟨stateAllocated, found⟩ := sound present allocated
          obtain ⟨fmt, found⟩ := Option.isSome_iff_exists.mp found
          rw [queue_ecu_eq registry outcome linked present found, allocated, stateAllocated]
          exact effect_owned present rfl fun _ => rfl

variable (fresh : ledger.next ∉ ledger.released)

include fresh

theorem queue_state_op_effect (content : StateContent Lib)
    (fill : State Lib → Item Lib → Item Lib)
    (ready : ∀ state, (fill state .zero).proc.isSome ∧ (fill state .zero).freed = false)
    (owns : ∀ handle, ownedHandle (fill (.heap handle content) .zero) = some handle) :
    CallEffect True pq ledger (queueStateOp content fill outcome pq ledger) := by
  rw [queue_state_op_eq outcome linked fresh]
  cases outcome.stateAllocated with
  | false => exact effect_refused (by decide)
  | true =>
      cases outcome.itemAllocated with
      | false => exact effect_released (by decide)
      | true =>
          exact effect_owned (ready _).1 (ready _).2 fun _ => owns _

theorem queue_alsa_op_effect (blkLen : Nat) (inOutN : Bool)
    (opens : outcome.stateAllocated = true → 0 ≤ outcome.deviceOpened) :
    CallEffect True pq ledger (pqQueueAlsaOp blkLen inOutN outcome pq ledger) := by
  rw [queue_alsa_op_eq outcome linked fresh]
  cases allocated : outcome.stateAllocated with
  | false => exact effect_refused (by decide)
  | true =>
      rw [if_pos rfl, if_neg (Int.not_lt.mpr (opens allocated))]
      by_cases configured : outcome.deviceConfigured < 0
      · rw [if_pos configured]
        exact effect_released configured
      · rw [if_neg configured]
        cases outcome.itemAllocated with
        | false => exact effect_released (by decide)
        | true =>
            cases inOutN with
            | false => exact effect_owned rfl rfl fun _ => rfl
            | true => exact effect_owned rfl rfl fun _ => rfl

theorem queue_call_effect (call : QueueCall Lib) (sound : CallSound registry call outcome) :
    CallEffect (HasExit call) pq ledger (queueCall host registry call outcome pq ledger) := by
  cases call with
  | fileInput blkLen =>
      exact queue_state_op_effect outcome linked fresh _ _ (fun _ => ⟨rfl, rfl⟩) (fun _ => rfl)
  | fileOutput blkLen =>
      exact queue_state_op_effect outcome linked fresh _ _ (fun _ => ⟨rfl, rfl⟩) (fun _ => rfl)
  | rtpInput blkLen pt =>
      exact queue_state_op_effect outcome linked fresh _ _ (fun _ => ⟨rfl, rfl⟩) (fun _ => rfl)
  | rtpOutput blkLen pt =>
      exact queue_state_op_effect outcome linked fresh _ _ (fun _ => ⟨rfl, rfl⟩) (fun _ => rfl)
  | alsaInput blkLen => exact queue_alsa_op_effect outcome linked fresh blkLen true sound
  | alsaOutput blkLen => exact queue_alsa_op_effect outcome linked fresh blkLen false sound
  | fmtConvert fmt toFromN => exact queue_fmt_convert_effect registry outcome linked fmt toFromN
  | codec desc encDecN =>
      exact queue_codec_effect registry outcome linked desc encDecN sound
  | ecu desc => exact queue_ecu_effect registry outcome linked desc sound

end Specifications

section Unsound

variable {Lib : Type} (host : Endian) (registry : Registry Lib) {pq : Queue Lib} {ledger : Ledger}

/-- Behind the first item that is linked, a result is all-or-nothing only if the
call says so itself. -/
theorem all_or_nothing_linked {rv : Int} {after : Queue Lib} {ledgerAfter : Ledger}
    (holds : AllOrNothing pq ledger (.ok (rv, after, ledgerAfter)))
    (longer : after.items.length = pq.items.length + 1) : rv = 0 := by
  obtain ⟨rv', after', ledger', run, ⟨zero, _⟩ | ⟨_, items, _⟩⟩ := holds
  · cases run
    exact zero
  · cases run
    rw [items] at longer
    omega

theorem not_all_or_nothing_fault (fault : Fault) : ¬AllOrNothing pq ledger (.error fault) := by
  rintro ⟨_, _, _, run, _⟩
  cases run

/-- The rest of a codec call keeps the item, and succeeds only if nothing is
missing. -/
theorem queue_codec_item_sound {desc : CodecDesc Lib} {encDecN : Bool} {linkedPq : Queue Lib}
    {last : Item Lib} (items : linkedPq.items = pq.items ++ [last]) {between : Ledger}
    (holds : AllOrNothing pq ledger (queueCodecItem registry desc encDecN linkedPq between)) :
    (registry.fmtGetFromType (codecFormatType desc encDecN)).isSome ∧
      (registry.codecGetFromType .pcm).isSome ∧ (codecProc desc encDecN).isSome := by
  unfold queueCodecItem at holds
  cases found : registry.fmtGetFromType (codecFormatType desc encDecN) with
  | none =>
      rw [found] at holds
      have zero := all_or_nothing_linked holds (by rw [items]; simp)
      exact absurd zero (by decide)
  | some fmt =>
      rw [found] at holds
      cases pcm : registry.codecGetFromType .pcm with
      | none =>
          rw [pcm] at holds
          exact absurd holds (not_all_or_nothing_fault _)
      | some codecPcm =>
          simp only [pcm, deref_some, exec_bind_ok] at holds
          rw [set_last_eq items] at holds
          have zero := all_or_nothing_linked holds (by simp)
          cases ready : codecProc desc encDecN with
          | none =>
              simp only [ready, Option.isNone_none, if_true] at zero
              exact absurd zero (by decide)
          | some proc => exact ⟨rfl, rfl, rfl⟩

variable (outcome : CallOutcome)

theorem queue_alsa_sound (blkLen : Nat) (inOutN : Bool)
    (fresh : ledger.next ∉ ledger.released)
    (holds : AllOrNothing pq ledger (pqQueueAlsaOp blkLen inOutN outcome pq ledger))
    (allocated : outcome.stateAllocated = true) : 0 ≤ outcome.deviceOpened := by
  by_contra closed
  rw [pqQueueAlsaOp, allocated] at holds
  simp only [Bool.not_true, Bool.false_eq_true, if_false, Ledger.acquire] at holds
  rw [if_pos (Int.not_le.mp closed)] at holds
  obtain ⟨_, _, _, run, ⟨zero, _⟩ | ⟨_, _, _, kept⟩⟩ := holds
  · cases run
    omega
  · cases run
    have leaked : ledger.next ∈ live ⟨ledger.next + 1, ledger.released⟩ := by
      simp only [live, List.mem_filter, List.mem_range, decide_eq_true_eq]
      exact ⟨Nat.lt_succ_self _, fresh⟩
    rw [kept] at leaked
    simp [live] at leaked

variable (linked : Linked pq.items)

include linked

theorem queue_codec_sound (desc : CodecDesc Lib) (encDecN : Bool)
    (holds : AllOrNothing pq ledger
      (osmoGapkPqQueueCodec registry desc encDecN outcome pq ledger)) :
    CallSound registry (.codec desc encDecN) outcome := by
  intro allocated
  rw [osmoGapkPqQueueCodec, allocated, add_item_eq linked] at holds
  simp only [exec_bind_ok, Bool.not_true, Bool.false_eq_true, if_false] at holds
  cases init : desc.codecInit with
  | none =>
      rw [init] at holds
      refine ⟨fun present => absurd present Bool.false_ne_true, ?_⟩
      exact queue_codec_item_sound registry (rfl : pq.extended.items = pq.items ++ [.zero]) holds
  | some content =>
      simp only [init] at holds
      cases works : outcome.codecInitialised with
      | false =>
          simp only [works, Bool.not_false, if_true] at holds
          have zero := all_or_nothing_linked holds (by simp [Pq.extended])
          exact absurd zero (by decide)
      | true =>
          simp only [works, Bool.not_true, Bool.false_eq_true, if_false, Ledger.acquire] at holds
          rw [set_last_extended] at holds
          exact ⟨fun _ => rfl, queue_codec_item_sound registry rfl holds⟩

theorem queue_ecu_sound (desc : CodecDesc Lib)
    (holds : AllOrNothing pq ledger (osmoGapkPqQueueEcu registry desc outcome pq ledger)) :
    CallSound registry (.ecu desc) outcome := by
  intro ready allocated
  have present : desc.ecuProc.isNone = false := by
    rw [← Option.not_isSome, ready]
    rfl
  rw [osmoGapkPqQueueEcu, present, allocated, add_item_eq linked] at holds
  simp only [exec_bind_ok, Bool.not_true, Bool.false_eq_true, if_false] at holds
  cases stateAllocated : outcome.stateAllocated with
  | false =>
      simp only [stateAllocated, Bool.not_false, if_true] at holds
      rw [set_last_extended] at holds
      have zero := all_or_nothing_linked holds (by simp)
      exact absurd zero (by decide)
  | true =>
      cases found : registry.fmtGetFromType desc.codecDecFormatType with
      | none =>
          simp only [stateAllocated, Bool.not_true, Bool.false_eq_true, if_false, Ledger.acquire,
            found, deref_none, exec_bind_error] at holds
          exact absurd holds (not_all_or_nothing_fault _)
      | some fmt => exact ⟨rfl, rfl⟩

end Unsound

/-- A call is all-or-nothing exactly when its outcome is sound. -/
theorem queue_call_all_or_nothing_iff {Lib : Type} (host : Endian) (registry : Registry Lib)
    (outcome : CallOutcome) (state : QueueState Lib) (call : QueueCall Lib) :
    AllOrNothing state.pq state.ledger
        (queueCall host registry call outcome state.pq state.ledger) ↔
      CallSound registry call outcome := by
  constructor
  · intro holds
    cases call with
    | codec desc encDecN => exact queue_codec_sound registry outcome state.linked desc encDecN holds
    | ecu desc => exact queue_ecu_sound registry outcome state.linked desc holds
    | alsaInput blkLen => exact queue_alsa_sound outcome blkLen true (next_fresh state.handedOut) holds
    | alsaOutput blkLen => exact queue_alsa_sound outcome blkLen false (next_fresh state.handedOut) holds
    | fileInput _ | fileOutput _ | rtpInput _ _ | rtpOutput _ _ | fmtConvert _ _ => trivial
  · intro sound
    exact effect_all_or_nothing
      (queue_call_effect host registry outcome state.linked (next_fresh state.handedOut) call sound)

section Runs

variable {Lib : Type}

/-- Each state that was handed out is owned by one item or was released once. -/
structure Balanced (pq : Queue Lib) (ledger : Ledger) : Prop where
  linked : Linked pq.items
  counted : pq.nItems = pq.items.length
  owned : (pq.items.filterMap ownedHandle ++ ledger.released).Perm (List.range ledger.next)

theorem Balanced.handedOut {pq : Queue Lib} {ledger : Ledger} (balanced : Balanced pq ledger) :
    ∀ handle ∈ ledger.released, handle < ledger.next := by
  intro handle member
  exact List.mem_range.mp (balanced.owned.subset (List.mem_append_right _ member))

theorem balanced_create (name : String) :
    Balanced (osmoGapkPqCreate name : Queue Lib) .empty where
  linked := by
    intro item member
    exact absurd member List.not_mem_nil
  counted := rfl
  owned := List.Perm.refl _

theorem balanced_effect {keeps : Prop} {pq after : Queue Lib} {ledger ledgerAfter : Ledger}
    (balanced : Balanced pq ledger) (kept : keeps) (room : pq.items.length + 1 < 2 ^ 32)
    (effect : Appended keeps pq ledger after ledgerAfter ∨ Refused pq ledger after ledgerAfter) :
    Balanced after ledgerAfter ∧ after.items.length ≤ pq.items.length + 1 := by
  have more : (List.range ledger.next ++ [ledger.next]).Perm (List.range (ledger.next + 1)) := by
    rw [List.range_succ]
  rcases effect with ⟨item, rfl, _, present, owner⟩ | ⟨rfl, rfl | rfl⟩
  · have linked : Linked (pq.items ++ [item]) := by
      intro other member
      rcases List.mem_append.mp member with old | new
      · exact balanced.linked other old
      · rw [List.mem_singleton.mp new, present]
    have counted : (pq.nItems + 1) % 2 ^ 32 = (pq.items ++ [item]).length := by
      rw [balanced.counted, List.length_append, List.length_singleton, Nat.mod_eq_of_lt room]
    refine ⟨⟨linked, counted, ?_⟩, by simp⟩
    simp only [List.filterMap_append, List.filterMap_cons, List.filterMap_nil]
    rcases owner with ⟨rfl, unowned⟩ | ⟨rfl, owned⟩
    · rw [unowned, List.append_nil]
      exact balanced.owned
    · rw [owned kept]
      simp only [Ledger.acquire]
      refine List.Perm.trans ?_ more
      rw [List.append_assoc]
      refine (List.Perm.append_left _ List.perm_append_comm).trans ?_
      rw [← List.append_assoc]
      exact List.Perm.append_right _ balanced.owned
  · exact ⟨balanced, by omega⟩
  · refine ⟨⟨balanced.linked, balanced.counted, ?_⟩, by omega⟩
    refine List.Perm.trans ?_ more
    refine (List.perm_middle).trans ?_
    exact (List.Perm.cons _ balanced.owned).trans (List.perm_append_singleton _ _).symm

variable (host : Endian) (registry : Registry Lib)

def runCalls : List (QueueCall Lib × CallOutcome) → Queue Lib → Ledger →
    Exec (Queue Lib × Ledger)
  | [], pq, ledger => pure (pq, ledger)
  | (call, outcome) :: rest, pq, ledger => do
      let (_, pq, ledger) ← queueCall host registry call outcome pq ledger
      runCalls rest pq ledger

theorem run_calls_balanced (calls : List (QueueCall Lib × CallOutcome)) (pq : Queue Lib)
    (ledger : Ledger) (balanced : Balanced pq ledger)
    (sound : ∀ step ∈ calls, CallSound registry step.1 step.2 ∧ HasExit step.1)
    (room : pq.items.length + calls.length < 2 ^ 32) :
    ∃ after ledgerAfter, runCalls host registry calls pq ledger = .ok (after, ledgerAfter) ∧
      Balanced after ledgerAfter := by
  induction calls generalizing pq ledger with
  | nil => exact ⟨pq, ledger, rfl, balanced⟩
  | cons step rest ih =>
      obtain ⟨call, outcome⟩ := step
      rw [List.length_cons] at room
      obtain ⟨stepSound, exits⟩ := sound (call, outcome) (by simp)
      obtain ⟨rv, between, ledgerBetween, run, effect⟩ := queue_call_effect host registry outcome
        balanced.linked (next_fresh balanced.handedOut) call stepSound
      have effects := effect.imp And.right And.right
      obtain ⟨balancedBetween, grown⟩ := balanced_effect balanced exits (by omega) effects
      obtain ⟨after, ledgerAfter, runRest, balancedAfter⟩ := ih between ledgerBetween
        balancedBetween (by
          intro other member
          exact sound other (List.mem_cons_of_mem _ member)) (by omega)
      refine ⟨after, ledgerAfter, ?_, balancedAfter⟩
      rw [runCalls, run, exec_bind_ok]
      exact runRest

theorem exit_item_eq (item : Item Lib) (ledger : Ledger)
    (fresh : ∀ handle ∈ ownedHandle item, handle ∉ ledger.released) :
    exitItem item ledger = .ok ⟨ledger.next, (ownedHandle item).toList ++ ledger.released⟩ := by
  unfold exitItem
  unfold ownedHandle at fresh ⊢
  cases exit : item.exit with
  | none => rfl
  | some handler =>
      cases state : item.state with
      | heap handle content =>
          simp only [exit, state] at fresh
          exact if_neg (fresh handle rfl)
      | null | conv _ => rfl

theorem destroy_items_eq (items : List (Item Lib)) (ledger : Ledger) (linked : Linked items)
    (once : (items.filterMap ownedHandle ++ ledger.released).Nodup) :
    destroyItems items ledger = .ok
      ⟨ledger.next, (items.filterMap ownedHandle).reverse ++ ledger.released⟩ := by
  induction items generalizing ledger with
  | nil => rfl
  | cons item rest ih =>
      have restLinked : Linked rest := fun other member => linked other (List.mem_cons_of_mem _ member)
      rw [destroyItems, touch_eq (linked item (by simp)), exec_bind_ok]
      cases owned : ownedHandle item with
      | none =>
          rw [List.filterMap_cons_none owned] at once ⊢
          rw [exit_item_eq item ledger (by simp [owned]), exec_bind_ok, owned]
          exact ih ledger restLinked once
      | some handle =>
          rw [List.filterMap_cons_some owned] at once ⊢
          have fresh : ∀ other ∈ ownedHandle item, other ∉ ledger.released := by
            intro other member released
            rw [owned, Option.mem_some_iff] at member
            rw [← member] at released
            exact (List.nodup_cons.mp once).1 (List.mem_append_right _ released)
          rw [exit_item_eq item ledger fresh, exec_bind_ok, owned, Option.toList_some,
            List.singleton_append, ih _ restLinked (List.perm_middle.nodup_iff.mpr once),
            List.reverse_cons, List.append_assoc, List.singleton_append]

theorem destroy_balanced {pq : Queue Lib} {ledger : Ledger} (balanced : Balanced pq ledger) :
    ∃ final, osmoGapkPqDestroy pq ledger = .ok final ∧ final.next = ledger.next ∧
      ∀ handle < ledger.next, final.released.count handle = 1 := by
  have once : (pq.items.filterMap ownedHandle ++ ledger.released).Nodup :=
    balanced.owned.nodup_iff.mpr List.nodup_range
  refine ⟨_, destroy_items_eq pq.items ledger balanced.linked once, rfl, ?_⟩
  intro handle earlier
  have same : ((pq.items.filterMap ownedHandle).reverse ++ ledger.released).Perm
      (List.range ledger.next) :=
    (List.Perm.append_right _ (List.reverse_perm _)).trans balanced.owned
  rw [same.count_eq]
  exact List.count_eq_one_of_mem List.nodup_range (List.mem_range.mpr earlier)

/-- Sound calls are the all-or-nothing calls, in any queue. After any sequence of
them the item count is the length of the list, and destroying the queue releases
each state that was taken exactly once. -/
theorem sound_calls_all_or_nothing :
    (∀ (state : QueueState Lib) (call : QueueCall Lib) (outcome : CallOutcome),
      AllOrNothing state.pq state.ledger
          (queueCall host registry call outcome state.pq state.ledger) ↔
        CallSound registry call outcome) ∧
    (∀ (name : String) (calls : List (QueueCall Lib × CallOutcome)),
      (∀ step ∈ calls, CallSound registry step.1 step.2 ∧ HasExit step.1) →
      calls.length < 2 ^ 32 →
      ∃ pq ledger, runCalls host registry calls (osmoGapkPqCreate name) .empty = .ok (pq, ledger) ∧
        pq.nItems = pq.items.length ∧
        ∃ final, osmoGapkPqDestroy pq ledger = .ok final ∧ final.next = ledger.next ∧
          ∀ handle < ledger.next, final.released.count handle = 1) := by
  constructor
  · intro state call outcome
    exact queue_call_all_or_nothing_iff host registry outcome state call
  · intro name calls sound room
    have empty : (osmoGapkPqCreate name : Queue Lib).items.length = 0 := rfl
    obtain ⟨pq, ledger, run, balanced⟩ := run_calls_balanced host registry calls _ _
      (balanced_create name) sound (by omega)
    exact ⟨pq, ledger, run, balanced.counted, destroy_balanced balanced⟩

end Runs

/-- A table of nothing, a codec with a library, and a call in which the library
refuses to initialise. -/
def emptyRegistry : Registry Unit := ⟨fun _ => none, fun _ => none⟩

def libraryCodec : CodecDesc Unit where
  type := .fr
  name := "fr"
  canonFrameLen := 33
  codecEncFormatType := .gsm
  codecDecFormatType := .gsm
  codecInit := some ()
  codecExit := true
  codecEncode := none
  codecDecode := none
  ecuProc := none

def workingOutcome : CallOutcome := ⟨true, true, true, 0, 0, 0, 0, 0⟩

def emptyState : QueueState Unit where
  pq := osmoGapkPqCreate "main"
  ledger := .empty
  linked := by
    intro item member
    exact absurd member List.not_mem_nil
  handedOut := by
    intro handle member
    exact absurd member List.not_mem_nil

/-- A codec that cannot be initialised leaves its item in the queue. -/
theorem failed_codec_init_not_all_or_nothing :
    ¬∀ (host : Endian) (registry : Registry Unit) (state : QueueState Unit)
      (call : QueueCall Unit) (outcome : CallOutcome),
      AllOrNothing state.pq state.ledger
        (queueCall host registry call outcome state.pq state.ledger) := by
  intro always
  have sound := (queue_call_all_or_nothing_iff .little emptyRegistry
    { workingOutcome with codecInitialised := false } emptyState (.codec libraryCodec true)).mp
    (always _ _ _ _ _)
  exact Bool.false_ne_true ((sound rfl).1 rfl)

end Gapk.QueueLedger
