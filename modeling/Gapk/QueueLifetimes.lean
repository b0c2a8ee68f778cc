import Gapk.ItemOwners

/-!
# Lifetimes of item states

A queue may be filled, prepared, checked and run in any order before it is
destroyed. Whatever its user does, each state that was taken for an item is given
back exactly once, save for the states of sound devices that could not be opened.
Those are left to the allocator, which frees them along with the queue.
-/

namespace Gapk.QueueLifetimes

open CheckedMemory HostWords
open Gapk.Formats Gapk.Procqueue Gapk.Streams Gapk.QueueOps Gapk.QueueLedger Gapk.Codecs
open Gapk.ItemOwners

set_option autoImplicit false

section Accounts

variable {Lib : Type}

/-- The ledger as it would be if the lost states had been released. -/
def settled (ledger : Ledger) (lost : List Nat) : Ledger := ⟨ledger.next, ledger.released ++ lost⟩

/-- Each state is owned by one item, was released once or is lost, and no call-back
will change that. -/
structure Accounted (pq : Queue Lib) (ledger : Ledger) (lost : List Nat) : Prop where
  balanced : Balanced pq (settled ledger lost)
  faithful : Faithful (identities pq)

variable {pq after : Queue Lib} {ledger ledgerAfter : Ledger} {lost : List Nat} {item : Item Lib}

theorem accounted_create (name : String) :
    Accounted (osmoGapkPqCreate name : Queue Lib) .empty [] where
  balanced := balanced_create name
  faithful := List.forall_mem_nil _

theorem Accounted.linked (accounted : Accounted pq ledger lost) : Linked pq.items :=
  accounted.balanced.linked

theorem Accounted.fresh (accounted : Accounted pq ledger lost) : ledger.next ∉ ledger.released := by
  intro member
  have earlier := accounted.balanced.handedOut ledger.next (List.mem_append_left _ member)
  exact Nat.lt_irrefl _ earlier

theorem owned_eq (pq : Queue Lib) : pq.items.filterMap ownedHandle =
    (identities pq).filterMap fun id => id.exit.bind fun _ => id.handle := by
  rw [identities, List.filterMap_map]
  apply List.filterMap_congr
  intro item _
  rw [ownedHandle, Function.comp_apply, identity]
  cases item.exit with
  | none => rfl
  | some handler => cases item.state <;> rfl

theorem linked_iff (pq : Queue Lib) : Linked pq.items ↔ ∀ id ∈ identities pq, id.freed = false := by
  rw [identities, List.forall_mem_map]
  exact Iff.rfl

/-- The account does not depend on what the items hold. -/
theorem Accounted.transfer (accounted : Accounted pq ledger lost)
    (same : identities after = identities pq) (counted : after.nItems = pq.nItems) :
    Accounted after ledger lost where
  balanced := {
    linked := by
      rw [linked_iff, same]
      exact (linked_iff _).mp accounted.linked
    counted := by
      have sameLength := congrArg List.length same
      rw [identities, identities, List.length_map, List.length_map] at sameLength
      rw [counted, accounted.balanced.counted, sameLength]
    owned := by
      rw [owned_eq, same, ← owned_eq]
      exact accounted.balanced.owned }
  faithful := same ▸ accounted.faithful

section Effects

variable (accounted : Accounted pq ledger lost)

include accounted

theorem Accounted.one_more : (pq.items.filterMap ownedHandle ++
    ledger.next :: (ledger.released ++ lost)).Perm (List.range (ledger.next + 1)) := by
  rw [List.range_succ]
  refine List.perm_middle.trans ?_
  exact (List.Perm.cons _ accounted.balanced.owned).trans (List.perm_append_singleton _ _).symm

theorem Accounted.released :
    Accounted pq ⟨ledger.next + 1, ledger.next :: ledger.released⟩ lost where
  balanced := ⟨accounted.balanced.linked, accounted.balanced.counted, accounted.one_more⟩
  faithful := accounted.faithful

theorem Accounted.loses : Accounted pq ledger.acquire.2 (ledger.next :: lost) where
  balanced := by
    refine ⟨accounted.balanced.linked, accounted.balanced.counted, ?_⟩
    exact (List.Perm.append_left _ List.perm_middle).trans accounted.one_more
  faithful := accounted.faithful

variable (room : pq.items.length + 1 < 2 ^ 32) (present : item.freed = false)
  (keeps : ∀ callback ∈ item.proc, KeepsState callback)

include room present keeps

/-- An item is linked, with a new state of its own or without any. -/
theorem Accounted.appended (owner : (ledgerAfter = ledger ∧ ownedHandle item = none) ∨
    (ledgerAfter = ledger.acquire.2 ∧ ownedHandle item = some ledger.next)) :
    Accounted (appended pq item) ledgerAfter lost where
  balanced := {
    linked := List.forall_mem_append.mpr ⟨accounted.linked, List.forall_mem_singleton.mpr present⟩
    counted := by
      show (pq.nItems + 1) % 2 ^ 32 = (pq.items ++ [item]).length
      rw [accounted.balanced.counted, List.length_append, List.length_singleton, Nat.mod_eq_of_lt room]
    owned := by
      show ((pq.items ++ [item]).filterMap ownedHandle ++ _).Perm _
      rw [List.filterMap_append]
      rcases owner with ⟨rfl, unowned⟩ | ⟨rfl, owned⟩
      · rw [List.filterMap_cons_none unowned, List.filterMap_nil, List.append_nil]
        exact accounted.balanced.owned
      · rw [List.filterMap_cons_some owned, List.filterMap_nil, List.append_assoc,
          List.singleton_append]
        exact accounted.one_more }
  faithful := by
    show Faithful ((pq.items ++ [item]).map identity)
    rw [List.map_append]
    exact List.forall_mem_append.mpr ⟨accounted.faithful, List.forall_mem_singleton.mpr keeps⟩

end Effects

end Accounts

section Calls

variable {Lib : Type} (host : Endian) (registry : Registry Lib)

/-- A codec looks after its state, and the format that it names is there before the
state is taken; a concealment unit gets its state. -/
def Orderly (call : QueueCall Lib) (outcome : CallOutcome) : Prop :=
  match call with
  | .codec desc encDecN =>
      Manages desc ∧
        (desc.codecInit.isSome → (registry.fmtGetFromType (codecFormatType desc encDecN)).isSome)
  | .ecu desc =>
      Manages desc ∧ (desc.ecuProc.isSome → outcome.itemAllocated = true → outcome.stateAllocated = true)
  | _ => True

/-- The call gets a state, but no sound device for it. -/
def loses (call : QueueCall Lib) (outcome : CallOutcome) : Bool :=
  match call with
  | .alsaInput _ | .alsaOutput _ => outcome.stateAllocated && decide (outcome.deviceOpened < 0)
  | _ => false

/-- Behind the call all states are accounted for, one more of them lost or none. -/
def AccountsFor (one : Bool) (pq : Queue Lib) (ledger : Ledger) (lost : List Nat)
    (result : Exec (Int × Queue Lib × Ledger)) : Prop :=
  ∀ rv after ledgerAfter, result = .ok (rv, after, ledgerAfter) →
    Accounted after ledgerAfter (if one then ledger.next :: lost else lost) ∧
      after.items.length ≤ pq.items.length + 1

section Effects

variable {pq : Queue Lib} {ledger : Ledger} {lost : List Nat} {rv : Int}
  (accounted : Accounted pq ledger lost)

include accounted

theorem accounts_as_it_was : AccountsFor false pq ledger lost (.ok (rv, pq, ledger)) := by
  intro _ _ _ same
  cases same
  exact ⟨accounted, Nat.le_succ _⟩

theorem accounts_released : AccountsFor false pq ledger lost
    (.ok (rv, pq, ⟨ledger.next + 1, ledger.next :: ledger.released⟩)) := by
  intro _ _ _ same
  cases same
  exact ⟨accounted.released, Nat.le_succ _⟩

theorem accounts_lost : AccountsFor true pq ledger lost (.ok (rv, pq, ledger.acquire.2)) := by
  intro _ _ _ same
  cases same
  exact ⟨accounted.loses, Nat.le_succ _⟩

variable (room : pq.items.length + 1 < 2 ^ 32)

include room

theorem accounts_item {item : Item Lib} {ledgerAfter : Ledger} (present : item.freed = false)
    (keeps : ∀ callback ∈ item.proc, KeepsState callback)
    (owner : (ledgerAfter = ledger ∧ ownedHandle item = none) ∨
      (ledgerAfter = ledger.acquire.2 ∧ ownedHandle item = some ledger.next)) :
    AccountsFor false pq ledger lost (.ok (rv, appended pq item, ledgerAfter)) := by
  intro _ _ _ same
  cases same
  refine ⟨accounted.appended room present keeps owner, ?_⟩
  show (pq.items ++ [item]).length ≤ _
  rw [List.length_append, List.length_singleton]

variable (outcome : CallOutcome)

theorem state_op_accounts (content : StateContent Lib) (fill : State Lib → Item Lib → Item Lib)
    (present : ∀ state, (fill state .zero).freed = false)
    (keeps : ∀ state, ∀ callback ∈ (fill state .zero).proc, KeepsState callback)
    (owns : ∀ handle, ownedHandle (fill (.heap handle content) .zero) = some handle) :
    AccountsFor false pq ledger lost (queueStateOp content fill outcome pq ledger) := by
  rw [queue_state_op_eq outcome accounted.linked accounted.fresh]
  cases outcome.stateAllocated with
  | false => exact accounts_as_it_was accounted
  | true =>
      cases outcome.itemAllocated with
      | false => exact accounts_released accounted
      | true => exact accounts_item accounted room (present _) (keeps _) (Or.inr ⟨rfl, owns _⟩)

theorem alsa_op_accounts (blkLen : Nat) (inOutN : Bool) :
    AccountsFor (outcome.stateAllocated && decide (outcome.deviceOpened < 0)) pq ledger lost
      (pqQueueAlsaOp blkLen inOutN outcome pq ledger) := by
  rw [queue_alsa_op_eq outcome accounted.linked accounted.fresh]
  cases outcome.stateAllocated with
  | false => exact accounts_as_it_was accounted
  | true =>
      by_cases closed : outcome.deviceOpened < 0
      · rw [if_pos rfl, if_pos closed, decide_eq_true closed]
        exact accounts_lost accounted
      · rw [if_pos rfl, if_neg closed, decide_eq_false closed]
        by_cases misconfigured : outcome.deviceConfigured < 0
        · rw [if_pos misconfigured]
          exact accounts_released accounted
        · rw [if_neg misconfigured]
          cases outcome.itemAllocated with
          | false => exact accounts_released accounted
          | true =>
              have keeps : ∀ state, ∀ callback ∈ (alsaItem blkLen inOutN state .zero : Item Lib).proc,
                  KeepsState callback := by
                intro state callback member
                cases member
                cases inOutN with
                | false => exact alsa_output_keeps
                | true => exact alsa_input_keeps
              exact accounts_item accounted room rfl (keeps _) (Or.inr ⟨rfl, rfl⟩)

theorem fmt_convert_accounts (fmt : FormatDesc) (toFromN : Bool) :
    AccountsFor false pq ledger lost
      (osmoGapkPqQueueFmtConvert registry fmt toFromN outcome pq ledger) := by
  cases found : registry.codecGetFromType fmt.codecType with
  | none =>
      rw [osmoGapkPqQueueFmtConvert, found]
      exact accounts_as_it_was accounted
  | some codec =>
      rw [queue_fmt_convert_eq registry outcome accounted.linked toFromN found]
      cases outcome.itemAllocated with
      | false => exact accounts_as_it_was accounted
      | true =>
          have keeps : ∀ callback ∈ (fmtItem fmt codec toFromN .zero : Item Lib).proc,
              KeepsState callback := by
            intro callback member
            cases member
            exact fmt_convert_keeps
          exact accounts_item accounted room rfl keeps (Or.inl ⟨rfl, rfl⟩)

theorem codec_item_accounts {desc : CodecDesc Lib} {encDecN : Bool} (manages : Manages desc)
    {item : Item Lib} {ledgerAfter : Ledger} (blank : item.proc = none ∧ item.freed = false)
    (owner : (ledgerAfter = ledger ∧ item.state = .null ∧ item.exit = none) ∨
      (ledgerAfter = ledger.acquire.2 ∧ handleOf item.state = some ledger.next ∧
        desc.codecExit = true ∧ (registry.fmtGetFromType (codecFormatType desc encDecN)).isSome)) :
    AccountsFor false pq ledger lost
      (queueCodecItem registry desc encDecN (appended pq item) ledgerAfter) := by
  cases found : registry.fmtGetFromType (codecFormatType desc encDecN) with
  | none =>
      rw [queueCodecItem, found]
      have unowned : ledgerAfter = ledger ∧ ownedHandle item = none := by
        rcases owner with ⟨same, _, exit⟩ | ⟨_, _, _, found'⟩
        · rw [ownedHandle, exit]
          exact ⟨same, rfl⟩
        · rw [found] at found'
          cases found'
      have keeps : ∀ callback ∈ item.proc, KeepsState callback := by
        rw [blank.1]
        exact fun callback member => absurd member (Option.not_mem_none callback)
      exact accounts_item accounted room blank.2 keeps (Or.inl unowned)
  | some fmt =>
      rw [queueCodecItem, found]
      cases pcm : registry.codecGetFromType .pcm with
      | none =>
          intro _ _ _ run
          cases run
      | some codecPcm =>
          simp only [deref_some, exec_bind_ok]
          rw [set_last_eq (rfl : (appended pq item).items = pq.items ++ [item])]
          have owned : (ledgerAfter = ledger ∧
                ownedHandle (codecItem desc codecPcm fmt encDecN item) = none) ∨
              (ledgerAfter = ledger.acquire.2 ∧
                ownedHandle (codecItem desc codecPcm fmt encDecN item) = some ledger.next) := by
            rcases owner with ⟨same, null, _⟩ | ⟨same, handle, exits, _⟩
            · refine Or.inl ⟨same, ?_⟩
              rw [ownedHandle, codecItem, null]
              split_ifs <;> rfl
            · refine Or.inr ⟨same, ?_⟩
              rw [ownedHandle, codecItem, exits]
              cases state : item.state with
              | heap other content =>
                  rw [state] at handle
                  exact handle
              | null | conv _ =>
                  rw [state] at handle
                  cases handle
          exact accounts_item accounted room blank.2 (manages.codec encDecN) owned

theorem codec_accounts (desc : CodecDesc Lib) (encDecN : Bool)
    (orderly : Orderly registry (.codec desc encDecN) outcome) :
    AccountsFor false pq ledger lost (osmoGapkPqQueueCodec registry desc encDecN outcome pq ledger) := by
  obtain ⟨manages, named⟩ := orderly
  unfold osmoGapkPqQueueCodec
  cases outcome.itemAllocated with
  | false => exact accounts_as_it_was accounted
  | true =>
      rw [add_item_eq accounted.linked]
      simp only [exec_bind_ok, Bool.not_true, Bool.false_eq_true, if_false]
      cases init : desc.codecInit with
      | none =>
          have blank : (PqItem.zero : Item Lib).proc = none ∧ (PqItem.zero : Item Lib).freed = false :=
            ⟨rfl, rfl⟩
          exact codec_item_accounts registry accounted room manages blank (Or.inl ⟨rfl, rfl, rfl⟩)
      | some content =>
          have present : desc.codecInit.isSome := by
            rw [init]
            rfl
          cases outcome.codecInitialised with
          | false =>
              have keeps : ∀ callback ∈ (PqItem.zero : Item Lib).proc, KeepsState callback :=
                fun callback member => absurd member (Option.not_mem_none callback)
              exact accounts_item accounted room rfl keeps (Or.inl ⟨rfl, rfl⟩)
          | true =>
              simp only [Bool.not_true, Bool.false_eq_true, if_false, Ledger.acquire]
              rw [set_last_extended]
              let item : Item Lib := setState (.heap ledger.next (.codec content)) .zero
              have blank : item.proc = none ∧ item.freed = false := ⟨rfl, rfl⟩
              exact codec_item_accounts registry accounted room manages blank
                (Or.inr ⟨rfl, rfl, manages.exits present, named present⟩)

theorem ecu_accounts (desc : CodecDesc Lib) (orderly : Orderly registry (.ecu desc) outcome) :
    AccountsFor false pq ledger lost (osmoGapkPqQueueEcu registry desc outcome pq ledger) := by
  obtain ⟨manages, allocates⟩ := orderly
  unfold osmoGapkPqQueueEcu
  cases ready : desc.ecuProc with
  | none => exact accounts_as_it_was accounted
  | some proc =>
      have present : desc.ecuProc.isSome := by
        rw [ready]
        rfl
      cases allocated : outcome.itemAllocated with
      | false => exact accounts_as_it_was accounted
      | true =>
          rw [allocates present allocated, add_item_eq accounted.linked]
          simp only [exec_bind_ok, Option.isNone_some, Bool.not_true, Bool.false_eq_true, if_false]
          cases found : registry.fmtGetFromType desc.codecDecFormatType with
          | none =>
              intro _ _ _ run
              cases run
          | some fmt =>
              simp only [deref_some, exec_bind_ok]
              rw [set_last_extended]
              exact accounts_item accounted room rfl manages.ecu (Or.inr ⟨rfl, rfl⟩)

theorem queue_call_accounts (call : QueueCall Lib) (orderly : Orderly registry call outcome) :
    AccountsFor (loses call outcome) pq ledger lost
      (queueCall host registry call outcome pq ledger) := by
  have always : ∀ callback : ProcCb (StateContent Lib) World, KeepsState callback →
      ∀ other ∈ some callback, KeepsState other := by
    intro callback keeps other member
    cases member
    exact keeps
  cases call with
  | fileInput blkLen =>
      exact state_op_accounts accounted room outcome _ _ (fun _ => rfl)
        (fun _ => always _ file_input_keeps) (fun _ => rfl)
  | fileOutput blkLen =>
      exact state_op_accounts accounted room outcome _ _ (fun _ => rfl)
        (fun _ => always _ file_output_keeps) (fun _ => rfl)
  | rtpInput blkLen pt =>
      exact state_op_accounts accounted room outcome _ _ (fun _ => rfl)
        (fun _ => always _ (rtp_input_keeps host)) (fun _ => rfl)
  | rtpOutput blkLen pt =>
      exact state_op_accounts accounted room outcome _ _ (fun _ => rfl)
        (fun _ => always _ (rtp_output_keeps host)) (fun _ => rfl)
  | alsaInput blkLen => exact alsa_op_accounts accounted room outcome blkLen true
  | alsaOutput blkLen => exact alsa_op_accounts accounted room outcome blkLen false
  | fmtConvert fmt toFromN =>
      exact fmt_convert_accounts registry accounted room outcome fmt toFromN
  | codec desc encDecN => exact codec_accounts registry accounted room outcome desc encDecN orderly
  | ecu desc => exact ecu_accounts registry accounted room outcome desc orderly

end Effects

end Calls

section Uses

variable {Lib : Type} (host : Endian) (registry : Registry Lib)

/-- What the user of a queue can do before it is destroyed. -/
inductive QueueAction (Lib : Type) where
  | call (call : QueueCall Lib) (outcome : CallOutcome)
  | check (strict : Bool)
  | prepare (memory : BufferAlloc)
  | execute

/-- A queue in use, and the world that it works on. -/
structure Held (Lib : Type) where
  pq : Queue Lib
  ledger : Ledger
  world : World

def takeAction (held : Held Lib) : QueueAction Lib → Exec (Held Lib)
  | .call call outcome => do
      let (_, pq, ledger) ← queueCall host registry call outcome held.pq held.ledger
      pure { held with pq := pq, ledger := ledger }
  | .check strict => do
      let _ ← osmoGapkPqCheck held.pq strict
      pure held
  | .prepare memory => do
      let (_, pq) ← osmoGapkPqPrepare memory held.pq
      pure { held with pq := pq }
  | .execute => do
      let (_, pq, world) ← osmoGapkPqExecute held.pq held.world
      pure { held with pq := pq, world := world }

def takeActions : List (QueueAction Lib) → Held Lib → Exec (Held Lib)
  | [], held => pure held
  | action :: rest, held => do
      let held ← takeAction host registry held action
      takeActions rest held

def OrderlyAction : QueueAction Lib → Prop
  | .call call outcome => Orderly registry call outcome
  | .check _ | .prepare _ | .execute => True

def losesState : QueueAction Lib → Bool
  | .call call outcome => loses call outcome
  | .check _ | .prepare _ | .execute => false

def isCall : QueueAction Lib → Bool
  | .call _ _ => true
  | .check _ | .prepare _ | .execute => false

variable {held after : Held Lib} {lost : List Nat}

theorem identities_length {pq other : Queue Lib} (same : identities other = identities pq) :
    other.items.length = pq.items.length := by
  have sameLength := congrArg List.length same
  rwa [identities, identities, List.length_map, List.length_map] at sameLength

/-- No action loses track of a state, unless it loses the state. -/
theorem action_accounts {action : QueueAction Lib} (orderly : OrderlyAction registry action)
    (accounted : Accounted held.pq held.ledger lost)
    (room : held.pq.items.length + (isCall action).toNat < 2 ^ 32)
    (taken : takeAction host registry held action = .ok after) :
    Accounted after.pq after.ledger (if losesState action then held.ledger.next :: lost else lost) ∧
      after.pq.items.length ≤ held.pq.items.length + (isCall action).toNat := by
  cases action with
  | call call outcome =>
      obtain ⟨⟨rv, pq, ledger⟩, run, last⟩ := (exec_bind_eq_ok _ _ _).mp taken
      cases last
      exact queue_call_accounts host registry accounted room outcome call orderly _ _ _ run
  | check strict =>
      obtain ⟨rv, _, last⟩ := (exec_bind_eq_ok _ _ _).mp taken
      cases last
      exact ⟨accounted, Nat.le_refl _⟩
  | prepare memory =>
      obtain ⟨⟨rv, pq⟩, run, last⟩ := (exec_bind_eq_ok _ _ _).mp taken
      cases last
      have same := prepare_keeps run
      obtain ⟨_, _, unchanged⟩ := (exec_bind_eq_ok _ _ _).mp run
      cases unchanged
      exact ⟨accounted.transfer same rfl, (identities_length same).le⟩
  | execute =>
      obtain ⟨⟨rv, pq, world⟩, run, last⟩ := (exec_bind_eq_ok _ _ _).mp taken
      cases last
      have same := execute_keeps accounted.faithful run
      obtain ⟨items, passed, _, rfl, _⟩ := QueueRuns.execute_ok run
      exact ⟨accounted.transfer same rfl, (identities_length same).le⟩

theorem actions_account (actions : List (QueueAction Lib)) :
    ∀ (held after : Held Lib) (lost : List Nat), (∀ action ∈ actions, OrderlyAction registry action) →
      Accounted held.pq held.ledger lost → held.pq.items.length + actions.countP isCall < 2 ^ 32 →
      takeActions host registry actions held = .ok after →
      ∃ lostAfter, Accounted after.pq after.ledger lostAfter ∧
        lostAfter.length = lost.length + actions.countP losesState := by
  induction actions with
  | nil =>
      intro held after lost _ accounted _ taken
      cases taken
      exact ⟨lost, accounted, rfl⟩
  | cons action rest ih =>
      intro held after lost orderly accounted room taken
      have counted : (action :: rest).countP isCall = (isCall action).toNat + rest.countP isCall := by
        rw [List.countP_cons, Nat.add_comm]
        cases isCall action <;> rfl
      rw [counted] at room
      obtain ⟨first, others⟩ := List.forall_mem_cons.mp orderly
      obtain ⟨between, one, taken⟩ := (exec_bind_eq_ok _ _ _).mp taken
      obtain ⟨accountedBetween, grown⟩ := action_accounts host registry first accounted (by omega) one
      obtain ⟨lostAfter, accountedAfter, count⟩ := ih _ _ _ others accountedBetween (by omega) taken
      refine ⟨lostAfter, accountedAfter, ?_⟩
      rw [count, List.countP_cons]
      split_ifs
      · rw [List.length_cons]
        omega
      · rfl

/-- Destroying a queue gives back all states that are not lost, whatever its items
hold by then. -/
theorem destroy_accounted {pq last : Queue Lib} {ledger : Ledger}
    (accounted : Accounted pq ledger lost) (same : identities last = identities pq) :
    ∃ final, osmoGapkPqDestroy last ledger = .ok final ∧ final.next = ledger.next ∧
      (final.released ++ lost).Perm (List.range final.next) := by
  have linked : Linked last.items := by
    rw [linked_iff, same]
    exact (linked_iff _).mp accounted.linked
  have owned : ((last.items.filterMap ownedHandle ++ ledger.released) ++ lost).Perm
      (List.range ledger.next) := by
    rw [owned_eq, same, ← owned_eq, List.append_assoc]
    exact accounted.balanced.owned
  have once : (last.items.filterMap ownedHandle ++ ledger.released).Nodup :=
    (List.nodup_append.mp (owned.nodup_iff.mpr List.nodup_range)).1
  refine ⟨_, destroy_items_eq last.items ledger linked once, rfl, ?_⟩
  exact (List.Perm.append_right _ (List.Perm.append_right _ (List.reverse_perm _))).trans owned

end Uses

section Offered

variable {Lib : Type} (build : Build Lib)

/-- The codecs are those of this program, and a concealment unit gets its state. -/
def Offered : QueueAction Lib → Prop
  | .call (.codec desc _) _ => ∃ type, build.registry.codecGetFromType type = some desc
  | .call (.ecu desc) outcome => (∃ type, build.registry.codecGetFromType type = some desc) ∧
      (desc.ecuProc.isSome → outcome.itemAllocated = true → outcome.stateAllocated = true)
  | _ => True

variable {build}

theorem offered_manages {type : CodecType} {desc : CodecDesc Lib}
    (found : build.registry.codecGetFromType type = some desc) : Manages desc := by
  rw [build.codec_get_eq] at found
  exact codec_table_manages build.libs build.config found

/-- A codec of this program may be queued whatever it was built with. -/
theorem offered_codec {type : CodecType} {desc : CodecDesc Lib}
    (found : build.registry.codecGetFromType type = some desc) (encDecN : Bool)
    (outcome : CallOutcome) : Orderly build.registry (.codec desc encDecN) outcome := by
  refine ⟨offered_manages found, ?_⟩
  intro present
  have wellFormed := build.registry_well_formed
  have inTable := (build.codec_get_eq type).symm.trans found
  have named := codec_table_named build.libs build.config inTable present
  cases encDecN with
  | false =>
      obtain ⟨fmt, decoder, _⟩ := wellFormed.decoderFormat found named.1
      exact Option.isSome_iff_exists.mpr ⟨fmt, decoder⟩
  | true =>
      obtain ⟨fmt, encoder, _⟩ := wellFormed.encoderFormat found named.2
      exact Option.isSome_iff_exists.mpr ⟨fmt, encoder⟩

theorem offered_orderly {action : QueueAction Lib} (offered : Offered build action) :
    OrderlyAction build.registry action := by
  cases action with
  | call call outcome =>
      cases call with
      | codec desc encDecN =>
          obtain ⟨type, found⟩ := offered
          exact offered_codec found encDecN outcome
      | ecu desc =>
          obtain ⟨⟨type, found⟩, allocates⟩ := offered
          exact ⟨offered_manages found, allocates⟩
      | _ => trivial
  | check _ | prepare _ | execute => trivial

/-- A queue may be filled, checked, prepared and run in any order: destroying it gives
back each state once that was not given back already, and misses exactly one for each
sound device that could not be opened. -/
theorem states_given_back (name : String) (actions : List (QueueAction Lib)) (world : World)
    (held : Held Lib) (offered : ∀ action ∈ actions, Offered build action)
    (room : actions.countP isCall < 2 ^ 32)
    (used : takeActions build.host build.registry actions ⟨osmoGapkPqCreate name, .empty, world⟩ =
      .ok held) :
    ∃ final lost, osmoGapkPqDestroy held.pq held.ledger = .ok final ∧
      final.next = held.ledger.next ∧ (final.released ++ lost).Perm (List.range final.next) ∧
      lost.length = actions.countP losesState := by
  have orderly : ∀ action ∈ actions, OrderlyAction build.registry action :=
    fun action member => offered_orderly (offered action member)
  have small : (osmoGapkPqCreate name : Queue Lib).items.length + actions.countP isCall < 2 ^ 32 :=
    (Nat.zero_add _).trans_lt room
  obtain ⟨lost, accounted, count⟩ := actions_account build.host build.registry actions _ _ _ orderly
    (accounted_create name) small used
  obtain ⟨final, destroyed, same, all⟩ := destroy_accounted accounted rfl
  exact ⟨final, lost, destroyed, same, all, count.trans (Nat.zero_add _)⟩

end Offered

def silentOutcome : CallOutcome := { workingOutcome with deviceOpened := -1 }

/-- A byte is copied where a sound device was asked for in vain. -/
def silentCopy : List (QueueAction Unit) :=
  [.call (.fileInput 1) workingOutcome, .call (.alsaOutput 1) silentOutcome,
    .call (.fileOutput 1) workingOutcome, .check true, .prepare .cleared, .execute, .execute]

theorem silent_copy_gives_back :
    ∃ held final lost, takeActions .little Build.idle.registry silentCopy
        ⟨osmoGapkPqCreate "main", .empty, ⟨[0], [], [], [], [], [], fun _ => true, 0, 0⟩⟩ = .ok held ∧
      osmoGapkPqDestroy held.pq held.ledger = .ok final ∧ final.next = held.ledger.next ∧
      (final.released ++ lost).Perm (List.range final.next) ∧ lost.length = 1 := by
  obtain ⟨held, used⟩ : ∃ held, takeActions .little Build.idle.registry silentCopy
      ⟨osmoGapkPqCreate "main", .empty, ⟨[0], [], [], [], [], [], fun _ => true, 0, 0⟩⟩ = .ok held :=
    ⟨_, rfl⟩
  have offered : ∀ action ∈ silentCopy, Offered Build.idle action := by
    simp [silentCopy, Offered]
  obtain ⟨final, lost, destroyed, same, all, count⟩ :=
    states_given_back "main" silentCopy _ held offered (by decide) used
  exact ⟨held, final, lost, used, destroyed, same, all, count⟩

end Gapk.QueueLifetimes
