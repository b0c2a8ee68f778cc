import Gapk.Chain
import Gapk.MainLoop
import Gapk.QueueRuns

/-!
# Items keep what they own

A call-back may change the content of the state it is called with, but it never
puts another object in its place. While a queue is prepared and run its items stay
the ones that were queued: with their memory, their exit handlers and their states.
-/

namespace Gapk.ItemOwners

open CheckedMemory FixedWidth HostWords
open Gapk.Formats Gapk.Procqueue Gapk.Streams Gapk.PqRtp Gapk.QueueOps Gapk.QueueLedger Gapk.Codecs
open Gapk.QueueRuns Gapk.Chain Gapk.App Gapk.MainLoop

set_option autoImplicit false

section Identities

variable {State World : Type}

/-- The object behind a state pointer. -/
def handleOf : ItemState State → Option Nat
  | .heap handle _ => some handle
  | .null | .conv _ => none

/-- What no execution may change about an item. -/
structure Identity (State World : Type) where
  freed : Bool
  exit : Option ExitCb
  proc : Option (ProcCb State World)
  handle : Option Nat

def identity (item : PqItem State World) : Identity State World :=
  ⟨item.freed, item.exit, item.proc, handleOf item.state⟩

def identities (pq : Pq State World) : List (Identity State World) := pq.items.map identity

def KeepsState (proc : ProcCb State World) : Prop :=
  ∀ state out src srcLen world result, proc state out src srcLen world = .ok result →
    handleOf result.state = handleOf state

/-- All call-backs leave the objects where they are. -/
def Faithful (ids : List (Identity State World)) : Prop :=
  ∀ id ∈ ids, ∀ proc ∈ id.proc, KeepsState proc

variable {item : PqItem State World} {passed : Passed World} {result : ProcResult State World}

theorem call_keeps (keeps : ∀ proc ∈ item.proc, KeepsState proc)
    (called : callItem item passed = .ok result) : identity (afterCall item result) = identity item := by
  obtain ⟨_, _, called⟩ := (exec_bind_eq_ok _ _ _).mp called
  obtain ⟨proc, isProc, called⟩ := (exec_bind_eq_ok _ _ _).mp called
  have found : proc ∈ item.proc := by
    cases present : item.proc with
    | none =>
        rw [present] at isProc
        cases isProc
    | some other =>
        rw [present] at isProc
        cases isProc
        exact rfl
  have same := keeps proc found _ _ _ _ _ _ called
  simp only [identity, afterCall, same]

theorem execute_items_keep (items : List (PqItem State World)) :
    ∀ (passed passedAfter : Passed World) (rv : Int) (after : List (PqItem State World)),
      Faithful (items.map identity) → executeItems items passed = .ok (rv, after, passedAfter) →
      after.map identity = items.map identity := by
  induction items with
  | nil =>
      intro passed passedAfter rv after _ run
      cases run
      rfl
  | cons item rest ih =>
      intro passed passedAfter rv after faithful run
      obtain ⟨first, others⟩ := List.forall_mem_cons.mp faithful
      obtain ⟨result, called, ⟨_, _, rfl, _⟩ | ⟨_, restAfter, restRun, rfl⟩⟩ := execute_cons_ok run
      · rw [List.map_cons, List.map_cons, call_keeps first called]
      · rw [List.map_cons, List.map_cons, call_keeps first called, ih _ _ _ _ others restRun]

theorem execute_keeps {pq after : Pq State World} {world worldAfter : World} {rv : Int}
    (faithful : Faithful (identities pq))
    (run : osmoGapkPqExecute pq world = .ok (rv, after, worldAfter)) :
    identities after = identities pq := by
  obtain ⟨items, passed, itemsRun, rfl, _⟩ := execute_ok run
  exact execute_items_keep _ _ _ _ _ faithful itemsRun

/-- Preparation changes nothing but the buffers, also when it fails. -/
theorem prepare_items_keep (memory : BufferAlloc) (items : List (PqItem State World)) :
    ∀ (index : Nat) (rv : Int) (after : List (PqItem State World)),
      prepareItems memory index items = .ok (rv, after) → after.map identity = items.map identity := by
  induction items with
  | nil =>
      intro index rv after run
      cases run
      rfl
  | cons item rest ih =>
      intro index rv after run
      rw [prepareItems] at run
      obtain ⟨_, _, run⟩ := (exec_bind_eq_ok _ _ _).mp run
      by_cases sink : item.type = .sink
      · rw [if_pos sink] at run
        obtain ⟨⟨restRv, restAfter⟩, restRun, last⟩ := (exec_bind_eq_ok _ _ _).mp run
        cases last
        rw [List.map_cons, List.map_cons, ih _ _ _ restRun]
      · rw [if_neg sink] at run
        cases allocated : memory.alloc index (bufSize item) with
        | none =>
            rw [allocated] at run
            cases run
            rfl
        | some buf =>
            simp only [allocated] at run
            obtain ⟨⟨restRv, restAfter⟩, restRun, last⟩ := (exec_bind_eq_ok _ _ _).mp run
            cases last
            rw [List.map_cons, List.map_cons, ih _ _ _ restRun]
            rfl

theorem prepare_keeps {memory : BufferAlloc} {pq after : Pq State World} {rv : Int}
    (run : osmoGapkPqPrepare memory pq = .ok (rv, after)) : identities after = identities pq := by
  obtain ⟨⟨itemsRv, items⟩, itemsRun, last⟩ := (exec_bind_eq_ok _ _ _).mp run
  cases last
  exact prepare_items_keep _ _ _ _ _ itemsRun

section Loops

variable {loop after : Loop State World} {rv rvEnd : Int} {done : Bool}

theorem loop_execute_keeps (faithful : Faithful (identities loop.pq))
    (executed : loop.execute = .ok (rv, after)) : identities after.pq = identities loop.pq := by
  obtain ⟨⟨result, pq, world⟩, run, last⟩ := (exec_bind_eq_ok _ _ _).mp executed
  cases last
  exact execute_keeps faithful run

theorem unthrottled_keeps {rounds : Nat} (faithful : Faithful (identities loop.pq))
    (ran : unthrottledLoop rounds rv loop = .ok (done, rvEnd, after)) :
    identities after.pq = identities loop.pq := by
  induction rounds generalizing rv loop with
  | zero =>
      cases ran
      rfl
  | succ rounds ih =>
      rw [unthrottledLoop] at ran
      split_ifs at ran
      · cases ran
        rfl
      · obtain ⟨⟨rvNow, next⟩, executed, ran⟩ := (exec_bind_eq_ok _ _ _).mp ran
        have same := loop_execute_keeps faithful executed
        simp only [] at ran
        split_ifs at ran
        · cases ran
          exact same
        · have goesOn : Faithful (identities next.countFrame.pq) := same ▸ faithful
          exact (ih goesOn ran).trans same

theorem timer_batch_keeps {expireCount : Nat} (faithful : Faithful (identities loop.pq))
    (ran : timerfdCb expireCount loop = .ok after) : identities after.pq = identities loop.pq := by
  induction expireCount generalizing loop with
  | zero =>
      cases ran
      rfl
  | succ expireCount ih =>
      obtain ⟨⟨rc, next⟩, executed, ran⟩ := (exec_bind_eq_ok _ _ _).mp ran
      have counted : Faithful (identities loop.countFrame.pq) := faithful
      have same : identities next.pq = identities loop.countFrame.pq :=
        loop_execute_keeps counted executed
      have flagged : ∀ failed : Prop, ∀ _ : Decidable failed,
          (if failed then { next with exit := true } else next).pq = next.pq := by
        intro failed _
        split_ifs <;> rfl
      have goesOn := ih (by rw [flagged, same]; exact faithful) ran
      rw [flagged] at goesOn
      exact goesOn.trans same

theorem throttled_keeps {expirations : List Nat} (faithful : Faithful (identities loop.pq))
    (ran : throttledLoop expirations loop = .ok (done, after)) :
    identities after.pq = identities loop.pq := by
  induction expirations generalizing loop with
  | nil =>
      cases ran
      rfl
  | cons expireCount rest ih =>
      rw [throttledLoop] at ran
      split_ifs at ran
      · cases ran
        rfl
      · obtain ⟨next, batch, ran⟩ := (exec_bind_eq_ok _ _ _).mp ran
        have same := timer_batch_keeps faithful batch
        exact (ih (same ▸ faithful) ran).trans same

end Loops

end Identities

section Callbacks

variable {Lib : Type}

theorem handle_with_content (state : State Lib) (content : StateContent Lib) :
    handleOf (withContent state content) = handleOf state := by
  cases state <;> rfl

theorem file_input_keeps : KeepsState (pqCbFileInput : ProcCb (StateContent Lib) World) := by
  intro state out src srcLen world result ran
  obtain ⟨blkLen, _, ran⟩ := (exec_bind_eq_ok _ _ _).mp ran
  obtain ⟨dst, _, ran⟩ := (exec_bind_eq_ok _ _ _).mp ran
  obtain ⟨filled, _, ran⟩ := (exec_bind_eq_ok _ _ _).mp ran
  cases ran
  rfl

theorem file_output_keeps : KeepsState (pqCbFileOutput : ProcCb (StateContent Lib) World) := by
  intro state out src srcLen world result ran
  obtain ⟨blkLen, _, ran⟩ := (exec_bind_eq_ok _ _ _).mp ran
  obtain ⟨input, _, ran⟩ := (exec_bind_eq_ok _ _ _).mp ran
  obtain ⟨data, _, ran⟩ := (exec_bind_eq_ok _ _ _).mp ran
  cases ran
  rfl

theorem alsa_input_keeps : KeepsState (pqCbAlsaInput : ProcCb (StateContent Lib) World) := by
  intro state out src srcLen world result ran
  obtain ⟨blkLen, _, ran⟩ := (exec_bind_eq_ok _ _ _).mp ran
  obtain ⟨dst, _, ran⟩ := (exec_bind_eq_ok _ _ _).mp ran
  obtain ⟨filled, _, ran⟩ := (exec_bind_eq_ok _ _ _).mp ran
  cases ran
  rfl

theorem alsa_output_keeps : KeepsState (pqCbAlsaOutput : ProcCb (StateContent Lib) World) := by
  intro state out src srcLen world result ran
  obtain ⟨blkLen, _, ran⟩ := (exec_bind_eq_ok _ _ _).mp ran
  obtain ⟨input, _, ran⟩ := (exec_bind_eq_ok _ _ _).mp ran
  obtain ⟨data, _, ran⟩ := (exec_bind_eq_ok _ _ _).mp ran
  cases ran
  rfl

theorem rtp_input_keeps (host : Endian) :
    KeepsState (pqCbRtpInput host : ProcCb (StateContent Lib) World) := by
  intro state out src srcLen world result ran
  obtain ⟨rtp, _, ran⟩ := (exec_bind_eq_ok _ _ _).mp ran
  obtain ⟨size, _, ran⟩ := (exec_bind_eq_ok _ _ _).mp ran
  simp only [] at ran
  split_ifs at ran
  · cases ran
    rfl
  · obtain ⟨accepted, _, ran⟩ := (exec_bind_eq_ok _ _ _).mp ran
    cases accepted with
    | none =>
        cases ran
        rfl
    | some payload =>
        obtain ⟨ssrc, _, ran⟩ := (exec_bind_eq_ok _ _ _).mp ran
        obtain ⟨timestamp, _, ran⟩ := (exec_bind_eq_ok _ _ _).mp ran
        obtain ⟨sequence, _, ran⟩ := (exec_bind_eq_ok _ _ _).mp ran
        obtain ⟨dst, _, ran⟩ := (exec_bind_eq_ok _ _ _).mp ran
        obtain ⟨filled, _, ran⟩ := (exec_bind_eq_ok _ _ _).mp ran
        cases ran
        exact handle_with_content _ _

theorem rtp_output_keeps (host : Endian) :
    KeepsState (pqCbRtpOutput host : ProcCb (StateContent Lib) World) := by
  intro state out src srcLen world result ran
  obtain ⟨rtp, _, ran⟩ := (exec_bind_eq_ok _ _ _).mp ran
  simp only [] at ran
  split_ifs at ran
  · cases ran
  · obtain ⟨_, _, ran⟩ := (exec_bind_eq_ok _ _ _).mp ran
    obtain ⟨buf, _, ran⟩ := (exec_bind_eq_ok _ _ _).mp ran
    obtain ⟨buf, _, ran⟩ := (exec_bind_eq_ok _ _ _).mp ran
    obtain ⟨buf, _, ran⟩ := (exec_bind_eq_ok _ _ _).mp ran
    obtain ⟨buf, _, ran⟩ := (exec_bind_eq_ok _ _ _).mp ran
    obtain ⟨input, _, ran⟩ := (exec_bind_eq_ok _ _ _).mp ran
    obtain ⟨packet, _, ran⟩ := (exec_bind_eq_ok _ _ _).mp ran
    cases ran
    exact handle_with_content _ _

/-- The state of a format item is no object at all. -/
theorem fmt_convert_keeps : KeepsState (pqCbFmtConvert : ProcCb (StateContent Lib) World) := by
  intro state out src srcLen world result ran
  cases state with
  | conv convert =>
      obtain ⟨dst, _, ran⟩ := (exec_bind_eq_ok _ _ _).mp ran
      obtain ⟨input, _, ran⟩ := (exec_bind_eq_ok _ _ _).mp ran
      obtain ⟨converted, _, ran⟩ := (exec_bind_eq_ok _ _ _).mp ran
      cases ran
      rfl
  | null | heap _ _ => cases ran

theorem lib_call_keeps (call : LibCall Lib) (inLen outLen : Nat) (returned : Int → Int) :
    KeepsState (libCall call inLen outLen returned) := by
  intro state out src srcLen world result ran
  obtain ⟨lib, _, ran⟩ := (exec_bind_eq_ok _ _ _).mp ran
  obtain ⟨dst, _, ran⟩ := (exec_bind_eq_ok _ _ _).mp ran
  obtain ⟨input, _, ran⟩ := (exec_bind_eq_ok _ _ _).mp ran
  obtain ⟨data, _, ran⟩ := (exec_bind_eq_ok _ _ _).mp ran
  obtain ⟨area, _, ran⟩ := (exec_bind_eq_ok _ _ _).mp ran
  obtain ⟨filled, _, ran⟩ := (exec_bind_eq_ok _ _ _).mp ran
  cases ran
  exact handle_with_content _ _

theorem require_keeps {callback : ProcCb (StateContent Lib) World} (keeps : KeepsState callback)
    (expected : Nat) :
    KeepsState fun state out src srcLen world => (do
      require (srcLen = expected)
      callback state out src srcLen world) := by
  intro state out src srcLen world result ran
  obtain ⟨_, _, ran⟩ := (exec_bind_eq_ok _ _ _).mp ran
  exact keeps _ _ _ _ _ _ ran

variable (libs : CodecLibs Lib)

theorem ecu_proc_fr_keeps : KeepsState (ecuProcFr libs) := by
  intro state out src srcLen world result ran
  obtain ⟨ecu, _, ran⟩ := (exec_bind_eq_ok _ _ _).mp ran
  obtain ⟨dst, _, ran⟩ := (exec_bind_eq_ok _ _ _).mp ran
  obtain ⟨input, _, ran⟩ := (exec_bind_eq_ok _ _ _).mp ran
  obtain ⟨_, _, ran⟩ := (exec_bind_eq_ok _ _ _).mp ran
  obtain ⟨frame, _, ran⟩ := (exec_bind_eq_ok _ _ _).mp ran
  simp only [] at ran
  split_ifs at ran
  · obtain ⟨filled, _, ran⟩ := (exec_bind_eq_ok _ _ _).mp ran
    cases ran
    exact handle_with_content _ _
  · obtain ⟨filled, _, ran⟩ := (exec_bind_eq_ok _ _ _).mp ran
    cases ran
    rfl
  · obtain ⟨area, _, ran⟩ := (exec_bind_eq_ok _ _ _).mp ran
    obtain ⟨filled, _, ran⟩ := (exec_bind_eq_ok _ _ _).mp ran
    cases ran
    exact handle_with_content _ _

/-- What a descriptor promises about the state of its codec: no call-back replaces it,
and a state that was created can be destroyed. -/
structure Manages (desc : CodecDesc Lib) : Prop where
  codec : ∀ encDecN, ∀ proc ∈ codecProc desc encDecN, KeepsState proc
  ecu : ∀ proc ∈ desc.ecuProc, KeepsState proc
  exits : desc.codecInit.isSome → desc.codecExit = true

theorem manages_bare {desc : CodecDesc Lib} (encode : desc.codecEncode = none)
    (decode : desc.codecDecode = none) (init : desc.codecInit = none)
    (ecu : ∀ proc ∈ desc.ecuProc, KeepsState proc) : Manages desc where
  codec encDecN callback member := by
    rw [codecProc, encode, decode, ite_self] at member
    cases member
  ecu := ecu
  exits present := by
    rw [init] at present
    cases present

theorem manages_library {desc : CodecDesc Lib} {encode decode : ProcCb (StateContent Lib) World}
    (isEncode : desc.codecEncode = some encode) (encodes : KeepsState encode)
    (isDecode : desc.codecDecode = some decode) (decodes : KeepsState decode)
    (ecu : ∀ proc ∈ desc.ecuProc, KeepsState proc) (exits : desc.codecExit = true) : Manages desc where
  codec encDecN callback member := by
    cases encDecN with
    | false =>
        cases isDecode.symm.trans member
        exact decodes
    | true =>
        cases isEncode.symm.trans member
        exact encodes
  ecu := ecu
  exits _ := exits

theorem codec_table_manages (config : Config) {type : CodecType} {desc : CodecDesc Lib}
    (found : codecTable config libs type = some desc) : Manages desc := by
  have noEcu : ∀ proc ∈ (none : Option (ProcCb (StateContent Lib) World)), KeepsState proc :=
    fun proc member => absurd member (Option.not_mem_none proc)
  cases type with
  | invalid => cases found
  | pcm =>
      cases found
      exact manages_bare rfl rfl rfl noEcu
  | hr =>
      cases found
      unfold codecHrDesc
      split_ifs
      · exact manages_library rfl (require_keeps (lib_call_keeps _ _ _ _) _) rfl
          (require_keeps (lib_call_keeps _ _ _ _) _) noEcu rfl
      · exact manages_bare rfl rfl rfl noEcu
  | fr =>
      have concealed : ∀ proc ∈ some (ecuProcFr libs), KeepsState proc := by
        intro proc member
        cases member
        exact ecu_proc_fr_keeps libs
      cases found
      unfold codecFrDesc
      split_ifs
      · exact manages_library rfl (require_keeps (lib_call_keeps _ _ _ _) _) rfl
          (require_keeps (lib_call_keeps _ _ _ _) _) concealed rfl
      · exact manages_bare rfl rfl rfl concealed
  | efr =>
      cases found
      unfold codecEfrDesc
      split_ifs
      · exact manages_library rfl (require_keeps (lib_call_keeps _ _ _ _) _) rfl
          (require_keeps (lib_call_keeps _ _ _ _) _) noEcu rfl
      · exact manages_bare rfl rfl rfl noEcu
  | amr =>
      cases found
      unfold codecAmrDesc
      split_ifs
      · exact manages_library rfl (lib_call_keeps _ _ _ _) rfl (lib_call_keeps _ _ _ _) noEcu rfl
      · exact manages_bare rfl rfl rfl noEcu

/-- A codec with a state names both of its formats. -/
theorem codec_table_named (config : Config) {type : CodecType} {desc : CodecDesc Lib}
    (found : codecTable config libs type = some desc) (present : desc.codecInit.isSome) :
    desc.codecDecFormatType ≠ .invalid ∧ desc.codecEncFormatType ≠ .invalid := by
  cases type with
  | invalid => cases found
  | pcm =>
      cases found
      cases present
  | hr | fr | efr | amr =>
      cases found
      revert present
      simp only [codecHrDesc, codecFrDesc, codecEfrDesc, codecAmrDesc]
      split_ifs
      · intro _
        simp
      · intro present
        cases present

end Callbacks

end Gapk.ItemOwners
