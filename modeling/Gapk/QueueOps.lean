import Gapk.PqRtp

/-!
# Adding items to a queue

The call-backs of file, sound and format items, and the functions that add each
kind of item. The outcomes of allocations, of codec initialisation and of opening
a device are arguments of a call, so that every failure exit can be taken.
-/

namespace Gapk.QueueOps

open CheckedMemory FixedWidth HostWords
open Gapk.Formats Gapk.Procqueue Gapk.Streams Gapk.PqRtp

set_option autoImplicit false

section Callbacks

variable {Lib : Type}

def pqCbFileInput : ProcCb (StateContent Lib) World := fun state out _ _ world => do
  let blkLen ← fileState state
  let dst ← deref out
  let (count, data, world) := world.fread blkLen
  let dst ← memcpy dst 0 data 0 data.length
  let rv := if count = 0 then -1 else toInt32 (count * blkLen)
  pure { rv := rv, state := state, out := some dst, world := world }

def pqCbFileOutput : ProcCb (StateContent Lib) World := fun state out src srcLen world => do
  let _ ← fileState state
  let input ← deref src
  let data ← readBytes input srcLen
  let (count, world) := world.fwrite data
  pure { rv := if count = 1 then 0 else -1, state := state, out := out, world := world }

def pqCbAlsaInput : ProcCb (StateContent Lib) World := fun state out _ _ world => do
  let blkLen ← alsaState state
  let numSamples := blkLen / 2
  let dst ← deref out
  let (data, world) := match world.samplesIn with
    | some data :: rest => (data.take (2 * numSamples), { world with samplesIn := rest })
    | none :: rest => ([], { world with samplesIn := rest })
    | [] => ([], world)
  let dst ← memcpy dst 0 data 0 data.length
  let rv := if data.length / 2 = 0 then -1 else toInt32 (data.length / 2 * 2)
  pure { rv := rv, state := state, out := some dst, world := world }

-- A failed write is a buffer underrun: the samples are sent a second time.
def pqCbAlsaOutput : ProcCb (StateContent Lib) World := fun state out src srcLen world => do
  let _ ← alsaState state
  let numSamples := srcLen / 2
  let input ← deref src
  let data ← readBytes input (2 * numSamples)
  let (done, world) := world.countWrite
  let (done, world) := if done then (done, world) else world.countWrite
  let world := if done then { world with samplesOut := world.samplesOut ++ data } else world
  pure { rv := if done then 0 else -1, state := state, out := out, world := world }

def pqCbAlsaWait : WaitCb (StateContent Lib) World := fun _ world =>
  (decide (0 < world.sinkBusy), { world with sinkBusy := world.sinkBusy - 1 })

def pqCbFmtConvert : ProcCb (StateContent Lib) World := fun state out src srcLen world =>
  match state with
  | .conv f => do
      let dst ← deref out
      let input ← deref src
      let (rv, dst) ← f dst input srcLen
      pure { rv := rv, state := state, out := some dst, world := world }
  | _ => throw .nullPointer

end Callbacks

/-- `struct osmo_gapk_codec_desc`. A codec without a library has none of the
function pointers and format types. -/
structure CodecDesc (Lib : Type) where
  type : CodecType
  name : String
  canonFrameLen : Nat
  codecEncFormatType : FormatType
  codecDecFormatType : FormatType
  /-- The state that a successful `codec_init` returns. -/
  codecInit : Option Lib
  /-- Whether `codec_exit` is set. -/
  codecExit : Bool
  codecEncode : Option (ProcCb (StateContent Lib) World)
  codecDecode : Option (ProcCb (StateContent Lib) World)
  ecuProc : Option (ProcCb (StateContent Lib) World)

/-- The tables behind the two look-up functions. -/
structure Registry (Lib : Type) where
  codecs : CodecType → Option (CodecDesc Lib)
  supportedFormats : FormatType → Option FormatDesc

namespace Registry

variable {Lib : Type} (registry : Registry Lib)

def codecGetFromType : CodecType → Option (CodecDesc Lib)
  | .invalid => none
  | type => registry.codecs type

def fmtGetFromType : FormatType → Option FormatDesc
  | .invalid => none
  | type => registry.supportedFormats type

/-- Descriptors are registered under their own types, the codec of a format is
known, and the formats that a codec names are formats of that codec. -/
structure WellFormed : Prop where
  codecType : ∀ {type codec}, registry.codecGetFromType type = some codec → codec.type = type
  formatType : ∀ {type fmt}, registry.fmtGetFromType type = some fmt → fmt.type = type
  codecKnown : ∀ {type fmt}, registry.fmtGetFromType type = some fmt →
    (registry.codecGetFromType fmt.codecType).isSome
  decoderFormat : ∀ {type codec}, registry.codecGetFromType type = some codec →
    codec.codecDecFormatType ≠ .invalid →
    ∃ fmt, registry.fmtGetFromType codec.codecDecFormatType = some fmt ∧ fmt.codecType = type
  encoderFormat : ∀ {type codec}, registry.codecGetFromType type = some codec →
    codec.codecEncFormatType ≠ .invalid →
    ∃ fmt, registry.fmtGetFromType codec.codecEncFormatType = some fmt ∧ fmt.codecType = type

end Registry

/-- What happens inside one call: whether the allocations, the initialisation and
the device work, and the random numbers drawn. -/
structure CallOutcome where
  stateAllocated : Bool
  itemAllocated : Bool
  codecInitialised : Bool
  /-- Results of opening and of configuring the sound device. -/
  deviceOpened : Int
  deviceConfigured : Int
  randSsrc : Nat
  randSequence : Nat
  randTimestamp : Nat
  deriving DecidableEq, Repr

section Operations

variable {Lib : Type}

abbrev Queue (Lib : Type) := Pq (StateContent Lib) World
abbrev Item (Lib : Type) := PqItem (StateContent Lib) World

abbrev QueueOp (Lib : Type) :=
  CallOutcome → Queue Lib → Ledger → Exec (Int × Queue Lib × Ledger)

/-- File and RTP items: allocate the state, then the item, and free the state if
there is no item. -/
def queueStateOp (content : StateContent Lib) (fill : State Lib → Item Lib → Item Lib) :
    QueueOp Lib := fun outcome pq ledger => do
  if !outcome.stateAllocated then return (-enomem, pq, ledger)
  let (handle, ledger) := ledger.acquire
  let (added, pq) ← osmoGapkPqAddItem pq outcome.itemAllocated
  if !added then
    let ledger ← ledger.release handle
    return (-enomem, pq, ledger)
  pure (0, pq.setLast (fill (.heap handle content)), ledger)

def fileItem (blkLen : Nat) (inOutN : Bool) (state : State Lib) (item : Item Lib) : Item Lib :=
  { item with
    type := if inOutN then .source else .sink
    catName := some (if inOutN then "source" else "sink")
    subName := some "file"
    lenIn := if inOutN then 0 else blkLen
    lenOut := if inOutN then blkLen else 0
    state := state
    proc := some (if inOutN then pqCbFileInput else pqCbFileOutput)
    wait := none
    exit := some .file }

def pqQueueFileOp (blkLen : Nat) (inOutN : Bool) : QueueOp Lib :=
  queueStateOp (.file blkLen) (fileItem blkLen inOutN)

def osmoGapkPqQueueFileInput (blkLen : Nat) : QueueOp Lib := pqQueueFileOp blkLen true

def osmoGapkPqQueueFileOutput (blkLen : Nat) : QueueOp Lib := pqQueueFileOp blkLen false

def rtpItem (host : Endian) (blkLen : Nat) (inOutN : Bool) (state : State Lib) (item : Item Lib) :
    Item Lib :=
  { item with
    type := if inOutN then .source else .sink
    catName := some (if inOutN then "source" else "sink")
    subName := some "rtp"
    lenIn := if inOutN then 0 else blkLen
    lenOut := if inOutN then blkLen else 0
    state := state
    proc := some (if inOutN then pqCbRtpInput host else pqCbRtpOutput host)
    wait := none
    exit := some .rtp }

/-- 160 samples at 8000 Hz are one frame of 20 ms; only a sink starts its
counters at random. -/
def newRtpState (blkLen : Nat) (inOutN : Bool) (pt : Nat) (outcome : CallOutcome) : PqStateRtp where
  blkLen := toInt32 blkLen
  duration := 160
  payloadType := pt % 2 ^ 8
  sequence := if inOutN then 0 else outcome.randSequence % 2 ^ 16
  timestamp := if inOutN then 0 else outcome.randTimestamp % 2 ^ 32
  ssrc := if inOutN then 0 else outcome.randSsrc % 2 ^ 32

def pqQueueRtpOp (host : Endian) (blkLen : Nat) (inOutN : Bool) (pt : Nat) : QueueOp Lib :=
  fun outcome =>
    queueStateOp (.rtp (newRtpState blkLen inOutN pt outcome)) (rtpItem host blkLen inOutN) outcome

def osmoGapkPqQueueRtpInput (host : Endian) (blkLen pt : Nat) : QueueOp Lib :=
  pqQueueRtpOp host blkLen true pt

def osmoGapkPqQueueRtpOutput (host : Endian) (blkLen pt : Nat) : QueueOp Lib :=
  pqQueueRtpOp host blkLen false pt

def alsaItem (blkLen : Nat) (inOutN : Bool) (state : State Lib) (item : Item Lib) : Item Lib :=
  { item with
    type := if inOutN then .source else .sink
    catName := some (if inOutN then "source" else "sink")
    subName := some "alsa"
    lenIn := if inOutN then 0 else blkLen
    lenOut := if inOutN then blkLen else 0
    state := state
    proc := some (if inOutN then pqCbAlsaInput else pqCbAlsaOutput)
    wait := some pqCbAlsaWait
    exit := some .alsa }

-- A device that cannot be opened leaves the state behind, unlike the later exits.
def pqQueueAlsaOp (blkLen : Nat) (inOutN : Bool) : QueueOp Lib := fun outcome pq ledger => do
  if !outcome.stateAllocated then return (-enomem, pq, ledger)
  let (handle, ledger) := ledger.acquire
  if outcome.deviceOpened < 0 then return (outcome.deviceOpened, pq, ledger)
  if outcome.deviceConfigured < 0 then
    let ledger ← ledger.release handle
    return (outcome.deviceConfigured, pq, ledger)
  let (added, pq) ← osmoGapkPqAddItem pq outcome.itemAllocated
  if !added then
    let ledger ← ledger.release handle
    return (-enomem, pq, ledger)
  pure (0, pq.setLast (alsaItem blkLen inOutN (.heap handle (.alsa blkLen))), ledger)

def osmoGapkPqQueueAlsaInput (blkLen : Nat) : QueueOp Lib := pqQueueAlsaOp blkLen true

def osmoGapkPqQueueAlsaOutput (blkLen : Nat) : QueueOp Lib := pqQueueAlsaOp blkLen false

variable (registry : Registry Lib)

def fmtItem (fmt : FormatDesc) (codec : CodecDesc Lib) (toFromN : Bool) (item : Item Lib) :
    Item Lib :=
  { item with
    lenIn := if toFromN then codec.canonFrameLen else fmt.frameLen
    lenOut := if toFromN then fmt.frameLen else codec.canonFrameLen
    state := .conv (if toFromN then fmt.convFromCanon else fmt.convToCanon)
    type := .proc
    proc := some pqCbFmtConvert
    wait := none
    catName := some "format"
    subName := some fmt.name }

def osmoGapkPqQueueFmtConvert (fmt : FormatDesc) (toFromN : Bool) : QueueOp Lib :=
  fun outcome pq ledger =>
    match registry.codecGetFromType fmt.codecType with
    | none => pure (-einval, pq, ledger)
    | some codec => do
        let (added, pq) ← osmoGapkPqAddItem pq outcome.itemAllocated
        if !added then return (-enomem, pq, ledger)
        pure (0, pq.setLast (fmtItem fmt codec toFromN), ledger)

def codecProc (codec : CodecDesc Lib) (encDecN : Bool) : Option (ProcCb (StateContent Lib) World) :=
  if encDecN then codec.codecEncode else codec.codecDecode

def codecFormatType (codec : CodecDesc Lib) (encDecN : Bool) : FormatType :=
  if encDecN then codec.codecEncFormatType else codec.codecDecFormatType

def codecItem (codec codecPcm : CodecDesc Lib) (fmt : FormatDesc) (encDecN : Bool)
    (item : Item Lib) : Item Lib :=
  { item with
    lenIn := if encDecN then codecPcm.canonFrameLen else fmt.frameLen
    lenOut := if encDecN then fmt.frameLen else codecPcm.canonFrameLen
    proc := codecProc codec encDecN
    type := .proc
    exit := if codec.codecExit then some .codec else none
    wait := none
    catName := some "codec"
    subName := some codec.name }

/-- The part of `osmo_gapk_pq_queue_codec` after the initialisation. The item is
in the queue already, so an early return leaves it there unfinished. -/
def queueCodecItem (codec : CodecDesc Lib) (encDecN : Bool) (pq : Queue Lib) (ledger : Ledger) :
    Exec (Int × Queue Lib × Ledger) := do
  match registry.fmtGetFromType (codecFormatType codec encDecN) with
  | none => pure (-einval, pq, ledger)
  | some fmt => do
      let codecPcm ← deref (registry.codecGetFromType .pcm)
      let pq := pq.setLast (codecItem codec codecPcm fmt encDecN)
      pure (if (codecProc codec encDecN).isNone then -enotsup else 0, pq, ledger)

/-- `item->state = state`. -/
def setState (state : State Lib) (item : Item Lib) : Item Lib := { item with state := state }

def osmoGapkPqQueueCodec (codec : CodecDesc Lib) (encDecN : Bool) : QueueOp Lib :=
  fun outcome pq ledger => do
    let (added, pq) ← osmoGapkPqAddItem pq outcome.itemAllocated
    if !added then return (-enomem, pq, ledger)
    match codec.codecInit with
    | none => queueCodecItem registry codec encDecN pq ledger
    | some content => do
        if !outcome.codecInitialised then return (-einval, pq, ledger)
        let (handle, ledger) := ledger.acquire
        let pq := pq.setLast (setState (.heap handle (.codec content)))
        queueCodecItem registry codec encDecN pq ledger

/-- `talloc_zero` of the state. -/
def zeroEcuState : EcuFrState := ⟨false, List.replicate 33 0⟩

def ecuItem (codec : CodecDesc Lib) (fmt : FormatDesc) (state : State Lib) (item : Item Lib) :
    Item Lib :=
  { item with
    state := state
    lenIn := fmt.frameLen
    lenOut := fmt.frameLen
    proc := codec.ecuProc
    exit := some .cleanUp
    wait := none
    type := .proc
    catName := some "ecu"
    subName := some codec.name }

def freeItem (item : Item Lib) : Item Lib := { item with freed := true }

def osmoGapkPqQueueEcu (codec : CodecDesc Lib) : QueueOp Lib := fun outcome pq ledger => do
  if codec.ecuProc.isNone then return (-enotsup, pq, ledger)
  let (added, pq) ← osmoGapkPqAddItem pq outcome.itemAllocated
  if !added then return (-enomem, pq, ledger)
  -- The item is freed while it is still linked.
  if !outcome.stateAllocated then
    return (-enomem, pq.setLast freeItem, ledger)
  let (handle, ledger) := ledger.acquire
  let fmt ← deref (registry.fmtGetFromType codec.codecDecFormatType)
  pure (0, pq.setLast (ecuItem codec fmt (.heap handle (.ecu zeroEcuState))), ledger)

def appended (pq : Queue Lib) (item : Item Lib) : Queue Lib :=
  { pq.extended with items := pq.items ++ [item] }

theorem release_fresh {ledger : Ledger} (fresh : ledger.next ∉ ledger.released) :
    ledger.acquire.2.release ledger.next =
      .ok ⟨ledger.next + 1, ledger.next :: ledger.released⟩ := by
  rw [Ledger.release]
  exact if_neg fresh

theorem queue_codec_item_eq (pq : Queue Lib) (ledger : Ledger) {front : List (Item Lib)} {last : Item Lib}
    (items : pq.items = front ++ [last]) {desc codecPcm : CodecDesc Lib} {fmt : FormatDesc}
    {encDecN : Bool} (found : registry.fmtGetFromType (codecFormatType desc encDecN) = some fmt)
    (pcm : registry.codecGetFromType .pcm = some codecPcm) (ready : (codecProc desc encDecN).isSome) :
    queueCodecItem registry desc encDecN pq ledger =
      .ok (0, { pq with items := front ++ [codecItem desc codecPcm fmt encDecN last] }, ledger) := by
  have present : (codecProc desc encDecN).isNone = false := by
    rw [← Option.not_isSome, ready]
    rfl
  rw [queueCodecItem, found]
  simp only [pcm, deref_some, exec_bind_ok, present]
  rw [set_last_eq items]
  rfl

section Equations

variable {pq : Queue Lib} {ledger : Ledger} (outcome : CallOutcome) (linked : Linked pq.items)

include linked

theorem queue_fmt_convert_eq {fmt : FormatDesc} {codec : CodecDesc Lib} (toFromN : Bool)
    (found : registry.codecGetFromType fmt.codecType = some codec) :
    osmoGapkPqQueueFmtConvert registry fmt toFromN outcome pq ledger =
      .ok (if outcome.itemAllocated then (0, appended pq (fmtItem fmt codec toFromN .zero), ledger)
        else (-enomem, pq, ledger)) := by
  rw [osmoGapkPqQueueFmtConvert, found]
  cases outcome.itemAllocated with
  | false => rfl
  | true =>
      simp only [add_item_eq linked, exec_bind_ok, set_last_extended]
      rfl

theorem queue_codec_eq {desc codecPcm : CodecDesc Lib} {fmt : FormatDesc} {encDecN : Bool}
    (found : registry.fmtGetFromType (codecFormatType desc encDecN) = some fmt)
    (pcm : registry.codecGetFromType .pcm = some codecPcm) (ready : (codecProc desc encDecN).isSome) :
    osmoGapkPqQueueCodec registry desc encDecN outcome pq ledger =
      .ok (if outcome.itemAllocated then
        match desc.codecInit with
        | none => (0, appended pq (codecItem desc codecPcm fmt encDecN .zero), ledger)
        | some content =>
            if outcome.codecInitialised then
              (0, appended pq (codecItem desc codecPcm fmt encDecN
                (setState (.heap ledger.next (.codec content)) .zero)), ledger.acquire.2)
            else (-einval, pq.extended, ledger)
      else (-enomem, pq, ledger)) := by
  unfold osmoGapkPqQueueCodec
  cases outcome.itemAllocated with
  | false => rfl
  | true =>
      rw [add_item_eq linked]
      simp only [exec_bind_ok, Bool.not_true, Bool.false_eq_true, if_false, if_true]
      cases desc.codecInit with
      | none =>
          exact queue_codec_item_eq registry _ ledger
            (rfl : pq.extended.items = pq.items ++ [.zero]) found pcm ready
      | some content =>
          cases outcome.codecInitialised with
          | false => rfl
          | true =>
              simp only [Bool.not_true, Bool.false_eq_true, if_false, if_true, Ledger.acquire]
              rw [set_last_extended]
              exact queue_codec_item_eq registry _ ledger.acquire.2
                (rfl : ({ pq.extended with items := pq.items ++
                  [setState (.heap ledger.next (.codec content)) .zero] } : Queue Lib).items = _)
                found pcm ready

theorem queue_ecu_eq {desc : CodecDesc Lib} {fmt : FormatDesc} (ready : desc.ecuProc.isSome)
    (found : registry.fmtGetFromType desc.codecDecFormatType = some fmt) :
    osmoGapkPqQueueEcu registry desc outcome pq ledger =
      .ok (if outcome.itemAllocated then
        if outcome.stateAllocated then
          (0, appended pq (ecuItem desc fmt (.heap ledger.next (.ecu zeroEcuState)) .zero),
            ledger.acquire.2)
        else (-enomem, appended pq (freeItem .zero), ledger)
      else (-enomem, pq, ledger)) := by
  have present : desc.ecuProc.isNone = false := by
    rw [← Option.not_isSome, ready]
    rfl
  unfold osmoGapkPqQueueEcu
  rw [present]
  cases outcome.itemAllocated with
  | false => rfl
  | true =>
      rw [add_item_eq linked]
      cases outcome.stateAllocated with
      | false =>
          simp only [exec_bind_ok, set_last_extended]
          rfl
      | true =>
          simp only [exec_bind_ok, found, deref_some, set_last_extended]
          rfl

variable (fresh : ledger.next ∉ ledger.released)

include fresh

theorem queue_state_op_eq (content : StateContent Lib) (fill : State Lib → Item Lib → Item Lib) :
    queueStateOp content fill outcome pq ledger =
      .ok (if outcome.stateAllocated then
        if outcome.itemAllocated then
          (0, appended pq (fill (.heap ledger.next content) .zero), ledger.acquire.2)
        else (-enomem, pq, ⟨ledger.next + 1, ledger.next :: ledger.released⟩)
      else (-enomem, pq, ledger)) := by
  have released := release_fresh fresh
  rw [Ledger.acquire] at released
  unfold queueStateOp
  cases outcome.stateAllocated with
  | false => rfl
  | true =>
      cases outcome.itemAllocated with
      | false =>
          simp only [Ledger.acquire, add_item_refused, exec_bind_ok, released]
          rfl
      | true =>
          simp only [Ledger.acquire, add_item_eq linked, exec_bind_ok, set_last_extended]
          rfl

theorem queue_alsa_op_eq (blkLen : Nat) (inOutN : Bool) :
    pqQueueAlsaOp blkLen inOutN outcome pq ledger =
      .ok (if outcome.stateAllocated then
        if outcome.deviceOpened < 0 then (outcome.deviceOpened, pq, ledger.acquire.2)
        else if outcome.deviceConfigured < 0 then
          (outcome.deviceConfigured, pq, ⟨ledger.next + 1, ledger.next :: ledger.released⟩)
        else if outcome.itemAllocated then
          (0, appended pq (alsaItem blkLen inOutN (.heap ledger.next (.alsa blkLen)) .zero),
            ledger.acquire.2)
        else (-enomem, pq, ⟨ledger.next + 1, ledger.next :: ledger.released⟩)
      else (-enomem, pq, ledger)) := by
  have released := release_fresh fresh
  rw [Ledger.acquire] at released
  unfold pqQueueAlsaOp
  cases outcome.stateAllocated with
  | false => rfl
  | true =>
      by_cases closed : outcome.deviceOpened < 0
      · simp [Ledger.acquire, closed]
      · by_cases misconfigured : outcome.deviceConfigured < 0
        · simp [Ledger.acquire, closed, misconfigured, released]
        · cases outcome.itemAllocated with
          | false => simp [Ledger.acquire, closed, misconfigured, add_item_refused, released]
          | true =>
              simp [Ledger.acquire, closed, misconfigured, add_item_eq linked, set_last_extended,
                appended]

end Equations

end Operations

end Gapk.QueueOps
