import Gapk.QueueLedger

/-!
# Buffer bound of the RTP source

The source copies the payload of a datagram into a buffer that was sized from
the block length. The payload fits exactly when the datagram is not longer than
its headers, its padding and that buffer together.
-/

namespace Gapk.RtpSource

open CheckedMemory FixedWidth HostWords
open Gapk.Procqueue Gapk.Streams Gapk.PqRtp Gapk.QueueOps

set_option autoImplicit false

def outputSize (blkLen : Nat) : Nat := if blkLen = 0 then varBufSize else blkLen

def receiveLen (blkLen : Nat) : Nat := (toInt32 blkLen + 256).toNat

/-- An RTP source in a prepared queue: items were queued before and after it. -/
structure PreparedSource (Lib : Type) (host : Endian) where
  blkLen : Nat
  unsigned : blkLen < 2 ^ 32
  pt : Nat
  outcome : CallOutcome
  before : Queue Lib
  ledger : Ledger
  queued : Queue Lib
  ledgerAfter : Ledger
  queues : osmoGapkPqQueueRtpInput host blkLen pt outcome before ledger =
    .ok (0, queued, ledgerAfter)
  more : List (Item Lib)
  memory : BufferAlloc
  prepared : Queue Lib
  prepares : osmoGapkPqPrepare memory { queued with items := queued.items ++ more } =
    .ok (0, prepared)
  item : Item Lib
  place : prepared.items[before.items.length]? = some item

section Source

variable {Lib : Type} {host : Endian}

theorem queue_rtp_input_ok {blkLen pt : Nat} {outcome : CallOutcome} {pq after : Queue Lib}
    {ledger ledgerAfter : Ledger}
    (run : osmoGapkPqQueueRtpInput host blkLen pt outcome pq ledger = .ok (0, after, ledgerAfter)) :
    after.items = pq.items ++ [rtpItem host blkLen true
      (.heap ledger.next (.rtp (newRtpState blkLen true pt outcome))) .zero] := by
  rw [osmoGapkPqQueueRtpInput, pqQueueRtpOp, queueStateOp] at run
  cases stateAllocated : outcome.stateAllocated with
  | false =>
      rw [stateAllocated] at run
      cases run
  | true =>
      simp only [stateAllocated, Bool.not_true, Bool.false_eq_true, if_false] at run
      obtain ⟨⟨added, pqAdded⟩, addRun, rest⟩ := (exec_bind_eq_ok _ _ _).mp run
      obtain ⟨rfl, rfl⟩ := add_item_ok addRun
      cases itemAllocated : outcome.itemAllocated with
      | false =>
          simp only [itemAllocated] at rest
          obtain ⟨_, _, last⟩ := (exec_bind_eq_ok _ _ _).mp rest
          cases last
      | true =>
          simp only [itemAllocated] at rest
          cases rest
          exact congrArg Pq.items (set_last_extended pq _)

/-- What a call may do to a buffer of `limit` bytes: refuse and leave it, or
return a length that is at most its size. -/
def WithinLimit (limit : Nat) (content : Buf) (result : ProcResult (StateContent Lib) World) : Prop :=
  (result.rv < 0 ∧ result.out = some content) ∨ (0 ≤ result.rv ∧ result.rv ≤ (limit : Int))

/-- The receive buffer of `blkLen + 256` bytes exists, and a datagram in it that
is not refused is at most as long as its headers, its padding and `limit`. -/
def PayloadFits (blkLen : Int) (limit : Nat) (world : World) : Prop :=
  let datagram := delivered world (blkLen + 256).toNat
  0 < blkLen + 256 ∧ blkLen + 256 < 2 ^ 31 ∧
    (RtpAccepts datagram → datagram.length ≤ headerLen datagram + paddingLen datagram + limit)

theorem call_within_limit_iff (handle limit : Nat) (rtp : PqStateRtp) (world : World) :
    (∀ content : Buf, content.length = limit → ∃ result,
        pqCbRtpInput host (.heap handle (.rtp rtp) : State Lib) (some content) none 0 world =
          .ok result ∧ WithinLimit limit content result) ↔
      PayloadFits rtp.blkLen limit world := by
  by_cases defined : 0 < rtp.blkLen + 256 ∧ rtp.blkLen + 256 < 2 ^ 31
  · have sized : receiveSize rtp.blkLen = .ok (rtp.blkLen + 256).toNat := if_pos defined
    constructor
    · intro within
      refine ⟨defined.1, defined.2, ?_⟩
      intro accepted
      obtain ⟨result, run, _⟩ := within (List.replicate limit 0) List.length_replicate
      rw [pq_cb_rtp_input_run host sized accepted, List.length_replicate] at run
      split_ifs at run with fits
      · unfold payloadLen at fits
        omega
    · rintro ⟨_, _, fits⟩ content size
      by_cases accepted : RtpAccepts (delivered world (rtp.blkLen + 256).toNat)
      · have room : payloadLen (delivered world (rtp.blkLen + 256).toNat) ≤ limit := by
          have bound := fits accepted
          unfold payloadLen
          omega
        rw [pq_cb_rtp_input_run host sized accepted, size, if_pos room]
        exact ⟨_, rfl, Or.inr ⟨Int.natCast_nonneg _, Int.ofNat_le.mpr room⟩⟩
      · exact ⟨_, pq_cb_rtp_input_refuses host sized accepted, Or.inl ⟨(by decide : (-1 : Int) < 0), rfl⟩⟩
  · have fault : receiveSize rtp.blkLen = .error .outOfBounds := if_neg defined
    constructor
    · intro within
      obtain ⟨result, run, _⟩ := within (List.replicate limit 0) List.length_replicate
      simp only [pqCbRtpInput, rtpState, exec_pure, exec_bind_ok, fault, exec_bind_error] at run
      cases run
    · rintro ⟨positive, small, _⟩
      exact absurd ⟨positive, small⟩ defined

namespace PreparedSource

variable (source : PreparedSource Lib host)

theorem item_eq :
    ∃ state buf, source.item = { rtpItem host source.blkLen true state .zero with buf := some buf } ∧
      buf.length = outputSize source.blkLen := by
  have queued := queue_rtp_input_ok source.queues
  have buffers := pq_prepare_ok source.prepares
  have place := source.place
  obtain ⟨inside, same⟩ := List.getElem?_eq_some_iff.mp place
  have sizes := buffers.length_eq
  have pair := buffers.get (i := source.before.items.length) (by rw [sizes]; exact inside) inside
  simp only [List.get_eq_getElem, same, queued, List.append_assoc] at pair
  rw [List.getElem_append_right (Nat.le_refl _)] at pair
  simp only [Nat.sub_self, List.singleton_append, List.getElem_cons_zero] at pair
  obtain ⟨buf, allocated, size⟩ := pair.allocated (fun sink => nomatch sink)
  refine ⟨.heap source.ledger.next (.rtp (newRtpState source.blkLen true source.pt source.outcome)),
    buf, pair.same.trans ?_, size⟩
  rw [allocated]

/-- The state of the source after any run: only its block length is known. -/
def stateOf (handle : Nat) (prior : PqStateRtp) : State Lib :=
  .heap handle (.rtp { prior with blkLen := toInt32 source.blkLen })

/-- One call of the source with its buffer, whatever the buffer holds. -/
def WithinBuffer (handle : Nat) (prior : PqStateRtp) (world : World) : Prop :=
  ∀ content : Buf, content.length = outputSize source.blkLen →
    ∃ proc result, source.item.proc = some proc ∧
      proc (source.stateOf handle prior) (some content) none 0 world = .ok result ∧
      WithinLimit (outputSize source.blkLen) content result

theorem within_buffer_iff (handle : Nat) (prior : PqStateRtp) (world : World) :
    source.WithinBuffer handle prior world ↔
      PayloadFits (toInt32 source.blkLen) (outputSize source.blkLen) world := by
  have proc : source.item.proc = some (pqCbRtpInput host) := by
    obtain ⟨state, buf, same, _⟩ := source.item_eq
    rw [same]
    rfl
  rw [← call_within_limit_iff handle (outputSize source.blkLen)
    { prior with blkLen := toInt32 source.blkLen } world, WithinBuffer, proc]
  constructor
  · intro within content size
    obtain ⟨_, result, same, run, bounds⟩ := within content size
    cases same
    exact ⟨result, run, bounds⟩
  · intro within content size
    obtain ⟨result, run, bounds⟩ := within content size
    exact ⟨_, result, rfl, run, bounds⟩

end PreparedSource

def plainDatagram (payload : Buf) : Buf := 0x80#8 :: (List.replicate 11 0 ++ payload)

theorem plain_datagram_length (payload : Buf) :
    (plainDatagram payload).length = 12 + payload.length := by
  simp [plainDatagram]
  omega

theorem plain_datagram_first (payload : Buf) : (plainDatagram payload).getD 0 0 = 0x80#8 := rfl

theorem plain_datagram_header (payload : Buf) : headerLen (plainDatagram payload) = 12 := by
  rw [headerLen, plain_datagram_first]
  exact if_pos (by decide)

theorem plain_datagram_padding (payload : Buf) : paddingLen (plainDatagram payload) = 0 := by
  rw [paddingLen, plain_datagram_first]
  exact if_pos (by decide)

theorem plain_datagram_accepts (payload : Buf) : RtpAccepts (plainDatagram payload) := by
  have fixed : 12 ≤ (plainDatagram payload).length := by
    rw [plain_datagram_length]
    omega
  unfold RtpAccepts
  rw [plain_datagram_header, plain_datagram_padding, plain_datagram_first]
  exact ⟨fixed, rfl, fixed, fun extended => absurd rfl extended, fixed⟩

def oneDatagram (datagram : Buf) : World :=
  ⟨[], [], [some datagram], [], [], [], fun _ => true, 0, 0⟩

theorem delivered_one {datagram : Buf} {size : Nat} (fits : datagram.length ≤ size) :
    delivered (oneDatagram datagram) size = datagram :=
  List.take_of_length_le fits

/-- A block length leaves room for every datagram when it is zero, or when it
wraps to a negative number that makes the receive buffer shorter. -/
theorem payload_always_fits_iff {blkLen : Nat} (unsigned : blkLen < 2 ^ 32) :
    (∀ world, PayloadFits (toInt32 blkLen) (outputSize blkLen) world) ↔
      blkLen = 0 ∨ 2 ^ 32 - 256 < blkLen := by
  have wrapped := to_int32_unsigned unsigned
  constructor
  · intro fits
    by_contra other
    obtain ⟨nonzero, short⟩ := not_or.mp other
    obtain ⟨positive, small, bound⟩ :=
      fits (oneDatagram (plainDatagram (List.replicate (blkLen + 1) 0)))
    have same : toInt32 blkLen = blkLen := by
      split_ifs at wrapped with low <;> omega
    have size : (plainDatagram (List.replicate (blkLen + 1) 0)).length ≤
        (toInt32 blkLen + 256).toNat := by
      rw [plain_datagram_length, List.length_replicate]
      omega
    rw [delivered_one size, plain_datagram_length, plain_datagram_header, plain_datagram_padding,
      List.length_replicate, outputSize, if_neg nonzero] at bound
    have beyond := bound (plain_datagram_accepts _)
    omega
  · intro edge world
    have short : receiveLen blkLen ≤ 256 := by
      rw [receiveLen]
      split_ifs at wrapped <;> omega
    have room : 256 ≤ 12 + outputSize blkLen := by
      rw [outputSize, varBufSize]
      split_ifs <;> omega
    have received := delivered_length_le world (receiveLen blkLen)
    have start := header_len_ge (delivered world (receiveLen blkLen))
    refine ⟨?_, ?_, fun _ => ?_⟩
    · split_ifs at wrapped <;> omega
    · split_ifs at wrapped <;> omega
    · show (delivered world (receiveLen blkLen)).length ≤
        headerLen (delivered world (receiveLen blkLen)) +
          paddingLen (delivered world (receiveLen blkLen)) + outputSize blkLen
      omega

/-- A call of the source stays within its buffer exactly when the payload fits,
and with every datagram exactly for the block lengths that always leave room. -/
theorem source_within_buffer_iff (source : PreparedSource Lib host) :
    (∀ handle prior world, source.WithinBuffer handle prior world ↔
      PayloadFits (toInt32 source.blkLen) (outputSize source.blkLen) world) ∧
    ((∀ handle prior world, source.WithinBuffer handle prior world) ↔
      source.blkLen = 0 ∨ 2 ^ 32 - 256 < source.blkLen) := by
  refine ⟨source.within_buffer_iff, ?_⟩
  rw [← payload_always_fits_iff source.unsigned]
  constructor
  · intro within world
    exact (source.within_buffer_iff 0 ⟨0, 0, 0, 0, 0, 0⟩ world).mp (within _ _ _)
  · intro fits handle prior world
    exact (source.within_buffer_iff handle prior world).mpr (fits world)

end Source

def frSource : PreparedSource Unit .little where
  blkLen := 33
  unsigned := by decide
  pt := 3
  outcome := QueueLedger.workingOutcome
  before := osmoGapkPqCreate "main"
  ledger := .empty
  queued := _
  ledgerAfter := _
  queues := rfl
  more := []
  memory := .cleared
  prepared := _
  prepares := rfl
  item := _
  place := rfl

/-- A datagram of 46 bytes: the header and a payload one byte too long. -/
theorem long_payload_exceeds_buffer :
    ¬∀ (source : PreparedSource Unit .little) (handle : Nat) (prior : PqStateRtp) (world : World),
      source.WithinBuffer handle prior world := by
  intro always
  have within := always frSource 0 ⟨33, 160, 0, 0, 0, 0⟩
    (oneDatagram (plainDatagram (List.replicate 34 0)))
  obtain ⟨_, _, fits⟩ := (frSource.within_buffer_iff _ _ _).mp within
  exact absurd (fits (plain_datagram_accepts _)) (by decide)

end Gapk.RtpSource
