import Gapk.Formats
import Gapk.Library.FixedWidth
import Mathlib.Data.List.Chain

/-!
# Processing queue

A queue of items that are called one after the other, each on the output of the
item before it. The queue owns its items and, through their exit handlers, the
states of the items. A ledger records which states were acquired and released.
-/

namespace Gapk.Procqueue

open CheckedMemory FixedWidth
open Gapk.Formats

set_option autoImplicit false

def einval : Int := 22
def enomem : Int := 12
def enotsup : Int := 95
def enospc : Int := 28

inductive ItemType where
  | source
  | sink
  | proc
  deriving DecidableEq, Repr

/-- The enumerator's value, as a zeroed or an aliased item shows it. -/
def ItemType.value : ItemType → Nat
  | .source => 0
  | .sink => 1
  | .proc => 2

/-- The opaque state pointer of an item: nothing, the converter of a format
item, or an object of the heap with its content. -/
inductive ItemState (State : Type) where
  | null
  | conv (convert : FmtConvCb)
  | heap (handle : Nat) (content : State)

structure ProcResult (State World : Type) where
  rv : Int
  state : ItemState State
  out : Option Buf
  world : World

/-- `proc(state, out, in, in_len)`. The world is what the call-back reaches
besides its arguments. -/
abbrev ProcCb (State World : Type) :=
  ItemState State → Option Buf → Option Buf → Nat → World → Exec (ProcResult State World)

/-- `wait(state)`: true while the sink is still busy. -/
abbrev WaitCb (State World : Type) := ItemState State → World → Bool × World

/-- The exit handlers of the item kinds. -/
inductive ExitCb where
  | file
  | rtp
  | alsa
  | cleanUp
  | codec
  deriving DecidableEq, Repr

structure PqItem (State World : Type) where
  lenIn : Nat
  lenOut : Nat
  state : ItemState State
  buf : Option Buf
  proc : Option (ProcCb State World)
  wait : Option (WaitCb State World)
  exit : Option ExitCb
  type : ItemType
  catName : Option String
  subName : Option String
  /-- The memory of the item was given back although it may still be linked. -/
  freed : Bool

/-- What `talloc_zero` yields. -/
def PqItem.zero {State World : Type} : PqItem State World where
  lenIn := 0
  lenOut := 0
  state := .null
  buf := none
  proc := none
  wait := none
  exit := none
  type := .source
  catName := none
  subName := none
  freed := false

abbrev varBufSize : Nat := 320

structure Pq (State World : Type) where
  items : List (PqItem State World)
  nItems : Nat
  name : String

/-- States handed out so far are numbered below `next`. -/
structure Ledger where
  next : Nat
  released : List Nat
  deriving DecidableEq, Repr

def Ledger.empty : Ledger := ⟨0, []⟩

def Ledger.acquire (ledger : Ledger) : Nat × Ledger :=
  (ledger.next, { ledger with next := ledger.next + 1 })

def Ledger.release (ledger : Ledger) (handle : Nat) : Exec Ledger :=
  if handle ∈ ledger.released then throw .useAfterFree
  else pure { ledger with released := handle :: ledger.released }

section Operations

variable {State World : Type}

def osmoGapkPqCreate (name : String) : Pq State World := ⟨[], 0, name⟩

/-- Any access to an item needs its memory. -/
def touch (item : PqItem State World) : Exec Unit :=
  if item.freed then throw .useAfterFree else pure ()

/-- All exit handlers give back the state they are called with. -/
def callExit (state : ItemState State) (ledger : Ledger) : Exec Ledger :=
  match state with
  | .heap handle _ => ledger.release handle
  | _ => pure ledger

/-- `if (item->exit) item->exit(item->state)`. -/
def exitItem (item : PqItem State World) (ledger : Ledger) : Exec Ledger :=
  match item.exit with
  | some _ => callExit item.state ledger
  | none => pure ledger

def destroyItems : List (PqItem State World) → Ledger → Exec Ledger
  | [], ledger => pure ledger
  | item :: rest, ledger => do
      touch item
      let ledger ← exitItem item ledger
      destroyItems rest ledger

def osmoGapkPqDestroy (pq : Pq State World) (ledger : Ledger) : Exec Ledger :=
  destroyItems pq.items ledger

/-- The new item is the last one of the resulting queue; `false` for a null
pointer. Linking it writes to the item that was the last one so far. -/
def osmoGapkPqAddItem (pq : Pq State World) (allocated : Bool) :
    Exec (Bool × Pq State World) := do
  if !allocated then return (false, pq)
  match pq.items.getLast? with
  | some last => touch last
  | none => pure ()
  pure (true, { pq with items := pq.items ++ [.zero], nItems := (pq.nItems + 1) % 2 ^ 32 })

/-- Assignments to the fields of the item that was added last. -/
def Pq.setLast (pq : Pq State World) (change : PqItem State World → PqItem State World) :
    Pq State World :=
  { pq with items := pq.items.dropLast ++ (pq.items.getLast?.map change).toList }

def checkItems : Option (PqItem State World) → List (PqItem State World) → Exec Int
  | _, [] => pure 0
  | itemPrev, item :: rest => do
      touch item
      match itemPrev with
      | some prev =>
          if item.lenIn ≠ 0 ∧ item.lenIn ≠ prev.lenOut then return -einval
          checkItems (some item) rest
      | none => checkItems (some item) rest

/-- `osmo_gapk_pq_check`. The first and the last entry of an empty list are the
list head itself, where the type of an item overlaps with the item count. -/
def osmoGapkPqCheck (pq : Pq State World) (strict : Bool) : Exec Int := do
  let rv ← checkItems none pq.items
  if rv ≠ 0 then return rv
  if strict then
    let first := match pq.items.head? with
      | some item => item.type.value
      | none => pq.nItems
    if first ≠ ItemType.source.value then return -einval
    let last := match pq.items.getLast? with
      | some item => item.type.value
      | none => pq.nItems
    if last ≠ ItemType.sink.value then return -einval
  pure 0

/-- Allocation of the output buffers, with whatever the memory holds. -/
structure BufferAlloc where
  alloc : Nat → Nat → Option Buf
  size : ∀ index size buf, alloc index size = some buf → buf.length = size

def BufferAlloc.cleared : BufferAlloc where
  alloc _ size := some (List.replicate size 0)
  size := by
    intro index size buf allocated
    cases allocated
    exact List.length_replicate

def bufSize (item : PqItem State World) : Nat :=
  if item.lenOut = 0 then varBufSize else item.lenOut

def prepareItems (memory : BufferAlloc) :
    Nat → List (PqItem State World) → Exec (Int × List (PqItem State World))
  | _, [] => pure (0, [])
  | index, item :: rest => do
      touch item
      if item.type = .sink then
        let (rv, rest) ← prepareItems memory (index + 1) rest
        pure (rv, item :: rest)
      else
        match memory.alloc index (bufSize item) with
        | none => pure (-enomem, { item with buf := none } :: rest)
        | some buf =>
            let (rv, rest) ← prepareItems memory (index + 1) rest
            pure (rv, { item with buf := some buf } :: rest)

def osmoGapkPqPrepare (memory : BufferAlloc) (pq : Pq State World) :
    Exec (Int × Pq State World) := do
  let (rv, items) ← prepareItems memory 0 pq.items
  pure (rv, { pq with items := items })

/-- The variables `buf_prev` and `len_prev` of the loop, and the world. -/
structure Passed (World : Type) where
  buf : Option Buf
  len : Nat
  world : World

def executeItems : List (PqItem State World) → Passed World →
    Exec (Int × List (PqItem State World) × Passed World)
  | [], passed => pure (0, [], passed)
  | item :: rest, passed => do
      touch item
      let proc ← deref item.proc
      let result ← proc item.state item.buf passed.buf passed.len passed.world
      let done := { item with state := result.state, buf := result.out }
      if result.rv < 0 then
        return (result.rv, done :: rest, { passed with world := result.world })
      let (rv, rest, passed) ← executeItems rest
        { buf := result.out, len := toUInt32 result.rv, world := result.world }
      pure (rv, done :: rest, passed)

def osmoGapkPqExecute (pq : Pq State World) (world : World) :
    Exec (Int × Pq State World × World) := do
  let (rv, items, passed) ← executeItems pq.items { buf := none, len := 0, world := world }
  pure (rv, { pq with items := items }, passed.world)

/-- No item of the list was freed. -/
def Linked (items : List (PqItem State World)) : Prop := ∀ item ∈ items, item.freed = false

theorem touch_eq {item : PqItem State World} (linked : item.freed = false) :
    touch item = .ok () := by
  rw [touch, linked]
  rfl

theorem add_item_refused (pq : Pq State World) : osmoGapkPqAddItem pq false = .ok (false, pq) := rfl

def Pq.extended (pq : Pq State World) : Pq State World :=
  { pq with items := pq.items ++ [.zero], nItems := (pq.nItems + 1) % 2 ^ 32 }

theorem add_item_eq {pq : Pq State World} (linked : Linked pq.items) :
    osmoGapkPqAddItem pq true = .ok (true, pq.extended) := by
  simp only [osmoGapkPqAddItem, Bool.not_true, Bool.false_eq_true, if_false]
  cases found : pq.items.getLast? with
  | none => rfl
  | some last =>
      simp only []
      rw [touch_eq (linked last (List.mem_of_getLast? found))]
      rfl

theorem add_item_ok {pq after : Pq State World} {allocated added : Bool}
    (run : osmoGapkPqAddItem pq allocated = .ok (added, after)) :
    added = allocated ∧ after = if allocated then pq.extended else pq := by
  cases allocated with
  | false =>
      cases run
      exact ⟨rfl, rfl⟩
  | true =>
      simp only [osmoGapkPqAddItem, Bool.not_true, Bool.false_eq_true, if_false] at run
      cases found : pq.items.getLast? with
      | none =>
          simp only [found] at run
          cases run
          exact ⟨rfl, rfl⟩
      | some last =>
          simp only [found] at run
          obtain ⟨_, _, same⟩ := (exec_bind_eq_ok _ _ _).mp run
          cases same
          exact ⟨rfl, rfl⟩

theorem set_last_eq {pq : Pq State World} {front : List (PqItem State World)}
    {last : PqItem State World} (items : pq.items = front ++ [last])
    (change : PqItem State World → PqItem State World) :
    pq.setLast change = { pq with items := front ++ [change last] } := by
  rw [Pq.setLast, items]
  simp

theorem set_last_extended (pq : Pq State World) (change : PqItem State World → PqItem State World) :
    pq.extended.setLast change = { pq.extended with items := pq.items ++ [change .zero] } :=
  set_last_eq rfl change

/-- What the check of a queue sees of an item. -/
structure Signature where
  type : ItemType
  lenIn : Nat
  lenOut : Nat
  deriving DecidableEq, Repr

def PqItem.signature (item : PqItem State World) : Signature := ⟨item.type, item.lenIn, item.lenOut⟩

/-- The length rule for neighbours. -/
def Accepts (prev item : Signature) : Prop := item.lenIn = 0 ∨ item.lenIn = prev.lenOut

instance (prev item : Signature) : Decidable (Accepts prev item) :=
  inferInstanceAs (Decidable (_ ∨ _))

/-- What the strict check demands. -/
structure Fits (signatures : List Signature) : Prop where
  lengths : signatures.IsChain Accepts
  first : signatures.head?.map Signature.type = some .source
  last : signatures.getLast?.map Signature.type = some .sink

theorem fits_iff (signatures : List Signature) :
    Fits signatures ↔ signatures.IsChain Accepts ∧
      signatures.head?.map Signature.type = some .source ∧
      signatures.getLast?.map Signature.type = some .sink :=
  ⟨fun fits => ⟨fits.lengths, fits.first, fits.last⟩, fun parts => ⟨parts.1, parts.2.1, parts.2.2⟩⟩

instance (signatures : List Signature) : Decidable (Fits signatures) :=
  decidable_of_iff _ (fits_iff signatures).symm

theorem check_items_eq (items : List (PqItem State World)) (linked : Linked items) :
    ∀ itemPrev : Option (PqItem State World), ∃ rv, checkItems itemPrev items = .ok rv ∧
      (rv = 0 ∨ rv = -einval) ∧
      (rv = 0 ↔ ((itemPrev.toList ++ items).map PqItem.signature).IsChain Accepts) := by
  induction items with
  | nil =>
      intro itemPrev
      refine ⟨0, ?_, Or.inl rfl, ?_⟩ <;> cases itemPrev
      · rfl
      · rfl
      · simp
      · simp
  | cons item rest ih =>
      intro itemPrev
      obtain ⟨rv, restRun, known, restIff⟩ := ih (fun other member => linked other
        (List.mem_cons_of_mem _ member)) (some item)
      cases itemPrev with
      | none =>
          rw [checkItems, touch_eq (linked item (by simp)), exec_bind_ok]
          exact ⟨rv, restRun, known, restIff⟩
      | some prev =>
          rw [checkItems, touch_eq (linked item (by simp)), exec_bind_ok]
          by_cases mismatch : item.lenIn ≠ 0 ∧ item.lenIn ≠ prev.lenOut
          · rw [if_pos mismatch]
            refine ⟨-einval, rfl, Or.inr rfl, ?_⟩
            have refused : ¬Accepts prev.signature item.signature := by
              intro accepts
              exact accepts.elim mismatch.1 mismatch.2
            simp [einval, refused]
          · rw [if_neg mismatch]
            have accepts : Accepts prev.signature item.signature := by
              by_contra refused
              exact mismatch (not_or.mp refused)
            refine ⟨rv, restRun, known, restIff.trans ?_⟩
            simp [accepts]

theorem item_type_value_injective {left right : ItemType} (same : left.value = right.value) :
    left = right := by
  cases left <;> cases right <;> first | rfl | exact absurd same (by decide)

/-- The strict check accepts exactly the queues whose signatures fit. -/
theorem pq_check_strict_eq {pq : Pq State World} (linked : Linked pq.items)
    (counted : pq.items = [] → pq.nItems = 0) :
    ∃ rv, osmoGapkPqCheck pq true = .ok rv ∧ (rv = 0 ∨ rv = -einval) ∧
      (rv = 0 ↔ Fits (pq.items.map PqItem.signature)) := by
  obtain ⟨rv, run, known, lengths⟩ := check_items_eq pq.items linked none
  rw [osmoGapkPqCheck, run, exec_bind_ok, fits_iff]
  rcases known with rfl | rfl
  · have chained := lengths.mp rfl
    simp only [ne_eq, not_true_eq_false, if_false, if_true]
    cases items : pq.items with
    | nil =>
        refine ⟨-einval, ?_, Or.inr rfl, by simp [einval]⟩
        simp [counted items, ItemType.value]
    | cons head rest =>
        obtain ⟨last, found⟩ := Option.isSome_iff_exists.mp
          (List.getLast?_isSome.mpr (List.cons_ne_nil head rest))
        have starts : ((head :: rest).map PqItem.signature).head?.map Signature.type =
            some head.type := rfl
        have ends : ((head :: rest).map PqItem.signature).getLast?.map Signature.type =
            some last.type := by
          rw [List.getLast?_map, found]
          rfl
        rw [items] at chained
        rw [starts, ends, Option.some.injEq, Option.some.injEq]
        simp only [found, List.head?_cons]
        by_cases source : head.type = .source
        · rw [if_neg (not_not.mpr (congrArg ItemType.value source))]
          by_cases sink : last.type = .sink
          · rw [if_neg (not_not.mpr (congrArg ItemType.value sink))]
            exact ⟨0, rfl, Or.inl rfl, fun _ => ⟨chained, source, sink⟩, fun _ => rfl⟩
          · rw [if_pos (fun same => sink (item_type_value_injective same))]
            exact ⟨-einval, rfl, Or.inr rfl, fun zero => absurd zero (by decide),
              fun fits => absurd fits.2.2 sink⟩
        · rw [if_pos (fun same => source (item_type_value_injective same))]
          exact ⟨-einval, rfl, Or.inr rfl, fun zero => absurd zero (by decide),
            fun fits => absurd fits.2.1 source⟩
  · rw [if_pos (by decide)]
    refine ⟨-einval, rfl, Or.inr rfl, ?_⟩
    constructor
    · intro zero
      exact absurd zero (by decide)
    · intro fits
      exact absurd (lengths.mpr fits.1) (by decide)

structure Prepared (item after : PqItem State World) : Prop where
  linked : item.freed = false
  same : after = { item with buf := after.buf }
  allocated : item.type ≠ .sink → ∃ buf, after.buf = some buf ∧ buf.length = bufSize item

theorem prepare_items_ok (memory : BufferAlloc) (items : List (PqItem State World)) :
    ∀ (index : Nat) (after : List (PqItem State World)),
      prepareItems memory index items = .ok (0, after) → List.Forall₂ Prepared items after := by
  induction items with
  | nil =>
      intro index after run
      cases run
      exact List.Forall₂.nil
  | cons item rest ih =>
      intro index after run
      rw [prepareItems] at run
      cases linked : item.freed with
      | true =>
          rw [touch, linked] at run
          cases run
      | false =>
          rw [touch_eq linked, exec_bind_ok] at run
          by_cases sink : item.type = .sink
          · rw [if_pos sink] at run
            obtain ⟨⟨rv, restAfter⟩, restRun, last⟩ := (exec_bind_eq_ok _ _ _).mp run
            cases last
            exact List.Forall₂.cons ⟨linked, rfl, fun other => absurd sink other⟩
              (ih (index + 1) restAfter restRun)
          · rw [if_neg sink] at run
            cases allocated : memory.alloc index (bufSize item) with
            | none =>
                rw [allocated] at run
                cases run
            | some buf =>
                simp only [allocated] at run
                obtain ⟨⟨rv, restAfter⟩, restRun, last⟩ := (exec_bind_eq_ok _ _ _).mp run
                cases last
                exact List.Forall₂.cons ⟨linked, rfl, fun _ => ⟨buf, rfl, memory.size _ _ _ allocated⟩⟩
                  (ih (index + 1) restAfter restRun)

theorem pq_prepare_ok {memory : BufferAlloc} {pq after : Pq State World}
    (run : osmoGapkPqPrepare memory pq = .ok (0, after)) :
    List.Forall₂ Prepared pq.items after.items := by
  obtain ⟨⟨rv, items⟩, itemsRun, last⟩ := (exec_bind_eq_ok _ _ _).mp run
  cases last
  exact prepare_items_ok memory pq.items 0 items itemsRun

def BufferAlloc.Works (memory : BufferAlloc) : Prop :=
  ∀ index size, (memory.alloc index size).isSome

theorem prepare_items_works {memory : BufferAlloc} (works : memory.Works)
    (items : List (PqItem State World)) (linked : Linked items) (index : Nat) :
    ∃ after, prepareItems memory index items = .ok (0, after) := by
  induction items generalizing index with
  | nil => exact ⟨[], rfl⟩
  | cons item rest ih =>
      obtain ⟨restAfter, restRun⟩ := ih (fun other member => linked other
        (List.mem_cons_of_mem _ member)) (index + 1)
      rw [prepareItems, touch_eq (linked item (by simp)), exec_bind_ok]
      by_cases sink : item.type = .sink
      · rw [if_pos sink, restRun]
        exact ⟨_, rfl⟩
      · obtain ⟨buf, allocated⟩ := Option.isSome_iff_exists.mp (works index (bufSize item))
        rw [if_neg sink]
        simp only [allocated, restRun, exec_bind_ok]
        exact ⟨_, rfl⟩

end Operations

end Gapk.Procqueue
