import Gapk.Library.FixedWidth
import Gapk.Library.Interleaving

/-!
# Half Rate codec handles

The wrapper of libgsmhr around the reference codec, which keeps its state in
global variables. All handles of a process share these variables: every call
copies the saved block of its handle in and out. Towards a caller each handle is
a session with a memory of its own, however the calls are interleaved, as long as
the block was found: nobody looks at the results of `dlsym`, and without them nothing
is copied.
-/

namespace Gapk.Libgsmhr

open CheckedMemory FixedWidth Interleaving

set_option autoImplicit false

abbrev Word := BitVec 16

/-- The address of the loaded library, and where its global memory block begins and
ends in it: `__bss_start` and `_end`, as the linker knows them. -/
structure Symbols where
  loadedAt : Nat
  bssStart : Nat
  finish : Nat
  ordered : bssStart ≤ finish
  small : finish - bssStart < 2 ^ 32

def Symbols.size (symbols : Symbols) : Nat := symbols.finish - symbols.bssStart

/-- What the global memory block of the library holds. -/
abbrev Block (size : Nat) := {bytes : Buf // bytes.length = size}

/-- The reference codec, which is not part of this program: functions of the global
block and their arguments. They may write to both. -/
structure RefCodec (size : Nat) where
  fLen : Nat
  ehfMask : Word
  resetDec : Block size → Block size
  resetEnc : Block size → Block size
  encoderHomingFrameTest : Block size → Vector Word fLen → Int × Vector Word fLen × Block size
  speechEncoder : Block size → Vector Word fLen → List Word →
    Vector Word fLen × List Word × Block size
  decoderHomingFrameTest : Block size → Vector Word 22 → Nat → Int × Vector Word 22 × Block size
  speechDecoder : Block size → Vector Word 22 → Vector Word fLen →
    Vector Word 22 × Vector Word fLen × Block size

/-- After both resets nothing is left of what the block held before. -/
def RefCodec.Restarts {size : Nat} (codec : RefCodec size) : Prop :=
  ∀ block other, codec.resetEnc (codec.resetDec block) = codec.resetEnc (codec.resetDec other)

/-- A place in the library's memory, or `NULL`. -/
abbrev Pointer := Option Nat

/-- `struct gsmhr`. The saved copy is memory of its own. -/
structure Gsmhr where
  decResetFlg : Int
  bssBase : Pointer
  bssSave : Buf
  bssLen : Nat

/-- What `dlopen`, `calloc`, both calls of `dlsym` and `malloc` give. A symbol that is
not in the dynamic symbol table is not found, although the block is there. The content
of the memory that `malloc` gives is not known. -/
structure Resources where
  lib : Bool
  calloc : Bool
  bssStartFound : Bool
  endFound : Bool
  malloc : Nat → Option Buf
  size : ∀ size buf, malloc size = some buf → buf.length = size

section Code

variable (symbols : Symbols) (codec : RefCodec symbols.size)

theorem block_length {image : Buf} (mapped : symbols.finish ≤ image.length) :
    ((image.drop symbols.bssStart).take symbols.size).length = symbols.size := by
  simp only [List.length_take, List.length_drop, Symbols.size]
  omega

def setBlock (image : Buf) (block : Buf) : Buf :=
  image.take symbols.bssStart ++ block ++ image.drop symbols.finish

def onBlock {Value : Type} (call : Block symbols.size → Value × Block symbols.size)
    (image : Buf) : Exec (Value × Buf) :=
  if mapped : symbols.finish ≤ image.length then
    let (value, block) := call ⟨_, block_length symbols mapped⟩
    pure (value, setBlock symbols image block.val)
  else throw .outOfBounds

def reset (call : Block symbols.size → Block symbols.size) (image : Buf) : Exec Buf := do
  let (_, image) ← onBlock symbols (fun block => ((), call block)) image
  pure image

def dlsym (found : Bool) (place : Nat) : Pointer := if found then some place else none

def Symbols.address : Pointer → Nat
  | some place => symbols.loadedAt + place
  | none => 0

/-- `dlsym(lib, "_end") - state->bss_base` as an `unsigned`, whatever the pointers are. -/
def Resources.bssLen (resources : Resources) : Nat :=
  toUInt32 ((symbols.address (dlsym resources.endFound symbols.finish) : Int) -
    symbols.address (dlsym resources.bssStartFound symbols.bssStart))

-- With a null pointer and no length `memcpy` copies nothing.
section Copies

/-- `memcpy(state->bss_save, state->bss_base, state->bss_len)`. -/
def copyFrom (base : Pointer) (bssSave image : Buf) (bssLen : Nat) : Exec Buf :=
  match base with
  | some place => memcpy bssSave 0 image place bssLen
  | none => if bssLen = 0 then pure bssSave else throw .nullPointer

/-- `memcpy(state->bss_base, state->bss_save, state->bss_len)`. -/
def copyTo (base : Pointer) (image bssSave : Buf) (bssLen : Nat) : Exec Buf :=
  match base with
  | some place => memcpy image place bssSave 0 bssLen
  | none => if bssLen = 0 then pure image else throw .nullPointer

end Copies

/-- `NULL` or the new handle, and the library's memory. Neither pointer is checked. -/
def gsmhrInit (resources : Resources) (image : Buf) : Exec (Option Gsmhr × Buf) :=
  if !resources.lib then pure (none, image)
  else if !resources.calloc then pure (none, image)
  else
    let bssBase := dlsym resources.bssStartFound symbols.bssStart
    let bssLen := resources.bssLen symbols
    match resources.malloc bssLen with
    | none => pure (none, image)
    | some bssSave => do
        let image ← reset symbols codec.resetDec image
        let image ← reset symbols codec.resetEnc image
        let bssSave ← copyFrom bssBase bssSave image bssLen
        let state : Gsmhr :=
          { decResetFlg := 1, bssBase := bssBase, bssSave := bssSave, bssLen := bssLen }
        pure (some state, image)

/-- The return value, the array that the call fills, the handle and the library's
memory. -/
structure CallResult (Words : Type) where
  rv : Int
  words : Words
  state : Gsmhr
  image : Buf

def gsmhrEncode (state : Gsmhr) (hrParams : List Word) (pcm : Vector Word codec.fLen)
    (image : Buf) : Exec (CallResult (List Word)) := do
  let image ← copyTo state.bssBase image state.bssSave state.bssLen
  let ((encResetFlg, pcmB), image) ← onBlock symbols (fun block =>
    let (flag, pcmB, block) := codec.encoderHomingFrameTest block pcm
    ((flag, pcmB), block)) image
  let (hrParams, image) ← onBlock symbols (fun block =>
    let (_, hrParams, block) := codec.speechEncoder block pcmB hrParams
    (hrParams, block)) image
  let image ← if encResetFlg ≠ 0 then reset symbols codec.resetEnc image else pure image
  let bssSave ← copyFrom state.bssBase state.bssSave image state.bssLen
  pure { rv := 0, words := hrParams, state := { state with bssSave := bssSave }, image := image }

abbrev wholeFrame : Nat := 18
abbrev toFirstSubframe : Nat := 9

def fillHomingFrame {size : Nat} (codec : RefCodec size) (pcm : Vector Word codec.fLen) :
    Vector Word codec.fLen :=
  (List.finRange codec.fLen).foldl (fun pcm i => pcm.set i.val codec.ehfMask i.isLt) pcm

def gsmhrDecode (state : Gsmhr) (pcm : Vector Word codec.fLen) (hrParams : Vector Word 22)
    (image : Buf) : Exec (CallResult (Vector Word codec.fLen)) := do
  let image ← copyTo state.bssBase image state.bssSave state.bssLen
  let ((decResetFlg, hrParamsB), image) ←
    if state.decResetFlg ≠ 0 then
      onBlock symbols (fun block =>
        let (flag, hrParamsB, block) := codec.decoderHomingFrameTest block hrParams toFirstSubframe
        ((flag, hrParamsB), block)) image
    else pure ((0, hrParams), image)
  let ((hrParamsB, pcm), image) ←
    if decResetFlg ≠ 0 ∧ state.decResetFlg ≠ 0 then
      pure ((hrParamsB, fillHomingFrame codec pcm), image)
    else
      onBlock symbols (fun block =>
        let (hrParamsB, pcm, block) := codec.speechDecoder block hrParamsB pcm
        ((hrParamsB, pcm), block)) image
  let (decResetFlg, image) ←
    if state.decResetFlg = 0 then
      onBlock symbols (fun block =>
        let (flag, _, block) := codec.decoderHomingFrameTest block hrParamsB wholeFrame
        (flag, block)) image
    else pure (decResetFlg, image)
  let image ← if decResetFlg ≠ 0 then reset symbols codec.resetDec image else pure image
  let bssSave ← copyFrom state.bssBase state.bssSave image state.bssLen
  let state := { state with decResetFlg := decResetFlg, bssSave := bssSave }
  pure { rv := 0, words := pcm, state := state, image := image }

end Code

section Memory

variable (symbols : Symbols)

theorem set_block_length {image block : Buf} (mapped : symbols.finish ≤ image.length)
    (size : block.length = symbols.size) :
    (setBlock symbols image block).length = image.length := by
  have ordered := symbols.ordered
  simp only [setBlock, List.length_append, List.length_take, List.length_drop, size, Symbols.size]
  omega

theorem set_block_mapped {image : Buf} (mapped : symbols.finish ≤ image.length)
    (block : Block symbols.size) : symbols.finish ≤ (setBlock symbols image block.val).length := by
  rw [set_block_length symbols mapped block.property]
  exact mapped

theorem front_length {image : Buf} (mapped : symbols.finish ≤ image.length) :
    (image.take symbols.bssStart).length = symbols.bssStart := by
  have ordered := symbols.ordered
  rw [List.length_take]
  omega

theorem front_block_length {image block : Buf} (mapped : symbols.finish ≤ image.length)
    (size : block.length = symbols.size) :
    (image.take symbols.bssStart ++ block).length = symbols.finish := by
  have ordered := symbols.ordered
  rw [List.length_append, front_length symbols mapped, size, Symbols.size]
  omega

theorem set_block_block {image block : Buf} (mapped : symbols.finish ≤ image.length)
    (size : block.length = symbols.size) :
    ((setBlock symbols image block).drop symbols.bssStart).take symbols.size = block := by
  rw [setBlock, List.append_assoc, List.drop_left' (front_length symbols mapped),
    List.take_left' size]

theorem set_block_twice {image block other : Buf} (mapped : symbols.finish ≤ image.length)
    (size : block.length = symbols.size) :
    setBlock symbols (setBlock symbols image block) other = setBlock symbols image other := by
  have front : (setBlock symbols image block).take symbols.bssStart =
      image.take symbols.bssStart := by
    rw [setBlock, List.append_assoc, List.take_left' (front_length symbols mapped)]
  have back : (setBlock symbols image block).drop symbols.finish = image.drop symbols.finish := by
    rw [setBlock, List.drop_left' (front_block_length symbols mapped size)]
  rw [setBlock, front, back]
  rfl

theorem on_block_set {Value : Type} (call : Block symbols.size → Value × Block symbols.size)
    {image : Buf} (mapped : symbols.finish ≤ image.length) (block : Block symbols.size) :
    onBlock symbols call (setBlock symbols image block.val) =
      .ok ((call block).1, setBlock symbols image (call block).2.val) := by
  have still := set_block_mapped symbols mapped block
  have seen : (⟨_, block_length symbols still⟩ : Block symbols.size) = block :=
    Subtype.ext (set_block_block symbols mapped block.property)
  rw [onBlock, dif_pos still]
  simp only [seen, exec_pure]
  rw [set_block_twice symbols mapped block.property]

theorem reset_set (call : Block symbols.size → Block symbols.size) {image : Buf}
    (mapped : symbols.finish ≤ image.length) (block : Block symbols.size) :
    reset symbols call (setBlock symbols image block.val) =
      .ok (setBlock symbols image (call block).val) := by
  rw [reset, on_block_set symbols _ mapped]
  rfl

theorem copy_to_block {image : Buf} (mapped : symbols.finish ≤ image.length)
    (block : Block symbols.size) :
    copyTo (some symbols.bssStart) image block.val symbols.size =
      .ok (setBlock symbols image block.val) := by
  have ordered := symbols.ordered
  have finish : symbols.bssStart + symbols.size = symbols.finish := by
    rw [Symbols.size]
    omega
  rw [copyTo, memcpy_eq (by omega) (by rw [block.property]; omega), List.drop_zero,
    List.take_of_length_le (Nat.le_of_eq block.property), finish]
  rfl

theorem copy_from_block {image save : Buf} (mapped : symbols.finish ≤ image.length)
    (room : save.length = symbols.size) (block : Block symbols.size) :
    copyFrom (some symbols.bssStart) save (setBlock symbols image block.val) symbols.size =
      .ok block.val := by
  have ordered := symbols.ordered
  rw [copyFrom, memcpy_eq (by omega) (by
      rw [set_block_length symbols mapped block.property, Symbols.size]
      omega),
    set_block_block symbols mapped block.property, List.take_zero, List.nil_append,
    List.drop_eq_nil_of_le (by omega), List.append_nil]

end Memory

section Sessions

/-- What a handle stands for: a codec whose memory nobody else uses. -/
structure Session (size : Nat) where
  memory : Block size
  decResetFlg : Int

variable {size : Nat} (codec : RefCodec size)

def zeroBlock (size : Nat) : Block size := ⟨List.replicate size 0, List.length_replicate⟩

def Session.start : Session size where
  memory := codec.resetEnc (codec.resetDec (zeroBlock size))
  decResetFlg := 1

def Session.encode (session : Session size) (hrParams : List Word)
    (pcm : Vector Word codec.fLen) : List Word × Session size :=
  let (encResetFlg, pcmB, memory) := codec.encoderHomingFrameTest session.memory pcm
  let (_, hrParams, memory) := codec.speechEncoder memory pcmB hrParams
  (hrParams, { session with memory := if encResetFlg ≠ 0 then codec.resetEnc memory else memory })

/-- The decoder is in its reset state when the flag is set. A homing frame then
gives the encoder homing frame without a run of the decoder. -/
def Session.decode (session : Session size) (pcm : Vector Word codec.fLen)
    (hrParams : Vector Word 22) : Vector Word codec.fLen × Session size :=
  let afterReset := session.decResetFlg ≠ 0
  let (homing, hrParamsB, memory) :=
    if afterReset then codec.decoderHomingFrameTest session.memory hrParams toFirstSubframe
    else (0, hrParams, session.memory)
  let (hrParamsB, pcm, memory) :=
    if homing ≠ 0 ∧ afterReset then (hrParamsB, fillHomingFrame codec pcm, memory)
    else codec.speechDecoder memory hrParamsB pcm
  let (homing, _, memory) :=
    if afterReset then (homing, hrParamsB, memory)
    else codec.decoderHomingFrameTest memory hrParamsB wholeFrame
  (pcm, { memory := if homing ≠ 0 then codec.resetDec memory else memory, decResetFlg := homing })

end Sessions

section Refinement

variable (symbols : Symbols) (codec : RefCodec symbols.size)

def Session.handle (session : Session symbols.size) : Gsmhr where
  decResetFlg := session.decResetFlg
  bssBase := some symbols.bssStart
  bssSave := session.memory.val
  bssLen := symbols.size

/-- An `init` that looks the symbols up finds both of them. -/
def Resources.FindsBlock (resources : Resources) : Prop :=
  resources.lib = true → resources.calloc = true →
    resources.bssStartFound = true ∧ resources.endFound = true

instance (resources : Resources) : Decidable resources.FindsBlock :=
  inferInstanceAs (Decidable (_ → _ → _))

theorem bss_len_eq {resources : Resources} (startFound : resources.bssStartFound = true)
    (endFound : resources.endFound = true) : resources.bssLen symbols = symbols.size := by
  have ordered := symbols.ordered
  have small := symbols.small
  rw [Resources.bssLen, startFound, endFound]
  have same : ((symbols.address (dlsym true symbols.finish) : Nat) : Int) -
      symbols.address (dlsym true symbols.bssStart) = (symbols.size : Nat) := by
    show ((symbols.loadedAt + symbols.finish : Nat) : Int) -
      ((symbols.loadedAt + symbols.bssStart : Nat) : Int) = _
    rw [Symbols.size]
    omega
  rw [same]
  exact to_uint32_eq small

theorem exists_block {image : Buf} (mapped : symbols.finish ≤ image.length) :
    ∃ block : Block symbols.size, setBlock symbols image block.val = image := by
  have ordered := symbols.ordered
  refine ⟨⟨_, block_length symbols mapped⟩, ?_⟩
  have finish : symbols.finish = symbols.bssStart + symbols.size := by
    rw [Symbols.size]
    omega
  rw [setBlock, List.append_assoc, finish, ← List.drop_drop, List.take_append_drop,
    List.take_append_drop]

def Resources.granted (resources : Resources) : Bool :=
  resources.lib && resources.calloc && (resources.malloc (resources.bssLen symbols)).isSome

theorem gsmhr_init_eq (restarts : codec.Restarts) {resources : Resources}
    (finds : resources.FindsBlock) {image : Buf} (mapped : symbols.finish ≤ image.length) :
    ∃ next, symbols.finish ≤ next.length ∧ gsmhrInit symbols codec resources image =
      .ok (if resources.granted symbols then some ((Session.start codec).handle symbols) else none,
        next) := by
  rw [gsmhrInit, Resources.granted]
  cases loaded : resources.lib with
  | false => exact ⟨image, mapped, rfl⟩
  | true =>
      cases allocated : resources.calloc with
      | false => exact ⟨image, mapped, rfl⟩
      | true =>
          obtain ⟨startFound, endFound⟩ := finds loaded allocated
          rw [bss_len_eq symbols startFound endFound, startFound, dlsym, if_pos rfl]
          cases saved : resources.malloc symbols.size with
          | none => exact ⟨image, mapped, by simp [saved]⟩
          | some save =>
              obtain ⟨block, same⟩ := exists_block symbols mapped
              let fresh := codec.resetEnc (codec.resetDec block)
              have start : fresh = (Session.start codec).memory := restarts block _
              refine ⟨setBlock symbols image fresh.val, set_block_mapped symbols mapped fresh, ?_⟩
              have decReset := reset_set symbols codec.resetDec mapped block
              rw [same] at decReset
              simp only [Bool.not_true, Bool.false_eq_true, if_false, saved, decReset, exec_bind_ok,
                reset_set symbols codec.resetEnc mapped,
                copy_from_block symbols mapped (resources.size _ _ saved)]
              rw [show codec.resetEnc (codec.resetDec block) = fresh from rfl, start]
              rfl

theorem gsmhr_encode_eq (session : Session symbols.size) (hrParams : List Word)
    (pcm : Vector Word codec.fLen) {image : Buf} (mapped : symbols.finish ≤ image.length) :
    gsmhrEncode symbols codec (session.handle symbols) hrParams pcm image =
      .ok { rv := 0
            words := (session.encode codec hrParams pcm).1
            state := (session.encode codec hrParams pcm).2.handle symbols
            image := setBlock symbols image (session.encode codec hrParams pcm).2.memory.val } := by
  simp only [gsmhrEncode, Session.handle, copy_to_block symbols mapped, exec_bind_ok,
    on_block_set symbols _ mapped, Session.encode]
  split_ifs with homing
  · simp only [reset_set symbols _ mapped, exec_bind_ok, copy_from_block symbols mapped session.memory.property]
    rfl
  · simp only [exec_pure, exec_bind_ok, copy_from_block symbols mapped session.memory.property]

theorem gsmhr_decode_eq (session : Session symbols.size) (pcm : Vector Word codec.fLen)
    (hrParams : Vector Word 22) {image : Buf} (mapped : symbols.finish ≤ image.length) :
    gsmhrDecode symbols codec (session.handle symbols) pcm hrParams image =
      .ok { rv := 0
            words := (session.decode codec pcm hrParams).1
            state := (session.decode codec pcm hrParams).2.handle symbols
            image := setBlock symbols image (session.decode codec pcm hrParams).2.memory.val } := by
  have room := session.memory.property
  by_cases running : session.decResetFlg = 0
  · simp only [gsmhrDecode, Session.handle, copy_to_block symbols mapped, exec_bind_ok, running,
      Session.decode, ne_eq, not_true_eq_false, if_false, if_true, and_false, exec_pure,
      on_block_set symbols _ mapped]
    split_ifs with still
    · simp only [exec_bind_ok, copy_from_block symbols mapped room]
    · simp only [reset_set symbols _ mapped, exec_bind_ok, copy_from_block symbols mapped room]
  · simp only [gsmhrDecode, Session.handle, copy_to_block symbols mapped, exec_bind_ok, running,
      Session.decode, ne_eq, not_false_eq_true, if_false, if_true, and_true, exec_pure,
      on_block_set symbols _ mapped]
    split_ifs with still
    · simp only [exec_bind_ok, copy_from_block symbols mapped room]
    · simp only [reset_set symbols _ mapped, exec_bind_ok, copy_from_block symbols mapped room]

end Refinement

section Process

variable {Handle : Type} [DecidableEq Handle] (symbols : Symbols) (codec : RefCodec symbols.size)

/-- A process that has the library loaded: the library's memory and the handles
in use. -/
structure Process (Handle : Type) where
  image : Buf
  handles : Handle → Option Gsmhr

def Process.fresh (image : Buf) : Process Handle where
  image := image
  handles := fun _ => none

inductive Call (fLen : Nat) where
  | init (resources : Resources)
  | encode (hrParams : List Word) (pcm : Vector Word fLen)
  | decode (pcm : Vector Word fLen) (hrParams : Vector Word 22)
  | exit

/-- What the caller gets: whether there is a handle, or the return value and the
array that the call filled. -/
inductive Reply (fLen : Nat) where
  | created (handle : Bool)
  | encoded (rv : Int) (hrParams : List Word)
  | decoded (rv : Int) (pcm : Vector Word fLen)
  | exited
  deriving DecidableEq

def Process.handle (process : Process Handle) (handle : Handle) : Exec Gsmhr :=
  match process.handles handle with
  | none => throw .useAfterFree
  | some state => pure state

def Process.with (process : Process Handle) (handle : Handle) (state : Option Gsmhr)
    (image : Buf) : Process Handle where
  image := image
  handles := Function.update process.handles handle state

def processCall (process : Process Handle) (handle : Handle) :
    Call codec.fLen → Exec (Reply codec.fLen × Process Handle)
  | .init resources => do
      let (state, image) ← gsmhrInit symbols codec resources process.image
      pure (.created state.isSome, process.with handle state image)
  | .encode hrParams pcm => do
      let state ← process.handle handle
      let result ← gsmhrEncode symbols codec state hrParams pcm process.image
      pure (.encoded result.rv result.words, process.with handle (some result.state) result.image)
  | .decode pcm hrParams => do
      let state ← process.handle handle
      let result ← gsmhrDecode symbols codec state pcm hrParams process.image
      pure (.decoded result.rv result.words, process.with handle (some result.state) result.image)
  | .exit => do
      let _ ← process.handle handle
      pure (.exited, process.with handle none process.image)

/-- The calls on one handle, on a session of its own. `none` is a call on a handle
that is not in use, the creation of a handle that already is, or one that does not
find the block. -/
def sessionCall : Option (Session symbols.size) → Call codec.fLen →
    Option (Reply codec.fLen × Option (Session symbols.size))
  | none, .init resources =>
      let session := if resources.granted symbols then some (Session.start codec) else none
      if resources.FindsBlock then some (.created session.isSome, session) else none
  | some session, .encode hrParams pcm =>
      let (hrParams, session) := session.encode codec hrParams pcm
      some (.encoded 0 hrParams, some session)
  | some session, .decode pcm hrParams =>
      let (pcm, session) := session.decode codec pcm hrParams
      some (.decoded 0 pcm, some session)
  | some _, .exit => some (.exited, none)
  | _, _ => none

/-- The library is mapped, and each handle holds the memory of its session. The
content of the live block is left open. -/
structure Represents (process : Process Handle)
    (sessions : Handle → Option (Session symbols.size)) : Prop where
  mapped : symbols.finish ≤ process.image.length
  handles : ∀ handle, process.handles handle = (sessions handle).map (Session.handle symbols)

theorem represents_with {process : Process Handle}
    {sessions : Handle → Option (Session symbols.size)} {image : Buf}
    (represents : Represents symbols process sessions) (handle : Handle)
    (session : Option (Session symbols.size)) (mapped : symbols.finish ≤ image.length) :
    Represents symbols (process.with handle (session.map (Session.handle symbols)) image)
      (Function.update sessions handle session) where
  mapped := mapped
  handles := by
    intro other
    show Function.update process.handles handle _ other = _
    by_cases same : other = handle
    · subst same
      rw [Function.update_self, Function.update_self]
    · rw [Function.update_of_ne same, Function.update_of_ne same]
      exact represents.handles other

omit [DecidableEq Handle] in
theorem handle_in_use {process : Process Handle}
    {sessions : Handle → Option (Session symbols.size)} {handle : Handle}
    {session : Session symbols.size} (represents : Represents symbols process sessions)
    (live : sessions handle = some session) :
    process.handle handle = .ok (session.handle symbols) := by
  rw [Process.handle, represents.handles handle, live]
  rfl

/-- Every call on the process is a call on the session of its handle. -/
theorem process_separates (restarts : codec.Restarts) :
    Separates (@processCall Handle _ symbols codec) (sessionCall symbols codec)
      (Represents symbols) := by
  intro process sessions handle call reply moved represents acted
  have mapped := represents.mapped
  cases live : sessions handle with
  | none =>
      rw [live] at acted
      cases call with
      | init resources =>
          by_cases finds : resources.FindsBlock
          · rw [sessionCall, if_pos finds] at acted
            cases acted
            obtain ⟨next, nextMapped, run⟩ := gsmhr_init_eq symbols codec restarts finds mapped
            refine ⟨_, ?_, represents_with symbols represents handle _ nextMapped⟩
            rw [processCall, run, exec_bind_ok]
            cases resources.granted symbols <;> rfl
          · rw [sessionCall, if_neg finds] at acted
            cases acted
      | encode hrParams pcm => cases acted
      | decode pcm hrParams => cases acted
      | exit => cases acted
  | some session =>
      rw [live] at acted
      have inUse := handle_in_use symbols represents live
      cases call with
      | init resources => cases acted
      | encode hrParams pcm =>
          have after := set_block_mapped symbols mapped (session.encode codec hrParams pcm).2.memory
          cases acted
          refine ⟨_, ?_, represents_with symbols represents handle _ after⟩
          rw [processCall, inUse, exec_bind_ok, gsmhr_encode_eq symbols codec _ _ _ mapped]
          rfl
      | decode pcm hrParams =>
          have after := set_block_mapped symbols mapped (session.decode codec pcm hrParams).2.memory
          cases acted
          refine ⟨_, ?_, represents_with symbols represents handle _ after⟩
          rw [processCall, inUse, exec_bind_ok, gsmhr_decode_eq symbols codec _ _ _ mapped]
          rfl
      | exit =>
          cases acted
          refine ⟨_, ?_, represents_with symbols represents handle none mapped⟩
          rw [processCall, inUse, exec_bind_ok]
          rfl

/-- The calls on one handle: it is used only between its creation and its end. -/
def Usage {fLen : Nat} : Bool → List (Call fLen) → Prop
  | _, [] => True
  | live, .init resources :: rest => live = false ∧ Usage (resources.granted symbols) rest
  | live, .encode _ _ :: rest => live = true ∧ Usage live rest
  | live, .decode _ _ :: rest => live = true ∧ Usage live rest
  | live, .exit :: rest => live = true ∧ Usage false rest

/-- A call that looks the symbols up finds both of them. -/
def Finds {fLen : Nat} : Call fLen → Prop
  | .init resources => resources.FindsBlock
  | .encode _ _ | .decode _ _ | .exit => True

theorem usage_allowed (calls : List (Call codec.fLen)) (finds : ∀ call ∈ calls, Finds call) :
    ∀ session : Option (Session symbols.size), Usage symbols session.isSome calls →
      ∃ result, runPrivate (sessionCall symbols codec) calls session = some result := by
  induction calls with
  | nil => exact fun session _ => ⟨_, rfl⟩
  | cons call rest ih =>
      obtain ⟨first, others⟩ := List.forall_mem_cons.mp finds
      -- The machine stands where the usage says: with a session or without one.
      have step : ∀ session reply next, sessionCall symbols codec session call = some (reply, next) →
          Usage symbols next.isSome rest →
          ∃ result, runPrivate (sessionCall symbols codec) (call :: rest) session = some result := by
        intro session reply next acted usage
        obtain ⟨⟨replies, final⟩, run⟩ := ih others next usage
        exact ⟨_, run_private_step acted run⟩
      intro session usage
      cases session with
      | none =>
          cases call with
          | init resources =>
              refine step _ _ _ (if_pos first) ?_
              cases granted : resources.granted symbols <;> rw [Usage, granted] at usage <;>
                exact usage.2
          | encode hrParams pcm => cases usage.1
          | decode pcm hrParams => cases usage.1
          | exit => cases usage.1
      | some session =>
          cases call with
          | init resources => cases usage.1
          | encode hrParams pcm => exact step _ _ _ rfl usage.2
          | decode pcm hrParams => exact step _ _ _ rfl usage.2
          | exit => exact step _ _ _ rfl usage.2

omit [DecidableEq Handle] in
theorem fresh_represents {image : Buf} (mapped : symbols.finish ≤ image.length) :
    Represents symbols (Process.fresh image : Process Handle) fun _ => none where
  mapped := mapped
  handles := fun _ => rfl

theorem own_mem {handle : Handle} {Entry : Type} {trace : List (Handle × Entry)} {entry : Entry}
    (member : entry ∈ own handle trace) : (handle, entry) ∈ trace := by
  obtain ⟨⟨other, found⟩, inside, rfl⟩ := List.mem_map.mp member
  obtain ⟨inTrace, same⟩ := List.mem_filter.mp inside
  obtain rfl := of_decide_eq_true same
  exact inTrace

/-- In any interleaving of the calls on any number of handles, each handle gets the
replies that it gets when its own calls are all that a fresh process makes, as long as
both symbols are found. -/
theorem handles_isolated (restarts : codec.Restarts) {image fresh : Buf}
    (mapped : symbols.finish ≤ image.length) (freshMapped : symbols.finish ≤ fresh.length)
    (trace : List (Handle × Call codec.fLen))
    (usage : ∀ handle, Usage symbols false (own handle trace))
    (finds : ∀ entry ∈ trace, Finds entry.2) :
    ∃ replies after,
      runCalls (processCall symbols codec) trace (Process.fresh image) = .ok (replies, after) ∧
      ∀ handle, ∃ aloneReplies aloneAfter,
        runCalls (processCall symbols codec) (entriesOf handle trace) (Process.fresh fresh) =
          .ok (aloneReplies, aloneAfter) ∧
        own handle aloneReplies = own handle replies :=
  replies_isolated (process_separates symbols codec restarts) (fresh_represents symbols mapped)
    (fresh_represents symbols freshMapped) trace
    fun handle => usage_allowed symbols codec _ (fun _ member => finds _ (own_mem member)) none
      (usage handle)

def oneByte : Symbols where
  loadedAt := 0x10000
  bssStart := 2
  finish := 3
  ordered := by decide
  small := by decide

/-- A codec that numbers the frames since its last reset. -/
def countingCodec : RefCodec oneByte.size where
  fLen := 160
  ehfMask := 0x0008
  resetDec := fun _ => ⟨[0], rfl⟩
  resetEnc := fun _ => ⟨[0], rfl⟩
  encoderHomingFrameTest := fun block pcm =>
    (if pcm = Vector.replicate 160 0x0008 then 1 else 0, pcm, block)
  speechEncoder := fun block pcm hrParams =>
    let count := block.val.headD 0
    (pcm, hrParams.map fun _ => count.zeroExtend 16, ⟨[count + 1], rfl⟩)
  decoderHomingFrameTest := fun block hrParams _ => (0, hrParams, block)
  speechDecoder := fun block hrParams pcm =>
    let count := block.val.headD 0
    (hrParams, pcm.map fun _ => count.zeroExtend 16, ⟨[count + 1], rfl⟩)

/-- There is enough of everything, and the symbols are exported or not. -/
def plentiful (exported : Bool) : Resources where
  lib := true
  calloc := true
  bssStartFound := exported
  endFound := exported
  malloc := fun size => some (List.replicate size 0xa5)
  size := by
    intro size buf found
    cases found
    exact List.length_replicate

def twoHandles (exported : Bool) : List (Bool × Call countingCodec.fLen) :=
  let frame : Vector Word countingCodec.fLen := Vector.replicate 160 0
  let params : List Word := List.replicate 22 0
  [(false, .init (plentiful exported)), (false, .encode params frame), (true, .init (plentiful exported)),
    (false, .encode params frame), (true, .decode frame (Vector.replicate 22 0)),
    (false, .exit), (true, .encode params frame), (true, .exit)]

theorem two_handles_usage (exported : Bool) :
    ∀ handle, Usage oneByte false (own handle (twoHandles exported))
  | false => ⟨rfl, by cases exported <;> exact ⟨rfl, rfl, rfl, trivial⟩⟩
  | true => ⟨rfl, by cases exported <;> exact ⟨rfl, rfl, rfl, trivial⟩⟩

theorem handles_isolated_two :
    ∃ replies after,
      runCalls (processCall oneByte countingCodec) (twoHandles true) (Process.fresh [1, 2, 3, 4]) =
        .ok (replies, after) ∧
      ∀ handle, ∃ aloneReplies aloneAfter,
        runCalls (processCall oneByte countingCodec) (entriesOf handle (twoHandles true))
          (Process.fresh [0, 0, 0]) = .ok (aloneReplies, aloneAfter) ∧
        own handle aloneReplies = own handle replies :=
  handles_isolated oneByte countingCodec (fun _ _ => rfl) (by decide) (by decide) (twoHandles true)
    (two_handles_usage true) (by simp [twoHandles, Finds, Resources.FindsBlock, plentiful])

/-- Without the symbols nothing is saved, and a second handle that is created starts
the first one anew. -/
theorem unexported_handles_mix :
    countingCodec.Restarts ∧ (∀ handle, Usage oneByte false (own handle (twoHandles false))) ∧
      ¬∃ replies after,
        runCalls (processCall oneByte countingCodec) (twoHandles false)
          (Process.fresh [1, 2, 3, 4]) = .ok (replies, after) ∧
        ∀ handle, ∃ aloneReplies aloneAfter,
          runCalls (processCall oneByte countingCodec) (entriesOf handle (twoHandles false))
            (Process.fresh [0, 0, 0]) = .ok (aloneReplies, aloneAfter) ∧
          own handle aloneReplies = own handle replies := by
  refine ⟨fun _ _ => rfl, two_handles_usage false, ?_⟩
  rintro ⟨replies, after, run, isolated⟩
  obtain ⟨aloneReplies, aloneAfter, alone, same⟩ := isolated false
  have mixed : (runCalls (processCall oneByte countingCodec) (twoHandles false)
      (Process.fresh [1, 2, 3, 4])).toOption.map (fun result => own false result.1) =
        some [.created true, .encoded 0 (List.replicate 22 0), .encoded 0 (List.replicate 22 0),
          .exited] := by
    decide +kernel
  have undisturbed : (runCalls (processCall oneByte countingCodec)
      (entriesOf false (twoHandles false))
      (Process.fresh [0, 0, 0])).toOption.map (fun result => own false result.1) =
        some [.created true, .encoded 0 (List.replicate 22 0), .encoded 0 (List.replicate 22 1),
          .exited] := by
    decide +kernel
  rw [run] at mixed
  rw [alone] at undisturbed
  have ownMixed : own false replies = _ := Option.some.inj mixed
  have ownAlone : own false aloneReplies = _ := Option.some.inj undisturbed
  rw [same, ownMixed] at ownAlone
  revert ownAlone
  decide

end Process

end Gapk.Libgsmhr
