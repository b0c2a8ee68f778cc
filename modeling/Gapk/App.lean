import Gapk.Codecs
import Gapk.QueueLedger

/-!
# The application

From the parsed options to the exit value: checking the options, opening the
streams, the file headers, the processing chain and the main loop. The results
of system calls are arguments. Loops without a bound take the number of steps
they may make and yield nothing when it is used up.
-/

namespace Gapk.App

open CheckedMemory FixedWidth HostWords
open Gapk.Formats Gapk.Procqueue Gapk.Streams Gapk.QueueOps Gapk.QueueLedger Gapk.Codecs

set_option autoImplicit false

/-- `struct gapk_options`; port zero is no RTP stream. -/
structure GapkOptions where
  fnameIn : Option String
  rtpInPort : Nat
  alsaIn : Option String
  fmtIn : Option FormatDesc
  fnameOut : Option String
  rtpOutPort : Nat
  alsaOut : Option String
  fmtOut : Option FormatDesc
  rtpPtIn : Nat
  rtpPtOut : Nat
  throttle : Bool

/-- `gs->in` or `gs->out`: whether there is a file, and the socket. -/
structure Stream where
  fh : Bool
  fd : Int
  deriving DecidableEq, Repr

/-- What the calls that open the streams return: `errno` or zero, a descriptor
or a negative value. -/
structure OpenResults where
  fopenIn : Int
  sockIn : Int
  fopenOut : Int
  sockOut : Int
  deriving DecidableEq, Repr

section Options

variable {Lib : Type} (registry : Registry Lib) (opts : GapkOptions)

def checkCodec (type : CodecType) (callback : CodecDesc Lib → Bool) : Int :=
  match registry.codecGetFromType type with
  | none => -einval
  | some codec => if codec.type ≠ .pcm ∧ !callback codec then -enotsup else 0

def checkTranscoding (fmtIn fmtOut : FormatDesc) : Int :=
  if fmtIn.codecType ≠ fmtOut.codecType then
    let rv := checkCodec registry fmtIn.codecType (fun codec => codec.codecDecode.isSome)
    if rv ≠ 0 then rv
    else checkCodec registry fmtOut.codecType (fun codec => codec.codecEncode.isSome)
  else 0

def checkStreams : Int :=
  let srcCount := opts.fnameIn.isSome.toNat + (decide (opts.rtpInPort ≠ 0)).toNat +
    opts.alsaIn.isSome.toNat
  let sinkCount := opts.fnameOut.isSome.toNat + (decide (opts.rtpOutPort ≠ 0)).toNat +
    opts.alsaOut.isSome.toNat
  if srcCount > 1 ∨ sinkCount > 1 then -einval else 0

def checkOptions : Int :=
  match opts.fmtIn, opts.fmtOut with
  | some fmtIn, some fmtOut =>
      let rv := checkTranscoding registry fmtIn fmtOut
      if rv ≠ 0 then rv else checkStreams opts
  | _, _ => -einval

end Options

section Files

variable (results : OpenResults) (opts : GapkOptions)

def openInput : Int × Stream :=
  if opts.fnameIn.isSome then
    if results.fopenIn ≠ 0 then (-results.fopenIn, ⟨false, -1⟩) else (0, ⟨true, -1⟩)
  else if opts.rtpInPort ≠ 0 then
    if results.sockIn < 0 then (results.sockIn, ⟨false, results.sockIn⟩)
    else (0, ⟨false, results.sockIn⟩)
  else if opts.alsaIn.isSome then (0, ⟨false, -1⟩)
  else (0, ⟨true, -1⟩)

def openOutput : Int × Stream :=
  if opts.fnameOut.isSome then
    if results.fopenOut ≠ 0 then (-results.fopenOut, ⟨false, -1⟩) else (0, ⟨true, -1⟩)
  else if opts.rtpOutPort ≠ 0 then
    if results.sockOut < 0 then (results.sockOut, ⟨false, results.sockOut⟩)
    else (0, ⟨false, results.sockOut⟩)
  else if opts.alsaOut.isSome then (0, ⟨false, -1⟩)
  else (0, ⟨true, -1⟩)

/-- `files_open`: the return value and both streams. -/
def filesOpen : Int × Stream × Stream :=
  let (rv, input) := openInput results opts
  if rv ≠ 0 then (rv, input, ⟨false, -1⟩)
  else
    let (rv, output) := openOutput results opts
    (rv, input, output)

/-- The input header is removed and checked. -/
def readHeader (fmtIn : FormatDesc) (input : Stream) (allocated : Bool) (world : World) :
    Exec (Int × World) := do
  if fmtIn.headerLen = 0 ∨ !input.fh then return (0, world)
  if !allocated then return (-enomem, world)
  let (count, data, world) := world.fread fmtIn.headerLen
  if count ≠ 1 then return (-einval, world)
  let same ← memEqual data fmtIn.header fmtIn.headerLen
  pure (if same then 0 else -einval, world)

def writeHeader (fmtOut : FormatDesc) (output : Stream) (world : World) : Exec (Int × World) := do
  if fmtOut.headerLen = 0 ∨ !output.fh then return (0, world)
  let data ← readBytes fmtOut.header fmtOut.headerLen
  let (count, world) := world.fwrite data
  pure (if count ≠ 1 then -enospc else 0, world)

def handleHeaders (fmtIn fmtOut : FormatDesc) (input output : Stream) (allocated : Bool)
    (world : World) : Exec (Int × World) := do
  let (rv, world) ← readHeader fmtIn input allocated world
  if rv ≠ 0 then return (rv, world)
  writeHeader fmtOut output world

end Files

/-- What the application knows of its host and build: the byte order, the tables
of codecs and formats, and whether there is sound support. -/
structure Platform (Lib : Type) where
  host : Endian
  registry : Registry Lib
  haveAlsa : Bool

def platformOf {Lib : Type} (build : Build Lib) : Platform Lib :=
  ⟨build.host, build.registry, build.config.haveAlsa⟩

/-- A queue under construction. The calls made so far and what they returned are
kept besides, since the source drops the return values. -/
structure Chain (Lib : Type) where
  pq : Queue Lib
  ledger : Ledger
  calls : List (QueueCall Lib × Int)

section Construction

variable {Lib : Type} (platform : Platform Lib) (outcomes : Nat → CallOutcome)

/-- One call whose return value is ignored. -/
def enqueue (call : QueueCall Lib) (chain : Chain Lib) : Exec (Chain Lib) := do
  let (rv, pq, ledger) ← queueCall platform.host platform.registry call (outcomes chain.calls.length)
    chain.pq chain.ledger
  pure ⟨pq, ledger, chain.calls ++ [(call, rv)]⟩

variable (opts : GapkOptions) (input output : Stream) (fmtIn fmtOut : FormatDesc)

def needDec : Bool := decide (fmtIn.codecType ≠ .pcm ∧ fmtIn.codecType ≠ fmtOut.codecType)

def needEnc : Bool := decide (fmtOut.codecType ≠ .pcm ∧ fmtOut.codecType ≠ fmtIn.codecType)

def queueInput (chain : Chain Lib) : Exec (Int × Chain Lib) :=
  if input.fh then do
    pure (0, ← enqueue platform outcomes (.fileInput fmtIn.frameLen) chain)
  else if input.fd ≠ -1 then do
    pure (0, ← enqueue platform outcomes (.rtpInput fmtIn.frameLen opts.rtpPtIn) chain)
  else if platform.haveAlsa ∧ opts.alsaIn.isSome then do
    pure (0, ← enqueue platform outcomes (.alsaInput fmtIn.frameLen) chain)
  else pure (-1, chain)

def queueDecoding (codecIn : Option (CodecDesc Lib)) (chain : Chain Lib) :
    Exec (Int × Chain Lib) :=
  if needDec fmtIn fmtOut then do
    let codec ← deref codecIn
    if fmtIn.type ≠ codec.codecDecFormatType then
      match platform.registry.fmtGetFromType codec.codecDecFormatType with
      | none => pure (-einval, chain)
      | some fmtDec => do
          let chain ← enqueue platform outcomes (.fmtConvert fmtIn false) chain
          let chain ← enqueue platform outcomes (.fmtConvert fmtDec true) chain
          pure (0, ← enqueue platform outcomes (.codec codec false) chain)
    else
      pure (0, ← enqueue platform outcomes (.codec codec false) chain)
  else if fmtIn.type ≠ fmtOut.type then do
    pure (0, ← enqueue platform outcomes (.fmtConvert fmtIn false) chain)
  else
    pure (0, chain)

def queueEncoding (codecOut : Option (CodecDesc Lib)) (chain : Chain Lib) :
    Exec (Int × Chain Lib) :=
  if needEnc fmtIn fmtOut then do
    let codec ← deref codecOut
    let chain ← enqueue platform outcomes (.codec codec true) chain
    if fmtOut.type ≠ codec.codecEncFormatType then
      match platform.registry.fmtGetFromType codec.codecEncFormatType with
      | none => pure (-einval, chain)
      | some fmtEnc => do
          let chain ← enqueue platform outcomes (.fmtConvert fmtEnc false) chain
          pure (0, ← enqueue platform outcomes (.fmtConvert fmtOut true) chain)
    else
      pure (0, chain)
  else if fmtIn.type ≠ fmtOut.type then do
    pure (0, ← enqueue platform outcomes (.fmtConvert fmtOut true) chain)
  else
    pure (0, chain)

def queueOutput (chain : Chain Lib) : Exec (Int × Chain Lib) :=
  if output.fh then do
    pure (0, ← enqueue platform outcomes (.fileOutput fmtOut.frameLen) chain)
  else if output.fd ≠ -1 then do
    pure (0, ← enqueue platform outcomes (.rtpOutput fmtOut.frameLen opts.rtpPtOut) chain)
  else if platform.haveAlsa ∧ opts.alsaOut.isSome then do
    pure (0, ← enqueue platform outcomes (.alsaOutput fmtOut.frameLen) chain)
  else pure (-1, chain)

def makeProcessingChain (chain : Chain Lib) : Exec (Int × Chain Lib) := do
  let codecIn := platform.registry.codecGetFromType fmtIn.codecType
  let codecOut := platform.registry.codecGetFromType fmtOut.codecType
  let (rc, chain) ← queueInput platform outcomes opts input fmtIn chain
  if rc ≠ 0 then return (rc, chain)
  let (rc, chain) ← queueDecoding platform outcomes fmtIn fmtOut codecIn chain
  if rc ≠ 0 then return (rc, chain)
  let (rc, chain) ← queueEncoding platform outcomes fmtIn fmtOut codecOut chain
  if rc ≠ 0 then return (rc, chain)
  let (rc, chain) ← queueOutput platform outcomes opts output fmtOut chain
  if rc ≠ 0 then return (rc, chain)
  pure (← osmoGapkPqCheck chain.pq true, chain)

end Construction

end Gapk.App
