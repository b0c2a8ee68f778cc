import Gapk.BitOrders
import Gapk.FmtAmr
import Gapk.FmtGsm
import Gapk.FmtHrRef
import Gapk.FmtRacal
import Gapk.FmtRawpcm
import Gapk.FmtRtp
import Gapk.FmtTi
import Gapk.QueueOps

/-!
# Codecs and the format table

The codec call-backs around the codec libraries, the codec descriptors, and the
tables of codecs and formats. A library is a set of functions that are not part
of this program; which libraries there are is decided when it is configured.
-/

namespace Gapk.Codecs

open CheckedMemory FixedWidth HostWords
open Gapk.BitOrders Gapk.Formats Gapk.Procqueue Gapk.Streams Gapk.QueueOps

set_option autoImplicit false

/-- What `config.h` defines. -/
structure Config where
  haveLibgsm : Bool
  haveLibgsmhr : Bool
  haveOpencoreAmrnb : Bool
  haveAlsa : Bool
  deriving DecidableEq, Repr

/-- A library function: from its state, the input and what the output area holds
to the state, the return value and the new content of the area. -/
abbrev LibCall (Lib : Type) := Lib → Buf → Buf → Lib × Int × Buf

/-- The function only writes to its output area. -/
def KeepsArea {Lib : Type} (call : LibCall Lib) : Prop :=
  ∀ lib input area, (call lib input area).2.2.length = area.length

/-- The longest AMR frame with its header octet, the one of mode `MR122`. -/
abbrev amrFrameLen : Nat := 32

structure CodecLibs (Lib : Type) where
  gsmCreate : Lib
  gsmEncode : LibCall Lib
  gsmDecode : LibCall Lib
  gsmhrInit : Lib
  gsmhrEncode : LibCall Lib
  gsmhrDecode : LibCall Lib
  /-- The encoder and the decoder of OpenCORE AMR. -/
  interfaceInit : Lib
  encoderInterfaceEncode : LibCall Lib
  decoderInterfaceDecode : LibCall Lib
  osmoEcuFrReset : EcuFrState → Buf → EcuFrState
  osmoEcuFrConceal : EcuFrState → Buf → EcuFrState × Int × Buf
  gsmEncodeArea : KeepsArea gsmEncode
  gsmDecodeArea : KeepsArea gsmDecode
  gsmhrEncodeArea : KeepsArea gsmhrEncode
  gsmhrDecodeArea : KeepsArea gsmhrDecode
  encoderArea : KeepsArea encoderInterfaceEncode
  decoderArea : KeepsArea decoderInterfaceDecode
  /-- The encoder returns the number of bytes that it wrote. -/
  encodedLen : ∀ lib input area, (encoderInterfaceEncode lib input area).2.1 ≤ amrFrameLen
  concealArea : ∀ state area, (osmoEcuFrConceal state area).2.2.length = area.length

/-- Libraries that succeed and leave their output areas as they are. -/
def idleLibs : CodecLibs Unit where
  gsmCreate := ()
  gsmEncode := fun _ _ area => ((), 0, area)
  gsmDecode := fun _ _ area => ((), 0, area)
  gsmhrInit := ()
  gsmhrEncode := fun _ _ area => ((), 0, area)
  gsmhrDecode := fun _ _ area => ((), 0, area)
  interfaceInit := ()
  encoderInterfaceEncode := fun _ _ area => ((), 32, area)
  decoderInterfaceDecode := fun _ _ area => ((), 0, area)
  osmoEcuFrReset := fun _ frame => ⟨false, frame⟩
  osmoEcuFrConceal := fun state area => (state, 0, area)
  gsmEncodeArea := fun _ _ _ => rfl
  gsmDecodeArea := fun _ _ _ => rfl
  gsmhrEncodeArea := fun _ _ _ => rfl
  gsmhrDecodeArea := fun _ _ _ => rfl
  encoderArea := fun _ _ _ => rfl
  decoderArea := fun _ _ _ => rfl
  encodedLen := fun _ _ _ => Int.le_refl 32
  concealArea := fun _ _ => rfl

section Callbacks

variable {Lib : Type} (libs : CodecLibs Lib)

/-- Calls a library function on the first bytes of both buffers. `returned` is
what the call-back makes of the function's value. -/
def libCall (call : LibCall Lib) (inLen outLen : Nat) (returned : Int → Int) :
    ProcCb (StateContent Lib) World := fun state out src _ world => do
  let lib ← codecState state
  let dst ← deref out
  let input ← deref src
  let data ← readBytes input inLen
  let area ← readBytes dst outLen
  let (lib, rc, area) := call lib data area
  let dst ← memcpy dst 0 area 0 outLen
  pure { rv := returned rc, state := withContent state (.codec lib), out := some dst, world := world }

/-- `if (rc < 0) return rc; return len;` -/
def lenUnlessFailed (len : Nat) (rc : Int) : Int := if rc < 0 then rc else len

def codecFrEncode : ProcCb (StateContent Lib) World := fun state out src srcLen world => do
  require (srcLen = pcmCanonLen)
  libCall libs.gsmEncode pcmCanonLen frCanonLen (fun _ => frCanonLen) state out src srcLen world

def codecFrDecode : ProcCb (StateContent Lib) World := fun state out src srcLen world => do
  require (srcLen = frCanonLen)
  libCall libs.gsmDecode frCanonLen pcmCanonLen (lenUnlessFailed pcmCanonLen) state out src srcLen
    world

def codecHrEncode : ProcCb (StateContent Lib) World := fun state out src srcLen world => do
  require (srcLen = pcmCanonLen)
  libCall libs.gsmhrEncode pcmCanonLen hrRefEncLen (lenUnlessFailed hrRefEncLen) state out src srcLen
    world

def codecHrDecode : ProcCb (StateContent Lib) World := fun state out src srcLen world => do
  require (srcLen = hrRefDecLen)
  libCall libs.gsmhrDecode hrRefDecLen pcmCanonLen (lenUnlessFailed pcmCanonLen) state out src srcLen
    world

def codecEfrEncode : ProcCb (StateContent Lib) World := fun state out src srcLen world => do
  require (srcLen = pcmCanonLen)
  libCall libs.encoderInterfaceEncode pcmCanonLen amrFrameLen (fun rv => if rv ≠ 32 then -1 else 32)
    state out src srcLen world

def codecEfrDecode : ProcCb (StateContent Lib) World := fun state out src srcLen world => do
  require (srcLen = 32)
  libCall libs.decoderInterfaceDecode amrFrameLen pcmCanonLen (fun _ => pcmCanonLen) state out src
    srcLen world

-- Neither AMR call-back looks at the length of its input.
def codecAmrEncode : ProcCb (StateContent Lib) World := fun state out src srcLen world =>
  libCall libs.encoderInterfaceEncode pcmCanonLen amrFrameLen id state out src srcLen world

def codecAmrDecode : ProcCb (StateContent Lib) World := fun state out src srcLen world =>
  libCall libs.decoderInterfaceDecode amrFrameLen pcmCanonLen (fun _ => pcmCanonLen) state out src
    srcLen world

def ecuProcFr : ProcCb (StateContent Lib) World := fun state out src srcLen world => do
  let ecu ← ecuState state
  let dst ← deref out
  let input ← deref src
  require (srcLen = frCanonLen)
  let frame ← readBytes input srcLen
  let bfi := (frame.drop 1).all (· = 0)
  if !bfi then
    let dst ← memcpy dst 0 frame 0 srcLen
    return { rv := srcLen, state := withContent state (.ecu (libs.osmoEcuFrReset ecu frame)),
             out := some dst, world := world }
  let backup := ecu.frameBackup.any (· ≠ 0)
  if !backup then
    let dst ← memcpy dst 0 frame 0 srcLen
    return { rv := srcLen, state := state, out := some dst, world := world }
  let area ← readBytes dst frCanonLen
  let (ecu, rc, area) := libs.osmoEcuFrConceal ecu area
  let dst ← memcpy dst 0 area 0 frCanonLen
  pure { rv := if rc ≠ 0 then rc else srcLen, state := withContent state (.ecu ecu),
         out := some dst, world := world }

end Callbacks

section Descriptors

variable {Lib : Type} (config : Config) (libs : CodecLibs Lib)

def bareDesc (type : CodecType) (name : String) (canonFrameLen : Nat) : CodecDesc Lib where
  type := type
  name := name
  canonFrameLen := canonFrameLen
  codecEncFormatType := .invalid
  codecDecFormatType := .invalid
  codecInit := none
  codecExit := false
  codecEncode := none
  codecDecode := none
  ecuProc := none

def codecPcmDesc : CodecDesc Lib := bareDesc .pcm "pcm" pcmCanonLen

def codecFrDesc : CodecDesc Lib :=
  let bare : CodecDesc Lib := bareDesc .fr "fr" frCanonLen
  let desc := { bare with ecuProc := some (ecuProcFr libs) }
  if config.haveLibgsm then
    { desc with
      codecEncFormatType := .gsm
      codecDecFormatType := .gsm
      codecInit := some libs.gsmCreate
      codecExit := true
      codecEncode := some (codecFrEncode libs)
      codecDecode := some (codecFrDecode libs) }
  else desc

def codecHrDesc : CodecDesc Lib :=
  let desc := bareDesc .hr "hr" hrCanonLen
  if config.haveLibgsmhr then
    { desc with
      codecEncFormatType := .hrRefEnc
      codecDecFormatType := .hrRefDec
      codecInit := some libs.gsmhrInit
      codecExit := true
      codecEncode := some (codecHrEncode libs)
      codecDecode := some (codecHrDecode libs) }
  else desc

def codecEfrDesc : CodecDesc Lib :=
  let desc := bareDesc .efr "efr" efrCanonLen
  if config.haveOpencoreAmrnb then
    { desc with
      codecEncFormatType := .amrEfr
      codecDecFormatType := .amrEfr
      codecInit := some libs.interfaceInit
      codecExit := true
      codecEncode := some (codecEfrEncode libs)
      codecDecode := some (codecEfrDecode libs) }
  else desc

def codecAmrDesc : CodecDesc Lib :=
  let desc := bareDesc .amr "amr" 0
  if config.haveOpencoreAmrnb then
    { desc with
      codecEncFormatType := .amrOpencore
      codecDecFormatType := .amrOpencore
      codecInit := some libs.interfaceInit
      codecExit := true
      codecEncode := some (codecAmrEncode libs)
      codecDecode := some (codecAmrDecode libs) }
  else desc

def codecTable : CodecType → Option (CodecDesc Lib)
  | .pcm => some codecPcmDesc
  | .hr => some (codecHrDesc config libs)
  | .fr => some (codecFrDesc config libs)
  | .efr => some (codecEfrDesc config libs)
  | .amr => some (codecAmrDesc config libs)
  | .invalid => none

end Descriptors

section Formats

open Gapk.FmtAmr Gapk.FmtGsm Gapk.FmtHrRef Gapk.FmtRacal Gapk.FmtRawpcm Gapk.FmtRtp Gapk.FmtTi

/-- The length of canonical frames, zero for a variable length. -/
def canonFrameLen : CodecType → Nat
  | .pcm => pcmCanonLen
  | .hr => hrCanonLen
  | .fr => frCanonLen
  | .efr => efrCanonLen
  | .amr | .invalid => 0

def formatTable (host : Endian) (tables : Tables) : FormatType → Option FormatDesc
  | .invalid => none
  | .amrEfr => some (fmtAmrEfr tables.gsm690_12_2)
  | .gsm => some fmtGsm
  | .hrRefDec => some (fmtHrRefDec host)
  | .hrRefEnc => some (fmtHrRefEnc host)
  | .racalHr => some (fmtRacalHr tables.gsm620Voiced tables.gsm620Unvoiced)
  | .racalFr => some (fmtRacalFr tables.gsm610)
  | .racalEfr => some fmtRacalEfr
  | .rawpcmS16le => some (fmtRawpcmS16le host)
  | .tiHr => some (fmtTiHr tables.gsm620Voiced tables.gsm620Unvoiced)
  | .tiFr => some (fmtTiFr tables.gsm610)
  | .tiEfr => some (fmtTiEfr tables.gsm660)
  | .amrOpencore => some fmtAmrOpencore
  | .rtpAmr => some fmtRtpAmr
  | .rtpEfr => some fmtRtpEfr
  | .rtpHrEtsi => some fmtRtpHrEtsi
  | .rtpHrIetf => some fmtRtpHrIetf

end Formats

/-- Everything that differs between builds and hosts. -/
structure Build (Lib : Type) where
  host : Endian
  config : Config
  libs : CodecLibs Lib
  tables : Tables

namespace Build

/-- A little-endian host with all libraries and no sound. -/
def idle : Build Unit where
  host := .little
  config := ⟨true, true, true, false⟩
  libs := idleLibs
  tables := .identity

variable {Lib : Type} (build : Build Lib)

def registry : Registry Lib where
  codecs := codecTable build.config build.libs
  supportedFormats := formatTable build.host build.tables

theorem gsm_registered :
    idle.registry.fmtGetFromType FmtGsm.fmtGsm.type = some FmtGsm.fmtGsm := rfl

theorem rawpcm_registered :
    idle.registry.fmtGetFromType (FmtRawpcm.fmtRawpcmS16le .little).type =
      some (FmtRawpcm.fmtRawpcmS16le .little) := rfl

theorem codec_get_eq (type : CodecType) :
    build.registry.codecGetFromType type = codecTable build.config build.libs type := by
  cases type <;> rfl

theorem fmt_get_eq (type : FormatType) :
    build.registry.fmtGetFromType type = formatTable build.host build.tables type := by
  cases type <;> rfl

theorem codec_table_facts {type : CodecType} {codec : CodecDesc Lib}
    (found : codecTable build.config build.libs type = some codec) :
    codec.type = type ∧
      (codec.codecDecFormatType ≠ .invalid → ∃ fmt,
        formatTable build.host build.tables codec.codecDecFormatType = some fmt ∧
          fmt.codecType = type) ∧
      (codec.codecEncFormatType ≠ .invalid → ∃ fmt,
        formatTable build.host build.tables codec.codecEncFormatType = some fmt ∧
          fmt.codecType = type) := by
  cases type with
  | invalid => cases found
  | pcm =>
      cases found
      exact ⟨rfl, fun present => absurd rfl present, fun present => absurd rfl present⟩
  | hr =>
      cases found
      unfold codecHrDesc
      split_ifs
      · exact ⟨rfl, fun _ => ⟨_, rfl, rfl⟩, fun _ => ⟨_, rfl, rfl⟩⟩
      · exact ⟨rfl, fun present => absurd rfl present, fun present => absurd rfl present⟩
  | fr =>
      cases found
      unfold codecFrDesc
      split_ifs
      · exact ⟨rfl, fun _ => ⟨_, rfl, rfl⟩, fun _ => ⟨_, rfl, rfl⟩⟩
      · exact ⟨rfl, fun present => absurd rfl present, fun present => absurd rfl present⟩
  | efr =>
      cases found
      unfold codecEfrDesc
      split_ifs
      · exact ⟨rfl, fun _ => ⟨_, rfl, rfl⟩, fun _ => ⟨_, rfl, rfl⟩⟩
      · exact ⟨rfl, fun present => absurd rfl present, fun present => absurd rfl present⟩
  | amr =>
      cases found
      unfold codecAmrDesc
      split_ifs
      · exact ⟨rfl, fun _ => ⟨_, rfl, rfl⟩, fun _ => ⟨_, rfl, rfl⟩⟩
      · exact ⟨rfl, fun present => absurd rfl present, fun present => absurd rfl present⟩

/-- A library changes what a codec can do, not the length of its frames. -/
theorem codec_table_canon_len {type : CodecType} {codec : CodecDesc Lib}
    (found : codecTable build.config build.libs type = some codec) :
    codec.canonFrameLen = canonFrameLen type := by
  cases type with
  | invalid => cases found
  | pcm =>
      cases found
      rfl
  | hr =>
      cases found
      unfold codecHrDesc
      split_ifs <;> rfl
  | fr =>
      cases found
      unfold codecFrDesc
      split_ifs <;> rfl
  | efr =>
      cases found
      unfold codecEfrDesc
      split_ifs <;> rfl
  | amr =>
      cases found
      unfold codecAmrDesc
      split_ifs <;> rfl

theorem codec_table_formats {type : CodecType} {codec : CodecDesc Lib}
    (found : codecTable build.config build.libs type = some codec) :
    (codec.codecDecode.isSome → codec.codecDecFormatType ≠ .invalid) ∧
      (codec.codecEncode.isSome → codec.codecEncFormatType ≠ .invalid) := by
  cases type with
  | invalid => cases found
  | pcm =>
      cases found
      exact ⟨nofun, nofun⟩
  | hr =>
      cases found
      unfold codecHrDesc
      split_ifs
      · exact ⟨fun _ => nofun, fun _ => nofun⟩
      · exact ⟨nofun, nofun⟩
  | fr =>
      cases found
      unfold codecFrDesc
      split_ifs
      · exact ⟨fun _ => nofun, fun _ => nofun⟩
      · exact ⟨nofun, nofun⟩
  | efr =>
      cases found
      unfold codecEfrDesc
      split_ifs
      · exact ⟨fun _ => nofun, fun _ => nofun⟩
      · exact ⟨nofun, nofun⟩
  | amr =>
      cases found
      unfold codecAmrDesc
      split_ifs
      · exact ⟨fun _ => nofun, fun _ => nofun⟩
      · exact ⟨nofun, nofun⟩

theorem format_table_facts {type : FormatType} {fmt : FormatDesc}
    (found : formatTable build.host build.tables type = some fmt) :
    fmt.type = type ∧ (codecTable build.config build.libs fmt.codecType).isSome := by
  cases type <;> cases found <;> exact ⟨rfl, rfl⟩

theorem registry_well_formed : build.registry.WellFormed where
  codecType found := by
    rw [codec_get_eq] at found
    exact (build.codec_table_facts found).1
  formatType found := by
    rw [fmt_get_eq] at found
    exact (build.format_table_facts found).1
  codecKnown found := by
    rw [fmt_get_eq] at found
    rw [codec_get_eq]
    exact (build.format_table_facts found).2
  decoderFormat found present := by
    rw [codec_get_eq] at found
    rw [fmt_get_eq]
    exact (build.codec_table_facts found).2.1 present
  encoderFormat found present := by
    rw [codec_get_eq] at found
    rw [fmt_get_eq]
    exact (build.codec_table_facts found).2.2 present

end Build

end Gapk.Codecs
