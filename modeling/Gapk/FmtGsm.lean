import Gapk.NibbleShift

/-!
# Classic `.gsm` files for FR
-/

namespace Gapk.FmtGsm

open CheckedMemory BitBuffer
open Gapk.Formats Gapk.NibbleShift

set_option autoImplicit false

abbrev gsmLen : Nat := 33

def gsmMagic : Byte := 0xd

def gsmFromCanon : FmtConvCb := fun dst src srcLen => do
  require (srcLen = frCanonLen)
  let dst ← shiftIn gsmMagic gsmLen dst src
  pure (gsmLen, dst)

def gsmToCanon : FmtConvCb := fun dst src srcLen => do
  require (srcLen = gsmLen)
  let dst ← shiftOut gsmLen dst src
  pure (frCanonLen, dst)

def fmtGsm : FormatDesc where
  type := .gsm
  codecType := .fr
  name := "gsm"
  frameLen := gsmLen
  convFromCanon := gsmFromCanon
  convToCanon := gsmToCanon
  headerLen := 0
  header := []

theorem gsm_from_canon_converts {src : Buf} (size : src.length = 33) :
    Converts gsmFromCanon src (shifted gsmMagic src) := by
  intro dst dstSize
  have outSize := shifted_length gsmMagic (by omega : 0 < src.length)
  rw [outSize] at dstSize
  rw [gsmFromCanon, require_true size, exec_bind_ok, gsmLen, ← size,
    shift_in_eq gsmMagic (by omega) dstSize, outSize]
  rfl

theorem gsm_to_canon_converts {src : Buf} (size : src.length = 33) :
    Converts gsmToCanon src (unshifted src) := by
  intro dst dstSize
  rw [unshifted_length] at dstSize
  rw [gsmToCanon, require_true size, exec_bind_ok, gsmLen, ← size,
    shift_out_eq (by omega) dstSize, unshifted_length, size]
  rfl

end Gapk.FmtGsm
