import Mathlib.Order.Basic

/-!
# Formats around one canonical form

A family of formats that are all translated to and from one canonical form. When
each format gives back every valid canonical value that was written in it, a
detour through any other format of the family changes nothing.
-/

namespace HubConversion

set_option autoImplicit false

structure Family (Format Frame Canon : Type) where
  valid : Canon → Prop
  accepts : Format → Frame → Prop
  fromCanon : Format → Canon → Frame
  toCanon : Format → Frame → Canon
  accepts_fromCanon : ∀ format canon, valid canon → accepts format (fromCanon format canon)
  valid_toCanon : ∀ format frame, accepts format frame → valid (toCanon format frame)
  toCanon_fromCanon : ∀ format canon, valid canon →
    toCanon format (fromCanon format canon) = canon

namespace Family

variable {Format Frame Canon : Type} (family : Family Format Frame Canon)

def convert (source target : Format) (frame : Frame) : Frame :=
  family.fromCanon target (family.toCanon source frame)

theorem accepts_convert (source target : Format) {frame : Frame}
    (accepted : family.accepts source frame) :
    family.accepts target (family.convert source target frame) :=
  family.accepts_fromCanon target _ (family.valid_toCanon source frame accepted)

theorem convert_convert (source via target : Format) {frame : Frame}
    (accepted : family.accepts source frame) :
    family.convert via target (family.convert source via frame) =
      family.convert source target frame := by
  unfold convert
  rw [family.toCanon_fromCanon via _ (family.valid_toCanon source frame accepted)]

end Family

end HubConversion
