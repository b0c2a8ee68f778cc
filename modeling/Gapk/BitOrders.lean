import Gapk.Library.BitLayout

/-!
# Bit orders of libosmocodec

The tables of GSM 05.03 are in libosmocodec and not in this program. What the
converters rely on is that each of them lists its indices once.
-/

namespace Gapk.BitOrders

open BitLayout

set_option autoImplicit false

structure Tables where
  gsm610 : BitOrder 260
  gsm620Voiced : BitOrder 112
  gsm620Unvoiced : BitOrder 112
  gsm660 : BitOrder 260
  gsm690_12_2 : BitOrder 244

/-- Tables that leave every bit in its place. -/
def Tables.identity : Tables where
  gsm610 := .identity 260
  gsm620Voiced := .identity 112
  gsm620Unvoiced := .identity 112
  gsm660 := .identity 260
  gsm690_12_2 := .identity 244

/-- The HR table for a frame with these two voicing bits. -/
def voicingOrder (voicedOrder unvoicedOrder : BitOrder 112) (high low : Bool) : BitOrder 112 :=
  if (high || low) = true then voicedOrder else unvoicedOrder

/-- The two voicing bits decide on the table as soon as one of them is set. -/
theorem voicing_ne_zero (high low : Bool) :
    (high.toNat <<< 1) ||| low.toNat ≠ 0 ↔ (high || low) = true := by
  cases high <;> cases low <;> decide

/-- Both tables put the voicing bits, canonical bits 34 and 35, at the places
93 and 94 of the coded frame, in either order. -/
def PlacesVoicing (order : BitOrder 112) : Prop :=
  (order.entry 93 = 34 ∧ order.entry 94 = 35) ∨ (order.entry 93 = 35 ∧ order.entry 94 = 34)

/-- The HR tables, with what the converters need to find the voicing bits again. -/
structure HrOrders where
  voiced : BitOrder 112
  unvoiced : BitOrder 112
  voicedPlaces : PlacesVoicing voiced
  unvoicedPlaces : PlacesVoicing unvoiced

namespace HrOrders

/-- An example of such tables: they exchange the voicing bits with the bits at
their places. -/
def exchanging : HrOrders :=
  let order : BitOrder 112 := BitOrder.ofInjective
    (fun index =>
      if index = 34 then 93 else if index = 93 then 34
      else if index = 35 then 94 else if index = 94 then 35 else index)
    (by
      intro index bound
      split_ifs <;> omega)
    (by
      intro left _ right _ same
      split_ifs at same <;> omega)
  ⟨order, order, Or.inl ⟨rfl, rfl⟩, Or.inl ⟨rfl, rfl⟩⟩

variable (orders : HrOrders)

def chosen (high low : Bool) : BitOrder 112 := voicingOrder orders.voiced orders.unvoiced high low

theorem chosen_places (high low : Bool) : PlacesVoicing (orders.chosen high low) := by
  unfold chosen voicingOrder
  split_ifs
  · exact orders.voicedPlaces
  · exact orders.unvoicedPlaces

theorem chosen_comm (high low : Bool) : orders.chosen high low = orders.chosen low high := by
  unfold chosen voicingOrder
  rw [Bool.or_comm]

/-- The bits at the two places choose the table that the voicing bits choose. -/
theorem chosen_at_places {order : BitOrder 112} (places : PlacesVoicing order) (bits : Nat → Bool) :
    orders.chosen (bits (order.entry 94)) (bits (order.entry 93)) =
      orders.chosen (bits 34) (bits 35) := by
  rcases places with ⟨first, second⟩ | ⟨first, second⟩
  · rw [first, second, chosen_comm]
  · rw [first, second]

end HrOrders

end Gapk.BitOrders
