import PanelLayout.Decimal.Basic

/-!
# Shortest decimals

The numbers that round to a double form an interval around it. Of the decimals in that interval the
shortest is taken, of several equally short ones the nearest to the double, and on a tie the one
with an even last digit.
-/

namespace PanelLayout

attribute [local instance (high)] instPowNat

namespace Magnitude

/-- Whether a decimal lies among the numbers that round to this magnitude. Both ends of the interval
belong to it exactly if the last binary digit is even; below a power of two it reaches only half as
far. -/
def readsBack (m : Magnitude) (d : Decimal) : Bool :=
  let k := droppedBits m.quanta
  let above := 2 ^ k
  let below := if k ≠ 0 ∧ m.quanta = 2 ^ (52 + k) then 2 ^ (k - 1) else 2 ^ k
  let twice := 2 * d.quanta
  let low := (2 * m.quanta - below) * d.scale
  let high := (2 * m.quanta + above) * d.scale
  if m.quanta / 2 ^ k % 2 = 0 then low ≤ twice && twice ≤ high else low < twice && twice < high

/-- Number of digits before the decimal point; zero or negative if the first digit stands behind
it. -/
def decimalPoint (m : Magnitude) : Int :=
  (Decimal.width (m.quanta * 10 ^ (400 : Nat) / quantaPerOne) : Int) - 400

/-- `m / 10 ^ exponent` as numerator and denominator. -/
def scaled (m : Magnitude) (exponent : Int) : Nat × Nat :=
  (m.quanta * 10 ^ (-exponent).toNat, quantaPerOne * 10 ^ exponent.toNat)

/-- The decimal with the given exponent that reads back and is nearest to the magnitude, if there is
one. -/
def nearestReadingBack (m : Magnitude) (exponent : Int) : Option Decimal :=
  let (num, den) := m.scaled exponent
  let low : Decimal := ⟨num / den, exponent⟩
  let high : Decimal := ⟨num / den + 1, exponent⟩
  match m.readsBack low, m.readsBack high with
  | true, true => some ⟨divHalfEven num den, exponent⟩
  | true, false => some low
  | false, true => some high
  | false, false => none

/-- The shortest decimal of a magnitude that is not zero. Seventeen digits always read back. -/
def shortest (m : Magnitude) : Decimal :=
  let point := m.decimalPoint
  match (List.range 17).findSome? (fun n => m.nearestReadingBack (point - (n + 1 : Nat))) with
  | some d => d.strip 18
  | none => Decimal.strip 1100 ⟨m.quanta * 5 ^ (1074 : Nat), -1074⟩

end Magnitude

end PanelLayout
