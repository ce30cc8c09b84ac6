import PanelLayout.Double.Basic

/-!
# Decimal fractions

A decimal is a whole number of digits shifted by a power of ten. Reading it as a double rounds its
exact value once.
-/

namespace PanelLayout

attribute [local instance (high)] instPowNat

/-- The number `digits · 10 ^ exponent`. -/
structure Decimal where
  digits : Nat
  exponent : Int
  deriving DecidableEq, Repr

namespace Decimal

/-- Numerator in quanta over `scale`. -/
def quanta (d : Decimal) : Nat := d.digits * 10 ^ d.exponent.toNat * quantaPerOne

/-- Denominator that belongs to `quanta`. -/
def scale (d : Decimal) : Nat := 10 ^ (-d.exponent).toNat

/-- Digits of a whole number in base ten, at least one. -/
def width (n : Nat) : Nat := (Nat.toDigits 10 n).length

/-- The double nearest to a decimal of the given sign. Decimals far outside the range of doubles are
decided by their order of magnitude, so that no huge power of ten is computed. -/
def toDouble (negative : Bool) (d : Decimal) : Double :=
  if d.digits = 0 then .zero negative
  else
    let point := (width d.digits : Int) + d.exponent
    if point > 400 then .infinite negative
    else if point < -400 then .zero negative
    else .ofQuanta negative d.quanta d.scale

/-- Trailing zeros of the digits moved into the exponent. -/
def strip : Nat → Decimal → Decimal
  | 0, d => d
  | n + 1, d =>
    if d.digits ≠ 0 ∧ d.digits % 10 = 0 then strip n ⟨d.digits / 10, d.exponent + 1⟩ else d

end Decimal

/-- The double nearest to `digits · 10 ^ exponent`. -/
def Double.ofDecimal (digits : Nat) (exponent : Int) : Double :=
  Decimal.toDouble false ⟨digits, exponent⟩

end PanelLayout
