import PanelLayout.Double.Basic

/-!
# The 64-bit pattern of a double

One sign bit, eleven bits of exponent and 52 bits of fraction. Up to the sign, the patterns of the
finite doubles count them from zero upwards.
-/

namespace PanelLayout

attribute [local instance (high)] instPowNat

/-- Position of a magnitude in the list of all of them, zero first. -/
def Magnitude.rank (m : Magnitude) : Nat :=
  let k := droppedBits m.quanta
  k * 2 ^ (52 : Nat) + m.quanta / 2 ^ k

/-- Bit pattern, most significant bit the sign. The pattern of what is not a number is the quiet
one. -/
def Double.toBits : Double → Nat
  | .nan => 0x7ff8000000000000
  | .infinite s => (if s then 2 ^ (63 : Nat) else 0) + 0x7ff0000000000000
  | .finite s m => (if s then 2 ^ (63 : Nat) else 0) + m.rank

/-- The pattern as sixteen lower case hexadecimal digits, most significant first. -/
def Double.hex (x : Double) : String :=
  let digits := Nat.toDigits 16 x.toBits
  String.ofList (List.replicate (16 - digits.length) '0' ++ digits)

end PanelLayout
