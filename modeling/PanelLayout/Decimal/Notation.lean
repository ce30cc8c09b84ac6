import PanelLayout.Decimal.Shortest

/-!
# Written doubles

Three ways to write a double: the shortest text that reads back, a fixed number of places, and a
fixed number of significant digits.
-/

namespace PanelLayout

attribute [local instance (high)] instPowNat

namespace Decimal

/-- Decimal digits of a whole number. -/
def digitsText (n : Nat) : List Char := Nat.toDigits 10 n

/-- `n` in at least `size` digits. -/
def padded (size n : Nat) : List Char :=
  List.replicate (size - (digitsText n).length) '0' ++ digitsText n

/-- The digits with the point behind the first `point` of them, zeros filled in where none stand. -/
def positional (digits : List Char) (point : Int) : List Char × List Char :=
  if point ≤ 0 then (['0'], List.replicate (-point).toNat '0' ++ digits)
  else
    let n := point.toNat
    (digits.take n ++ List.replicate (n - digits.length) '0', digits.drop n)

/-- One digit before the point, then the power of ten with its sign and at least two digits. -/
def scientific (digits : List Char) (point : Int) : List Char :=
  let power := point - 1
  let fraction := digits.drop 1
  digits.take 1 ++ (if fraction.isEmpty then [] else '.' :: fraction) ++
    ['e', if power < 0 then '-' else '+'] ++ padded 2 power.natAbs

end Decimal

namespace Double

def signed (negative : Bool) (text : List Char) : String :=
  String.ofList (if negative then '-' :: text else text)

/-- The shortest text that reads back. Numbers from `10⁻⁴` up to but not including `10¹⁶` are
written positionally, with at least one digit behind the point. -/
def text : Double → String
  | .nan => "nan"
  | .infinite s => if s then "-inf" else "inf"
  | .finite s m =>
    if m.quanta = 0 then signed s ['0', '.', '0']
    else
      let d := m.shortest
      let digits := Decimal.digitsText d.digits
      let point := (digits.length : Int) + d.exponent
      if -4 < point ∧ point ≤ 16 then
        let (whole, fraction) := Decimal.positional digits point
        signed s (whole ++ '.' :: (if fraction.isEmpty then ['0'] else fraction))
      else signed s (Decimal.scientific digits point)

/-- The double rounded to a fixed number of places, a tie to the even digit. -/
def fixedText (places : Nat) : Double → String
  | .nan => "nan"
  | .infinite s => if s then "-inf" else "inf"
  | .finite s m =>
    let n := divHalfEven (m.quanta * 10 ^ places) quantaPerOne
    let fraction := Decimal.padded places (n % 10 ^ places)
    signed s (Decimal.digitsText (n / 10 ^ places) ++ (if places = 0 then [] else '.' :: fraction))

/-- The double rounded to `size` significant digits, without trailing zeros. Powers of ten from `-4`
up to but not including `size` are written positionally. -/
def significantText (size : Nat) : Double → String
  | .nan => "nan"
  | .infinite s => if s then "-inf" else "inf"
  | .finite s m =>
    if m.quanta = 0 then signed s ['0']
    else
      let exponent := m.decimalPoint - size
      let (num, den) := m.scaled exponent
      let d := Decimal.strip (size + 1) ⟨divHalfEven num den, exponent⟩
      let digits := Decimal.digitsText d.digits
      let point := (digits.length : Int) + d.exponent
      if -4 < point ∧ point ≤ size then
        let (whole, fraction) := Decimal.positional digits point
        signed s (whole ++ (if fraction.isEmpty then [] else '.' :: fraction))
      else signed s (Decimal.scientific digits point)

end Double

end PanelLayout
