import PanelLayout.LayoutError
import PanelLayout.Decimal.Numeral

/-!
# Numbers and items in JSON

Which JSON values can stand for a double, a whole number, a pair or a list.
-/

namespace PanelLayout

namespace Json

/-- The double that a value stands for: a number, a flag, or a text that writes one. -/
def toDouble : Json → Except ConversionError Double
  | .number n => n.toDouble.mapError .number
  | .bool b => (Number.flag b).toDouble.mapError .number
  | .text s =>
    match Double.ofNumeral? s with
    | some x => .ok x
    | none => .error (.notNumeral s)
  | v => .error (.notNumber v.kind)

/-- The whole number that a text writes. -/
def wholeNumeral (s : String) : Except ConversionError Int :=
  match intOfNumeral? s, excessDigits? s with
  | some n, _ => .ok n
  | none, some digits => .error (.tooManyDigits digits)
  | none, none => .error (.notWholeNumeral s)

/-- The whole number that a value stands for; a double is rounded towards zero. -/
def toInt : Json → Except ConversionError Int
  | .number n => n.truncate.mapError .number
  | .bool b => (Number.flag b).truncate.mapError .number
  | .text s => wholeNumeral s
  | v => .error (.notWhole v.kind)

/-- The parts of a value: items, keys or characters. -/
def parts? : Json → Option (List Json)
  | .array items => some items
  | .object members => some (members.map fun m => .text m.1)
  | .text s => some (s.toList.map fun c => .text (String.singleton c))
  | _ => none

/-- The two parts of a value. -/
def toPair (v : Json) : Except ConversionError (Json × Json) :=
  match v.parts? with
  | none => .error (.notPair v.kind)
  | some [a, b] => .ok (a, b)
  | some items => .error (.pairSize items.length)

end Json

end PanelLayout
