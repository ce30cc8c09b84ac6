import PanelLayout.Decimal.Basic
import PanelLayout.Text.Blank
import PanelLayout.Text.Digit

/-!
# Numerals

Numbers as people type them: digits of any script, single underscores between digits, blanks around,
and for doubles also a fraction, a power of ten and the words for infinity and for what is not a
number. The digits of a whole number are bounded in number, those of a double are not.
-/

namespace PanelLayout

/-- A character in ASCII if it is a digit or a blank of another script. -/
def asciiOf (c : Char) : Char :=
  if c.toNat < 128 then c
  else
    match digitValue? c with
    | some d => Nat.digitChar d
    | none => if isBlank c then ' ' else c

/-- The text without its underscores, each of which stands between two digits. -/
def joinDigits (before : Char) : List Char → Option (List Char)
  | [] => some []
  | '_' :: c :: cs =>
    if before.isDigit && c.isDigit then (joinDigits c cs).map (c :: ·) else none
  | ['_'] => none
  | c :: cs => (joinDigits c cs).map (c :: ·)

/-- A numeral in ASCII without blanks around and without underscores. -/
def bareNumeral? (s : String) : Option (List Char) :=
  joinDigits ' ' (trimBlanks isNumeralBlank (s.toList.map asciiOf))

/-- A sign and what follows it. -/
def takeSign : List Char → Bool × List Char
  | '-' :: cs => (true, cs)
  | '+' :: cs => (false, cs)
  | cs => (false, cs)

/-- A whole number of at least one digit. -/
def wholeNumber? (cs : List Char) : Option Int :=
  let (negative, digits) := takeSign cs
  if digits.isEmpty || !digits.all Char.isDigit then none
  else
    let n : Int := digitsValue digits
    some (if negative then -n else n)

/-- Digits with at most one point among them, at least one digit. -/
def fraction? (cs : List Char) : Option Decimal :=
  let whole := cs.takeWhile Char.isDigit
  let places :=
    match cs.dropWhile Char.isDigit with
    | [] => some []
    | '.' :: rest => if rest.all Char.isDigit then some rest else none
    | _ => none
  match places with
  | none => none
  | some places =>
    if whole.isEmpty && places.isEmpty then none
    else some ⟨digitsValue (whole ++ places), -(places.length : Int)⟩

/-- Most digits that a whole number is read from. -/
def digitLimit : Nat := 4300

/-- Whether underscores among digits stand between two of them each. -/
def areSeparators (cs : List Char) : Bool :=
  cs.head? != some '_' && cs.getLast? != some '_' && (cs.zip cs.tail).all fun p =>
    p.1 != '_' || p.2 != '_'

/-- The number of leading digits of a text, if there are too many of them for a whole number. -/
def excessDigits? (s : String) : Option Nat :=
  let (_, body) := takeSign (trimBlanks isNumeralBlank (s.toList.map asciiOf))
  let leading := body.takeWhile fun c => c.isDigit || c == '_'
  let digits := leading.countP Char.isDigit
  if digits > digitLimit && areSeparators leading then some digits else none

/-- What is said about a numeral with too many digits. -/
def tooManyDigitsMessage (digits : Nat) : String :=
  s!"Exceeds the limit ({digitLimit} digits) for integer string conversion: " ++
    s!"value has {digits} digits; use sys.set_int_max_str_digits() to increase the limit"

/-- The whole number that a text writes. -/
def intOfNumeral? (s : String) : Option Int :=
  if (excessDigits? s).isSome then none else (bareNumeral? s).bind wholeNumber?

/-- The double that a text writes. -/
def Double.ofNumeral? (s : String) : Option Double := do
  let cs ← bareNumeral? s
  let (negative, body) := takeSign cs
  let word := String.ofList (body.map Char.toLower)
  if word = "inf" ∨ word = "infinity" then return .infinite negative
  if word = "nan" then return .nan
  let isPower (c : Char) := c == 'e' || c == 'E'
  let decimal ← fraction? (body.takeWhile (!isPower ·))
  match body.dropWhile (!isPower ·) with
  | [] => return decimal.toDouble negative
  | _ :: power => do
    let power ← wholeNumber? power
    return Decimal.toDouble negative ⟨decimal.digits, decimal.exponent + power⟩

end PanelLayout
