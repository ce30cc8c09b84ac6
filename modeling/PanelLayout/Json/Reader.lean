import PanelLayout.Decimal.Numeral
import PanelLayout.Json.Basic

/-!
# Reading JSON

A reader for JSON text. Beside the standard it reads `NaN`, `Infinity` and `-Infinity`. Of several
members with one key the first place and the last value count. A failure tells what was missing and
where. Whole numbers are bounded in their digits, and arrays and objects in their nesting. Texts are
made of characters; an escape for half of a surrogate pair that stands alone is none, and a text
with one is not read.
-/

namespace PanelLayout

namespace Json

/-- What the reader missed. -/
inductive Fault where
  | expectingValue
  | expectingKey
  | expectingColon
  | expectingComma
  | extraData
  | unterminatedText
  | controlCharacter
  | escape
  | unicodeEscape
  | byteOrderMark
  /-- Half of a surrogate pair that stands alone. -/
  | loneSurrogate
  /-- A whole number with too many digits. -/
  | tooManyDigits (digits : Nat)
  | tooDeep
  deriving DecidableEq, Repr

def Fault.message : Fault → String
  | .expectingValue => "Expecting value"
  | .expectingKey => "Expecting property name enclosed in double quotes"
  | .expectingColon => "Expecting ':' delimiter"
  | .expectingComma => "Expecting ',' delimiter"
  | .extraData => "Extra data"
  | .unterminatedText => "Unterminated string starting at"
  | .controlCharacter => "Invalid control character at"
  | .escape => "Invalid \\escape"
  | .unicodeEscape => "Invalid \\uXXXX escape"
  | .byteOrderMark => "Unexpected UTF-8 BOM (decode using utf-8-sig)"
  | .loneSurrogate => "Lone surrogate at"
  | .tooManyDigits digits => tooManyDigitsMessage digits
  | .tooDeep => "maximum recursion depth exceeded"

/-- Whether a fault is told together with its place. -/
def Fault.hasPlace : Fault → Bool
  | .tooManyDigits _ | .tooDeep => false
  | _ => true

/-- A fault and the place of it, as the number of characters from there to the end. -/
structure Failure where
  fault : Fault
  remaining : Nat

private def failAt {α : Type} (fault : Fault) (rest : List Char) : Except Failure α :=
  .error ⟨fault, rest.length⟩

private def skipBlanks : List Char → List Char :=
  List.dropWhile fun c => c == ' ' || c == '\t' || c == '\n' || c == '\r'

/-- The text after a word, if it starts with it. -/
private def dropWord? : List Char → List Char → Option (List Char)
  | [], cs => some cs
  | w :: ws, c :: cs => if w = c then dropWord? ws cs else none
  | _ :: _, [] => none

private def hexValue? (c : Char) : Option Nat :=
  if '0' ≤ c ∧ c ≤ '9' then some (c.toNat - 48)
  else if 'a' ≤ c ∧ c ≤ 'f' then some (c.toNat - 87)
  else if 'A' ≤ c ∧ c ≤ 'F' then some (c.toNat - 55)
  else none

/-- Four hexadecimal digits. -/
private def hexCode? : List Char → Option (Nat × List Char)
  | a :: b :: c :: d :: rest => do
    let value := ((← hexValue? a) * 16 + (← hexValue? b)) * 256 + (← hexValue? c) * 16 +
      (← hexValue? d)
    return (value, rest)
  | _ => none

private def escaped? : Char → Option Char
  | '"' => some '"'
  | '\\' => some '\\'
  | '/' => some '/'
  | 'b' => some '\x08'
  | 'f' => some '\x0c'
  | 'n' => some '\n'
  | 'r' => some '\r'
  | 't' => some '\t'
  | _ => none

private def isHigh (n : Nat) : Bool := 0xd800 ≤ n && n ≤ 0xdbff
private def isLow (n : Nat) : Bool := 0xdc00 ≤ n && n ≤ 0xdfff

/-- The character with a code, if there is one. -/
private def character? (code : Nat) : Option Char :=
  if h : code.isValidChar then some (Char.ofNatAux code h) else none

/-- The character that an escape stands for, from its four hexadecimal digits on. Two escapes can
stand for one. -/
private def readEscape (cs : List Char) : Except Failure (Char × List Char) :=
  let failure := failAt .unicodeEscape ('u' :: cs)
  if cs.length ≤ 4 then failure
  else
    match hexCode? cs with
    | none => failure
    | some (high, rest) =>
      let alone :=
        match character? high with
        | some c => .ok (c, rest)
        | none => failAt .loneSurrogate ('u' :: cs)
      match isHigh high, rest with
      | true, '\\' :: 'u' :: more =>
        if more.length ≤ 4 then alone
        else
          match hexCode? more with
          | none => failAt .unicodeEscape ('u' :: more)
          | some (low, rest) =>
            match isLow low, character? (0x10000 + (high - 0xd800) * 0x400 + (low - 0xdc00)) with
            | true, some c => .ok (c, rest)
            | _, _ => alone
      | _, _ => alone

/-- Text up to the closing quote; `opening` counts the characters from the opening quote to the
end. -/
private def readText (opening : Nat) :
    Nat → List Char → List Char → Except Failure (String × List Char)
  | 0, _, _ => .error ⟨.unterminatedText, opening⟩
  | fuel + 1, done, cs =>
    match cs with
    | [] => .error ⟨.unterminatedText, opening⟩
    | '"' :: rest => .ok (String.ofList done.reverse, rest)
    | ['\\'] => .error ⟨.unterminatedText, opening⟩
    | '\\' :: 'u' :: rest => do
      let (c, rest) ← readEscape rest
      readText opening fuel (c :: done) rest
    | '\\' :: c :: rest =>
      match escaped? c with
      | some c => readText opening fuel (c :: done) rest
      | none => failAt .escape cs
    | c :: rest =>
      if c.toNat < 0x20 then failAt .controlCharacter cs else readText opening fuel (c :: done) rest

private def isAsciiDigit (c : Char) : Bool := '0' ≤ c && c ≤ '9'

/-- The fraction of a number: a point and at least one digit. -/
private def readFraction : List Char → List Char × List Char
  | '.' :: rest =>
    let digits := rest.takeWhile isAsciiDigit
    if digits.isEmpty then ([], '.' :: rest) else (digits, rest.dropWhile isAsciiDigit)
  | rest => ([], rest)

/-- The power of ten of a number: a letter, perhaps a sign, and at least one digit. -/
private def readPower (cs : List Char) : Option Int × List Char :=
  match cs with
  | e :: rest =>
    if e = 'e' ∨ e = 'E' then
      let (negative, body) :=
        match rest with
        | '-' :: body => (true, body)
        | '+' :: body => (false, body)
        | body => (false, body)
      let digits := body.takeWhile isAsciiDigit
      if digits.isEmpty then (none, cs)
      else
        let n : Int := digitsValue digits
        (some (if negative then -n else n), body.dropWhile isAsciiDigit)
    else (none, cs)
  | [] => (none, cs)

/-- A number. Without fraction and power of ten it is whole. -/
private def readNumber (cs : List Char) : Except Failure (Number × List Char) :=
  let (negative, body) :=
    match cs with
    | '-' :: body => (true, body)
    | body => (false, body)
  let whole :=
    match body with
    | '0' :: _ => ['0']
    | _ => body.takeWhile isAsciiDigit
  if whole.isEmpty then failAt .expectingValue cs
  else
    let (fraction, rest) := readFraction (body.drop whole.length)
    let (power, rest') := readPower rest
    if fraction.isEmpty && power.isNone then
      if whole.length > digitLimit then failAt (.tooManyDigits whole.length) cs
      else
        let n : Int := digitsValue whole
        .ok (.int (if negative then -n else n), rest)
    else
      let decimal : Decimal := ⟨digitsValue (whole ++ fraction), power.getD 0 - fraction.length⟩
      .ok (.double (decimal.toDouble negative), rest')

/-- A member written again keeps its place and takes the new value. -/
def setMember (members : List (String × Json)) (key : String) (value : Json) :
    List (String × Json) :=
  if members.any (·.1 == key) then members.map fun m => if m.1 == key then (key, value) else m
  else members ++ [(key, value)]

/-- Most arrays and objects that may be nested. -/
def nestingLimit : Nat := 970

mutual
/-- One value from where it starts, inside of `depth` arrays and objects. -/
private def readValue : Nat → Nat → List Char → Except Failure (Json × List Char)
  | 0, _, cs => failAt .expectingValue cs
  | fuel + 1, depth, cs =>
    match cs with
    | '"' :: rest => do
      let (s, rest) ← readText cs.length cs.length [] rest
      return (.text s, rest)
    | '\x7b' :: rest =>
      if depth ≥ nestingLimit then failAt .tooDeep cs
      else
        match skipBlanks rest with
        | '\x7d' :: rest => .ok (.object [], rest)
        | rest => do
          let (members, rest) ← readMembers fuel (depth + 1) [] rest
          return (.object members, rest)
    | '[' :: rest =>
      if depth ≥ nestingLimit then failAt .tooDeep cs
      else
        match skipBlanks rest with
        | ']' :: rest => .ok (.array [], rest)
        | rest => do
          let (items, rest) ← readItems fuel (depth + 1) rest
          return (.array items, rest)
    | _ =>
      match dropWord? "null".toList cs, dropWord? "true".toList cs, dropWord? "false".toList cs,
        dropWord? "NaN".toList cs, dropWord? "Infinity".toList cs,
        dropWord? "-Infinity".toList cs with
      | some rest, _, _, _, _, _ => .ok (.null, rest)
      | _, some rest, _, _, _, _ => .ok (.bool true, rest)
      | _, _, some rest, _, _, _ => .ok (.bool false, rest)
      | _, _, _, some rest, _, _ => .ok (.number (.double .nan), rest)
      | _, _, _, _, some rest, _ => .ok (.number (.double (.infinite false)), rest)
      | _, _, _, _, _, some rest => .ok (.number (.double (.infinite true)), rest)
      | _, _, _, _, _, _ => do
        let (n, rest) ← readNumber cs
        return (.number n, rest)

/-- Items up to the closing bracket, at least one. -/
private def readItems : Nat → Nat → List Char → Except Failure (List Json × List Char)
  | 0, _, cs => failAt .expectingValue cs
  | fuel + 1, depth, cs => do
    let (item, rest) ← readValue fuel depth cs
    match skipBlanks rest with
    | ']' :: rest => return ([item], rest)
    | ',' :: rest => do
      let (items, rest) ← readItems fuel depth (skipBlanks rest)
      return (item :: items, rest)
    | rest => failAt .expectingComma rest

/-- Members up to the closing brace, at least one. -/
private def readMembers :
    Nat → Nat → List (String × Json) → List Char → Except Failure (List (String × Json) × List Char)
  | 0, _, _, cs => failAt .expectingKey cs
  | fuel + 1, depth, done, cs =>
    match cs with
    | '"' :: rest => do
      let (key, rest) ← readText cs.length cs.length [] rest
      match skipBlanks rest with
      | ':' :: rest => do
        let (value, rest) ← readValue fuel depth (skipBlanks rest)
        let done := setMember done key value
        match skipBlanks rest with
        | '\x7d' :: rest => return (done, rest)
        | ',' :: rest => readMembers fuel depth done (skipBlanks rest)
        | rest => failAt .expectingComma rest
      | rest => failAt .expectingColon rest
    | _ => failAt .expectingKey cs
end

/-- Where a fault stands in a text: the number of characters before it. -/
structure FaultAt where
  fault : Fault
  position : Nat

/-- The JSON value that a text holds. -/
def ofText (s : String) : Except FaultAt Json :=
  let cs := s.toList
  let located (f : Failure) : FaultAt := ⟨f.fault, cs.length - f.remaining⟩
  if cs.head? = some '\ufeff' then .error ⟨.byteOrderMark, 0⟩
  else
    match readValue (2 * cs.length + 1) 0 (skipBlanks cs) with
    | .error f => .error (located f)
    | .ok (value, rest) =>
      match skipBlanks rest with
      | [] => .ok value
      | rest => .error (located ⟨.extraData, rest.length⟩)

/-- The fault with line, column and position, where it has a place; lines and columns are counted
from one. -/
def FaultAt.message (text : String) (f : FaultAt) : String :=
  let before := text.toList.take f.position
  let line := before.countP (· == '\n') + 1
  let column := (before.reverse.takeWhile (· != '\n')).length + 1
  if !f.fault.hasPlace then f.fault.message
  else s!"{f.fault.message}: line {line} column {column} (char {f.position})"

end Json

end PanelLayout
