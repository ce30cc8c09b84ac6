import PanelLayout.Expression.Basic
import PanelLayout.Expression.Fault
import PanelLayout.Text.Blank
import PanelLayout.Text.Digit
import PanelLayout.Text.Name

/-!
# Tokens

The words of a written expression: numbers, names, operators and parentheses. Blanks separate words
and are dropped. Parentheses are balanced already here.
-/

namespace PanelLayout

inductive Lexeme where
  /-- Digits with at most one point among them. -/
  | number (text : List Char)
  | name (text : List Char)
  | operator (op : Operator)
  | opening
  | closing
  deriving DecidableEq, Repr

/-- The word as it is written. -/
def Lexeme.text : Lexeme → List Char
  | .number cs => cs
  | .name cs => cs
  | .operator op => [op.symbol]
  | .opening => ['(']
  | .closing => [')']

def Lexeme.isNumber : Lexeme → Bool
  | .number _ => true
  | _ => false

def Lexeme.isName : Lexeme → Bool
  | .name _ => true
  | _ => false

/-- A word with the number of characters before it. -/
structure Token where
  lexeme : Lexeme
  position : Nat
  deriving DecidableEq, Repr

/-- The words of some tokens. -/
def words (ts : List Token) : List Lexeme := ts.map Token.lexeme

/-- The number that a text starts with: digits, or digits and a point in any order. -/
def takeNumber (cs : List Char) : List Char :=
  let whole := cs.takeWhile isDecimalDigit
  match cs.dropWhile isDecimalDigit with
  | '.' :: rest =>
    let places := rest.takeWhile isDecimalDigit
    if whole.isEmpty && places.isEmpty then [] else whole ++ '.' :: places
  | _ => whole

def operator? : Char → Option Operator
  | '+' => some .add
  | '-' => some .sub
  | '*' => some .mul
  | '/' => some .div
  | _ => none

/-- The longest word that a text starts with. -/
def lexeme? (cs : List Char) : Option Lexeme :=
  match cs with
  | [] => none
  | c :: rest =>
    if !(takeNumber cs).isEmpty then some (.number (takeNumber cs))
    else if isNameStart c then some (.name (c :: rest.takeWhile isNameChar))
    else
      match operator? c with
      | some op => some (.operator op)
      | none => if c = '(' then some .opening else if c = ')' then some .closing else none

/-- The parentheses that stay open after a word, innermost first, each by its position. -/
def openAfter (open_ : List Nat) (t : Token) : Except FaultAt (List Nat) :=
  match t.lexeme, open_ with
  | .opening, _ => .ok (t.position :: open_)
  | .closing, [] => .error ⟨.unbalancedClosing, t.position⟩
  | .closing, _ :: rest => .ok rest
  | _, _ => .ok open_

/-- Why a word is refused at its place, if it is. -/
def refusal? (afterNumber : Bool) (l : Lexeme) : Option Fault :=
  match l with
  | .number _ => if afterNumber then some .adjacentNumber else none
  | .name cs =>
    if afterNumber then some .adjacentNumber
    else if isReserved (String.ofList cs) then some (.reservedWord (String.ofList cs))
    else none
  | _ => none

/-- The words of a text that starts at a position, where `afterNumber` tells that a number stands
right before it and `open_` holds the parentheses that are still open. The first argument bounds the
number of words. -/
def scan : Nat → Bool → List Nat → Nat → List Char → Except FaultAt (List Token)
  | 0, _, _, position, _ => .error ⟨.empty, position⟩
  | n + 1, afterNumber, open_, position, cs =>
    match cs with
    | [] =>
      match open_ with
      | p :: _ => .error ⟨.unclosed, p⟩
      | [] => .ok []
    | c :: rest =>
      if isBlank c then scan n false open_ (position + 1) rest
      else
        match lexeme? cs with
        | none => .error ⟨.unexpectedCharacter c, position⟩
        | some l =>
          match refusal? afterNumber l with
          | some fault => .error ⟨fault, position⟩
          | none => do
            let open_ ← openAfter open_ ⟨l, position⟩
            let size := l.text.length
            let tokens ← scan n l.isNumber open_ (position + size) (cs.drop size)
            return ⟨l, position⟩ :: tokens

/-- The words of an expression behind its first `start` characters. There is at least one. -/
def tokenize (source : String) (start : Nat := 0) : Except FaultAt (List Token) := do
  let cs := source.toList
  let tokens ← scan (cs.length + 1) false [] start (cs.drop start)
  if tokens.isEmpty then throw ⟨.empty, cs.length⟩
  return tokens

end PanelLayout
