import PanelLayout.Expression.Token
import PanelLayout.Decimal.Basic

/-!
# Grammar

Sums of products of signed operands, where an operand is a number, a name or an expression in
parentheses. Beside these, empty parentheses and calls are recognised, so that they can be refused
by name and place.
-/

namespace PanelLayout

/-- What the words of an expression form, before names are looked up. -/
inductive Surface where
  | number (value : Double)
  | name (text : List Char) (position : Nat)
  | signed (negative : Bool) (operand : Surface)
  | operation (op : Operator) (left right : Surface)
  | empty (position : Nat)
  | call (callee : Surface) (position : Nat)
  | callWith (callee argument : Surface) (position : Nat)

namespace Surface

/-- Length of the longest chain of nodes. -/
def depth : Surface → Nat
  | .number _ | .name .. | .empty _ => 1
  | .signed _ e => e.depth + 1
  | .operation _ l r => max l.depth r.depth + 1
  | .call e _ => e.depth + 1
  | .callWith e a _ => max e.depth a.depth + 1

/-- The number that a word writes. -/
def numberValue (cs : List Char) : Double :=
  let whole := cs.takeWhile isDecimalDigit
  let places := (cs.dropWhile isDecimalDigit).drop 1
  Double.ofDecimal (digitsValue (whole ++ places)) (-(places.length : Int))

/-- An operator at the head of some words, if it passes a test. -/
def leadingOperator? (accept : Operator → Bool) : List Token → Option (Operator × List Token)
  | ⟨.operator op, _⟩ :: rest => if accept op then some (op, rest) else none
  | _ => none

def isAdditive : Operator → Bool
  | .add | .sub => true
  | _ => false

def isMultiplicative : Operator → Bool
  | .mul | .div => true
  | _ => false

mutual
/-- An expression at the head of some words, and the words behind it. A failure returns the words
from the first one that cannot continue the expression. The first argument bounds the depth of the
recursion. -/
def readSum : Nat → List Token → Except (List Token) (Surface × List Token)
  | 0, ts => .error ts
  | n + 1, ts => do
    let (l, ts) ← readProduct n ts
    readSumTail n l ts

def readSumTail : Nat → Surface → List Token → Except (List Token) (Surface × List Token)
  | 0, _, ts => .error ts
  | n + 1, l, ts =>
    match leadingOperator? isAdditive ts with
    | some (op, rest) => do
      let (r, rest) ← readProduct n rest
      readSumTail n (.operation op l r) rest
    | none => .ok (l, ts)

def readProduct : Nat → List Token → Except (List Token) (Surface × List Token)
  | 0, ts => .error ts
  | n + 1, ts => do
    let (l, ts) ← readSigned n ts
    readProductTail n l ts

def readProductTail : Nat → Surface → List Token → Except (List Token) (Surface × List Token)
  | 0, _, ts => .error ts
  | n + 1, l, ts =>
    match leadingOperator? isMultiplicative ts with
    | some (op, rest) => do
      let (r, rest) ← readSigned n rest
      readProductTail n (.operation op l r) rest
    | none => .ok (l, ts)

def readSigned : Nat → List Token → Except (List Token) (Surface × List Token)
  | 0, ts => .error ts
  | n + 1, ts =>
    match leadingOperator? isAdditive ts with
    | some (op, rest) => do
      let (e, rest) ← readSigned n rest
      return (.signed (op == .sub) e, rest)
    | none => do
      let (e, rest) ← readAtom n ts
      readCalls n e ((ts.head?.map Token.position).getD 0) rest

/-- Calls of an operand that starts at a position. -/
def readCalls : Nat → Surface → Nat → List Token → Except (List Token) (Surface × List Token)
  | 0, _, _, ts => .error ts
  | n + 1, callee, position, ts =>
    match ts with
    | ⟨.opening, _⟩ :: ⟨.closing, _⟩ :: rest => readCalls n (.call callee position) position rest
    | ⟨.opening, _⟩ :: ⟨.operator .mul, _⟩ :: rest
    | ⟨.opening, _⟩ :: rest => do
      let (argument, rest) ← readSum n rest
      match rest with
      | ⟨.closing, _⟩ :: rest => readCalls n (.callWith callee argument position) position rest
      | rest => .error rest
    | ts => .ok (callee, ts)

def readAtom : Nat → List Token → Except (List Token) (Surface × List Token)
  | 0, ts => .error ts
  | n + 1, ts =>
    match ts with
    | ⟨.number cs, _⟩ :: rest => .ok (.number (numberValue cs), rest)
    | ⟨.name cs, position⟩ :: rest => .ok (.name cs position, rest)
    | ⟨.opening, position⟩ :: ⟨.closing, _⟩ :: rest => .ok (.empty position, rest)
    | ⟨.opening, _⟩ :: ⟨.operator .mul, _⟩ :: rest => do
      let (_, rest) ← readSum n rest
      .error rest
    | ⟨.opening, _⟩ :: rest => do
      let (e, rest) ← readSum n rest
      match rest with
      | ⟨.closing, _⟩ :: rest => return (e, rest)
      | rest => .error rest
    | ts => .error ts
end

/-- What all of some words form. A failure returns the words from the first one that cannot
continue. -/
def ofTokens (ts : List Token) : Except (List Token) Surface :=
  match readSum (6 * ts.length + 6) ts with
  | .error rest => .error rest
  | .ok (e, []) => .ok e
  | .ok (_, rest) => .error rest

end Surface

end PanelLayout
