import PanelLayout.Expression.Token

/-!
# Misplaced operands

Where the parser points in words that form no expression. It reads them twice. The first reading
stops at an asterisk that leads an argument where no expression follows. The second one looks for
what is misplaced, inside out: two operands side by side within parentheses, a name that was a
statement once with an operand behind it, and an asterisk that leads a group. Where nothing is
found, the place is the first word that cannot continue.

The parser keeps what it has read as an operand and takes it as it is when it comes back to it. So
operands that were read without a look for anything misplaced are not looked into later, which the
flag `inner` of a search stands for.
-/

namespace PanelLayout

namespace Misplaced

/-- An expression at the head of some words. -/
structure Found where
  /-- Where its outermost node starts. Parentheses leave no node. -/
  start : Nat
  /-- The name that is all of it. -/
  name? : Option (List Char)
  /-- The words behind it. -/
  rest : List Token

/-- A search keeps the words from the furthest one that it has looked at. It fails with the place of
something misplaced. -/
abbrev Search := StateT (List Token) (Except Nat)

/-- Words that are names only outside of some contexts, so that nothing is said about what follows
them. -/
def lenientWords : List String := ["_", "match", "case"]

/-- Names that were statements once, with an operand behind them. -/
def statementWords : List String := ["print", "exec"]

def isStatement (cs : List Char) : Bool := statementWords.contains (String.ofList cs)

def isLenient : List Token → Bool
  | ⟨.name cs, _⟩ :: _ => lenientWords.contains (String.ofList cs)
  | _ => false

def startsPlainOperand : List Token → Bool
  | t :: _ => t.lexeme.isNumber || t.lexeme.isName
  | [] => false

/-- Whether as many parentheses open as close in some words. -/
def isBalanced (ts : List Token) : Bool :=
  ts.countP (·.lexeme == .opening) == ts.countP (·.lexeme == .closing)

def headPosition (ts : List Token) : Nat := (ts.head?.map Token.position).getD 0

/-- Looks at the first of some words. -/
def look (ts : List Token) : Search Unit :=
  modify fun seen => if ts.length < seen.length then ts else seen

/-- Fails at the furthest word that was looked at. -/
def failAtFurthest {α : Type} : Search α := do throw (headPosition (← get))

mutual
/-- Finds an expression, and looks for something misplaced at it if `checked` and in its operands if
`inner`. -/
def enter (checked inner : Bool) : Nat → List Token → Search (Option Found)
  | 0, _ => return none
  | n + 1, ts => do
    let found ← findSum inner n ts
    if checked then
      checkBehind n ts found
      checkStatement n ts
      return found
    else return found

/-- Fails at an expression within parentheses that another one follows. -/
def checkBehind : Nat → List Token → Option Found → Search Unit
  | 0, _, _ | _, _, none => return ()
  | n + 1, ts, some found =>
    if isLenient ts then return ()
    else do
      match ← findSum false n found.rest with
      | none => return ()
      | some second =>
        if found.name?.any isStatement || isBalanced second.rest then return ()
          else throw found.start

/-- Fails at a name that was a statement once, if an operand follows it. One is looked for behind
every name. -/
def checkStatement : Nat → List Token → Search Unit
  | 0, _ => return ()
  | n + 1, ts =>
    match ts with
    | ⟨.name _, _⟩ :: ⟨.opening, _⟩ :: _ => return ()
    | ⟨.name cs, position⟩ :: rest => do
      let operand ← findStarred (isLenient ts && startsPlainOperand rest) n rest
      if operand.isSome && isStatement cs then throw position else return ()
    | _ => return ()

/-- Finds an expression or, behind an asterisk, a sum. -/
def findStarred (inner : Bool) : Nat → List Token → Search (Option Found)
  | 0, _ => return none
  | n + 1, ts =>
    match ts with
    | ⟨.operator .mul, _⟩ :: rest => findSum false n rest
    | ts => enter true inner n ts

def findSum (inner : Bool) : Nat → List Token → Search (Option Found)
  | 0, _ => return none
  | n + 1, ts => do
    match ← findProduct inner n ts with
    | none => return none
    | some found => findSumTail inner n (headPosition ts) found

/-- Further summands. A sum starts at its first word, a single summand where that one starts. -/
def findSumTail (inner : Bool) : Nat → Nat → Found → Search (Option Found)
  | 0, _, found => return some found
  | n + 1, first, found =>
    match found.rest with
    | ⟨.operator op, _⟩ :: rest =>
      if op == .add || op == .sub then do
        match ← findProduct inner n rest with
        | none => return some found
        | some next => findSumTail inner n first ⟨first, none, next.rest⟩
      else return some found
    | _ => return some found

def findProduct (inner : Bool) : Nat → List Token → Search (Option Found)
  | 0, _ => return none
  | n + 1, ts => do
    match ← findSigned inner n ts with
    | none => return none
    | some found => findProductTail inner n (headPosition ts) found

def findProductTail (inner : Bool) : Nat → Nat → Found → Search (Option Found)
  | 0, _, found => return some found
  | n + 1, first, found =>
    match found.rest with
    | ⟨.operator op, _⟩ :: rest =>
      if op == .mul || op == .div then do
        match ← findSigned inner n rest with
        | none => return some found
        | some next => findProductTail inner n first ⟨first, none, next.rest⟩
      else return some found
    | _ => return some found

def findSigned (inner : Bool) : Nat → List Token → Search (Option Found)
  | 0, _ => return none
  | n + 1, ts => do
    look ts
    match ts with
    | ⟨.operator op, position⟩ :: rest =>
      if op == .add || op == .sub then do
        match ← findSigned inner n rest with
        | none => return none
        | some found => return some ⟨position, none, found.rest⟩
      else return none
    | ts => do
      match ← findAtom inner n ts with
      | none => return none
      | some found => findCalls inner n (headPosition ts) found

/-- Calls of an operand whose first word stands at `first`. -/
def findCalls (inner : Bool) : Nat → Nat → Found → Search (Option Found)
  | 0, _, found => return some found
  | n + 1, first, found => do
    look found.rest
    match found.rest with
    | ⟨.opening, _⟩ :: ⟨.closing, _⟩ :: rest => findCalls inner n first ⟨first, none, rest⟩
    | ⟨.opening, _⟩ :: ⟨.operator .mul, _⟩ :: argument => do
      match ← enter inner inner n argument with
      | some ⟨_, _, ⟨.closing, _⟩ :: rest⟩ => findCalls inner n first ⟨first, none, rest⟩
      | some _ => return some found
      | none => failAtFurthest
    | ⟨.opening, _⟩ :: argument => do
      match ← enter inner inner n argument with
      | some ⟨_, _, ⟨.closing, _⟩ :: rest⟩ => findCalls inner n first ⟨first, none, rest⟩
      | _ => return some found
    | _ => return some found

def findAtom (inner : Bool) : Nat → List Token → Search (Option Found)
  | 0, _ => return none
  | n + 1, ts =>
    match ts with
    | ⟨.number _, position⟩ :: rest => return some ⟨position, none, rest⟩
    | ⟨.name cs, position⟩ :: rest => return some ⟨position, some cs, rest⟩
    | ⟨.opening, position⟩ :: ⟨.closing, _⟩ :: rest => return some ⟨position, none, rest⟩
    | ⟨.opening, _⟩ :: ⟨.operator .mul, position⟩ :: group => do
      match inner, ← enter inner inner n group with
      | true, some ⟨_, _, ⟨.closing, _⟩ :: _⟩ => throw position
      | true, none => failAtFurthest
      | _, _ => return none
    | ⟨.opening, _⟩ :: group => do
      match ← enter inner inner n group with
      | some ⟨start, name?, ⟨.closing, _⟩ :: rest⟩ => return some ⟨start, name?, rest⟩
      | _ => return none
    | _ => return none
end

/-- Both readings of some words, with a bound on the depth of recursion, where `rest` are the words
from the first that cannot continue. -/
def readings (bound : Nat) (ts rest : List Token) : Search Unit := do
  let _ ← enter false false bound ts
  set rest
  let _ ← enter true true bound ts

/-- Where the parser points in words that form no expression, counted from one. Zero tells that the
words end too early. -/
def offset (ts rest : List Token) : Nat :=
  match (readings (6 * ts.length + 5) ts rest).run ts, rest with
  | .error column, _ => column + 1
  | .ok _, t :: _ => t.position + 1
  | .ok _, [] => 0

/-- The column that an offset stands for, which is the first one if it tells of none. -/
def columnOf (offset : Nat) : Nat := (if offset = 0 then 1 else offset) - 1

end Misplaced

end PanelLayout
