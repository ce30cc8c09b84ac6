import PanelLayout.Text.Quoted

/-!
# Malformed expressions

What can be wrong with a written expression, and where.
-/

namespace PanelLayout

/-- What is wrong with a written expression. -/
inductive Fault where
  | unexpectedCharacter (c : Char)
  /-- A number with a name or another number right behind it. -/
  | adjacentNumber
  | reservedWord (name : String)
  | unbalancedClosing
  | unclosed
  | empty
  /-- The tokens do not form an expression. -/
  | misformed
  | emptyParentheses
  /-- Something called like a function. -/
  | called
  /-- The own size of the component, where it cannot be known. -/
  | ownSize (name : String)
  | tooDeep
  deriving DecidableEq, Repr

def Fault.message : Fault → String
  | .unexpectedCharacter c => "Unexpected character " ++ quoted (String.singleton c)
  | .adjacentNumber => "Number must not be directly followed by a name or another number"
  | .reservedWord name => "Reserved word " ++ quoted name ++ " cannot be used as a variable name"
  | .unbalancedClosing => "Unbalanced closing parenthesis"
  | .unclosed => "Unclosed parenthesis"
  | .empty => "Empty expression"
  | .misformed => "Invalid expression syntax"
  | .emptyParentheses => "Empty parentheses"
  | .called => "Invalid layout expression"
  | .ownSize name =>
    "Variable " ++ name ++ " refers to the component's own size and is not allowed here"
  | .tooDeep => "Expression too deeply nested"

/-- A fault with the number of characters before it. -/
structure FaultAt where
  fault : Fault
  position : Nat
  deriving DecidableEq, Repr

/-- A fault in a written expression. -/
structure ParseError extends FaultAt where
  source : String
  deriving DecidableEq, Repr

/-- The fault, the expression, and an arrow below the place of the fault. -/
def ParseError.message (e : ParseError) : String :=
  let indent := String.ofList (List.replicate e.position ' ')
  s!"{e.fault.message} at position {e.position}:\n    {e.source}\n    {indent}^"

end PanelLayout
