import PanelLayout.Expression.Basic

/-!
# Expressions as text

The written form of an expression, with parentheses around every operation that is an operand.
-/

namespace PanelLayout

namespace Expression

/-- The leading character of an end coordinate in a written expression. -/
def markText (ends : Bool) : List Char := if ends then ['?'] else []

def dropTrailing (c : Char) (cs : List Char) : List Char := (cs.reverse.dropWhile (· == c)).reverse

/-- A constant with up to six places. What is close to zero is written as zero, so that no sign is
left over. -/
def constantSource (value : Number) : List Char :=
  match value.toDouble with
  | .error _ => value.text.toList
  | .ok x =>
    if x.isClose (.zero false) then ['0']
    else dropTrailing '.' (dropTrailing '0' (x.fixedText 6).toList)

/-- Whether the expression stands as an operand of a sign without parentheses. -/
def isAtom : Expression → Bool
  | .constant .. | .variable .. => true
  | _ => false

def isOperation : Expression → Bool
  | .operation .. => true
  | _ => false

def parenthesized (needed : Bool) (text : List Char) : List Char :=
  if needed then '(' :: (text ++ [')']) else text

/-- The characters of the written form. -/
def sourceChars : Expression → List Char
  | .constant v b => markText b ++ constantSource v
  | .variable v b => markText b ++ v.source.toList
  | .negation e b => markText b ++ '-' :: parenthesized (!e.isAtom) e.sourceChars
  | .operation op l r b =>
    markText b ++ parenthesized l.isOperation l.sourceChars ++
      op.symbol :: parenthesized (!r.isAtom) r.sourceChars

/-- The written form. -/
def source (e : Expression) : String := String.ofList e.sourceChars

/-- The written form as messages show it. -/
def shown (e : Expression) : String := "<" ++ e.source ++ ">"

end Expression

end PanelLayout
