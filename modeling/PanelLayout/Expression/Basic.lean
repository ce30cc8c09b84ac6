import PanelLayout.Number
import PanelLayout.Text.UpperCase

/-!
# Expressions

Positions and sizes are written as small algebraic expressions over constants and variables. A node
can carry the mark of an end coordinate: the expression then tells where a side ends instead of how
long it is.
-/

namespace PanelLayout

/-- What a variable refers to. -/
inductive Scope where
  /-- The size and the centre of the container. -/
  | container
  /-- The size of the component itself, and the position that centres it. -/
  | own
  /-- A name given by the caller. -/
  | custom
  deriving DecidableEq, Repr

/-- The names that the container and the own scope know. -/
def builtinNames : List String := ["width", "height", "centerx", "centery"]

/-- A reference to a variable. Built-in names are kept in lower case in either scope. -/
structure Variable where
  name : String
  scope : Scope
  deriving DecidableEq, Repr

/-- The name as it is written: own names in upper case. -/
def Variable.source (v : Variable) : String :=
  match v.scope with
  | .own => upperCase v.name
  | _ => v.name

inductive Operator where
  | add
  | sub
  | mul
  | div
  deriving DecidableEq, Repr

def Operator.symbol : Operator → Char
  | .add => '+'
  | .sub => '-'
  | .mul => '*'
  | .div => '/'

/-- The operator applied to two doubles. Division by zero gives an infinity or what is not a
number. -/
def Operator.apply : Operator → Double → Double → Double
  | .add, x, y => x + y
  | .sub, x, y => x - y
  | .mul, x, y => x * y
  | .div, x, y => x / y

/-- An algebraic expression. The flag of a node is the mark of an end coordinate. -/
inductive Expression where
  | constant (value : Number) (ends : Bool)
  | variable (ref : Variable) (ends : Bool)
  | negation (operand : Expression) (ends : Bool)
  | operation (op : Operator) (left right : Expression) (ends : Bool)
  deriving DecidableEq

/-- Two doubles that differ by no more than a billionth, of the larger one or of one. -/
def Double.isClose (x y : Double) : Bool :=
  let tolerance := Double.ofDecimal 1 (-9)
  let distance := (y - x).abs
  x.equals y || (x.isFinite && y.isFinite &&
    (distance.le (tolerance * y).abs || distance.le (tolerance * x).abs || distance.le tolerance))

namespace Expression

instance : Inhabited Expression := ⟨.constant (.int 0) false⟩

/-- Whether the outermost node carries the mark of an end coordinate. -/
def ends : Expression → Bool
  | .constant _ b => b
  | .variable _ b => b
  | .negation _ b => b
  | .operation _ _ _ b => b

/-- The same expression as an end coordinate. -/
def markEnd : Expression → Expression
  | .constant v _ => .constant v true
  | .variable v _ => .variable v true
  | .negation e _ => .negation e true
  | .operation op l r _ => .operation op l r true

/-- Number of nodes. -/
def size : Expression → Nat
  | .constant .. => 1
  | .variable .. => 1
  | .negation e _ => e.size + 1
  | .operation _ l r _ => l.size + r.size + 1

/-- The nodes that refer to variables, from left to right. -/
def references : Expression → List (Variable × Bool)
  | .constant .. => []
  | .variable v b => [(v, b)]
  | .negation e _ => e.references
  | .operation _ l r _ => l.references ++ r.references

/-- The variables, from left to right and with repetitions. -/
def variableList (e : Expression) : List Variable := e.references.map Prod.fst

/-- Whether the expression needs the size of the component itself. -/
def usesOwnSize (e : Expression) : Bool := e.variableList.any (·.scope == .own)

/-- The constants, from left to right. -/
def constants : Expression → List Number
  | .constant v _ => [v]
  | .variable .. => []
  | .negation e _ => e.constants
  | .operation _ l r _ => l.constants ++ r.constants

/-- Whether every constant has a nearest double. Only such an expression can be written out. -/
def inRange (e : Expression) : Except NumberError Unit :=
  e.constants.forM fun v => discard v.toDouble

/-- Equality of expressions: constants are compared by value with a small tolerance, marks are not
compared. -/
def equals : Expression → Expression → Except NumberError Bool
  | .constant a _, .constant b _ => do return (← a.toDouble).isClose (← b.toDouble)
  | .variable v _, .variable w _ => .ok (v == w)
  | .negation a _, .negation b _ => equals a b
  | .operation p a b _, .operation q c d _ =>
    if p = q then do
      if ← equals a c then equals b d else return false
    else .ok false
  | _, _ => .ok false

end Expression

end PanelLayout
