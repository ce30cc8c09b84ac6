import PanelLayout.Expression.Simplify
import PanelLayout.Expression.Source

/-!
# Evaluation

The value of an expression in a container of a given size. Every variable must have a value, also
where it cannot influence the result; otherwise all missing ones are named.
-/

namespace PanelLayout

/-- What variables mean in one evaluation. -/
structure Context where
  width : Number
  height : Number
  /-- Size of the component itself, where it is known. -/
  own : Option (Number × Number)
  custom : List (String × Number)

namespace Context

/-- Whether the size of the component itself is known. -/
def isExtended (c : Context) : Bool := c.own.isSome

def half (n : Number) : Except NumberError Number := n.div (.int 2)

/-- A length of the container, or the middle of it. -/
def containerValue? (c : Context) (name : String) : Except NumberError (Option Number) :=
  match name with
  | "width" => .ok (some c.width)
  | "height" => .ok (some c.height)
  | "centerx" => return some (← half c.width)
  | "centery" => return some (← half c.height)
  | _ => .ok none

/-- A length of the component itself, or the position that centres it in its container. -/
def ownValue? (c : Context) (name : String) (width height : Number) :
    Except NumberError (Option Number) :=
  match name with
  | "width" => .ok (some width)
  | "height" => .ok (some height)
  | "centerx" => do return some (← half (← c.width.sub width))
  | "centery" => do return some (← half (← c.height.sub height))
  | _ => .ok none

/-- The value of a variable, if it has one here. -/
def value? (c : Context) (v : Variable) : Except NumberError (Option Number) :=
  match v.scope, c.own with
  | .container, _ => c.containerValue? v.name
  | .own, some (width, height) => c.ownValue? v.name width height
  | .own, none => .ok none
  | .custom, _ => .ok (c.custom.lookup v.name)

end Context

/-- Why an expression has no value. -/
inductive EvaluationError where
  /-- Variables without a value, by their written names in order, and the expression that refers to
  them. -/
  | unresolved (names : List String) (expression : Expression)
  | number (e : NumberError)
  /-- The binding keeps introducing new variables. -/
  | endless

namespace Expression

/-- A reference as it is written, with the mark if the node carries one. -/
def referenceSource (r : Variable × Bool) : String := (Expression.variable r.1 r.2).source

/-- The order of texts by their characters, without repetitions. -/
def sortedNames (names : List String) : List String :=
  names.mergeSort (fun a b => decide (a ≤ b)) |>.eraseDups

/-- What is wrong if some variables are missing: they are reported, unless the expression cannot be
written out. -/
def unresolved (names : List String) (e : Expression) : EvaluationError :=
  match e.inRange with
  | .ok () => .unresolved (sortedNames names) e
  | .error n => .number n

/-- Refuses an expression with variables that have no value. -/
def requireValues (e : Expression) (hasValue : Variable → Except NumberError Bool) :
    Except EvaluationError Unit := do
  let missing ← (e.references.filterMapM fun (r : Variable × Bool) => do
    return if ← hasValue r.1 then none else some (referenceSource r)).mapError .number
  if !missing.isEmpty then throw (unresolved missing e)

/-- The value of an expression, where each variable stands for what a binding gives. -/
def evaluateWith (e : Expression) (binding : Variable → Except NumberError (Option Expression)) :
    Except EvaluationError Double := do
  e.requireValues fun v => return (← binding v).isSome
  match e.simplify (fun v => (binding v).toOption.join) with
  | .ok (.constant v _) => v.toDouble.mapError .number
  | .ok _ => throw (unresolved [] e)
  | .error .tooLarge => throw (.number .tooLarge)
  | .error .endless => throw .endless

/-- The value of an expression in a context. -/
def evaluate (e : Expression) (c : Context) : Except EvaluationError Double :=
  e.evaluateWith fun v => return (← c.value? v).map (.constant · false)

end Expression

end PanelLayout
