import PanelLayout.Expression.Basic

/-!
# Simplification

Variables are replaced by what a binding gives for them, operations on constants are carried out,
and operations with zero, one and minus one and double signs are removed.
-/

namespace PanelLayout

/-- What variables stand for. -/
abbrev Binding := Variable → Option Expression

/-- Why a simplification has no result. -/
inductive SimplifyError where
  /-- A constant is too large for a double. -/
  | tooLarge
  /-- The binding keeps introducing new variables. -/
  | endless
  deriving DecidableEq, Repr

namespace Expression

/-- How an operation on simplified operands goes on. -/
inductive Step where
  | done (e : Expression)
  /-- Simplify once more. -/
  | again (e : Expression)
  /-- Simplify the operation on its own, then once more. -/
  | combine (op : Operator) (left right : Expression)

/-- The sign of a simplified operand. -/
def negate : Expression → Expression
  | .negation e _ => e
  | .constant v _ => .constant v.neg false
  | .operation .sub l r _ => .operation .sub r l false
  | e => .negation e false

/-- The value of a constant, `none` for any other expression. -/
def constant? : Expression → Except SimplifyError (Option Double)
  | .constant v _ =>
    match v.toDouble with
    | .ok x => .ok (some x)
    | .error _ => .error .tooLarge
  | _ => .ok none

/-- Whether an operand is a constant close to a whole number. -/
def near (x : Option Double) (n : Int) : Bool :=
  match x with
  | some x => x.isClose (.ofInt n)
  | none => false

/-- The rules for an operation on simplified operands `l` and `r`, where `x` and `y` are their
values if they are constants. The first rule that fits applies. -/
def reduce (op : Operator) (l r : Expression) (x y : Option Double) : Step :=
  match x, y with
  | some x, some y => .done (.constant (.double (op.apply x y)) false)
  | _, _ =>
    match op with
    | .add =>
      if near x 0 then .done r
      else if near y 0 then .done l
      else
        match r with
        | .negation r _ => .combine .sub l r
        | r => .done (.operation .add l r false)
    | .mul =>
      if near y 1 then .done l
      else if near x 1 then .done r
      else if near y (-1) then .again (.negation l false)
      else if near x (-1) then .again (.negation r false)
      else .done (.operation .mul l r false)
    | .sub =>
      if near y 0 then .done l
      else if near x 0 then .again (.negation r false)
      else
        match r with
        | .negation r _ => .combine .add l r
        | r => .done (.operation .sub l r false)
    | .div =>
      if near y 1 then .done l
      else if near y (-1) then .again (.negation l false)
      else .done (.operation .div l r false)

/-- Simplification that looks no deeper than a given number of levels. -/
def simplifyWithin : Nat → Binding → Expression → Except SimplifyError Expression
  | 0, _, _ => .error .endless
  | _ + 1, _, .constant v b => .ok (.constant v b)
  | _ + 1, binding, .variable v b => .ok ((binding v).getD (.variable v b))
  | n + 1, binding, .negation e _ => do return (← simplifyWithin n binding e).negate
  | n + 1, binding, .operation op l r _ => do
    let l ← simplifyWithin n binding l
    let r ← simplifyWithin n binding r
    match reduce op l r (← l.constant?) (← r.constant?) with
    | .done e => return e
    | .again e => simplifyWithin n binding e
    | .combine op l r => do
      let e ← simplifyWithin n (fun _ => none) (.operation op l r false)
      simplifyWithin n binding e

/-- Levels looked at beyond the nodes of the expression, for bindings that put expressions in place
of variables. -/
def bindingDepth : Nat := 1000

/-- Number of nodes with what a binding gives in place of the variables. -/
def boundSize (binding : Binding) : Expression → Nat
  | .constant .. => 1
  | .variable v _ => ((binding v).map size).getD 1
  | .negation e _ => e.boundSize binding + 1
  | .operation _ l r _ => l.boundSize binding + r.boundSize binding + 1

/-- The simplified expression. -/
def simplify (e : Expression) (binding : Binding := fun _ => none) :
    Except SimplifyError Expression :=
  simplifyWithin (e.size + (bindingDepth + e.boundSize binding)) binding e

/-- An operation on two expressions, simplified. -/
def combined (op : Operator) (l r : Expression) : Except SimplifyError Expression :=
  (Expression.operation op l r false).simplify

end Expression

end PanelLayout
