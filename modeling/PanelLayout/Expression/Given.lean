import PanelLayout.Json.Conversion

/-!
# Evaluation with given values

A caller may give its own variables as JSON values of any kind. A value is converted to a double
where an operation or the result needs one, so that a text which writes a number serves as well;
only a sign cannot be put in front of a text.
-/

namespace PanelLayout

namespace Json

/-- A value with the opposite sign. -/
def negated (v : Json) : Except ConversionError Json :=
  match v.number? with
  | some n => .ok (.ofNumber n.neg)
  | none => .error (.notSigned v.kind)

end Json

namespace Expression

/-- The value of an expression, computed from its operands upwards, where each variable stands for a
given value. -/
def valueGiven (given : Variable → Except ConversionError Json) :
    Expression → Except ConversionError Json
  | .constant v _ => .ok (.ofNumber v)
  | .variable v _ => given v
  | .negation e _ => do (← valueGiven given e).negated
  | .operation op l r _ => do
    let l ← valueGiven given l
    let r ← valueGiven given r
    return .number (.double (op.apply (← l.toDouble) (← r.toDouble)))

/-- What a caller's variable stands for in a context; `null` is no value. -/
def givenValue? (c : Context) (custom : List (String × Json)) (v : Variable) :
    Except NumberError (Option Json) :=
  match v.scope with
  | .custom => .ok (Json.getSome? custom v.name)
  | _ => do return (← c.value? v).map .ofNumber

/-- The value of an expression whose variables are given as values; `none` is a missing one. -/
def evaluateGiven (e : Expression) (given? : Variable → Except NumberError (Option Json)) :
    Except LayoutError Double := do
  (e.requireValues fun v => return (← given? v).isSome).mapError .ofEvaluation
  let given (v : Variable) : Except ConversionError Json := do
    return ((← (given? v).mapError .number).getD .null)
  (do (← e.valueGiven given).toDouble : Except ConversionError Double).mapError .conversion

end Expression

end PanelLayout
