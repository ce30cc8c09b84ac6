import PanelLayout.Decimal.Numeral
import PanelLayout.Expression.Evaluate
import PanelLayout.Expression.Fault
import PanelLayout.Json.Basic

/-!
# Errors

Why a layout cannot be built or laid out, each cause with its message and its category.
-/

namespace PanelLayout

/-- A value that does not have the form asked for. -/
inductive ConversionError where
  | number (e : NumberError)
  /-- A text that writes no number. -/
  | notNumeral (s : String)
  /-- A text that writes no whole number. -/
  | notWholeNumeral (s : String)
  /-- A text with more digits than a whole number is read from. -/
  | tooManyDigits (digits : Nat)
  | notNumber (k : Json.Kind)
  | notWhole (k : Json.Kind)
  /-- A value without a sign that could be changed. -/
  | notSigned (k : Json.Kind)
  /-- A value without parts, where two parts are asked for. -/
  | notPair (k : Json.Kind)
  /-- Some other number of parts, where two are asked for. -/
  | pairSize (n : Nat)
  /-- A value without items. -/
  | notList (k : Json.Kind)
  /-- A value without members. -/
  | notObject (k : Json.Kind)
  | unknownSetting (key : String)
  /-- A text with the character that ends texts of the system, where a path is asked for. -/
  | notPath

inductive Axis where
  | horizontal
  | vertical
  deriving DecidableEq, Repr

/-- Why a layout cannot be built or laid out. -/
inductive LayoutError where
  | parse (e : ParseError)
  | notText (k : Json.Kind)
  | unresolved (names : List String) (expression : Expression)
  | endless
  | conversion (e : ConversionError)
  | invalidName (name : Json)
  | builtinName (name : String)
  | roundingMode (mode : Json)
  /-- A value refused for a setting that chooses how to round. -/
  | roundingSetting (key : String) (value : Json)
  | textFactor (value : Json)
  | marker (value : Json)
  | weight (w : Double)
  | negativeCell (column row : Number)
  | outsideGrid (column row columns rows : Number)
  /-- A position that needs a size which is only known once the position is. -/
  | circular (axis : Axis) (position size : Expression)
  /-- A component with a place in a grid, given by its description, was added in free form. -/
  | gridded (component : String)
  | notNode (value : Json)
  | rootNotPanel
  | unsupportedOperator (name : String)
  | requestShape
  | previewSize (width height : Int)

/-- What kind of thing went wrong. -/
inductive ErrorCategory where
  | parse
  | unresolved
  | value
  | type
  | index
  | overflow
  | zeroDivision
  | attribute
  /-- A rectangle or a point of a hit map is no place on the plane. -/
  | place
  | recursion
  deriving DecidableEq, Repr

def NumberError.category : NumberError → ErrorCategory
  | .tooLarge | .infinite => .overflow
  | .divisionByZero => .zeroDivision
  | .nan => .value
  | .unordered => .place

def NumberError.message : NumberError → String
  | .tooLarge => "whole number too large for a double"
  | .divisionByZero => "division by zero"
  | .infinite => "infinity is no whole number"
  | .nan => "cannot convert float NaN to integer"
  | .unordered => "Coordinates must not have minimums more than maximums"

namespace ConversionError

def category : ConversionError → ErrorCategory
  | .number e => e.category
  | .notNumeral _ | .notWholeNumeral _ | .tooManyDigits _ | .pairSize _ | .notPath => .value
  | .notNumber _ | .notWhole _ | .notSigned _ | .notPair _ | .notList _ | .unknownSetting _ => .type
  | .notObject _ => .attribute

def message : ConversionError → String
  | .number e => e.message
  | .notNumeral s => "could not convert string to float: " ++ quoted s
  | .notWholeNumeral s =>
    "invalid literal for int() with base 10: " ++ String.ofList ((quoted s).toList.take 200)
  | .tooManyDigits digits => tooManyDigitsMessage digits
  | .notNumber k => s!"float() argument must be a string or a real number, not '{k.name}'"
  | .notWhole k =>
    s!"int() argument must be a string, a bytes-like object or a real number, not '{k.name}'"
  | .notSigned k => s!"bad operand type for unary -: '{k.name}'"
  | .notPair k => s!"cannot unpack non-iterable {k.name} object"
  | .pairSize n =>
    if n < 2 then s!"not enough values to unpack (expected 2, got {n})"
      else "too many values to unpack (expected 2)"
  | .notList k => s!"'{k.name}' object is not iterable"
  | .notObject k => s!"expected an object, not '{k.name}'"
  | .unknownSetting key => "unknown setting " ++ quoted key
  | .notPath => "embedded null byte"

end ConversionError

/-- Names of the position and of the size along an axis. -/
def Axis.names : Axis → String × String
  | .horizontal => ("x", "width")
  | .vertical => ("y", "height")

namespace LayoutError

def category : LayoutError → ErrorCategory
  | .parse _ => .parse
  | .unresolved .. => .unresolved
  | .endless => .recursion
  | .conversion e => e.category
  | .notText _ => .type
  | .outsideGrid .. => .index
  | _ => .value

def message : LayoutError → String
  | .parse e => e.message
  | .notText k => s!"Layout expression must be a string, not <class '{k.name}'>"
  | .unresolved names e =>
    "Cannot resolve variable(s) " ++ String.intercalate ", " names ++ " in " ++ e.shown
  | .endless => "maximum recursion depth exceeded"
  | .conversion e => e.message
  | .invalidName name => "Invalid variable name " ++ name.shown
  | .builtinName name => "Cannot redefine built-in variable " ++ quoted name
  | .roundingMode mode => s!"Invalid rounding mode {mode.shown}, must be one of truncate, nearest"
  | .roundingSetting key value => s!"{key} must be one of truncate, nearest, not {value.shown}"
  | .textFactor value => s!"Text resize factor must be a positive integer, not {value.shown}"
  | .marker value =>
    "Preface marker must be a single character that is not part of the expression grammar, " ++
      s!"not {value.shown}"
  | .weight w => s!"Grid weights must be positive, finite numbers, not {w.text}"
  | .negativeCell column row =>
    s!"Grid coordinates must be non-negative, not ({column.text}, {row.text})"
  | .outsideGrid column row columns rows =>
    s!"Cell ({column.text}, {row.text}) is outside of the {columns.text}x{rows.text} grid"
  | .circular axis position size =>
    let (positionName, sizeName) := axis.names
    s!"{positionName} expression {position.shown} uses the component's own size, " ++
      s!"which is not known when {sizeName} {size.shown} is given as an end coordinate"
  | .gridded component => s!"{component} is gridded, use add_to_grid"
  | .notNode value => s!"Layout node must be a JSON object, not {value.shown}"
  | .rootNotPanel => "Layout root must be a panel"
  | .unsupportedOperator name => s!"Unsupported operator <built-in function {name}>"
  | .requestShape => "Request body must be a JSON object with a \"layout\" object"
  | .previewSize width height => s!"Preview size must not be negative, got {width}x{height}"

/-- The error of a failed evaluation. -/
def ofEvaluation : EvaluationError → LayoutError
  | .unresolved names e => .unresolved names e
  | .number e => .conversion (.number e)
  | .endless => .endless

end LayoutError

end PanelLayout
