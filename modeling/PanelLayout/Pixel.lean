import PanelLayout.Json.Conversion
import PanelLayout.Report

/-!
# Pixels

The whole pixel that a length stands for. Grid boundaries are rounded towards zero, so that a cell
never overshoots its share; free components are rounded to the nearest pixel, a half upwards.
-/

namespace PanelLayout

inductive Rounding where
  | truncate
  | nearest
  deriving DecidableEq, Repr

def Rounding.name : Rounding → String
  | .truncate => "truncate"
  | .nearest => "nearest"

def Rounding.ofName? (s : String) : Option Rounding :=
  [Rounding.truncate, .nearest].find? (·.name == s)

namespace Double

/-- One half. -/
def half : Double := ofRatio 1 2

/-- A finite double as a pixel. -/
def roundTo? (mode : Rounding) (x : Double) : Option Int :=
  match mode with
  | .truncate => x.truncate?
  | .nearest => (x + half).floor?

/-- A double as a pixel. What is not finite counts as zero and is reported. -/
def toPixel (mode : Rounding) (x : Double) : Report Int :=
  match if x.isFinite then x.roundTo? mode else none with
  | some n => pure n
  | none => do
    Report.warn (.notFinite x)
    return 0

end Double

/-- A number as a pixel; a whole number is first rounded to a double. -/
def Number.toPixel (mode : Rounding) (n : Number) : Report Int :=
  do (← Report.ofNumber n.toDouble).toPixel mode

/-- A JSON value as a pixel, where the way to round is given by its name. -/
def Json.toPixel (mode value : Json) : Report Int :=
  match mode with
  | .text s =>
    match Rounding.ofName? s with
    | some mode => do (← Report.ofConversion value.toDouble).toPixel mode
    | none => Report.fail (.roundingMode mode)
  | mode => Report.fail (.roundingMode mode)

end PanelLayout
