import PanelLayout.LayoutError

/-!
# Reports

A computation on layouts ends with a value or an error. Degenerate values that it had to absorb are
reported as warnings, in the order in which they came up, also if it fails in the end.
-/

namespace PanelLayout

/-- Something odd in a layout that does not stop it. -/
inductive Warning where
  /-- A value without a whole part was taken as zero. -/
  | notFinite (value : Double)
  | unknownKeys (keys : List String) (name : Json)
  /-- A node in a grid has expressions for its place or size, which the grid decides. -/
  | griddedGeometry (name : Json)

def Warning.message : Warning → String
  | .notFinite value => s!"Non-finite layout value {value.text} clamped to 0"
  | .unknownKeys keys name =>
    "Ignoring unknown layout key(s) " ++ String.intercalate ", " keys ++ " in node " ++ name.shown
  | .griddedGeometry name => s!"Gridded layout node {name.shown} ignores its x, y, width and height"

/-- The warnings of a computation and its result. -/
structure Report (α : Type) where
  warnings : List Warning
  result : Except LayoutError α

namespace Report

variable {α β : Type}

protected def pure (a : α) : Report α := ⟨[], .ok a⟩

/-- One computation after another. The second one is left out if the first one fails. -/
protected def bind (r : Report α) (f : α → Report β) : Report β :=
  match r.result with
  | .error e => ⟨r.warnings, .error e⟩
  | .ok a => ⟨r.warnings ++ (f a).warnings, (f a).result⟩

instance : Monad Report where
  pure := Report.pure
  bind := Report.bind

def fail (e : LayoutError) : Report α := ⟨[], .error e⟩

def warn (w : Warning) : Report Unit := ⟨[w], .ok ()⟩

def ofExcept (r : Except LayoutError α) : Report α := ⟨[], r⟩

instance : MonadLift (Except LayoutError) Report := ⟨ofExcept⟩

def ofConversion (r : Except ConversionError α) : Report α := ofExcept (r.mapError .conversion)

def ofNumber (r : Except NumberError α) : Report α :=
  ofExcept (r.mapError fun e => .conversion (.number e))

def ofEvaluation (r : Except EvaluationError α) : Report α := ofExcept (r.mapError .ofEvaluation)

end Report

end PanelLayout
