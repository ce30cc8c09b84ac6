import PanelLayout.Rectangle
import PanelLayout.Settings

/-!
# Text scaling

Text has its natural size if the root container is exactly as high as the text factor says, and is
scaled with the height otherwise. Panels can switch scaling off for what they hold.
-/

namespace PanelLayout

structure TextScale where
  /-- Height of the root container of a layout pass. -/
  rootHeight : Number
  factor : Number := .int 370
  enabled : Bool := true
  deriving DecidableEq

namespace TextScale

/-- The scale of a layout pass in a root container. -/
def forRoot (container : Rectangle) (settings : Settings) : TextScale :=
  ⟨container.height, .int settings.textFactor.value, true⟩

/-- The natural size times the height of the root container over the text factor, rounded towards
zero. -/
def scaled (s : TextScale) (fontSize : Number) : Except NumberError Int := do
  if s.rootHeight.le (.int 0) then return 0
  let ratio ← s.factor.div s.rootHeight
  (← fontSize.div ratio).truncate

/-- The size in which text of a natural size is drawn. -/
def textSize (s : TextScale) (fontSize : Number) : Except NumberError Number :=
  if s.enabled then return .int (← s.scaled fontSize) else .ok fontSize

/-- The size in which text is drawn whose natural size can be any value. Only where it is scaled it
must be a number. -/
def textSizeOf (s : TextScale) (fontSize : Json) : Except ConversionError Json :=
  match fontSize.number? with
  | some n => ((s.textSize n).mapError .number).map .number
  | none =>
    if !s.enabled then .ok fontSize
    else if s.rootHeight.le (.int 0) then .ok (.number (.int 0))
    else .error (.notNumber fontSize.kind)

/-- The size in which text of a whole natural size is drawn. -/
def wholeTextSize (s : TextScale) (fontSize : Int) : Except NumberError Int :=
  if s.enabled then s.scaled (.int fontSize) else .ok fontSize

end TextScale

end PanelLayout
