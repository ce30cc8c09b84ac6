import PanelLayout.Grid.Basic

/-!
# Components

A component describes its rectangle by up to four expressions, or takes the cell of a grid.
Positions may use the component's own size; a size may be given as an end coordinate. On one axis
only one of the two can be used, because the size is not known before the position then.
-/

namespace PanelLayout

structure Component where
  name : Json := .null
  visible : Bool := true
  registry : Variables := {}
  settings : Settings := {}
  /-- The place that the component takes in a grid, if it has one. -/
  location : Option Location := none
  x : Option Expression := none
  y : Option Expression := none
  width : Option Expression := none
  height : Option Expression := none

/-- Refuses a position that uses the own size where the size is an end coordinate. -/
def checkAxis (axis : Axis) (position size : Option Expression) : Except LayoutError Unit :=
  match position, size with
  | some p, some s => if s.ends && p.usesOwnSize then .error (.circular axis p s) else .ok ()
  | _, _ => .ok ()

namespace Component

instance : Inhabited Component := ⟨{}⟩

/-- Replaces both positions. -/
def setPosition (c : Component) (x y : Json) : Except LayoutError Component := do
  let x ← optionalExpression { extended := true } x
  let y ← optionalExpression { extended := true } y
  checkAxis .horizontal x c.width
  checkAxis .vertical y c.height
  return { c with x, y }

/-- Replaces both sizes. -/
def setSize (c : Component) (width height : Json) : Except LayoutError Component := do
  let rules : ReadingRules := { preface := true, marker := String.singleton c.settings.marker }
  let width ← optionalExpression rules width
  let height ← optionalExpression rules height
  checkAxis .horizontal c.x width
  checkAxis .vertical c.y height
  return { c with width, height }

/-- A component with both sizes and both positions set. -/
def withGeometry (c : Component) (x y width height : Json) : Except LayoutError Component := do
  (← c.setSize width height).setPosition x y

/-- A length that an expression gives; without one the default. -/
def length (c : Component) (e : Option Expression) (default width height : Number)
    (own : Option (Number × Number)) : Except LayoutError Number :=
  match e with
  | none => .ok default
  | some e => do return .double (← c.registry.evaluate e width height own)

/-- What is left of a size once the position is known: an end coordinate is counted from the
position. -/
def lengthFrom (size : Option Expression) (length position : Number) : Except NumberError Number :=
  if size.any (·.ends) then length.sub position else .ok length

/-- The rectangle in a container. A component in a grid is given its cell and takes all of it. -/
def renderRect (c : Component) (container : Rectangle) : Report Rectangle :=
  if c.location.isSome then return container
  else do
    let cw := container.width
    let ch := container.height
    let w ← c.length c.width cw cw ch none
    let h ← c.length c.height ch cw ch none
    let x ← c.length c.x (.int 0) cw ch (some (w, h))
    let y ← c.length c.y (.int 0) cw ch (some (w, h))
    let w ← Report.ofNumber (lengthFrom c.width w x)
    let h ← Report.ofNumber (lengthFrom c.height h y)
    let mode := c.settings.freeRounding
    let left ← Report.ofNumber (container.x.add (.int (← x.toPixel mode)))
    let top ← Report.ofNumber (container.y.add (.int (← y.toPixel mode)))
    let width ← w.toPixel mode
    let height ← h.toPixel mode
    return ⟨left, top, .int (max width 0), .int (max height 0)⟩

/-- An expression as messages show it. -/
def shownExpression (e : Option Expression) : String :=
  match e with
  | none => "None"
  | some e => e.shown

/-- The component as messages show it, after the word for its kind. -/
def shown (c : Component) (kind : String) : String :=
  let name := if c.name.isTruthy then " " ++ c.name.shown else ""
  match c.location with
  | some l => s!"<{kind}{name} at cell ({l.column.text}, {l.row.text})>"
  | none =>
    s!"<{kind}{name} x={shownExpression c.x} y={shownExpression c.y} " ++
      s!"w={shownExpression c.width} h={shownExpression c.height}>"

end Component

end PanelLayout
