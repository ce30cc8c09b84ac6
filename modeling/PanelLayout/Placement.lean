import PanelLayout.Element
import PanelLayout.TextScale

/-!
# Layout passes

A layout pass lists every visible component of a panel tree with its rectangle, a panel before what
it holds. The root is listed whether it is visible or not.
-/

namespace PanelLayout

/-- A component in its place. -/
structure Placement where
  component : Component
  isPanel : Bool
  rect : Rectangle
  scale : TextScale
  /-- Level of nesting, zero for the root. -/
  depth : Nat

namespace Element

/-- The rectangle of a child of a panel that takes a container. -/
def childRect (panel : Component) (shape : GridShape) (container : Rectangle) (e : Element) :
    Report Rectangle :=
  match e.component.location with
  | none => e.component.renderRect container
  | some location => do
    let rect ← shape.resolveAt panel.registry panel.settings.gridRounding location container
    e.component.renderRect rect

mutual
/-- An element in its rectangle and everything in it. -/
def place (scale : TextScale) (depth : Nat) (rect : Rectangle) : Element → Report (List Placement)
  | .leaf c => return [⟨c, false, rect, scale, depth⟩]
  | .panel c body es => do
    let inner := if body.textResize then scale else { scale with enabled := false }
    let held ← placeIn c body.shape inner (depth + 1) rect es
    return ⟨c, true, rect, scale, depth⟩ :: held

/-- The visible ones of some children of a panel that takes a container. -/
def placeIn (panel : Component) (shape : GridShape) (scale : TextScale) (depth : Nat)
    (container : Rectangle) :
    List Element → Report (List Placement)
  | [] => return []
  | e :: es => do
    if !e.component.visible then placeIn panel shape scale depth container es
    else
      let rect ← e.childRect panel shape container
      let here ← place scale depth rect e
      let later ← placeIn panel shape scale depth container es
      return here ++ later
end

/-- The layout pass of a root in a container. -/
def layout (root : Element) (container : Rectangle) : Report (List Placement) := do
  let rect ← root.component.renderRect container
  root.place (.forRoot container root.component.settings) 0 rect

/-- What a panel that takes a container holds. -/
def layoutChildren (root : Element) (container : Rectangle) : Report (List Placement) :=
  match root with
  | .leaf _ => return []
  | .panel c body es => do
    let scale := TextScale.forRoot container c.settings
    let inner := if body.textResize then scale else { scale with enabled := false }
    placeIn c body.shape inner 1 container es

end Element

end PanelLayout
