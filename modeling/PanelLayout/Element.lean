import PanelLayout.Component

/-!
# Panel trees

A panel is a component that holds others, some in the cells of its grid and some in free form. They
are painted cells first, row by row, then the free ones in the order in which they were added.
-/

namespace PanelLayout

/-- What a panel adds to a component, besides the components that it holds. -/
structure PanelBody where
  shape : GridShape := {}
  /-- Whether text is scaled in what the panel holds. -/
  textResize : Bool := true

/-- A component and, if it is a panel, what it holds, in the order of painting. A child with a
location takes that cell of the grid. -/
inductive Element where
  | leaf (component : Component)
  | panel (component : Component) (body : PanelBody) (children : List Element)

namespace Element

instance : Inhabited Element := ⟨.leaf {}⟩

def component : Element → Component
  | .leaf c => c
  | .panel c _ _ => c

def children : Element → List Element
  | .leaf _ => []
  | .panel _ _ es => es

def isPanel : Element → Bool
  | .leaf _ => false
  | .panel .. => true

/-- The word for the kind of an element. -/
def kindName (isPanel : Bool) : String := if isPanel then "Panel" else "Component"

/-- The element with a place in a grid. -/
def withLocation (location : Location) : Element → Element
  | .leaf c => .leaf { c with location := some location }
  | .panel c body es => .panel { c with location := some location } body es

/-- Whether one cell is painted before another: row by row. -/
def paintedFirst (a b : Location) : Bool :=
  a.row.lt b.row || (a.row.equals b.row && a.column.lt b.column)

@[simp] theorem paintedFirst_ofInts (c r c' r' : Int) :
    paintedFirst (.ofInts c r) (.ofInts c' r') = decide (r < r' ∨ r = r' ∧ c < c') := by
  simp [paintedFirst, Location.ofInts]

/-- Entries of a grid in the order of painting. -/
def paintOrder {α : Type} (entries : List (Location × α)) : List α :=
  (entries.mergeSort fun a b => !paintedFirst b.1 a.1).map Prod.snd

mutual
/-- The first component of a given name among the descendants, each looked at before what it
holds. -/
def find? (name : Json) : Element → Option Element
  | .leaf _ => none
  | .panel _ _ es => findIn? name es

def findIn? (name : Json) : List Element → Option Element
  | [] => none
  | e :: es =>
    if e.component.name.equals name then some e
    else
      match find? name e with
      | some found => some found
      | none => findIn? name es
end

end Element

end PanelLayout
