import PanelLayout.Placement

/-!
# Layout documents

A panel tree written as JSON: objects for components and panels, with the children of a panel in an
array. Unknown keys are reported and ignored; everything that a key holds is checked when the tree
is built.
-/

namespace PanelLayout

namespace Document

/-- Keys of every node. -/
def componentKeys : List String :=
  ["type", "name", "x", "y", "width", "height", "column", "row", "visible", "variables"]

/-- Keys of a panel. -/
def panelKeys : List String :=
  componentKeys ++ ["children", "margin", "frame", "column_weights", "row_weights", "text_resize"]

abbrev Members := List (String × Json)

/-- The value under a key, `null` without it. -/
def value (node : Members) (key : String) : Json := (Json.get? node key).getD .null

/-- A flag that is set if its key is absent. -/
def flag (node : Members) (key : String) : Bool :=
  ((Json.get? node key).map Json.isTruthy).getD true

/-- Whether a node is a panel: as its type says, otherwise if it has children. -/
def isPanel (node : Members) : Bool :=
  match Json.get? node "type" with
  | some (.text s) => s == "panel"
  | some _ => false
  | none => (Json.get? node "children").isSome

/-- Reports the keys that a node should not have, in order. -/
def checkKeys (node : Members) : Report Unit :=
  let known := if isPanel node then panelKeys else componentKeys
  let unknown := (node.map Prod.fst).filter (!known.contains ·)
  if unknown.isEmpty then return ()
  else Report.warn (.unknownKeys (unknown.mergeSort fun a b => decide (a ≤ b)) (value node "name"))

/-- The members of an object under a key, none without the key. -/
def membersOf (node : Members) (key : String) : Except LayoutError Members :=
  match Json.get? node key with
  | none => .ok []
  | some (.object members) => .ok members
  | some v => .error (.conversion (.notObject v.kind))

/-- Two values under a key: the same text twice, or two parts. -/
def pairOf (v : Json) : Except ConversionError (Json × Json) :=
  match v with
  | .text _ => .ok (v, v)
  | v => v.toPair

/-- What a node says about the component itself. -/
def componentOf (settings : Settings) (node : Members) : Except LayoutError Component := do
  let c : Component := { name := value node "name", visible := flag node "visible", settings }
  let c ← c.withGeometry (value node "x") (value node "y") (value node "width")
    (value node "height")
  let registry ← (← membersOf node "variables").foldlM (fun vs m =>
    vs.define (.text m.1) m.2) c.registry
  return { c with registry }

/-- Applies the pair under a key, unless it is absent. -/
def withPair {α : Type} (node : Members) (key : String) (g : Grid α)
    (set : Grid α → Json → Json → Except LayoutError Unit × Grid α) : Except LayoutError (Grid α) :=
  match Json.getSome? node key with
  | none => .ok g
  | some v => do
    let (x, y) ← (pairOf v).mapError .conversion
    let (done, g) := set g x y
    done
    return g

/-- Gives tracks the weights under a key. -/
def withWeights {α : Type} (node : Members) (key : String) (g : Grid α)
    (set : Grid α → Number → Json → Except LayoutError (Grid α)) : Except LayoutError (Grid α) := do
  (← membersOf node key).foldlM (fun g m => do
    let track ← (Json.wholeNumeral m.1).mapError .conversion
    set g (.int track) m.2) g

/-- The grid of a panel before its children are placed. -/
def emptyGrid (node : Members) : Except LayoutError (Grid Element) := do
  let g ← withPair node "margin" {} Grid.setMargins
  let g ← withPair node "frame" g Grid.setFrames
  let g ← withWeights node "column_weights" g Grid.setColumnWeight
  withWeights node "row_weights" g Grid.setRowWeight

/-- The location that a node asks for, if it asks for one. -/
def locationOf? (node : Members) : Except LayoutError (Option Location) :=
  match Json.get? node "column", Json.get? node "row" with
  | none, none => .ok none
  | column, row => do
    let column ← ((column.getD (.number (.int 0))).toInt).mapError .conversion
    let row ← ((row.getD (.number (.int 0))).toInt).mapError .conversion
    return some (.ofInts column row)

/-- Whether a node says anything about its place or size. -/
def hasGeometry (node : Members) : Bool :=
  ["x", "y", "width", "height"].any fun key => (Json.getSome? node key).isSome

/-- The children placed so far: those in cells, then the free ones. -/
abbrev Held := Grid Element × List Element

/-- Places one child, given by its node and the element built from it. -/
def placeChild (held : Held) (node : Json) (element : Report Element) : Report Held := do
  let child ← element
  let members :=
    match node with
    | .object members => members
    | _ => []
  let asked := (Json.get? members "column").isSome || (Json.get? members "row").isSome
  if asked && hasGeometry members then Report.warn (.griddedGeometry (value members "name"))
  match ← (locationOf? members : Except LayoutError (Option Location)) with
  | none => return (held.1, held.2 ++ [child])
  | some location => do
    let grid ← held.1.add (child.withLocation location) location
    return (grid, held.2)

/-- The children of a node, each with the element built from it, where `built` has them if they are
in an array. -/
def childrenOf (node : Members) (built : List (Json × Report Element)) :
    Report (List (Json × Report Element)) :=
  match Json.get? node "children" with
  | none => return []
  | some (.array _) => return built
  | some v =>
    match v.parts? with
    | some parts => return parts.map fun p => (p, Report.fail (.notNode p))
    | none => Report.fail (.conversion (.notList v.kind))

/-- The element of a node, given what is built from the items of its children. -/
def assemble (settings : Settings) (node : Members) (built : List (Json × Report Element)) :
    Report Element := do
  checkKeys node
  let c ← componentOf settings node
  if !isPanel node then return .leaf c
  let grid ← emptyGrid node
  let children ← childrenOf node built
  let (grid, free) ← children.foldlM (fun held child => placeChild held child.1 child.2)
    ((grid, []) : Held)
  let body : PanelBody := ⟨grid.toGridShape, flag node "text_resize"⟩
  return .panel c body (Element.paintOrder grid.entries ++ free)

mutual
/-- The element that a value describes. -/
def load (settings : Settings) : Json → Report Element
  | .object members => assemble settings members (loadChildren settings members)
  | v => Report.fail (.notNode v)

/-- The items of the children among some members, each with the element that it describes. -/
def loadChildren (settings : Settings) : List (String × Json) → List (Json × Report Element)
  | [] => []
  | (key, v) :: members =>
    if key = "children" then loadArray settings v else loadChildren settings members

def loadArray (settings : Settings) : Json → List (Json × Report Element)
  | .array items => loadItems settings items
  | _ => []

def loadItems (settings : Settings) : List Json → List (Json × Report Element)
  | [] => []
  | v :: vs => (v, load settings v) :: loadItems settings vs
end

/-- The panel tree that a value describes. -/
def loadPanel (v : Json) (settings : Settings := {}) : Report Element := do
  let e ← load settings v
  if e.isPanel then return e else Report.fail .rootNotPanel

end Document

end PanelLayout
