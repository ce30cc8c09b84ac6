import PanelLayout.Document

/-!
# Nodes of a document

What a layout pass has to do with a document, told by the document alone. A node is found by its
path, the places that it and the nodes around it have among their siblings. Some nodes are listed,
one before the other, and each has a rectangle in that of its parent.
-/

namespace PanelLayout

namespace Document

def items : Json → List Json
  | .object node =>
    if isPanel node then
      match Json.get? node "children" with
      | some (.array items) => items
      | _ => []
    else []
  | _ => []

def cell? : Json → Option (Int × Int)
  | .object node =>
    match locationOf? node with
    | .ok (some ⟨.int column, .int row⟩) => some (column, row)
    | _ => none
  | _ => none

def isVisible : Json → Bool
  | .object node => flag node "visible"
  | _ => false

def resizesText : Json → Bool
  | .object node => flag node "text_resize"
  | _ => true

/-- The component of a node, without its place in a grid. -/
def nodeComponent (settings : Settings) : Json → Except LayoutError Component
  | .object node => componentOf settings node
  | v => .error (.notNode v)

def cellAt (v : Json) (i : Nat) : Option (Int × Int) := (items v)[i]?.bind cell?

/-- Whether a child exists in the end. Of several that ask for the same cell only the last one
does. -/
def IsKept (v : Json) (i : Nat) : Prop :=
  i < (items v).length ∧ ∀ j, i < j → cellAt v j = cellAt v i → cellAt v i = none

/-- The order of siblings: cells row by row, then the free ones as they are written. -/
def Precedes (v : Json) (i j : Nat) : Prop :=
  match cellAt v i, cellAt v j with
  | some (column, row), some (column', row') => row < row' ∨ row = row' ∧ column < column'
  | some _, none => True
  | none, some _ => False
  | none, none => i < j

def nodeAt? : Json → List Nat → Option Json
  | v, [] => some v
  | v, i :: path => (items v)[i]?.bind (nodeAt? · path)

theorem nodeAt?_cons {v u : Json} {i : Nat} (hu : (items v)[i]? = some u) (path : List Nat) :
    nodeAt? v (i :: path) = nodeAt? u path := by
  rw [nodeAt?, hu]
  rfl

/-- Whether a layout pass lists the node at a path: whether it and all nodes around it exist and are
visible. The root is listed in any case. -/
inductive Listed : Json → List Nat → Prop
  | root (v : Json) : Listed v []
  | child {v u : Json} {i : Nat} {path : List Nat} :
      (items v)[i]? = some u → IsKept v i → isVisible u = true → Listed u path →
      Listed v (i :: path)

/-- The order of a layout pass: a node before what it holds, and all of one sibling before the next
one. -/
inductive Before : Json → List Nat → List Nat → Prop
  | inside (v : Json) (i : Nat) (path : List Nat) : Before v [] (i :: path)
  | across {v : Json} {i j : Nat} (p q : List Nat) : Precedes v i j → Before v (i :: p) (j :: q)
  | within {v u : Json} {i : Nat} {p q : List Nat} :
      (items v)[i]? = some u → Before u p q → Before v (i :: p) (i :: q)

def tracksFor (taken : List Int) : Int := taken.foldl (fun n t => max n (t + 1)) 0

/-- A grid with as many tracks as the cells that some nodes ask for. -/
def shapeFor (g : Grid Element) (us : List Json) : GridShape :=
  let cells := us.filterMap cell?
  (g.withExtent (.int (tracksFor (cells.map Prod.fst)))
    (.int (tracksFor (cells.map Prod.snd)))).toGridShape

def shapeOf : Json → Except LayoutError GridShape
  | .object node => do return shapeFor (← emptyGrid node) (items (.object node))
  | v => .error (.notNode v)

/-- Whether a child has a rectangle in a container that its parent takes: what its component
renders, or its cell. -/
def HasChildRect (settings : Settings) (v : Json) (container : Rectangle) (u : Json)
    (rect : Rectangle) : Prop :=
  match cell? u with
  | none => ∃ c, nodeComponent settings u = .ok c ∧ (c.renderRect container).result = .ok rect
  | some (column, row) => ∃ c shape, nodeComponent settings v = .ok c ∧ shapeOf v = .ok shape ∧
    (shape.resolveAt c.registry c.settings.gridRounding (.ofInts column row) container).result =
      .ok rect

inductive HasRect (settings : Settings) : Json → Rectangle → List Nat → Rectangle → Prop
  | root (v : Json) (container : Rectangle) : HasRect settings v container [] container
  | child {v u : Json} {container inner rect : Rectangle} {i : Nat} {path : List Nat} :
      (items v)[i]? = some u → HasChildRect settings v container u inner →
      HasRect settings u inner path rect → HasRect settings v container (i :: path) rect

def placeAt (v : Json) (path : List Nat) : Option Location :=
  if path = [] then none else ((nodeAt? v path).bind cell?).map fun l => .ofInts l.1 l.2

/-- Whether a placement is that of the node at a path, in a layout pass of the root in a
container. -/
structure IsPlacement (settings : Settings) (v : Json) (container : Rectangle) (path : List Nat)
    (p : Placement) : Prop where
  component : ∃ node c, nodeAt? v path = some (.object node) ∧ componentOf settings node = .ok c ∧
    p.component = { c with location := placeAt v path } ∧ p.isPanel = isPanel node
  depth : p.depth = path.length
  rect : ∃ c rect, nodeComponent settings v = .ok c ∧ (c.renderRect container).result = .ok rect ∧
    HasRect settings v rect path p.rect
  rootHeight : p.scale.rootHeight = container.height
  enabled : p.scale.enabled = false ↔
    ∃ around u, around <+: path ∧ around ≠ path ∧ nodeAt? v around = some u ∧ resizesText u = false

theorem Precedes.ne {v : Json} {i j : Nat} (h : Precedes v i j) : i ≠ j := by
  rintro rfl
  unfold Precedes at h
  cases hcell : cellAt v i with
  | none => simp [hcell] at h
  | some l =>
    simp only [hcell] at h
    omega

theorem Before.ne {v : Json} {p q : List Nat} (h : Before v p q) : p ≠ q := by
  induction h with
  | inside => exact List.cons_ne_nil _ _ |>.symm
  | across p q h => exact fun heq => h.ne (List.cons.inj heq).1
  | within _ _ ih => exact fun heq => ih (List.cons.inj heq).2

end Document

end PanelLayout
