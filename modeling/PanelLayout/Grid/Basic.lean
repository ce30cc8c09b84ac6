import PanelLayout.Grid.Axis

/-!
# Grids

A sparse grid of clients at columns and rows counted from zero. The number of tracks grows with what
is placed, and shrinks again when a cell at the boundary is removed.
-/

namespace PanelLayout

/-- A column and a row of a grid, counted from zero, as they were given. -/
structure Location where
  column : Number
  row : Number
  deriving DecidableEq

namespace Location

/-- The location of a cell. -/
def ofInts (column row : Int) : Location := ⟨.int column, .int row⟩

/-- Whether two locations are the same cell. -/
def equals (a b : Location) : Bool := a.column.equals b.column && a.row.equals b.row

@[simp] theorem equals_ofInts (c r c' r' : Int) :
    (ofInts c r).equals (ofInts c' r') = decide (c = c' ∧ r = r') := by
  simp [equals, ofInts]

end Location

/-- The tracks of a grid on both axes. -/
structure GridShape where
  horizontal : GridAxis := {}
  vertical : GridAxis := {}

namespace GridShape

instance : Inhabited GridShape := ⟨{}⟩

def columns (g : GridShape) : Number := g.horizontal.count

def rows (g : GridShape) : Number := g.vertical.count

/-- The rectangle of a cell in a container, whether the cell is taken or not. -/
def resolveAt (g : GridShape) (registry : Variables) (mode : Rounding) (location : Location)
    (container : Rectangle) :
    Report Rectangle := do
  if !(g.horizontal.has location.column && g.vertical.has location.row) then
    Report.fail (.outsideGrid location.column location.row g.columns g.rows)
  let frameX ← marginPixels registry mode container g.horizontal.frame
  let frameY ← marginPixels registry mode container g.vertical.frame
  let area ← Report.ofNumber (container.shrunk (.int frameX) (.int frameY))
  let marginX ← marginPixels registry mode area g.horizontal.margin
  let marginY ← marginPixels registry mode area g.vertical.margin
  let (x, width) ← g.horizontal.span mode area.x area.width marginX location.column
  let (y, height) ← g.vertical.span mode area.y area.height marginY location.row
  return ⟨x, y, width, height⟩

end GridShape

/-- Clients at cells, in the order in which the cells were first taken. -/
structure Grid (α : Type) extends GridShape where
  entries : List (Location × α) := []

namespace Grid

variable {α : Type}

instance : Inhabited (Grid α) := ⟨{}⟩

/-- The client at a cell. -/
def at? (g : Grid α) (location : Location) : Option α :=
  (g.entries.find? (·.1.equals location)).map Prod.snd

/-- Whether an entry is a client at the location that it recorded. -/
def isEntryOf [BEq α] (client : α) (location : Location) (e : Location × α) : Bool :=
  (decide (e.1 = location) || e.1.equals location) && e.2 == client

/-- Whether a client holds the cell at the location that it recorded. -/
def holds [BEq α] (g : Grid α) (client : α) (location : Location) : Bool :=
  g.entries.any (isEntryOf client location)

/-- The same grid with other numbers of tracks. -/
def withExtent (g : Grid α) (columns rows : Number) : Grid α :=
  { g with
    horizontal := { g.horizontal with count := columns }
    vertical := { g.vertical with count := rows } }

/-- The largest of some tracks, or a first one. -/
def lastTrack (first : Number) (tracks : List Number) : Number := tracks.foldl Number.max first

/-- The columns that the clients take. -/
def takenColumns (g : Grid α) : List Number := g.entries.map fun e => e.1.column

/-- The rows that the clients take. -/
def takenRows (g : Grid α) : List Number := g.entries.map fun e => e.1.row

/-- Takes a cell for a client. A client that was there before is replaced in its place of the
order. -/
def put (g : Grid α) (location : Location) (client : α) : Grid α :=
  let entries :=
    if (g.at? location).isSome then g.entries.map fun e => if e.1.equals location
      then (e.1, client) else e
    else g.entries ++ [(location, client)]
  { g with entries }.withExtent (g.columns.max location.column.succ) (g.rows.max location.row.succ)

/-- Places a client at a cell of the grid. -/
def add (g : Grid α) (client : α) (location : Location) : Except LayoutError (Grid α) :=
  if location.column.lt (.int 0) || location.row.lt (.int 0) then
    .error (.negativeCell location.column location.row)
  else .ok (g.put location client)

/-- One more than the largest of some tracks, zero if there are none. -/
def extentOf : List Number → Number
  | [] => .int 0
  | t :: ts => (lastTrack t ts).succ

/-- The grid with as many tracks as its clients take. -/
def shrinkToFit (g : Grid α) : Grid α :=
  g.withExtent (extentOf g.takenColumns) (extentOf g.takenRows)

/-- The number of tracks after a cell is emptied: fewer if the cell was in the last column or row,
and no other client reaches as far on both axes. -/
def shrinkAfter (g : Grid α) (location : Location) : Grid α :=
  let lastColumn := g.columns.pred
  let lastRow := g.rows.pred
  if location.column.equals lastColumn || location.row.equals lastRow then
    let column := lastTrack (.int 0) g.takenColumns
    let row := lastTrack (.int 0) g.takenRows
    if lastColumn.le column && lastRow.le row then g else g.withExtent column.succ row.succ
  else g

/-- The grid without some entries, one of which was at a location, and whether there were any. If
asked to, the grid shrinks. -/
def removeIf (g : Grid α) (p : Location × α → Bool) (location : Location) (resize : Bool) :
    Bool × Grid α :=
  let removed := g.entries.any p
  let g' := { g with entries := g.entries.filter (!p ·) }
  if !removed || !resize then (removed, g')
  else if g'.entries.isEmpty then (removed, g'.withExtent (.int 0) (.int 0))
  else (removed, g'.shrinkAfter location)

/-- Empties a cell and tells whether it was taken. -/
def remove (g : Grid α) (location : Location) (resize : Bool) : Bool × Grid α :=
  g.removeIf (·.1.equals location) location resize

/-- Takes a client out of the cell at the location that it recorded, and tells whether it was
there. -/
def withdraw [BEq α] (g : Grid α) (client : α) (location : Location) (resize : Bool) :
    Bool × Grid α :=
  g.removeIf (isEntryOf client location) location resize

/-- The first cell that a client holds. -/
def locationOf? [BEq α] (g : Grid α) (client : α) : Option Location :=
  (g.entries.find? (·.2 == client)).map Prod.fst

/-- Sets both margins, first the horizontal one. If the second one is refused the first one
stays. -/
def setMargins (g : Grid α) (x y : Json) : Except LayoutError Unit × Grid α :=
  match optionalExpression {} x with
  | .error e => (.error e, g)
  | .ok x =>
    let g := { g with horizontal := { g.horizontal with margin := x } }
    match optionalExpression {} y with
    | .error e => (.error e, g)
    | .ok y => (.ok (), { g with vertical := { g.vertical with margin := y } })

/-- Sets both frames, first the horizontal one. If the second one is refused the first one stays. -/
def setFrames (g : Grid α) (x y : Json) : Except LayoutError Unit × Grid α :=
  match optionalExpression {} x with
  | .error e => (.error e, g)
  | .ok x =>
    let g := { g with horizontal := { g.horizontal with frame := x } }
    match optionalExpression {} y with
    | .error e => (.error e, g)
    | .ok y => (.ok (), { g with vertical := { g.vertical with frame := y } })

def setColumnWeight (g : Grid α) (column : Number) (v : Json) : Except LayoutError (Grid α) := do
  return { g with horizontal := ← g.horizontal.setWeight column v }

def setRowWeight (g : Grid α) (row : Number) (v : Json) : Except LayoutError (Grid α) := do
  return { g with vertical := ← g.vertical.setWeight row v }

/-- The rectangle of a client that recorded a location, or nothing if another client or none is
there. -/
def resolve [BEq α] (g : Grid α) (registry : Variables) (mode : Rounding) (client : α)
    (location : Option Location) (container : Rectangle) : Report (Option Rectangle) :=
  match location with
  | none => return none
  | some location =>
    if g.holds client location then do return some (← g.resolveAt registry mode location container)
    else return none

/-- The grid as messages show it. -/
def shown (g : Grid α) : String :=
  s!"<GridFormatter {g.columns.text}x{g.rows.text} with {g.entries.length} entries>"

end Grid

end PanelLayout
