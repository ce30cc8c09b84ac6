import PanelLayout.Document

/-!
# Scenes

A scene holds components and panels that are built and changed one step at a time. Each has a key.
Several may share one registry of variables or one object of settings, and a panel holds others by
their keys, so that a component can be moved between cells and panels.
-/

namespace PanelLayout

/-- The place of something in a scene. -/
abbrev Key := Nat

/-- What a panel of a scene holds. -/
structure PanelNode where
  grid : Grid Key := {}
  free : List Key := []
  textResize : Bool := true

/-- A component of a scene. Its variables and settings are those under the two keys. -/
structure SceneNode where
  component : Component
  registry : Key
  settings : Key
  panel : Option PanelNode := none

instance : Inhabited SceneNode := ⟨⟨{}, 0, 0, none⟩⟩

structure Scene where
  nodes : Array SceneNode := #[]
  registries : Array Variables := #[]
  settings : Array Settings := #[]

namespace Scene

instance : Inhabited Scene := ⟨{}⟩

def addVariables (s : Scene) (vs : Variables) : Key × Scene :=
  (s.registries.size, { s with registries := s.registries.push vs })

def addSettings (s : Scene) (settings : Settings) : Key × Scene :=
  (s.settings.size, { s with settings := s.settings.push settings })

def addNode (s : Scene) (node : SceneNode) : Key × Scene :=
  (s.nodes.size, { s with nodes := s.nodes.push node })

def node (s : Scene) (key : Key) : SceneNode := s.nodes[key]?.getD default

/-- The component under a key with its present variables and settings. -/
def component (s : Scene) (key : Key) : Component :=
  let node := s.node key
  { node.component with
    registry := s.registries[node.registry]?.getD {}
    settings := s.settings[node.settings]?.getD {} }

def setNode (s : Scene) (key : Key) (node : SceneNode) : Scene :=
  { s with nodes := s.nodes.setIfInBounds key node }

def setComponent (s : Scene) (key : Key) (c : Component) : Scene :=
  s.setNode key { s.node key with component := c }

def setLocation (s : Scene) (key : Key) (location : Option Location) : Scene :=
  s.setComponent key { (s.node key).component with location }

def setPanel (s : Scene) (key : Key) (panel : PanelNode) : Scene :=
  s.setNode key { s.node key with panel := some panel }

def setVariables (s : Scene) (key : Key) (vs : Variables) : Scene :=
  { s with registries := s.registries.setIfInBounds (s.node key).registry vs }

def setSettings (s : Scene) (key : Key) (settings : Settings) : Scene :=
  { s with settings := s.settings.setIfInBounds (s.node key).settings settings }

def isPanel (s : Scene) (key : Key) : Bool := (s.node key).panel.isSome

/-- The panel under a key, empty if there is none. -/
def panel (s : Scene) (key : Key) : PanelNode := (s.node key).panel.getD {}

/-- The component under a key as messages show it. -/
def shown (s : Scene) (key : Key) : String :=
  (s.component key).shown (Element.kindName (s.isPanel key))

/-- Adds a free component to a panel, unless it is there already. -/
def add (s : Scene) (panel child : Key) : Except LayoutError Scene :=
  if (s.component child).location.isSome then .error (.gridded (s.shown child))
  else
    let p := s.panel panel
    if p.free.contains child then .ok s
      else .ok (s.setPanel panel { p with free := p.free ++ [child] })

/-- Puts a component into a cell of a panel. Whatever was there loses its location, and the
component leaves the cell that it held before. A cell outside of the grid is refused after that. -/
def addToGrid (s : Scene) (panel child : Key) (location : Location) :
    Except LayoutError Unit × Scene :=
  let p := s.panel panel
  let s :=
    match p.grid.at? location with
    | some old => if old = child then s else s.setLocation old none
    | none => s
  let grid :=
    match p.grid.locationOf? child with
    | some held => (p.grid.withdraw child held false).2
    | none => p.grid
  match grid.add child location with
  | .error e => (.error e, s.setPanel panel { s.panel panel with grid })
  | .ok grid =>
    (.ok (), (s.setPanel panel { s.panel panel with grid }).setLocation child (some location))

/-- Removes a component from a panel and tells whether it was there. -/
def remove (s : Scene) (panel child : Key) (resize : Bool) : Bool × Scene :=
  let p := s.panel panel
  match (s.component child).location with
  | some location =>
    let (removed, grid) := p.grid.withdraw child location resize
    if removed then (true, (s.setPanel panel { p with grid }).setLocation child none)
      else (false, s)
  | none =>
    if p.free.contains child then (true, s.setPanel panel { p with free := p.free.erase child })
      else (false, s)

/-- What a panel holds, in the order of painting. -/
def children (s : Scene) (panel : Key) : List Key :=
  let p := s.panel panel
  Element.paintOrder p.grid.entries ++ p.free

/-- The first component of a given name below a panel, each looked at before what it holds. The
first argument bounds the depth of the search. -/
def findWithin : Nat → Scene → Json → Key → Option Key
  | 0, _, _, _ => none
  | n + 1, s, name, panel =>
    (s.children panel).findSome? fun child =>
      if (s.component child).name.equals name then some child
      else if s.isPanel child then findWithin n s name child
      else none

def find? (s : Scene) (name : Json) (panel : Key) : Option Key :=
  findWithin (s.nodes.size + 1) s name panel

/-- Whether a panel lays out one of its children: a visible one that is free or sits in the cell
that it recorded. -/
def isLaidOut (s : Scene) (panel child : Key) : Bool :=
  let c := s.component child
  c.visible &&
    match c.location with
    | none => true
    | some location => (s.panel panel).grid.holds child location

/-- What is laid out below a key. The first argument bounds the depth; a panel that shows itself has
no end. -/
def elementWithin : Nat → Scene → Key → Except LayoutError Element
  | 0, _, _ => .error .endless
  | n + 1, s, key =>
    match (s.node key).panel with
    | none => .ok (.leaf (s.component key))
    | some p => do
      let children ← ((s.children key).filter (s.isLaidOut key)).mapM (elementWithin n s)
      return .panel (s.component key) ⟨p.grid.toGridShape, p.textResize⟩ children

/-- The tree of all that is laid out below a key. -/
def element (s : Scene) (key : Key) : Except LayoutError Element :=
  elementWithin (s.nodes.size + 1) s key

mutual
/-- Adds a panel tree to a scene, with shared settings and variables of its own for each
component. -/
def insert (settings : Key) (s : Scene) : Element → Key × Scene
  | .leaf c =>
    let (registry, s) := s.addVariables c.registry
    s.addNode ⟨c, registry, settings, none⟩
  | .panel c body es =>
    let (registry, s) := s.addVariables c.registry
    let (held, s) := insertAll settings s es
    let cells := held.filterMap fun (key, location) => location.map fun l => (l, key)
    let free := held.filterMap fun (key, location) => if location.isNone then some key else none
    s.addNode ⟨c, registry, settings, some ⟨⟨body.shape, cells⟩, free, body.textResize⟩⟩

def insertAll (settings : Key) (s : Scene) : List Element → List (Key × Option Location) × Scene
  | [] => ([], s)
  | e :: es =>
    let (key, s) := insert settings s e
    let (held, s) := insertAll settings s es
    ((key, e.component.location) :: held, s)
end

end Scene

end PanelLayout
