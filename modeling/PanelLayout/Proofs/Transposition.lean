import PanelLayout.Proofs.Component.Lengths
import PanelLayout.Proofs.Expression.Values
import PanelLayout.Proofs.Grid.Alignment

/-!
# The two axes

Both axes are treated alike: if everything that is given is mirrored at the diagonal, so is what
comes out, for free components and for the cells of a grid.
-/

namespace PanelLayout

/-- The built-in name for the same on the other axis. -/
def transposedName : String → String
  | "width" => "height"
  | "height" => "width"
  | "centerx" => "centery"
  | "centery" => "centerx"
  | name => name

def Variable.transposed (v : Variable) : Variable :=
  match v.scope with
  | .custom => v
  | .container | .own => { v with name := transposedName v.name }

namespace Expression

/-- An expression with all its variables on the other axis. Marks stay. -/
def transposed : Expression → Expression
  | .constant n b => .constant n b
  | .variable v b => .variable v.transposed b
  | .negation e b => .negation e.transposed b
  | .operation op l r b => .operation op l.transposed r.transposed b

end Expression

def Context.transposed (c : Context) : Context := ⟨c.height, c.width, c.own.map Prod.swap, c.custom⟩

def Rectangle.transposed (r : Rectangle) : Rectangle := ⟨r.y, r.x, r.height, r.width⟩

def Location.transposed (l : Location) : Location := ⟨l.row, l.column⟩

def Component.transposed (c : Component) : Component :=
  { c with
    location := c.location.map Location.transposed
    x := c.y.map Expression.transposed
    y := c.x.map Expression.transposed
    width := c.height.map Expression.transposed
    height := c.width.map Expression.transposed }

def GridAxis.transposed (a : GridAxis) : GridAxis :=
  { a with
    margin := a.margin.map Expression.transposed
    frame := a.frame.map Expression.transposed }

def GridShape.transposed (g : GridShape) : GridShape :=
  ⟨g.vertical.transposed, g.horizontal.transposed⟩

def Grid.transposed {α : Type} (g : Grid α) : Grid α :=
  { toGridShape := g.toGridShape.transposed
    entries := g.entries.map fun e => (e.1.transposed, e.2) }

@[simp] theorem Rectangle.transposed_transposed (r : Rectangle) : r.transposed.transposed = r := rfl

@[simp] theorem Location.transposed_transposed (l : Location) : l.transposed.transposed = l := rfl

@[simp] theorem Grid.toGridShape_transposed {α : Type} (g : Grid α) :
    g.transposed.toGridShape = g.toGridShape.transposed := rfl

private theorem transposedName_of_notMem {name : String} (h : name ∉ builtinNames) :
    transposedName name = name := by
  unfold transposedName
  split <;> simp_all [builtinNames]

theorem transposedName_transposedName (name : String) :
    transposedName (transposedName name) = name := by
  by_cases hname : name ∈ builtinNames
  · simp only [builtinNames, List.mem_cons, List.not_mem_nil, or_false] at hname
    rcases hname with rfl | rfl | rfl | rfl <;> rfl
  · rw [transposedName_of_notMem hname, transposedName_of_notMem hname]

@[simp] theorem Variable.transposed_transposed (v : Variable) : v.transposed.transposed = v := by
  obtain ⟨name, scope⟩ := v
  cases scope <;> simp [transposed, transposedName_transposedName]

namespace Context

theorem containerValue?_transposed (c : Context) (name : String) :
    c.transposed.containerValue? (transposedName name) = c.containerValue? name := by
  unfold transposedName
  split
  all_goals first | rfl | simp_all [containerValue?]

theorem ownValue?_transposed (c : Context) (name : String) (width height : Number) :
    c.transposed.ownValue? (transposedName name) height width = c.ownValue? name width height := by
  unfold transposedName
  split
  all_goals first | rfl | simp_all [ownValue?]

theorem value?_transposed (c : Context) (v : Variable) :
    c.transposed.value? v.transposed = c.value? v := by
  obtain ⟨name, scope⟩ := v
  obtain ⟨width, height, own, custom⟩ := c
  cases scope with
  | container => exact containerValue?_transposed _ name
  | custom => rfl
  | own =>
    cases own with
    | none => rfl
    | some size => exact ownValue?_transposed _ name size.1 size.2

end Context

namespace Expression

variable {e : Expression} {c : Context} {x : Double}

@[simp] theorem transposed_transposed (e : Expression) : e.transposed.transposed = e := by
  induction e with
  | constant n b => rfl
  | «variable» v b => simp [transposed]
  | negation e b ih => simp [transposed, ih]
  | operation op l r b ihl ihr => simp [transposed, ihl, ihr]

@[simp] theorem ends_transposed (e : Expression) : e.transposed.ends = e.ends := by
  cases e <;> rfl

theorem references_transposed (e : Expression) :
    e.transposed.references = e.references.map fun r => (r.1.transposed, r.2) := by
  induction e with
  | constant n b => rfl
  | «variable» v b => rfl
  | negation e b ih => exact ih
  | operation op l r b ihl ihr => simp [transposed, references, ihl, ihr]

theorem variableList_transposed (e : Expression) :
    e.transposed.variableList = e.variableList.map Variable.transposed := by
  simp [variableList, references_transposed]

theorem plainValue_transposed (e : Expression) (value : Variable → Number) :
    e.transposed.plainValue value = e.plainValue (value ∘ Variable.transposed) := by
  induction e with
  | constant n b => rfl
  | «variable» v b => rfl
  | negation e b ih => rw [transposed, plainValue, plainValue, ih]
  | operation op l r b ihl ihr => rw [transposed, plainValue, plainValue, ihl, ihr]

theorem evaluate_transposed (h : e.evaluate c = .ok x) :
    e.transposed.evaluate c.transposed = .ok x := by
  obtain ⟨value, hbound, hcomputed⟩ := ComputesTo.of_evaluate h
  -- transposed variables have the values of the variables that they come from
  have hback : (value ∘ Variable.transposed) ∘ Variable.transposed = value := by
    funext v
    simp
  have hbound' : ∀ v ∈ e.transposed.variableList,
      c.transposed.value? v = .ok (some ((value ∘ Variable.transposed) v)) := by
    intro v hv
    rw [variableList_transposed] at hv
    obtain ⟨w, hw, rfl⟩ := List.mem_map.mp hv
    rw [Context.value?_transposed, hbound w hw]
    simp
  rw [evaluate_of_value hbound', plainValue_transposed, hback, hcomputed]
  rfl

end Expression

theorem Variables.evaluate_transposed {registry : Variables} {e : Expression}
    {width height : Number} {own : Option (Number × Number)} {x : Double}
    (h : registry.evaluate e width height own = .ok x) :
    registry.evaluate e.transposed height width (own.map Prod.swap) = .ok x := by
  have hvalue := Expression.evaluate_transposed (mapError_eq_ok_iff.mp h)
  exact mapError_eq_ok_iff.mpr hvalue

theorem Rectangle.shrunk_transposed {r area : Rectangle} {dx dy : Number}
    (h : r.shrunk dx dy = .ok area) :
    r.transposed.shrunk dy dx = .ok area.transposed := by
  obtain ⟨⟨x, width⟩, hx, h⟩ := bind_eq_ok_iff.mp h
  obtain ⟨⟨y, height⟩, hy, h⟩ := bind_eq_ok_iff.mp h
  obtain rfl := Except.ok.inj h
  simp only [shrunk, transposed, hx, hy, ok_bind]
  rfl

namespace Component

variable {c : Component} {container r : Rectangle}

@[simp] theorem transposed_transposed (c : Component) : c.transposed.transposed = c := by
  have hexpression : Expression.transposed ∘ Expression.transposed = id :=
    funext Expression.transposed_transposed
  have hlocation : Location.transposed ∘ Location.transposed = id := rfl
  simp [transposed, hexpression, hlocation]

theorem length_transposed {e : Option Expression} {default width height n : Number}
    {own : Option (Number × Number)} (h : c.length e default width height own = .ok n) :
    c.transposed.length (e.map Expression.transposed) default height width (own.map Prod.swap) =
      .ok n := by
  cases e with
  | none => exact h
  | some e =>
    obtain ⟨x, hx, h⟩ := bind_eq_ok_iff.mp h
    have hvalue := Variables.evaluate_transposed hx
    exact bind_eq_ok_iff.mpr ⟨x, hvalue, h⟩

theorem lengthFrom_transposed (size : Option Expression) (length position : Number) :
    lengthFrom (size.map Expression.transposed) length position =
      lengthFrom size length position := by
  cases size with
  | none => rfl
  | some e => simp [lengthFrom]

theorem HasLengths.transposed {given : Number × Number} {x y width height : Number}
    (h : c.HasLengths container given x y width height) :
    c.transposed.HasLengths container.transposed given.swap y x height width where
  givenWidth := (length_transposed h.givenHeight :)
  givenHeight := (length_transposed h.givenWidth :)
  valueX := (length_transposed h.valueY :)
  valueY := (length_transposed h.valueX :)
  restWidth := (lengthFrom_transposed ..).trans h.restHeight
  restHeight := (lengthFrom_transposed ..).trans h.restWidth

theorem IsRounded.transposed {mode : Rounding} {x y width height : Number}
    (h : IsRounded mode container x y width height r) :
    IsRounded mode container.transposed y x height width r.transposed := by
  obtain ⟨left, top, w, h, hleft, htop, hw, hh, hx, hy, hrw, hrh⟩ := h
  exact ⟨top, left, h, w, htop, hleft, hh, hw, hy, hx, hrh, hrw⟩

theorem renderRect_transposed (h : (c.renderRect container).result = .ok r) :
    (c.transposed.renderRect container.transposed).result = .ok r.transposed := by
  cases hlocation : c.location with
  | some location =>
    have hgiven : (c.renderRect container) = pure container := by rw [renderRect, hlocation]; rfl
    have hgiven' : (c.transposed.renderRect container.transposed) = pure container.transposed := by
      rw [renderRect, transposed, hlocation]
      rfl
    rw [hgiven] at h
    obtain rfl := Except.ok.inj h
    rw [hgiven']
    rfl
  | none =>
    have hlocation' : c.transposed.location = none := by rw [transposed, hlocation]; rfl
    obtain ⟨given, x, y, width, height, hlengths, hrounded⟩ := (renderRect_eq_ok_iff hlocation).mp h
    exact (renderRect_eq_ok_iff hlocation').mpr ⟨_, y, x, height, width, hlengths.transposed,
      hrounded.transposed⟩

end Component

namespace GridShape

variable {g : GridShape} {registry : Variables} {mode : Rounding} {container : Rectangle}

@[simp] theorem transposed_transposed (g : GridShape) : g.transposed.transposed = g := by
  have hexpression : Expression.transposed ∘ Expression.transposed = id :=
    funext Expression.transposed_transposed
  simp [transposed, GridAxis.transposed, hexpression]

theorem marginPixels_transposed {e : Option Expression} {n : Int}
    (h : (marginPixels registry mode container e).result = .ok n) :
    (marginPixels registry mode container.transposed (e.map Expression.transposed)).result =
      .ok n := by
  cases e with
  | none => exact h
  | some e =>
    obtain ⟨x, hx, h⟩ := Report.result_bind_eq_ok_iff.mp h
    have hvalue := Variables.evaluate_transposed hx
    exact Report.result_bind_eq_ok_iff.mpr ⟨x, hvalue, h⟩

theorem inset_transposed {area : Rectangle} {marginX marginY : Int}
    (h : (g.inset registry mode container).result = .ok (area, marginX, marginY)) :
    (g.transposed.inset registry mode container.transposed).result =
      .ok (area.transposed, marginY, marginX) := by
  simp only [inset, Report.result_bind_eq_ok_iff, Report.result_ofNumber_eq_ok_iff] at h ⊢
  obtain ⟨frameX, hframeX, frameY, hframeY, area', harea, mx, hmx, my, hmy, h⟩ := h
  obtain ⟨rfl, rfl, rfl⟩ : area' = area ∧ mx = marginX ∧ my = marginY := by simpa using h
  exact ⟨frameY, marginPixels_transposed hframeY, frameX, marginPixels_transposed hframeX,
    area'.transposed, Rectangle.shrunk_transposed harea, my, marginPixels_transposed hmy, mx,
    marginPixels_transposed hmx, rfl⟩

theorem resolveAt_transposed {location : Location} {r : Rectangle}
    (h : (g.resolveAt registry mode location container).result = .ok r) :
    (g.transposed.resolveAt registry mode location.transposed container.transposed).result =
      .ok r.transposed := by
  obtain ⟨hcolumn, hrow, area, marginX, marginY, p, q, hinset, hp, hq, rfl⟩ :=
    resolveAt_eq_ok_iff.mp h
  exact resolveAt_eq_ok_iff.mpr
    ⟨hrow, hcolumn, area.transposed, marginY, marginX, q, p, inset_transposed hinset, hq, hp, rfl⟩

end GridShape

/-- The two axes are treated alike. A component whose expressions are transposed and exchanged
between the axes takes the transposed rectangle in the transposed container, and takes none where
the component takes none. In a grid whose columns and rows are exchanged, with transposed margins
and frames, the mirrored cell is the transposed rectangle. -/
theorem axes_alike :
    (∀ (c : Component) (container r : Rectangle), (c.renderRect container).result = .ok r ↔
      (c.transposed.renderRect container.transposed).result = .ok r.transposed) ∧
    ∀ (α : Type) (g : Grid α) (registry : Variables) (mode : Rounding) (location : Location)
      (container r : Rectangle), (g.resolveAt registry mode location container).result = .ok r ↔
        (g.transposed.resolveAt registry mode location.transposed container.transposed).result =
          .ok r.transposed := by
  constructor
  · intro c container r
    constructor
    · exact Component.renderRect_transposed
    · intro h
      simpa using Component.renderRect_transposed h
  · intro α g registry mode location container r
    constructor
    · exact GridShape.resolveAt_transposed
    · intro h
      simpa using GridShape.resolveAt_transposed h

end PanelLayout
