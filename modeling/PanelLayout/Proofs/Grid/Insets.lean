import PanelLayout.Grid.Basic

/-!
# Insets

Margins and frames are set alike: one expression is read and stored, then the other one. So a grid
whose margins or frames are set is the old one with one or two expressions put in, or with none.
-/

namespace PanelLayout

/-- What keeps cells apart, and what keeps them from the edges of the container. -/
inductive Inset where
  | margin
  | frame

def GridAxis.inset (a : GridAxis) : Inset → Option Expression
  | .margin => a.margin
  | .frame => a.frame

def GridAxis.withInset (a : GridAxis) (inset : Inset) (e? : Option Expression) : GridAxis :=
  match inset with
  | .margin => { a with margin := e? }
  | .frame => { a with frame := e? }

namespace GridAxis

variable (a : GridAxis) (inset : Inset) (e? : Option Expression)

@[simp] theorem inset_withInset : (a.withInset inset e?).inset inset = e? := by
  cases inset <;> rfl

@[simp] theorem weights_withInset : (a.withInset inset e?).weights = a.weights := by
  cases inset <;> rfl

@[simp] theorem count_withInset : (a.withInset inset e?).count = a.count := by
  cases inset <;> rfl

end GridAxis

namespace Grid

variable {α : Type} {g : Grid α} {inset : Inset} {x y : Json}

def withInset (g : Grid α) (inset : Inset) (axis : Axis) (e? : Option Expression) : Grid α :=
  match axis with
  | .horizontal => { g with horizontal := g.horizontal.withInset inset e? }
  | .vertical => { g with vertical := g.vertical.withInset inset e? }

def setInsets (g : Grid α) : Inset → Json → Json → Except LayoutError Unit × Grid α
  | .margin => g.setMargins
  | .frame => g.setFrames

theorem setInsets_eq (g : Grid α) (inset : Inset) (x y : Json) :
    g.setInsets inset x y =
      match optionalExpression {} x with
      | .error error => (.error error, g)
      | .ok x? =>
        match optionalExpression {} y with
        | .error error => (.error error, g.withInset inset .horizontal x?)
        | .ok y? => (.ok (), (g.withInset inset .horizontal x?).withInset inset .vertical y?) := by
  cases inset <;> rfl

/-- What every stored expression keeps is kept by setting insets, even if the second expression is
refused. -/
theorem setInsets_preserves {P : Grid α → Prop}
    (hput : ∀ g axis v e?, optionalExpression {} v = .ok e? → P g → P (g.withInset inset axis e?))
    (hg : P g) :
    P (g.setInsets inset x y).2 := by
  rw [setInsets_eq]
  cases hx : optionalExpression {} x with
  | error error => exact hg
  | ok x? =>
    have hstored := hput g .horizontal x x? hx hg
    cases hy : optionalExpression {} y with
    | error error => exact hstored
    | ok y? => exact hput _ .vertical y y? hy hstored

end Grid

end PanelLayout
