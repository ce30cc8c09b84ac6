import PanelLayout.Component
import PanelLayout.Proofs.Computation

/-!
# Lengths of a component

The numbers from which the rectangle of a free component is made: the sizes as they are given, the
position, and the sizes counted from it.
-/

namespace PanelLayout

def Number.IsPixel (mode : Rounding) (n : Number) (pixel : Int) : Prop :=
  (n.toPixel mode).result = .ok pixel

namespace Component

/-- The lengths of a free component in a container. The given sizes are what positions may refer to;
an end coordinate among them becomes a size once the position is known. -/
structure HasLengths (c : Component) (container : Rectangle) (given : Number × Number)
    (x y width height : Number) : Prop where
  givenWidth : c.length c.width container.width container.width container.height none = .ok given.1
  givenHeight : c.length c.height container.height container.width container.height none =
    .ok given.2
  valueX : c.length c.x (.int 0) container.width container.height (some given) = .ok x
  valueY : c.length c.y (.int 0) container.width container.height (some given) = .ok y
  restWidth : lengthFrom c.width given.1 x = .ok width
  restHeight : lengthFrom c.height given.2 y = .ok height

def IsRounded (mode : Rounding) (container : Rectangle) (x y width height : Number)
    (r : Rectangle) : Prop :=
  ∃ left top w h : Int, x.IsPixel mode left ∧ y.IsPixel mode top ∧ width.IsPixel mode w ∧
    height.IsPixel mode h ∧
    container.x.add (.int left) = .ok r.x ∧ container.y.add (.int top) = .ok r.y ∧
    r.width = .int (max w 0) ∧ r.height = .int (max h 0)

/-- A free component is rounded from its lengths. -/
theorem renderRect_eq_ok_iff {c : Component} {container r : Rectangle} (hfree : c.location = none) :
    (c.renderRect container).result = .ok r ↔
      ∃ given x y width height, c.HasLengths container given x y width height ∧
        IsRounded c.settings.freeRounding container x y width height r := by
  unfold renderRect
  rw [hfree, Option.isSome_none, if_neg Bool.false_ne_true]
  simp only [Report.result_bind_eq_ok_iff, Report.result_ofNumber_eq_ok_iff, Report.result_liftM]
  constructor
  · rintro ⟨w, hw, h, hh, x, hx, y, hy, width, hwidth, height, hheight, px, hpx, left, hleft, py,
      hpy, top, htop, pw, hpw, ph, hph, hr⟩
    obtain rfl := Except.ok.inj hr
    exact ⟨(w, h), x, y, width, height, ⟨hw, hh, hx, hy, hwidth, hheight⟩, px, py, pw, ph, hpx, hpy,
      hpw, hph, hleft, htop, rfl, rfl⟩
  · rintro ⟨given, x, y, width, height, hlengths, left, top, w, h, hleft, htop, hw, hh, hrx,
      hry, hrw, hrh⟩
    refine ⟨given.1, hlengths.givenWidth, given.2, hlengths.givenHeight, x, hlengths.valueX, y,
      hlengths.valueY, width, hlengths.restWidth, height, hlengths.restHeight, left, hleft, r.x,
      hrx, top, htop, r.y, hry, w, hw, h, hh, ?_⟩
    rw [← hrw, ← hrh]
    rfl

end Component

end PanelLayout
