import PanelLayout.Proofs.Component.Lengths
import PanelLayout.Proofs.Expression.Range

/-!
# Rectangles in range

A component whose expressions are in range has a rectangle in range in every such container, unless
one of its variables has no value.
-/

namespace PanelLayout

def Rectangle.InRange (r : Rectangle) : Prop :=
  ∃ x y width height : Int, r = .ofInts x y width height ∧ (Number.int width).Fits ∧
    (Number.int height).Fits

def Number.IsLength (n default : Number) : Prop := n = default ∨ ∃ x, n = .double x

theorem Number.IsLength.fits {default n : Number} (h : n.IsLength default)
    (hdefault : default.Fits) : n.Fits := by
  rcases h with rfl | ⟨x, rfl⟩
  · exact hdefault
  · exact fits_double x

theorem Number.IsLength.fitsWithin {size : Int} {n : Number} (h : n.IsLength (.int size))
    (hsize : (int size).Fits) :
    (int size).FitsWithin n := by
  refine ⟨h.fits hsize, ?_⟩
  rcases h with rfl | ⟨x, rfl⟩
  · refine ⟨_, Number.sub_int size size, ?_⟩
    rw [Int.sub_self]
    exact fits_zero
  · obtain ⟨y, hy⟩ := hsize.sub_double x
    exact ⟨_, hy, fits_double y⟩

theorem Number.Fits.toPixel_yields {n : Number} (h : n.Fits) (mode : Rounding) :
    Yields (fun i => (Number.int (Max.max i 0)).Fits) (n.toPixel mode).result := by
  obtain ⟨x, hx⟩ := h
  obtain ⟨i, hi, hfits⟩ := Double.toPixel_fits mode x
  rw [result_toPixel hx, hi]
  exact hfits

namespace Component

structure InRange (c : Component) : Prop where
  x : ∀ e ∈ c.x, e.InRange
  y : ∀ e ∈ c.y, e.InRange
  width : ∀ e ∈ c.width, e.InRange
  height : ∀ e ∈ c.height, e.InRange

variable {c : Component}

theorem checkAxis_yields (axis : Axis) (position size : Option Expression) :
    Yields (fun _ => True) (checkAxis axis position size) := by
  unfold checkAxis
  split
  · split <;> exact trivial
  · exact trivial

theorem InRange.setSize_yields (hc : c.InRange) (width height : Json) :
    Yields (fun c' => c'.InRange ∧ c'.settings = c.settings) (c.setSize width height) := by
  unfold setSize
  refine (optionalExpression_yields _ width).bind fun w _ hw => ?_
  refine (optionalExpression_yields _ height).bind fun h _ hh => ?_
  refine (checkAxis_yields ..).bind fun _ _ _ => (checkAxis_yields ..).bind fun _ _ _ => ?_
  exact ⟨⟨hc.x, hc.y, hw, hh⟩, rfl⟩

theorem InRange.setPosition_yields (hc : c.InRange) (x y : Json) :
    Yields (fun c' => c'.InRange ∧ c'.settings = c.settings) (c.setPosition x y) := by
  unfold setPosition
  refine (optionalExpression_yields _ x).bind fun x _ hx => ?_
  refine (optionalExpression_yields _ y).bind fun y _ hy => ?_
  refine (checkAxis_yields ..).bind fun _ _ _ => (checkAxis_yields ..).bind fun _ _ _ => ?_
  exact ⟨⟨hx, hy, hc.width, hc.height⟩, rfl⟩

theorem InRange.withGeometry_yields (hc : c.InRange) (x y width height : Json) :
    Yields (fun c' => c'.InRange ∧ c'.settings = c.settings) (c.withGeometry x y width height) := by
  refine (hc.setSize_yields width height).bind fun sized _ hsized => ?_
  exact (hsized.1.setPosition_yields x y).mono fun c' hc' => ⟨hc'.1, hc'.2.trans hsized.2⟩

theorem length_yields {e? : Option Expression} {default width height : Number}
    {own : Option (Number × Number)} (he : ∀ e ∈ e?, e.InRange)
    (hc : (c.registry.context width height own).InRange) :
    Yields (fun n => n.IsLength default ∧ (e?.isSome → ∃ x, n = .double x))
      (c.length e? default width height own) := by
  cases e? with
  | none => exact ⟨.inl rfl, fun h => by cases h⟩
  | some e =>
    refine (Variables.evaluate_yields (he e rfl) hc).bind fun x _ _ => ?_
    exact ⟨.inr ⟨x, rfl⟩, fun _ => ⟨x, rfl⟩⟩

theorem lengthFrom_yields {size : Option Expression} {length position : Number}
    (hlength : length.Fits) (hdouble : size.isSome → ∃ x, length = .double x)
    (hposition : position.Fits) :
    Yields Number.Fits (Report.ofNumber (lengthFrom size length position)).result := by
  cases size with
  | none => exact hlength
  | some e =>
    unfold lengthFrom
    split
    · obtain ⟨x, rfl⟩ := hdouble rfl
      obtain ⟨y, hy⟩ := hposition.double_sub x
      rw [hy]
      exact Number.fits_double y
    · exact hlength

/-- A free component has a rectangle in range, unless a variable has no value. -/
theorem renderRect_yields {container : Rectangle} (hc : c.InRange) (hfree : c.location = none)
    (hcontainer : container.InRange) :
    Yields Rectangle.InRange (c.renderRect container).result := by
  obtain ⟨left, top, cw, ch, rfl, hcw, hch⟩ := hcontainer
  have hsizes : (c.registry.context (.int cw) (.int ch) none).InRange :=
    Variables.context_inRange hcw hch fun size hsize => by cases hsize
  unfold renderRect
  rw [hfree, Option.isSome_none, if_neg Bool.false_ne_true]
  simp only [Report.result_bind, Report.result_liftM, Rectangle.ofInts]
  refine (length_yields hc.width hsizes).bind fun w _ hw => ?_
  refine (length_yields hc.height hsizes).bind fun h _ hh => ?_
  -- where the size is the default it equals that of the container, so that the difference is a
  -- whole zero
  have hwithin : (c.registry.context (.int cw) (.int ch) (some (w, h))).InRange := by
    refine Variables.context_inRange hcw hch fun size hsize => ?_
    obtain rfl := Option.some.inj hsize
    exact ⟨hw.1.fitsWithin hcw, hh.1.fitsWithin hch⟩
  refine (length_yields hc.x hwithin).bind fun x _ hx => ?_
  refine (length_yields hc.y hwithin).bind fun y _ hy => ?_
  have hxfits := hx.1.fits Number.fits_zero
  have hyfits := hy.1.fits Number.fits_zero
  refine (lengthFrom_yields (hw.1.fits hcw) hw.2 hxfits).bind fun w _ hw => ?_
  refine (lengthFrom_yields (hh.1.fits hch) hh.2 hyfits).bind fun h _ hh => ?_
  refine (hxfits.toPixel_yields _).bind fun i _ _ => Yields.bind (p := fun _ => True) trivial
    fun l hl _ => ?_
  refine (hyfits.toPixel_yields _).bind fun j _ _ => Yields.bind (p := fun _ => True) trivial
    fun t ht _ => ?_
  refine (hw.toPixel_yields _).bind fun width _ hwidth => (hh.toPixel_yields _).bind
    fun height _ hheight => ?_
  obtain rfl := Except.ok.inj hl
  obtain rfl := Except.ok.inj ht
  exact ⟨_, _, _, _, rfl, hwidth, hheight⟩

end Component

end PanelLayout
