import PanelLayout.Grid.Basic
import PanelLayout.Proofs.Computation

/-!
# Why a cell has no rectangle

A cell inside the tracks of a grid may have no rectangle in a container, because a margin has no
value or a length is out of range, but it is never said to lie outside.
-/

namespace PanelLayout

variable {p : ErrorCategory → Prop} {registry : Variables} {mode : Rounding} {container : Rectangle}

private theorem conversionError_ne_index (e : ConversionError) : e.category ≠ .index := by
  cases e with
  | number e => cases e <;> decide
  | _ => exact fun h => nomatch h

theorem Double.toPixel_failsOnly {x : Double} : (x.toPixel mode).FailsOnly p := by
  unfold Double.toPixel
  split
  · exact Report.failsOnly_pure
  · exact .bind (fun _ h => nomatch h) fun _ => Report.failsOnly_pure

theorem Variables.evaluate_category {vs : Variables} {e : Expression} {width height : Number}
    {own : Option (Number × Number)} {error : LayoutError}
    (h : vs.evaluate e width height own = .error error) :
    error.category ≠ .index := by
  unfold Variables.evaluate at h
  cases hx : e.evaluate (vs.context width height own) with
  | ok x => rw [hx] at h; cases h
  | error x =>
    rw [hx] at h
    obtain rfl := Except.error.inj h
    cases x with
    | unresolved | endless => exact fun h => nomatch h
    | number n => exact conversionError_ne_index (.number n)

theorem marginPixels_failsOnly {e? : Option Expression} (he : ∀ e ∈ e?, ∀ error,
    registry.evaluate e container.width container.height = .error error → p error.category) :
    (marginPixels registry mode container e?).FailsOnly p := by
  unfold marginPixels
  split
  · exact Report.failsOnly_pure
  · exact .bind (he _ rfl) fun _ => .bind Double.toPixel_failsOnly fun _ => Report.failsOnly_pure

namespace GridAxis

variable {a : GridAxis}

theorem boundary_failsOnly (hp : ∀ e : ConversionError, p e.category) {count tracks : Nat}
    {usable : Number} :
    (a.boundary mode count usable tracks).FailsOnly p := by
  have hnumber : ∀ e : NumberError, p e.category := fun e => hp (.number e)
  unfold boundary
  split
  · exact Report.failsOnly_pure
  · refine .bind (Report.failsOnly_ofNumber hnumber) fun share => ?_
    refine .bind ?_ fun _ => Report.failsOnly_pure
    exact .bind (Report.failsOnly_ofNumber hnumber) fun _ => Double.toPixel_failsOnly

theorem wholeTracks_category (hp : ∀ e : ConversionError, p e.category) {n : Number}
    {error : LayoutError} (h : wholeTracks n = .error error) : p error.category := by
  unfold wholeTracks at h
  split at h
  · cases h
  · obtain rfl := Except.error.inj h
    exact hp (.notWhole .double)

theorem span_failsOnly (hp : ∀ e : ConversionError, p e.category) {start available track : Number}
    {margin : Int} :
    (a.span mode start available margin track).FailsOnly p := by
  have hnumber : ∀ e : NumberError, p e.category := fun e => hp (.number e)
  unfold span
  refine .bind (fun _ => wholeTracks_category hp) fun count => ?_
  refine .bind (Report.failsOnly_ofNumber hnumber) fun usable => ?_
  refine .bind (fun _ => wholeTracks_category hp) fun track => ?_
  refine .bind (boundary_failsOnly hp) fun i => .bind (Report.failsOnly_ofNumber hnumber)
    fun first => ?_
  refine .bind (boundary_failsOnly hp) fun j => .bind (Report.failsOnly_ofNumber hnumber)
    fun last => ?_
  exact .bind (Report.failsOnly_ofNumber hnumber) fun _ => Report.failsOnly_pure

end GridAxis

namespace GridShape

variable {g : GridShape} {l : Location}

def insets (g : GridShape) : List Expression :=
  [g.horizontal.frame, g.vertical.frame, g.horizontal.margin, g.vertical.margin].filterMap id

theorem mem_insets {e : Expression} : e ∈ g.insets ↔
    (e ∈ g.horizontal.frame ∨ e ∈ g.vertical.frame) ∨ e ∈ g.horizontal.margin ∨
    e ∈ g.vertical.margin := by
  simp [insets, eq_comm, or_assoc]

/-- A cell fails as its insets do, or as conversions do, or because it lies outside. -/
theorem resolveAt_failsOnly_of (hp : ∀ e : ConversionError, p e.category)
    (hinside : (g.horizontal.has l.column && g.vertical.has l.row) = true ∨ p .index)
    (hinsets : ∀ e ∈ g.insets, ∀ width height error, registry.evaluate e width height =
      .error error → p error.category) :
    (g.resolveAt registry mode l container).FailsOnly p := by
  have hnumber : ∀ e : NumberError, p e.category := fun e => hp (.number e)
  have hpixels : ∀ e? ∈ [g.horizontal.frame, g.vertical.frame, g.horizontal.margin,
    g.vertical.margin],
      ∀ container, (marginPixels registry mode container e?).FailsOnly p := by
    intro e? he? container
    apply marginPixels_failsOnly
    intro e he error herror
    exact hinsets e (List.mem_filterMap.mpr ⟨e?, he?, he⟩) _ _ error herror
  have hrest : (do
      let frameX ← marginPixels registry mode container g.horizontal.frame
      let frameY ← marginPixels registry mode container g.vertical.frame
      let area ← Report.ofNumber (container.shrunk (.int frameX) (.int frameY))
      let marginX ← marginPixels registry mode area g.horizontal.margin
      let marginY ← marginPixels registry mode area g.vertical.margin
      let columns ← g.horizontal.span mode area.x area.width marginX l.column
      let rows ← g.vertical.span mode area.y area.height marginY l.row
      return (⟨columns.1, rows.1, columns.2, rows.2⟩ : Rectangle)).FailsOnly p := by
    refine .bind (hpixels _ (by simp) _) fun frameX => .bind (hpixels _ (by simp) _)
      fun frameY => ?_
    refine .bind (Report.failsOnly_ofNumber hnumber) fun area => ?_
    refine .bind (hpixels _ (by simp) _) fun marginX => .bind (hpixels _ (by simp) _)
      fun marginY => ?_
    exact .bind (GridAxis.span_failsOnly hp) fun _ => .bind (GridAxis.span_failsOnly hp) fun _ =>
      Report.failsOnly_pure
  unfold resolveAt
  split
  · rename_i hout
    rcases hinside with hinside | hindex
    · simp [hinside] at hout
    · refine .bind ?_ fun _ => hrest
      intro e he
      obtain rfl := Except.error.inj he
      exact hindex
  · exact hrest

theorem resolveAt_failsOnly (hcolumn : g.horizontal.has l.column = true)
    (hrow : g.vertical.has l.row = true) :
    (g.resolveAt registry mode l container).FailsOnly (· ≠ .index) := by
  refine resolveAt_failsOnly_of conversionError_ne_index (.inl ?_) fun _ _ _ _ _ =>
    Variables.evaluate_category
  rw [hcolumn, hrow, Bool.and_self]

end GridShape

end PanelLayout
