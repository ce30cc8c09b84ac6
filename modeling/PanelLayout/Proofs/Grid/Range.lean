import PanelLayout.Proofs.Component.Range
import PanelLayout.Proofs.Grid.Alignment
import PanelLayout.Proofs.Grid.Insets
import PanelLayout.Proofs.Grid.Shares

/-!
# Cells in range

A cell inside the tracks of a grid has a rectangle in range in every such container, unless a frame
or a margin has a variable without a value. This takes positive weights, and on both axes a length
in range that is left for the tracks. A boundary lies on the same side of zero as that length, so
that the track between two boundaries is no longer than it.
-/

namespace PanelLayout

namespace GridAxis

variable {a : GridAxis}

structure InRange (a : GridAxis) : Prop where
  weights : ∀ e ∈ a.weights, e.2.IsPositive
  margin : ∀ e ∈ a.margin, e.InRange
  frame : ∀ e ∈ a.frame, e.InRange

theorem InRange.empty : ({} : GridAxis).InRange := by
  constructor <;> simp

theorem checkWeight_yields {v : Json} (hv : v.FitsDouble) :
    Yields Double.IsPositive (checkWeight v) := by
  have hblamed : Yields (fun _ => True) (checkWeight v) := by
    refine (Json.toDouble_yields hv).bind fun w _ _ => ?_
    split <;> exact trivial
  cases hw : checkWeight v with
  | error e => rwa [hw] at hblamed
  | ok w => exact (checkWeight_eq_ok_iff.mp hw).2.2

theorem InRange.setWeight_yields (h : a.InRange) (track : Number) {v : Json} (hv : v.FitsDouble) :
    Yields InRange (a.setWeight track v) :=
  (checkWeight_yields hv).bind fun _ _ hw =>
    ⟨forall_setEntry h.weights track fun _ => hw, h.margin, h.frame⟩

/-- Boundaries are in range, and they lie on the side of what is left for the tracks. -/
theorem InRange.endsAtPixel (h : a.InRange) {usable : Int} (hu : (Number.int usable).Fits)
    {count : Nat} (hcount : 0 < count) (tracks : Nat) :
    ∃ pixel, a.EndsAtPixel .truncate count usable tracks pixel ∧ (Number.int pixel).Fits ∧
      (0 ≤ usable ∨ tracks = 0 → 0 ≤ pixel) ∧ (usable < 0 → 0 < tracks → pixel ≤ 0) := by
  have hweights : a.HasPositiveWeights := h.weights
  by_cases hall : count ≤ tracks
  · exact ⟨usable, endsAtPixel_all hall, hu, by omega, by omega⟩
  · obtain ⟨x, hx⟩ := hweights.exists_share hcount hu tracks
    obtain ⟨pixel, hpixel, hfits⟩ := Double.toPixel_truncate x
    obtain rfl := Except.ok.inj ((x.result_toPixel .truncate).symm.trans hpixel)
    have hends : a.EndsAtPixel .truncate count usable tracks (x.pixel .truncate) :=
      (hweights.endsAtPixel_iff (by omega)).mpr ⟨x, hx, rfl⟩
    refine ⟨_, hends, hfits, fun hsign => ?_, hweights.endsAtPixel_nonpos hends⟩
    rcases hsign with hnonneg | rfl
    · exact hweights.endsAtPixel_nonneg hends hnonneg
    · exact (hweights.endsAtPixel_zero hcount hends).ge

def HasRoom (a : GridAxis) (available : Number) (margin : Int) : Prop :=
  ∀ n count, available = .int n → wholeTracks a.count = .ok count →
    (Number.int (usable n margin count)).Fits

theorem InRange.span (h : a.InRange) (start : Int) {available margin track count : Int}
    (hcount : a.count = .int count) (htrack : 0 ≤ track ∧ track < count)
    (hroom : a.HasRoom (.int available) margin) :
    ∃ first length, (a.span .truncate (.int start) (.int available) margin (.int track)).result =
      .ok (.int first, .int length) ∧ (Number.int length).Fits := by
  have hwhole : wholeTracks a.count = .ok count.toNat := by rw [hcount, wholeTracks_int]
  have hu := hroom available count.toNat rfl hwhole
  have hpos : 0 < count.toNat := by omega
  obtain ⟨i, hi, hifits, hipos, hineg⟩ := h.endsAtPixel hu hpos track.toNat
  obtain ⟨j, hj, hjfits, hjpos, hjneg⟩ := h.endsAtPixel hu hpos (track.toNat + 1)
  refine ⟨_, _, span_int_eq_ok_iff.mpr ⟨_, i, j, hwhole, hi, hj, rfl⟩, ?_⟩
  generalize usable available margin count.toNat = u at *
  -- both boundaries lie on the side of what is left, except that the start of the axis is never
  -- below zero
  by_cases hu : 0 ≤ u
  · exact hjfits.of_natAbs_le (by have := hipos (.inl hu); have := hjpos (.inl hu); omega)
  · have hj := hjneg (by omega) (by omega)
    by_cases hfirst : track.toNat = 0
    · have hi := hipos (.inr hfirst)
      rw [Int.max_eq_right (by omega)]
      exact Number.fits_zero
    · have hi := hineg (by omega) (by omega)
      exact hifits.of_natAbs_le (by omega)

end GridAxis

theorem marginPixels_yields {registry : Variables} {container : Rectangle} {e? : Option Expression}
    (he : ∀ e ∈ e?, e.InRange) (hcontainer : container.InRange) :
    Yields (0 ≤ ·) (marginPixels registry .truncate container e?).result := by
  obtain ⟨x, y, w, h, rfl, hw, hh⟩ := hcontainer
  cases e? with
  | none => exact Int.le_refl 0
  | some e =>
    have hcontext : (registry.context (.int w) (.int h) none).InRange :=
      Variables.context_inRange hw hh fun size hsize => by cases hsize
    unfold marginPixels
    simp only [Report.result_bind, Report.result_liftM, Rectangle.ofInts]
    refine (Variables.evaluate_yields (he e rfl) hcontext).bind fun x _ _ => ?_
    rw [Double.result_toPixel]
    exact Int.le_max_right _ 0

namespace GridShape

variable {g : GridShape}

structure InRange (g : GridShape) : Prop where
  horizontal : g.horizontal.InRange
  vertical : g.vertical.InRange

theorem InRange.empty : ({} : GridShape).InRange := ⟨.empty, .empty⟩

theorem shrunkAxis_fits {extent d : Int} (start : Int) (hd : 0 ≤ d) (h : (Number.int extent).Fits) :
    ∃ first length, Rectangle.shrunkAxis (.int start) (.int extent) (.int d) =
      .ok (.int first, .int length) ∧ (Number.int length).Fits := by
  rw [Rectangle.shrunkAxis_int]
  split
  · exact ⟨_, _, rfl, h.of_natAbs_le (by omega)⟩
  · exact ⟨_, _, rfl, Number.fits_zero⟩

theorem InRange.inset (hg : g.InRange) {registry : Variables} {container : Rectangle}
    (hcontainer : container.InRange) :
    Yields (fun m => m.1.InRange) (g.inset registry .truncate container).result := by
  unfold GridShape.inset
  simp only [Report.result_bind]
  refine (marginPixels_yields hg.horizontal.frame hcontainer).bind fun frameX _ hfx => ?_
  refine (marginPixels_yields hg.vertical.frame hcontainer).bind fun frameY _ hfy => ?_
  obtain ⟨x, y, w, h, rfl, hw, hh⟩ := hcontainer
  obtain ⟨left, width, hx, hwidth⟩ := shrunkAxis_fits x hfx hw
  obtain ⟨top, height, hy, hheight⟩ := shrunkAxis_fits y hfy hh
  have harea : (Rectangle.ofInts left top width height).InRange :=
    ⟨_, _, _, _, rfl, hwidth, hheight⟩
  have hshrunk : (Rectangle.ofInts x y w h).shrunk (.int frameX) (.int frameY) =
      .ok (.ofInts left top width height) := by
    simp only [Rectangle.shrunk, Rectangle.ofInts, hx, hy, ok_bind]
    rfl
  rw [hshrunk]
  refine (marginPixels_yields hg.horizontal.margin harea).bind fun marginX _ _ => ?_
  exact (marginPixels_yields hg.vertical.margin harea).bind fun marginY _ _ => harea

theorem result_resolveAt {registry : Variables} {mode : Rounding} {l : Location}
    {container : Rectangle} (hcolumn : g.horizontal.has l.column = true)
    (hrow : g.vertical.has l.row = true) :
    (g.resolveAt registry mode l container).result =
      (g.inset registry mode container).result >>= fun m => do
      let (x, width) ← (g.horizontal.span mode m.1.x m.1.width m.2.1 l.column).result
      let (y, height) ← (g.vertical.span mode m.1.y m.1.height m.2.2 l.row).result
      return ⟨x, y, width, height⟩ := by
  unfold resolveAt GridShape.inset
  rw [hcolumn, hrow]
  simp only [Bool.and_self, Bool.not_true, Bool.false_eq_true, if_false,
    Report.result_bind, bind_assoc]
  rfl

/-- A cell is in range if both axes have room for their tracks. -/
theorem InRange.resolveAt (hg : g.InRange) {registry : Variables} {container : Rectangle}
    {column row columns rows : Int} (hcolumns : g.columns = .int columns)
    (hrows : g.rows = .int rows) (hcolumn : 0 ≤ column ∧ column < columns)
    (hrow : 0 ≤ row ∧ row < rows) (hcontainer : container.InRange)
    (hroom : ∀ area marginX marginY, (g.inset registry .truncate container).result =
      .ok (area, marginX, marginY) → g.horizontal.HasRoom area.width marginX ∧
      g.vertical.HasRoom area.height marginY) :
    Yields Rectangle.InRange
      (g.resolveAt registry .truncate (.ofInts column row) container).result := by
  have hhasColumn : g.horizontal.has (.int column) = true := by
    rw [GridAxis.has_int hcolumns]
    exact decide_eq_true hcolumn
  have hhasRow : g.vertical.has (.int row) = true := by
    rw [GridAxis.has_int hrows]
    exact decide_eq_true hrow
  rw [result_resolveAt (l := .ofInts column row) hhasColumn hhasRow]
  refine (hg.inset hcontainer).bind fun m hm harea => ?_
  obtain ⟨area, marginX, marginY⟩ := m
  obtain ⟨hroomX, hroomY⟩ := hroom area marginX marginY hm
  obtain ⟨ax, ay, aw, ah, rfl, -, -⟩ := harea
  obtain ⟨x, width, hx, hwidth⟩ := hg.horizontal.span ax hcolumns hcolumn hroomX
  obtain ⟨y, height, hy, hheight⟩ := hg.vertical.span ay hrows hrow hroomY
  simp only [Rectangle.ofInts, Location.ofInts, hx, hy, ok_bind]
  exact ⟨_, _, _, _, rfl, hwidth, hheight⟩

end GridShape

namespace Grid

variable {α : Type} {g : Grid α}

theorem withInset_inRange (hg : g.toGridShape.InRange) (inset : Inset) (axis : Axis)
    {e? : Option Expression} (he : ∀ e ∈ e?, e.InRange) :
    (g.withInset inset axis e?).toGridShape.InRange := by
  have haxis : ∀ {a : GridAxis}, a.InRange → (a.withInset inset e?).InRange := by
    intro a ha
    cases inset with
    | margin => exact ⟨ha.weights, he, ha.frame⟩
    | frame => exact ⟨ha.weights, ha.margin, he⟩
  cases axis with
  | horizontal => exact ⟨haxis hg.horizontal, hg.vertical⟩
  | vertical => exact ⟨hg.horizontal, haxis hg.vertical⟩

theorem setInsets_yields (hg : g.toGridShape.InRange) (inset : Inset) (x y : Json) :
    Yields (fun _ => (g.setInsets inset x y).2.toGridShape.InRange) (g.setInsets inset x y).1 := by
  have hx := optionalExpression_yields {} x
  have hy := optionalExpression_yields {} y
  rw [setInsets_eq]
  cases hxread : optionalExpression {} x with
  | error e => rwa [hxread] at hx
  | ok x? =>
    rw [hxread] at hx
    cases hyread : optionalExpression {} y with
    | error e => rwa [hyread] at hy
    | ok y? =>
      rw [hyread] at hy
      exact withInset_inRange (withInset_inRange hg inset .horizontal hx) inset .vertical hy

theorem setColumnWeight_yields (hg : g.toGridShape.InRange) (column : Number) {v : Json}
    (hv : v.FitsDouble) :
    Yields (fun g' => g'.toGridShape.InRange) (g.setColumnWeight column v) :=
  (hg.horizontal.setWeight_yields column hv).bind fun _ _ ha => ⟨ha, hg.vertical⟩

theorem setRowWeight_yields (hg : g.toGridShape.InRange) (row : Number) {v : Json}
    (hv : v.FitsDouble) :
    Yields (fun g' => g'.toGridShape.InRange) (g.setRowWeight row v) :=
  (hg.vertical.setWeight_yields row hv).bind fun _ _ ha => ⟨hg.horizontal, ha⟩

end Grid

end PanelLayout
