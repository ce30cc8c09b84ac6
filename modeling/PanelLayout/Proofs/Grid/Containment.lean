import PanelLayout.Proofs.Grid.Alignment
import PanelLayout.Proofs.Grid.Operations

/-!
# Cells inside the container

Frames that do not fit into a container collapse it, and then its cells are empty. Margins are not
cut: cells stay inside the container where the margins fit between them.
-/

namespace PanelLayout

namespace GridAxis

variable {a : GridAxis} {mode : Rounding}

/-- Whether the margins fit between the tracks of a stretch and leave a length for which whole
pixels are exact. -/
def HoldsMargins (a : GridAxis) (available : Number) (margin : Int) : Prop :=
  ∀ n count, available = .int n → wholeTracks a.count = .ok count →
    0 ≤ usable n margin count ∧ usable n margin count < 2 ^ (51 : Nat)

theorem HasPositiveWeights.span_inside (h : a.HasPositiveWeights)
    {start available margin track x n : Int} (htrack : a.has (.int track) = true)
    (hmargins : a.HoldsMargins (.int available) margin)
    (hp : (a.span mode (.int start) (.int available) margin (.int track)).result =
      .ok (.int x, .int n)) :
    start ≤ x ∧ x + n ≤ start + available := by
  obtain ⟨count, i, j, hcount, hi, hj, hpair⟩ := span_int_eq_ok_iff.mp hp
  simp only [Prod.mk.injEq, Number.int.injEq] at hpair
  obtain ⟨hnonneg, hlt⟩ := hmargins available count rfl hcount
  have htrack := (lt_of_has hcount htrack).2
  have hgap := gap_nonneg (.int available) margin
  have hbefore : 0 ≤ gap (.int available) margin * track.toNat :=
    Int.mul_nonneg hgap (Int.natCast_nonneg _)
  have hlast : gap (.int available) margin * track.toNat ≤
      gap (.int available) margin * (count - 1 : Nat) :=
    Int.mul_le_mul_of_nonneg_left (by omega) hgap
  have hstart := h.endsAtPixel_nonneg hi hnonneg
  have hle := h.endsAtPixel_le hi hnonneg hlt
  have hle' := h.endsAtPixel_le hj hnonneg hlt
  rw [usable] at hle hle'
  omega

end GridAxis

theorem marginPixels_nonneg {registry : Variables} {mode : Rounding} {container : Rectangle}
    {e : Option Expression} {n : Int}
    (h : (marginPixels registry mode container e).result = .ok n) : 0 ≤ n := by
  unfold marginPixels at h
  split at h
  · exact (Except.ok.inj h).le
  · simp only [Report.result_bind_eq_ok_iff] at h
    obtain ⟨x, -, pixel, -, hn⟩ := h
    obtain rfl := Except.ok.inj hn
    exact Int.le_max_right pixel 0

namespace GridShape

variable {g : GridShape} {registry : Variables} {mode : Rounding}

theorem inset_inside {x y w h marginX marginY : Int} {area : Rectangle} (hw : 0 ≤ w) (hh : 0 ≤ h)
    (hinset : (g.inset registry mode (.ofInts x y w h)).result = .ok (area, marginX, marginY)) :
    ∃ left top width height, area = .ofInts left top width height ∧
      (x ≤ left ∧ left + width ≤ x + w) ∧ y ≤ top ∧ top + height ≤ y + h := by
  simp only [inset, Report.result_bind_eq_ok_iff, Report.result_ofNumber_eq_ok_iff] at hinset
  obtain ⟨frameX, hframeX, frameY, hframeY, area', harea, _, -, _, -, hpair⟩ := hinset
  obtain rfl : area' = area := congrArg Prod.fst (Except.ok.inj hpair)
  have hx := marginPixels_nonneg hframeX
  have hy := marginPixels_nonneg hframeY
  simp only [Rectangle.shrunk, Rectangle.ofInts, Rectangle.shrunkAxis_int, ok_bind] at harea
  obtain rfl := Except.ok.inj harea
  split_ifs
  all_goals exact ⟨_, _, _, _, rfl, by omega, by omega⟩

end GridShape

namespace Grid

open GridShape (resolveAt_eq_ok_iff inset_inside)

variable {α : Type}

/-- The cells of a grid that operations lead to have no negative size, and they lie inside the
container, on each axis on which the margins fit between the tracks. -/
theorem resolveAt_inside (operations : List (Operation α)) (registry : Variables) (mode : Rounding)
    {x y w h column row : Int} {r : Rectangle} (hw : 0 ≤ w) (hh : 0 ≤ h)
    (hr : ((reached operations).resolveAt registry mode (.ofInts column row)
      (.ofInts x y w h)).result = .ok r) :
    ∃ left top width height area marginX marginY, r = .ofInts left top width height ∧
    0 ≤ width ∧ 0 ≤ height ∧
      ((reached operations).inset registry mode (.ofInts x y w h)).result =
        .ok (area, marginX, marginY) ∧
      ((reached operations).horizontal.HoldsMargins area.width marginX → x ≤ left ∧
        left + width ≤ x + w) ∧
      ((reached operations).vertical.HoldsMargins area.height marginY → y ≤ top ∧
        top + height ≤ y + h) := by
  have hweights := reached_hasPositiveWeights operations
  obtain ⟨hcolumn, hrow, area, marginX, marginY, p, q, hinset, hp, hq, rfl⟩ :=
    resolveAt_eq_ok_iff.mp hr
  obtain ⟨areaX, areaY, areaWidth, areaHeight, rfl, hareaX, hareaY⟩ := inset_inside hw hh hinset
  obtain ⟨left, width, rfl, hwidth⟩ := GridAxis.exists_of_span hp
  obtain ⟨top, height, rfl, hheight⟩ := GridAxis.exists_of_span hq
  refine ⟨left, top, width, height, _, marginX, marginY, rfl, hwidth, hheight, hinset, ?_, ?_⟩
  · intro hmargins
    have hinside := hweights.horizontal.span_inside hcolumn hmargins hp
    omega
  · intro hmargins
    have hinside := hweights.vertical.span_inside hrow hmargins hq
    omega

/-- The second one of two columns with a margin of ten pixels between them. -/
theorem resolveAt_inside_second_column :
    let g : Grid Unit := reached [.change (.add () (.ofInts 1 0)), .margins (.text "10") .null]
    ∃ left top width height, (g.resolveAt {} .truncate (.ofInts 1 0) (.ofInts 0 0 60 20)).result =
        .ok (.ofInts left top width height) ∧ left = 35 ∧ width = 25 ∧ 0 ≤ left ∧
        left + width ≤ 0 + 60 := by
  intro g
  have hr : (g.resolveAt {} .truncate (.ofInts 1 0) (.ofInts 0 0 60 20)).result =
      .ok (.ofInts 35 0 25 20) :=
    toOption_eq_some_iff.mp (by decide +kernel)
  have hinset : (g.inset {} .truncate (.ofInts 0 0 60 20)).result =
      .ok (.ofInts 0 0 60 20, 10, 0) :=
    toOption_eq_some_iff.mp (by decide +kernel)
  obtain ⟨left, top, width, height, area, marginX, marginY, heq, -, -, harea, hinside, -⟩ :=
    resolveAt_inside _ {} .truncate (by decide) (by decide) hr
  obtain ⟨rfl, rfl, -⟩ : Rectangle.ofInts 0 0 60 20 = area ∧ 10 = marginX ∧ 0 = marginY := by
    simpa using hinset.symm.trans harea
  have hmargins : g.horizontal.HoldsMargins (.int 60) 10 := by
    intro n count hn hcount
    obtain rfl := Number.int.inj hn
    obtain rfl : 2 = count := Except.ok.inj hcount
    decide
  obtain ⟨hleft, -, hwidth, -⟩ : 35 = left ∧ 0 = top ∧ 25 = width ∧ 20 = height := by
    simpa [Rectangle.ofInts] using heq
  exact ⟨left, top, width, height, heq ▸ hr, hleft.symm, hwidth.symm, hinside hmargins⟩

/-- The margin between two columns is wider than the container, so that the second column starts
behind its right edge. -/
theorem resolveAt_outside_wide_margin :
    let g : Grid Unit := reached [.change (.add () (.ofInts 1 0)), .margins (.text "100") .null]
    (g.resolveAt {} .truncate (.ofInts 1 0) (.ofInts 0 0 60 20)).result = .ok (.ofInts 80 0 0 20) ∧
      (Rectangle.ofInts 80 0 0 20).right = .ok (.int 80) ∧ (Rectangle.ofInts 0 0 60 20).right =
        .ok (.int 60) :=
  ⟨toOption_eq_some_iff.mp (by decide +kernel), rfl, rfl⟩

end Grid

end PanelLayout
