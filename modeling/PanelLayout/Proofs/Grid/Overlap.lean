import PanelLayout.Proofs.Grid.Alignment
import PanelLayout.Proofs.Grid.Operations

/-!
# Cells do not overlap

Two tracks of an axis have no pixel in common, though their boundaries are rounded one by one. Only
the last track can reach back over others, where the share of all tracks before it is too large for
a double and counts as zero.
-/

namespace PanelLayout

namespace GridAxis

variable {a : GridAxis} {mode : Rounding}

/-- Of two tracks with pixels the first one ends before the second one starts. The second one may be
the last track only if the share of the tracks before it is not too large for a double. -/
theorem HasPositiveWeights.boundaries_apart (h : a.HasPositiveWeights) {count i j : Nat}
    {usable p q p' q' : Int} (hij : i < j) (hj : j < count)
    (hlast : j + 1 < count ∨ a.share count usable (count - 1) ≠ .ok (.double (.infinite false)))
    (hp : a.EndsAtPixel mode count usable i p) (hq : a.EndsAtPixel mode count usable (i + 1) q)
    (hp' : a.EndsAtPixel mode count usable j p') (hq' : a.EndsAtPixel mode count usable (j + 1) q')
    (hlong : p < q) (hlong' : p' < q') : q ≤ p' := by
  obtain ⟨x, hx, rfl⟩ := (h.endsAtPixel_iff (by omega)).mp hp
  obtain ⟨y, hy, rfl⟩ := (h.endsAtPixel_iff (by omega)).mp hq
  obtain ⟨x', hx', rfl⟩ := (h.endsAtPixel_iff hj).mp hp'
  have hstep := h.share_grows (Nat.le_succ i) (by omega) hx hy
  have hgap := h.share_grows (Nat.succ_le_of_lt hij) hj hy hx'
  by_cases hu : 0 ≤ usable
  · rw [decide_eq_false (by omega)] at hgap
    by_cases hover : x' = .infinite false
    · -- a share out of range counts as zero, and so do all shares after it
      subst hover
      rcases Nat.lt_or_ge (j + 1) count with hnext | hend
      · obtain ⟨y', hy', rfl⟩ := (h.endsAtPixel_iff hnext).mp hq'
        have hafter := h.share_grows (Nat.le_succ j) hnext hx' hy'
        rw [decide_eq_false (by omega)] at hafter
        rw [hafter.infinite rfl] at hlong'
        exact absurd hlong' (Int.lt_irrefl _)
      · obtain rfl : j = count - 1 := by omega
        rcases hlast with hlast | hlast
        · omega
        · exact absurd hx' hlast
    · exact hgap.pixel hover mode
  · -- below zero boundaries go backwards, except at the first share that is out of range, and
    -- none does after that one
    exfalso
    rw [decide_eq_true (by omega)] at hstep hgap
    by_cases hover : y = .infinite true
    · have hnonpos := h.endsAtPixel_nonpos hq' (by omega) (Nat.succ_pos j)
      rw [hgap.infinite hover] at hlong'
      exact absurd hlong' (Int.not_lt.mpr hnonpos)
    · have hback := hstep.pixel hover mode
      rw [if_pos rfl] at hback
      omega

/-- Whether two tracks of a stretch are different, and the share of all tracks but the last one is
not too large for a double if one of them is the last one. -/
def Separates (a : GridAxis) (available : Number) (margin i j : Int) : Prop :=
  i ≠ j ∧ ∀ n count, available = .int n → wholeTracks a.count = .ok count →
    (max i j).toNat + 1 < count ∨ a.share count (usable n margin count) (count - 1) ≠
      .ok (.double (.infinite false))

theorem Separates.symm {available : Number} {margin i j : Int}
    (h : a.Separates available margin i j) :
    a.Separates available margin j i :=
  ⟨h.1.symm, fun n count hn hcount => max_comm i j ▸ h.2 n count hn hcount⟩

theorem HasPositiveWeights.span_apart (h : a.HasPositiveWeights)
    {start available margin i j x n y m : Int} (hi : a.has (.int i) = true)
    (hj : a.has (.int j) = true) (hij : i < j) (hseparate : a.Separates (.int available) margin i j)
    (hp : (a.span mode (.int start) (.int available) margin (.int i)).result = .ok (.int x, .int n))
    (hq : (a.span mode (.int start) (.int available) margin (.int j)).result = .ok (.int y, .int m))
    (hn : 0 < n) (hm : 0 < m) : x + n ≤ y := by
  obtain ⟨count, b, b', hcount, hb, hb', hpair⟩ := span_int_eq_ok_iff.mp hp
  obtain ⟨count', c, c', hcount', hc, hc', hpair'⟩ := span_int_eq_ok_iff.mp hq
  obtain rfl := Except.ok.inj (hcount.symm.trans hcount')
  simp only [Prod.mk.injEq, Number.int.injEq] at hpair hpair'
  have hfar := hseparate.2 available count rfl hcount
  rw [Int.max_eq_right hij.le] at hfar
  have hi := lt_of_has hcount hi
  have hj := lt_of_has hcount hj
  have hapart := h.boundaries_apart (by omega) hj.2 hfar hb hb' hc hc' (by omega) (by omega)
  have hmargin : gap (.int available) margin * i.toNat ≤ gap (.int available) margin * j.toNat :=
    Int.mul_le_mul_of_nonneg_left (by omega) (gap_nonneg ..)
  omega

theorem HasPositiveWeights.span_disjoint (h : a.HasPositiveWeights)
    {start available margin i j x n y m : Int} (hi : a.has (.int i) = true)
    (hj : a.has (.int j) = true) (hseparate : a.Separates (.int available) margin i j)
    (hp : (a.span mode (.int start) (.int available) margin (.int i)).result = .ok (.int x, .int n))
    (hq : (a.span mode (.int start) (.int available) margin (.int j)).result = .ok (.int y, .int m))
    (pixel : Int) :
    ¬((x ≤ pixel ∧ pixel < x + n) ∧ y ≤ pixel ∧ pixel < y + m) := by
  intro hboth
  rcases Int.lt_or_gt_of_ne hseparate.1 with hij | hji
  · have hapart := h.span_apart hi hj hij hseparate hp hq (by omega) (by omega)
    omega
  · have hapart := h.span_apart hj hi hji hseparate.symm hq hp (by omega) (by omega)
    omega

end GridAxis

namespace Grid

open GridShape (resolveAt_eq_ok_iff inset_ofInts)

variable {α : Type}

/-- No pixel is in two cells of a grid that operations lead to. This takes columns or rows that are
apart even where shares are too large for a double. -/
theorem resolveAt_disjoint (operations : List (Operation α)) (registry : Variables)
    (mode : Rounding) {x y w h column row column' row' : Int} {r s : Rectangle}
    (hr : ((reached operations).resolveAt registry mode (.ofInts column row)
      (.ofInts x y w h)).result = .ok r)
    (hs : ((reached operations).resolveAt registry mode (.ofInts column' row')
      (.ofInts x y w h)).result = .ok s)
    (hseparate : ∀ area marginX marginY,
      ((reached operations).inset registry mode (.ofInts x y w h)).result =
        .ok (area, marginX, marginY) →
        (reached operations).horizontal.Separates area.width marginX column column' ∨
        (reached operations).vertical.Separates area.height marginY row row')
    (px py : Int) :
    ¬(r.contains (.int px) (.int py) = .ok true ∧ s.contains (.int px) (.int py) = .ok true) := by
  have hweights := reached_hasPositiveWeights operations
  obtain ⟨hcolumn, hrow, area, marginX, marginY, p, q, hinset, hp, hq, rfl⟩ :=
    resolveAt_eq_ok_iff.mp hr
  obtain ⟨hcolumn', hrow', area', marginX', marginY', p', q', hinset', hp', hq', rfl⟩ :=
    resolveAt_eq_ok_iff.mp hs
  obtain ⟨rfl, rfl, rfl⟩ : area = area' ∧ marginX = marginX' ∧ marginY = marginY' := by
    simpa using hinset.symm.trans hinset'
  have hpair := hseparate _ _ _ hinset
  obtain ⟨left, top, width, height, rfl⟩ := inset_ofInts hinset
  obtain ⟨x, n, rfl, -⟩ := GridAxis.exists_of_span hp
  obtain ⟨x', n', rfl, -⟩ := GridAxis.exists_of_span hp'
  obtain ⟨y, m, rfl, -⟩ := GridAxis.exists_of_span hq
  obtain ⟨y', m', rfl, -⟩ := GridAxis.exists_of_span hq'
  intro hboth
  have hin := (Rectangle.contains_ofInts x y n m px py).symm.trans hboth.1
  have hin' := (Rectangle.contains_ofInts x' y' n' m' px py).symm.trans hboth.2
  simp only [Except.ok.injEq, decide_eq_true_eq] at hin hin'
  rcases hpair with hseparate | hseparate
  · exact hweights.horizontal.span_disjoint hcolumn hcolumn' hseparate hp hp' px (by omega)
  · exact hweights.vertical.span_disjoint hrow hrow' hseparate hq hq' py (by omega)

/-- No pixel is in both of two columns that share seven pixels. -/
theorem resolveAt_disjoint_two_columns :
    let g : Grid Unit := reached [.change (.add () (.ofInts 1 0))]
    ∃ r s, (g.resolveAt {} .truncate (.ofInts 0 0) (.ofInts 0 0 7 5)).result = .ok r ∧
      (g.resolveAt {} .truncate (.ofInts 1 0) (.ofInts 0 0 7 5)).result = .ok s ∧
      ∀ px py : Int,
      ¬(r.contains (.int px) (.int py) = .ok true ∧ s.contains (.int px) (.int py) = .ok true) := by
  intro g
  have hr : (g.resolveAt {} .truncate (.ofInts 0 0) (.ofInts 0 0 7 5)).result =
      .ok (.ofInts 0 0 3 5) :=
    toOption_eq_some_iff.mp (by decide +kernel)
  have hs : (g.resolveAt {} .truncate (.ofInts 1 0) (.ofInts 0 0 7 5)).result =
      .ok (.ofInts 3 0 4 5) :=
    toOption_eq_some_iff.mp (by decide +kernel)
  have hinset : (g.inset {} .truncate (.ofInts 0 0 7 5)).result = .ok (.ofInts 0 0 7 5, 0, 0) :=
    toOption_eq_some_iff.mp (by decide +kernel)
  have hseparate : g.horizontal.Separates (.int 7) 0 0 1 := by
    refine ⟨by decide, fun n count hn hcount => .inr fun hshare => ?_⟩
    obtain rfl := Number.int.inj hn
    obtain rfl : 2 = count := Except.ok.inj hcount
    have hvalue := toOption_eq_some_iff.mpr hshare
    exact absurd hvalue (by decide +kernel)
  refine ⟨_, _, hr, hs, resolveAt_disjoint _ {} .truncate hr hs fun area marginX marginY harea =>
    .inl ?_⟩
  obtain ⟨rfl, rfl, -⟩ : Rectangle.ofInts 0 0 7 5 = area ∧ 0 = marginX ∧ 0 = marginY := by
    simpa using hinset.symm.trans harea
  exact hseparate

/-- Of three columns that share 1024 pixels the last one, which takes a half, lies over the first
one, which takes a quarter, if the weights are so large that the share of the first two is out of
range. -/
theorem resolveAt_overlaps_heavy_columns :
    let weight (n : Int) : Json := .number (.double (.ofInt n))
    let g : Grid Unit :=
      reached [.change (.add () (.ofInts 2 0)), .columnWeight (.int 0) (weight (10 ^ 305)),
        .columnWeight (.int 1) (weight (10 ^ 305)), .columnWeight (.int 2) (weight (2 * 10 ^ 305))]
    (g.resolveAt {} .truncate (.ofInts 0 0) (.ofInts 0 0 1024 10)).result =
      .ok (.ofInts 0 0 256 10) ∧
      (g.resolveAt {} .truncate (.ofInts 2 0) (.ofInts 0 0 1024 10)).result =
        .ok (.ofInts 0 0 1024 10) ∧
      (Rectangle.ofInts 0 0 256 10).contains (.int 0) (.int 0) = .ok true ∧
      (Rectangle.ofInts 0 0 1024 10).contains (.int 0) (.int 0) = .ok true := by
  refine ⟨?_, ?_, rfl, rfl⟩
  · exact toOption_eq_some_iff.mp (by decide +kernel)
  · exact toOption_eq_some_iff.mp (by decide +kernel)

end Grid

end PanelLayout
