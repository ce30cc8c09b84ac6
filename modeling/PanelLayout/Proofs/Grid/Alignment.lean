import PanelLayout.Proofs.Grid.Span

/-!
# Cells line up

Boundaries are computed for each cell on its own, yet no gap wider than the margin opens between two
neighbours, and the last track reaches the far edge.
-/

namespace PanelLayout

/-- Whether a stretch of whole pixels reaches to a gap before some pixel, and exactly so far unless
it is empty. -/
def Reaches (start length : Number) (gap : Int) (next : Number) : Prop :=
  ∃ i n j : Int, start = .int i ∧ length = .int n ∧ next = .int j ∧ j ≤ i + n + gap ∧
    (0 < n → j = i + n + gap)

namespace GridAxis

variable {a : GridAxis} {mode : Rounding} {start available margin track : Int}
    {p q : Number × Number}

theorem reaches_of_span
    (hp : (a.span mode (.int start) (.int available) margin (.int track)).result = .ok p)
    (hq : (a.span mode (.int start) (.int available) margin (.int (track + 1))).result = .ok q)
    (h : 0 ≤ track) :
    Reaches p.1 p.2 (gap (.int available) margin) q.1 := by
  obtain ⟨count, i, j, hcount, -, hj, rfl⟩ := span_int_eq_ok_iff.mp hp
  obtain ⟨count', j', k, hcount', hj', -, rfl⟩ := span_int_eq_ok_iff.mp hq
  obtain rfl := Except.ok.inj (hcount.symm.trans hcount')
  have hnext : (track + 1).toNat = track.toNat + 1 := by omega
  rw [hnext] at hj' ⊢
  obtain rfl := hj.unique hj'
  rw [Nat.cast_succ, Int.mul_add, Int.mul_one]
  exact ⟨_, _, _, rfl, rfl, rfl, by omega, by omega⟩

theorem reaches_of_span_last
    (hp : (a.span mode (.int start) (.int available) margin (.int track)).result = .ok p)
    (hlast : a.count = .int (track + 1)) (h : 0 ≤ track) :
    Reaches p.1 p.2 0 (.int (start + available)) := by
  obtain ⟨count, i, j, hcount, -, hj, rfl⟩ := span_int_eq_ok_iff.mp hp
  rw [hlast, wholeTracks_int] at hcount
  obtain rfl := Except.ok.inj hcount
  obtain rfl := hj.unique (endsAtPixel_all (by omega))
  have hbefore : (track + 1).toNat - 1 = track.toNat := by omega
  rw [usable, hbefore]
  exact ⟨_, _, _, rfl, rfl, rfl, by omega, by omega⟩

end GridAxis

namespace GridShape

variable {g : GridShape} {registry : Variables} {mode : Rounding}

/-- What all cells share in a container: the area inside the frames, and the margins between columns
and between rows. -/
def inset (g : GridShape) (registry : Variables) (mode : Rounding) (container : Rectangle) :
    Report (Rectangle × Int × Int) := do
  let frameX ← marginPixels registry mode container g.horizontal.frame
  let frameY ← marginPixels registry mode container g.vertical.frame
  let area ← Report.ofNumber (container.shrunk (.int frameX) (.int frameY))
  let marginX ← marginPixels registry mode area g.horizontal.margin
  let marginY ← marginPixels registry mode area g.vertical.margin
  return (area, marginX, marginY)

theorem resolveAt_eq_ok_iff {location : Location} {container r : Rectangle} :
    (g.resolveAt registry mode location container).result = .ok r ↔
      g.horizontal.has location.column = true ∧ g.vertical.has location.row = true ∧
      ∃ area marginX marginY px py, (g.inset registry mode container).result =
        .ok (area, marginX, marginY) ∧
        (g.horizontal.span mode area.x area.width marginX location.column).result = .ok px ∧
        (g.vertical.span mode area.y area.height marginY location.row).result = .ok py ∧
        r = ⟨px.1, py.1, px.2, py.2⟩ := by
  unfold resolveAt inset
  simp only [Report.result_bind_eq_ok_iff]
  constructor
  · intro h
    split at h
    · obtain ⟨_, hfail, -⟩ := Report.result_bind_eq_ok_iff.mp h
      cases hfail
    · rename_i hin
      simp only [Report.result_bind_eq_ok_iff] at h
      obtain ⟨frameX, hfx, frameY, hfy, area, harea, marginX, hmx, marginY, hmy, px, hpx,
        py, hpy, h⟩ := h
      obtain ⟨hcolumn, hrow⟩ : g.horizontal.has location.column = true ∧
          g.vertical.has location.row = true := by
        simpa using hin
      exact ⟨hcolumn, hrow, area, marginX, marginY, px, py,
        ⟨frameX, hfx, frameY, hfy, area, harea, marginX, hmx, marginY, hmy, rfl⟩, hpx, hpy,
        (Except.ok.inj h).symm⟩
  · rintro ⟨hcolumn, hrow, area, marginX, marginY, px, py,
      ⟨frameX, hfx, frameY, hfy, area', harea, mx, hmx, my, hmy, h⟩, hpx, hpy, rfl⟩
    obtain ⟨rfl, rfl, rfl⟩ : area' = area ∧ mx = marginX ∧ my = marginY := by simpa using h
    rw [if_neg (by simp [hcolumn, hrow])]
    simp only [Report.result_bind_eq_ok_iff]
    exact ⟨frameX, hfx, frameY, hfy, area', harea, mx, hmx, my, hmy, px, hpx, py, hpy, rfl⟩

theorem inset_ofInts {x y w h marginX marginY : Int} {area : Rectangle}
    (hinset : (g.inset registry mode (.ofInts x y w h)).result = .ok (area, marginX, marginY)) :
    ∃ ax ay aw ah, area = .ofInts ax ay aw ah := by
  simp only [inset, Report.result_bind_eq_ok_iff, Report.result_ofNumber_eq_ok_iff] at hinset
  obtain ⟨frameX, -, frameY, -, area', harea, _, -, _, -, hpair⟩ := hinset
  obtain rfl : area' = area := congrArg Prod.fst (Except.ok.inj hpair)
  simp only [Rectangle.shrunk, Rectangle.ofInts, Rectangle.shrunkAxis_int, ok_bind] at harea
  obtain rfl := Except.ok.inj harea
  split_ifs
  all_goals exact ⟨_, _, _, _, rfl⟩

/-- Cells line up. In a container of whole pixels each cell reaches to its right neighbour but for
the margin, and a cell of the last column to the right edge of the area inside the frames; exactly
so far, unless the cell is empty. The same holds downwards. -/
theorem resolveAt_lines_up (g : GridShape) (registry : Variables) (mode : Rounding)
    (x y w h : Int) :
    (∀ (column : Int) (row : Number) (r : Rectangle),
      (g.resolveAt registry mode ⟨.int column, row⟩ (.ofInts x y w h)).result = .ok r →
      ∃ area marginX marginY, (g.inset registry mode (.ofInts x y w h)).result =
        .ok (area, marginX, marginY) ∧
        (∀ s, (g.resolveAt registry mode ⟨.int (column + 1), row⟩ (.ofInts x y w h)).result =
          .ok s → Reaches r.x r.width (GridAxis.gap area.width marginX) s.x) ∧
        (g.columns = .int (column + 1) → ∃ right, area.right = .ok right ∧
          Reaches r.x r.width 0 right)) ∧
    ∀ (column : Number) (row : Int) (r : Rectangle),
      (g.resolveAt registry mode ⟨column, .int row⟩ (.ofInts x y w h)).result = .ok r →
      ∃ area marginX marginY, (g.inset registry mode (.ofInts x y w h)).result =
        .ok (area, marginX, marginY) ∧
        (∀ s, (g.resolveAt registry mode ⟨column, .int (row + 1)⟩ (.ofInts x y w h)).result =
          .ok s → Reaches r.y r.height (GridAxis.gap area.height marginY) s.y) ∧
        (g.rows = .int (row + 1) → ∃ bottom, area.bottom = .ok bottom ∧
          Reaches r.y r.height 0 bottom) := by
  constructor
  · intro column row r hr
    obtain ⟨hcolumn, -, area, marginX, marginY, px, py, hinset, hpx, -, rfl⟩ :=
      resolveAt_eq_ok_iff.mp hr
    obtain ⟨ax, ay, aw, ah, rfl⟩ := inset_ofInts hinset
    have hzero : 0 ≤ column := (Bool.and_eq_true_iff.mp hcolumn).1 |> of_decide_eq_true
    refine ⟨_, marginX, marginY, hinset, fun s hs => ?_, fun hlast => ⟨_, rfl, ?_⟩⟩
    · obtain ⟨-, -, area', marginX', marginY', qx, qy, hinset', hqx, -, rfl⟩ :=
        resolveAt_eq_ok_iff.mp hs
      obtain ⟨rfl, rfl, -⟩ : Rectangle.ofInts ax ay aw ah = area' ∧ marginX = marginX' ∧
          marginY = marginY' := by
        simpa using hinset.symm.trans hinset'
      exact GridAxis.reaches_of_span hpx hqx hzero
    · exact GridAxis.reaches_of_span_last hpx hlast hzero
  · intro column row r hr
    obtain ⟨-, hrow, area, marginX, marginY, px, py, hinset, -, hpy, rfl⟩ :=
      resolveAt_eq_ok_iff.mp hr
    obtain ⟨ax, ay, aw, ah, rfl⟩ := inset_ofInts hinset
    have hzero : 0 ≤ row := (Bool.and_eq_true_iff.mp hrow).1 |> of_decide_eq_true
    refine ⟨_, marginX, marginY, hinset, fun s hs => ?_, fun hlast => ⟨_, rfl, ?_⟩⟩
    · obtain ⟨-, -, area', marginX', marginY', qx, qy, hinset', -, hqy, rfl⟩ :=
        resolveAt_eq_ok_iff.mp hs
      obtain ⟨rfl, -, rfl⟩ : Rectangle.ofInts ax ay aw ah = area' ∧ marginX = marginX' ∧
          marginY = marginY' := by
        simpa using hinset.symm.trans hinset'
      exact GridAxis.reaches_of_span hpy hqy hzero
    · exact GridAxis.reaches_of_span_last hpy hlast hzero

/-- Seven pixels are split into three and four. -/
theorem resolveAt_two_columns :
    ∃ r s gap,
    ((⟨{ count := .int 2 }, { count := .int 1 }⟩ : GridShape).resolveAt {} .truncate (.ofInts 0 0)
        (.ofInts 0 0 7 5)).result = .ok r ∧
      ((⟨{ count := .int 2 }, { count := .int 1 }⟩ : GridShape).resolveAt {} .truncate (.ofInts 1 0)
        (.ofInts 0 0 7 5)).result = .ok s ∧
      r.width = .int 3 ∧ s.width = .int 4 ∧ Reaches r.x r.width gap s.x := by
  have hr : ((⟨{ count := .int 2 }, { count := .int 1 }⟩ : GridShape).resolveAt {}
    .truncate (.ofInts 0 0)
      (.ofInts 0 0 7 5)).result = .ok (.ofInts 0 0 3 5) :=
        toOption_eq_some_iff.mp (by decide +kernel)
  have hs : ((⟨{ count := .int 2 }, { count := .int 1 }⟩ : GridShape).resolveAt {}
    .truncate (.ofInts 1 0)
      (.ofInts 0 0 7 5)).result = .ok (.ofInts 3 0 4 5) :=
        toOption_eq_some_iff.mp (by decide +kernel)
  obtain ⟨area, marginX, marginY, -, hnext, -⟩ :=
    (resolveAt_lines_up _ {} .truncate 0 0 7 5).1 0 (.int 0) _ hr
  exact ⟨_, _, _, hr, hs, rfl, rfl, hnext _ hs⟩

end GridShape

end PanelLayout
