import PanelLayout.Proofs.Grid.Operations

/-!
# Refused insets

Margins and frames are read and stored one after the other. If the first expression is refused
nothing has been stored. If the second one is, then the first one stays, and later layouts of the
grid show it.
-/

namespace PanelLayout

namespace Grid

variable {α : Type} {g g' : Grid α} {inset : Inset} {x y : Json} {error : LayoutError}

section WithInset

variable (g : Grid α) (inset : Inset) (e? : Option Expression)

theorem withInset_inset : g.withInset inset .horizontal (g.horizontal.inset inset) = g := by
  cases inset <;> rfl

theorem withExtent_withInset (columns rows : Number) :
    (g.withInset inset .horizontal e?).withExtent columns rows =
      (g.withExtent columns rows).withInset inset .horizontal e? := by
  cases inset <;> rfl

theorem shrinkAfter_withInset (l : Location) :
    (g.withInset inset .horizontal e?).shrinkAfter l =
      (g.shrinkAfter l).withInset inset .horizontal e? := by
  have hcolumns : (g.withInset inset .horizontal e?).columns = g.columns :=
    GridAxis.count_withInset ..
  unfold shrinkAfter
  simp only [withExtent_withInset, hcolumns]
  change (if l.column.equals g.columns.pred || l.row.equals g.rows.pred then
      if g.columns.pred.le (lastTrack (.int 0) g.takenColumns) &&
        g.rows.pred.le (lastTrack (.int 0) g.takenRows) then _
      else _
    else _) = _
  split
  · split <;> rfl
  · rfl

theorem removeIf_withInset (p : Location × α → Bool) (l : Location) (resize : Bool) :
    ((g.withInset inset .horizontal e?).removeIf p l resize).2 =
      (g.removeIf p l resize).2.withInset inset .horizontal e? := by
  let kept : Grid α := { g with entries := g.entries.filter (!p ·) }
  change (if !g.entries.any p || !resize then _ else if kept.entries.isEmpty
    then _ else _ : Bool × Grid α).2 =
    (if !g.entries.any p || !resize then _ else if kept.entries.isEmpty
      then _ else _ : Bool × Grid α).2.withInset ..
  split
  · rfl
  · split
    · exact withExtent_withInset kept inset e? _ _
    · exact shrinkAfter_withInset kept inset e? l

theorem change_withInset (c : Change α) :
    (g.withInset inset .horizontal e?).change c = (g.change c).withInset inset .horizontal e? := by
  cases c with
  | add client l =>
    simp only [change, add]
    split
    · rfl
    · cases inset <;> rfl
  | remove l resize => exact removeIf_withInset ..
  | shrink => exact withExtent_withInset ..

end WithInset

/-- Whether two grids are the same up to the expression for an inset along the horizontal axis. -/
def AgreesButFor (inset : Inset) (g g' : Grid α) : Prop :=
  ∃ e?, g' = g.withInset inset .horizontal e?

theorem AgreesButFor.withInset (h : AgreesButFor inset g g') (other : Inset) (axis : Axis)
    (e'? : Option Expression) :
    AgreesButFor inset (g.withInset other axis e'?) (g'.withInset other axis e'?) := by
  obtain ⟨e?, rfl⟩ := h
  cases axis with
  | vertical => exact ⟨e?, rfl⟩
  | horizontal =>
    -- The same inset is stored over.
    cases inset with
    | margin =>
      cases other with
      | margin => exact ⟨e'?, rfl⟩
      | frame => exact ⟨e?, rfl⟩
    | frame =>
      cases other with
      | margin => exact ⟨e?, rfl⟩
      | frame => exact ⟨e'?, rfl⟩

theorem AgreesButFor.setInsets (h : AgreesButFor inset g g') (other : Inset) (x y : Json) :
    AgreesButFor inset (g.setInsets other x y).2 (g'.setInsets other x y).2 := by
  rw [setInsets_eq, setInsets_eq]
  cases optionalExpression {} x with
  | error error => exact h
  | ok x? =>
    have hstored := h.withInset other .horizontal x?
    cases optionalExpression {} y with
    | error error => exact hstored
    | ok y? => exact hstored.withInset other .vertical y?

theorem setWeight_withInset (a : GridAxis) (e? : Option Expression) (track : Number) (v : Json) :
    (a.withInset inset e?).setWeight track v =
      (a.setWeight track v).map (·.withInset inset e?) := by
  unfold GridAxis.setWeight
  cases GridAxis.checkWeight v with
  | error error => rfl
  | ok w => cases inset <;> rfl

/-- One operation keeps the difference, or stores over it. -/
theorem AgreesButFor.operate (h : AgreesButFor inset g g') (operation : Operation α) :
    AgreesButFor inset (g.operate operation) (g'.operate operation) := by
  cases operation with
  | change c =>
    obtain ⟨e?, rfl⟩ := h
    exact ⟨e?, change_withInset g inset e? c⟩
  | margins x y => exact h.setInsets .margin x y
  | frames x y => exact h.setInsets .frame x y
  | columnWeight column weight =>
    obtain ⟨e?, rfl⟩ := h
    refine ⟨e?, ?_⟩
    simp only [Grid.operate, setColumnWeight, Grid.withInset, setWeight_withInset]
    cases g.horizontal.setWeight column weight <;> rfl
  | rowWeight row weight =>
    obtain ⟨e?, rfl⟩ := h
    refine ⟨e?, ?_⟩
    simp only [Grid.operate, setRowWeight, Grid.withInset]
    cases g.vertical.setWeight row weight <;> rfl

def afterOperations (g : Grid α) (operations : List (Operation α)) : Grid α :=
  operations.foldl operate g

theorem AgreesButFor.afterOperations (h : AgreesButFor inset g g')
    (operations : List (Operation α)) :
    AgreesButFor inset (g.afterOperations operations) (g'.afterOperations operations) := by
  induction operations generalizing g g' with
  | nil => exact h
  | cons operation operations ih => exact ih (h.operate operation)

/-- A call is refused for the first expression, and then nothing is stored, or for the second one,
and then the first one is. -/
theorem setInsets_eq_error_iff : g.setInsets inset x y = (.error error, g') ↔
    (optionalExpression {} x = .error error ∧ g' = g) ∨
      ∃ x?, optionalExpression {} x = .ok x? ∧ optionalExpression {} y = .error error ∧
        g' = g.withInset inset .horizontal x? := by
  rw [setInsets_eq]
  cases optionalExpression {} x with
  | error error' => simp [eq_comm]
  | ok x? => cases optionalExpression {} y <;> simp [eq_comm]

/-- What a refused call leaves behind. Nothing has been stored if the first expression is refused,
and nothing has changed if it is the one that was stored before; then all later layouts are those of
a grid without the call. Otherwise the second expression was refused, the first one has been stored,
and later operations keep that difference and no other one, or store over it. -/
theorem setInsets_refused (h : g.setInsets inset x y = (.error error, g')) :
    ((∀ x?, optionalExpression {} x = .ok x? → x? = g.horizontal.inset inset) →
      g' = g ∧ ∀ operations registry mode l container,
        (g'.afterOperations operations).resolveAt registry mode l container =
          (g.afterOperations operations).resolveAt registry mode l container) ∧
    ∀ x?, optionalExpression {} x = .ok x? → optionalExpression {} y = .error error ∧
      g' = g.withInset inset .horizontal x? ∧ (g' = g → x? = g.horizontal.inset inset) ∧
      ∀ operations,
      AgreesButFor inset (g.afterOperations operations) (g'.afterOperations operations) := by
  rcases setInsets_eq_error_iff.mp h with ⟨hx, rfl⟩ | ⟨x?, hx, hy, rfl⟩
  · refine ⟨fun _ => ⟨rfl, fun _ _ _ _ _ => rfl⟩, ?_⟩
    intro x? hread
    cases hx.symm.trans hread
  · constructor
    · intro hsame
      rw [hsame x? hx, withInset_inset]
      exact ⟨rfl, fun _ _ _ _ _ => rfl⟩
    · intro x'? hread
      obtain rfl := Except.ok.inj (hx.symm.trans hread)
      refine ⟨hy, rfl, ?_, fun operations => AgreesButFor.afterOperations ⟨x?, rfl⟩ operations⟩
      intro hunchanged
      rw [← hunchanged]
      exact (GridAxis.inset_withInset ..).symm

def twoColumns : Grid Unit := reached [.change (.add () (.ofInts 1 0))]

/-- If the horizontal frame cannot be read the grid has no frame at all, and its columns share the
container later on. -/
theorem setInsets_refused_first :
    ∃ error, twoColumns.setInsets .frame (.text "(") (.text "10") = (.error error, twoColumns) ∧
      ((twoColumns.setInsets .frame (.text "(") (.text "10")).2.afterOperations
        [.columnWeight (.int 0) (.number (.int 3))]
        |>.resolveAt {} .truncate (.ofInts 0 0) (.ofInts 0 0 100 10)).result =
        .ok (.ofInts 0 0 75 10) := by
  have hfails : (optionalExpression {} (.text "(")).toOption = none := by decide +kernel
  cases hx : optionalExpression {} (.text "(") with
  | ok x? =>
    rw [hx] at hfails
    cases hfails
  | error error =>
    have h : twoColumns.setInsets .frame (.text "(") (.text "10") = (.error error, twoColumns) := by
      rw [setInsets_eq, hx]
    obtain ⟨hkept, -⟩ := setInsets_refused h
    obtain ⟨-, hlater⟩ := hkept fun x? hread => nomatch hx.symm.trans hread
    refine ⟨error, h, ?_⟩
    rw [h, hlater, ← toOption_eq_some_iff]
    decide +kernel

/-- If only the vertical margin cannot be read the horizontal one is set, and makes the columns
narrower. -/
theorem setMargins_stores_first :
    ∃ error g', twoColumns.setMargins (.text "10") (.text "(") = (.error error, g') ∧
    error.category = .parse ∧
      (twoColumns.resolveAt {} .truncate (.ofInts 0 0) (.ofInts 0 0 100 10)).result =
        .ok (.ofInts 0 0 50 10) ∧
      (g'.resolveAt {} .truncate (.ofInts 0 0) (.ofInts 0 0 100 10)).result =
        .ok (.ofInts 0 0 45 10) := by
  have h : ((match (twoColumns.setMargins (.text "10") (.text "(")).1 with
      | .ok _ => none
      | .error error => some error.category),
      (twoColumns.resolveAt {} .truncate (.ofInts 0 0) (.ofInts 0 0 100 10)).result.toOption,
      ((twoColumns.setMargins (.text "10") (.text "(")).2.resolveAt {} .truncate (.ofInts 0 0)
        (.ofInts 0 0 100 10)).result.toOption) =
      (some .parse, some (.ofInts 0 0 50 10), some (.ofInts 0 0 45 10)) := by decide +kernel
  simp only [Prod.mk.injEq, toOption_eq_some_iff] at h
  obtain ⟨hcategory, hbefore, hafter⟩ := h
  cases hresult : twoColumns.setMargins (.text "10") (.text "(") with
  | mk result g' =>
    rw [hresult] at hcategory hafter
    cases result with
    | ok => cases hcategory
    | error error => exact ⟨error, g', rfl, Option.some.inj hcategory, hbefore, hafter⟩

end Grid

end PanelLayout
