import PanelLayout.Proofs.Grid.Insets
import PanelLayout.Proofs.Grid.Resizing
import PanelLayout.Proofs.Grid.Shares

/-!
# Operations on a grid

Everything that can be done to a grid: clients come and go, and margins, frames and weights are set,
or refused. Whatever is done, the weights of the tracks are positive.
-/

namespace PanelLayout

structure GridShape.HasPositiveWeights (g : GridShape) : Prop where
  horizontal : g.horizontal.HasPositiveWeights
  vertical : g.vertical.HasPositiveWeights

def GridShape.along (g : GridShape) : Axis → GridAxis
  | .horizontal => g.horizontal
  | .vertical => g.vertical

namespace Grid

variable {α : Type} {g : Grid α}

inductive Operation (α : Type) where
  | change (c : Change α)
  | margins (x y : Json)
  | frames (x y : Json)
  | columnWeight (column : Number) (weight : Json)
  | rowWeight (row : Number) (weight : Json)

def operate (g : Grid α) : Operation α → Grid α
  | .change c => g.change c
  | .margins x y => (g.setMargins x y).2
  | .frames x y => (g.setFrames x y).2
  | .columnWeight column weight => (g.setColumnWeight column weight).toOption.getD g
  | .rowWeight row weight => (g.setRowWeight row weight).toOption.getD g

def reached (operations : List (Operation α)) : Grid α := operations.foldl operate {}

theorem weights_withExtent (g : Grid α) (columns rows : Number) (axis : Axis) :
    ((g.withExtent columns rows).along axis).weights = (g.along axis).weights := by
  cases axis <;> rfl

theorem weights_removeIf (g : Grid α) (p : Location × α → Bool) (l : Location) (resize : Bool)
    (axis : Axis) :
    ((g.removeIf p l resize).2.along axis).weights = (g.along axis).weights := by
  unfold removeIf
  dsimp only
  split
  · rfl
  · split
    · exact weights_withExtent ..
    · unfold shrinkAfter
      dsimp only
      split
      · split
        · rfl
        · exact weights_withExtent ..
      · rfl

theorem weights_change (g : Grid α) (c : Change α) (axis : Axis) :
    ((g.change c).along axis).weights = (g.along axis).weights := by
  cases c with
  | add client l =>
    rw [change, add]
    split
    · rfl
    · exact weights_withExtent ..
  | remove l resize => exact weights_removeIf ..
  | shrink => exact weights_withExtent ..

theorem weights_setInsets (g : Grid α) (inset : Inset) (x y : Json) (axis : Axis) :
    ((g.setInsets inset x y).2.along axis).weights = (g.along axis).weights := by
  apply setInsets_preserves (P := fun g' => (g'.along axis).weights = (g.along axis).weights) ?_ rfl
  intro g' other v e? _ hg'
  refine Eq.trans ?_ hg'
  cases other with
  | horizontal =>
    cases axis with
    | horizontal => exact GridAxis.weights_withInset ..
    | vertical => rfl
  | vertical =>
    cases axis with
    | horizontal => rfl
    | vertical => exact GridAxis.weights_withInset ..

/-- The weight that an operation asks for, if it asks for one: for a track of an axis, and as a
value. -/
def Operation.weightCall? : Operation α → Option (Axis × Number × Json)
  | .columnWeight track v => some (.horizontal, track, v)
  | .rowWeight track v => some (.vertical, track, v)
  | _ => none

def Operation.weighted (operation : Operation α) (axis : Axis) (a : GridAxis) : GridAxis :=
  match operation.weightCall? with
  | some (other, track, v) => if other = axis then (a.setWeight track v).toOption.getD a else a
  | none => a

theorem along_operate {operation : Operation α} (h : operation.weightCall?.isSome = true)
    (g : Grid α) (axis : Axis) :
    (g.operate operation).along axis = operation.weighted axis (g.along axis) := by
  cases operation with
  | change c => cases h
  | margins x y => cases h
  | frames x y => cases h
  | columnWeight track v =>
    rw [operate, setColumnWeight]
    cases axis <;> cases hset : g.horizontal.setWeight track v <;>
      simp [Operation.weighted, Operation.weightCall?, GridShape.along, Except.toOption, hset]
  | rowWeight track v =>
    rw [operate, setRowWeight]
    cases axis <;> cases hset : g.vertical.setWeight track v <;>
      simp [Operation.weighted, Operation.weightCall?, GridShape.along, Except.toOption, hset]

theorem weights_operate (g : Grid α) (operation : Operation α) (axis : Axis) :
    ((g.operate operation).along axis).weights =
      (operation.weighted axis (g.along axis)).weights := by
  cases operation with
  | change c => exact weights_change g c axis
  | margins x y => exact weights_setInsets g .margin x y axis
  | frames x y => exact weights_setInsets g .frame x y axis
  | columnWeight track v => rw [along_operate rfl]
  | rowWeight track v => rw [along_operate rfl]

theorem Operation.holdsWeights_weighted {axis : Axis} {a : GridAxis} (h : a.HoldsWeights)
    (operation : Operation α) :
    (operation.weighted axis a).HoldsWeights := by
  unfold Operation.weighted
  cases operation.weightCall? with
  | none => exact h
  | some call =>
    obtain ⟨other, track, v⟩ := call
    dsimp only
    split
    · cases hset : a.setWeight track v with
      | error e => exact h
      | ok b => exact h.setWeight hset
    · exact h

theorem holdsWeights_afterOperations {axis : Axis} (h : (g.along axis).HoldsWeights)
    (operations : List (Operation α)) :
    ((operations.foldl operate g).along axis).HoldsWeights := by
  induction operations generalizing g with
  | nil => exact h
  | cons operation operations ih =>
    apply ih
    rw [GridAxis.HoldsWeights, weights_operate]
    exact operation.holdsWeights_weighted h

theorem reached_holdsWeights (operations : List (Operation α)) (axis : Axis) :
    ((reached operations).along axis).HoldsWeights := by
  have hempty : (({} : Grid α).along axis).HoldsWeights := by
    cases axis <;> simp [GridAxis.HoldsWeights, GridShape.along]
  exact holdsWeights_afterOperations hempty operations

theorem reached_hasPositiveWeights (operations : List (Operation α)) :
    (reached operations).HasPositiveWeights :=
  ⟨(reached_holdsWeights operations .horizontal).hasPositiveWeights,
    (reached_holdsWeights operations .vertical).hasPositiveWeights⟩

end Grid

end PanelLayout
