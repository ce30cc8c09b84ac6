import PanelLayout.Proofs.Scene.Calls

/-!
# Refused cells

A component cannot be put into a cell before the first column or the first row. By the time the cell
is refused, the component has left the one that it held.
-/

namespace PanelLayout

namespace Scene

variable {s : Scene} {panel child : Key} {l : Location}

theorem withGrid_eq_self_iff (h : s.isPanel panel = true) (grid : Grid Key) :
    s.withGrid panel grid = s ↔ grid = (s.panel panel).grid := by
  constructor
  · intro hsame
    have hgrid := congrArg (fun t => (t.panel panel).grid) hsame
    simpa [panel_withGrid, lt_size_of_isPanel h] using hgrid
  · intro hgrid
    rw [hgrid]
    exact setPanel_panel h

theorem addToGrid_fails_iff (h : (s.panel panel).grid.IsOrderly) (child : Key) (l : Location)
    (e : LayoutError) :
    (s.addToGrid panel child l).1 = .error e ↔ l.isNegative = true ∧
    e = .negativeCell l.column l.row := by
  cases hl : l.isNegative with
  | false => simp [addToGrid_of_not_isNegative h child hl]
  | true => simp [addToGrid_of_isNegative h child hl, eq_comm]

/-- In every scene that comes about from empty grids by calls on its panels, a cell is refused if
and only if it lies before the first column or row. A refusal takes the component out of the cell
that it held, and nothing else: the tracks, the other cells and all recorded locations stay. So
everything is as it was if and only if the component held no cell of the panel. -/
theorem addToGrid_refused (hempty : ∀ key, (s.panel key).grid.entries = [])
    (calls : List (Key × Call)) (panel child : Key) (l : Location) :
    let t := s.run calls
    (∀ e, (t.addToGrid panel child l).1 = .error e ↔ l.isNegative = true ∧
      e = .negativeCell l.column l.row) ∧
      (l.isNegative = true → (t.addToGrid panel child l).2 =
        t.withGrid panel ((t.panel panel).grid.without child) ∧
        (t.isPanel panel = true →
          ((t.addToGrid panel child l).2 = t ↔ child ∉ (t.panel panel).grid.clients))) := by
  intro t
  have horderly : t.IsOrderly := IsOrderly.run (fun key => .empty (hempty key)) calls
  refine ⟨addToGrid_fails_iff (horderly panel) child l, fun hl => ?_⟩
  have hleft : (t.addToGrid panel child l).2 =
      t.withGrid panel ((t.panel panel).grid.without child) := by
    rw [addToGrid_of_isNegative (horderly panel) child hl]
  refine ⟨hleft, fun hpanel => ?_⟩
  rw [hleft, withGrid_eq_self_iff hpanel, Grid.without_eq_self_iff]

theorem addToGrid_refused_free_component :
    ((((fresh 2).run [(0, .addToGrid 1 (.ofInts 0 0)), (0, .add 2)]).addToGrid 0 2
      (.ofInts (-1) 0)).1 =
        .error (.negativeCell (.int (-1)) (.int 0))) ∧
      (((fresh 2).run [(0, .addToGrid 1 (.ofInts 0 0)), (0, .add 2)]).addToGrid 0 2
        (.ofInts (-1) 0)).2 = (fresh 2).run [(0, .addToGrid 1 (.ofInts 0 0)), (0, .add 2)] := by
  have h :=
    addToGrid_refused (s := fresh 2) (by simp) [(0, .addToGrid 1 (.ofInts 0 0)), (0, .add 2)] 0 2
      (.ofInts (-1) 0)
  have hl : (Location.ofInts (-1) 0).isNegative = true := by decide
  exact ⟨(h.1 _).mpr ⟨hl, rfl⟩, ((h.2 hl).2 (by decide)).mpr (by decide)⟩

/-- A component that is to move before the first column is refused and loses its cell. -/
theorem addToGrid_refused_loses_cell :
    let t := (fresh 1).run [(0, .addToGrid 1 (.ofInts 0 0))]
    (t.addToGrid 0 1 (.ofInts (-1) 0)).1 = .error (.negativeCell (.int (-1)) (.int 0)) ∧
      t.children 0 = [1] ∧ (t.addToGrid 0 1 (.ofInts (-1) 0)).2.children 0 = [] := by
  refine ⟨rfl, ?_, ?_⟩ <;> decide +kernel

end Scene

end PanelLayout
