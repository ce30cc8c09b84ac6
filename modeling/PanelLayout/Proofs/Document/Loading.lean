import Mathlib.Data.List.Basic
import Mathlib.Data.List.Forall2
import PanelLayout.Proofs.Computation
import PanelLayout.Proofs.Document.Nodes
import PanelLayout.Proofs.Grid.Insets
import PanelLayout.Proofs.Grid.Resizing

/-!
# Loading

What a panel holds after it is loaded. Children are placed one by one; from one child to the next
the cells taken so far are those of the children that are not replaced yet, and in the end the
children stand in the order of painting.
-/

namespace PanelLayout

def Element.inCell (cell : Option (Int × Int)) (e : Element) : Element :=
  match cell with
  | none => e
  | some (column, row) => e.withLocation (.ofInts column row)

theorem Element.inCell_leaf {c : Component} (h : c.location = none) (cell : Option (Int × Int)) :
    (Element.leaf c).inCell cell =
      .leaf { c with location := cell.map fun l => .ofInts l.1 l.2 } := by
  cases cell with
  | none => rw [inCell, Option.map_none, ← h]
  | some l => rfl

theorem Element.inCell_panel {c : Component} (h : c.location = none) (body : PanelBody)
    (es : List Element) (cell : Option (Int × Int)) : (Element.panel c body es).inCell cell =
      .panel { c with location := cell.map fun l => .ofInts l.1 l.2 } body es := by
  cases cell with
  | none => rw [inCell, Option.map_none, ← h]
  | some l => rfl

namespace Document

variable {settings : Settings}

theorem withGeometry_fixed {c c' : Component} {x y width height : Json}
    (h : c.withGeometry x y width height = .ok c') :
    c'.location = c.location ∧ c'.visible = c.visible ∧ c'.name = c.name ∧
    c'.settings = c.settings := by
  obtain ⟨sized, hsized, hpositioned⟩ := bind_eq_ok_iff.mp h
  simp only [Component.setSize, bind_eq_ok_iff] at hsized
  obtain ⟨_, -, _, -, ⟨⟩, -, ⟨⟩, -, hsized⟩ := hsized
  simp only [Component.setPosition, bind_eq_ok_iff] at hpositioned
  obtain ⟨_, -, _, -, ⟨⟩, -, ⟨⟩, -, hpositioned⟩ := hpositioned
  obtain rfl := Except.ok.inj hsized
  obtain rfl := Except.ok.inj hpositioned
  exact ⟨rfl, rfl, rfl, rfl⟩

theorem componentOf_fixed {node : Members} {c : Component} (h : componentOf settings node = .ok c) :
    c.location = none ∧ c.visible = flag node "visible" := by
  simp only [componentOf, bind_eq_ok_iff] at h
  obtain ⟨c', hc', members, -, registry, -, h⟩ := h
  obtain rfl := Except.ok.inj h
  obtain ⟨hlocation, hvisible, -, -⟩ := withGeometry_fixed hc'
  exact ⟨hlocation, hvisible⟩

theorem componentOf_given {node : Members} {c : Component} (h : componentOf settings node = .ok c) :
    c.name = value node "name" ∧ c.settings = settings := by
  simp only [componentOf, bind_eq_ok_iff] at h
  obtain ⟨c', hc', members, -, registry, -, h⟩ := h
  obtain rfl := Except.ok.inj h
  exact (withGeometry_fixed hc').2.2

theorem locationOf?_eq {node : Members} {l : Option Location} (h : locationOf? node = .ok l) :
    l = (cell? (.object node)).map fun l => .ofInts l.1 l.2 := by
  have hcell : ∀ l', locationOf? node = .ok l' → l' = none ∨
      ∃ column row, l' = some (.ofInts column row) := by
    intro l' hl'
    unfold locationOf? at hl'
    split at hl'
    · exact .inl (Except.ok.inj hl').symm
    · obtain ⟨column, -, hl'⟩ := bind_eq_ok_iff.mp hl'
      obtain ⟨row, -, hl'⟩ := bind_eq_ok_iff.mp hl'
      exact .inr ⟨column, row, (Except.ok.inj hl').symm⟩
  rcases hcell l h with rfl | ⟨column, row, rfl⟩
  · simp [cell?, h]
  · simp [cell?, h, Location.ofInts]

private theorem foldlM_preserves {ε α β : Type} {P : β → Prop} {f : β → α → Except ε β}
    (hstep : ∀ b a b', f b a = .ok b' → P b → P b') {xs : List α} {b b' : β}
    (h : xs.foldlM f b = .ok b') (hb : P b) :
    P b' := by
  induction xs generalizing b with
  | nil =>
    obtain rfl := Except.ok.inj h
    exact hb
  | cons x xs ih =>
    rw [List.foldlM_cons] at h
    obtain ⟨c, hc, h⟩ := bind_eq_ok_iff.mp h
    exact ih h (hstep b x c hc hb)

private theorem withPair_preserves {α : Type} {P : Grid α → Prop} {node : Members} {key : String}
    {g g' : Grid α} {set : Grid α → Json → Json → Except LayoutError Unit × Grid α}
    (hset : ∀ g x y, P g → P (set g x y).2) (h : withPair node key g set = .ok g') (hg : P g) :
    P g' := by
  unfold withPair at h
  split at h
  · obtain rfl := Except.ok.inj h
    exact hg
  · obtain ⟨xy, -, h⟩ := bind_eq_ok_iff.mp h
    obtain ⟨-, -, h⟩ := bind_eq_ok_iff.mp h
    obtain rfl := Except.ok.inj h
    exact hset g xy.1 xy.2 hg

private theorem withWeights_preserves {α : Type} {P : Grid α → Prop} {node : Members} {key : String}
    {g g' : Grid α} {set : Grid α → Number → Json → Except LayoutError (Grid α)}
    (hset : ∀ g track v g', set g track v = .ok g' → P g → P g')
    (h : withWeights node key g set = .ok g') (hg : P g) :
    P g' := by
  obtain ⟨members, -, h⟩ := bind_eq_ok_iff.mp h
  refine foldlM_preserves (fun g m g' hm hg => ?_) h hg
  obtain ⟨track, -, hm⟩ := bind_eq_ok_iff.mp hm
  exact hset g _ m.2 g' hm hg

/-- What holds of a grid without tracks holds of the grid of a panel, if margins, frames and weights
keep it. -/
theorem emptyGrid_preserves {P : Grid Element → Prop} {node : Members} {g : Grid Element}
    (hinset : ∀ g inset axis v e?, optionalExpression {} v = .ok e? → P g →
      P (g.withInset inset axis e?))
    (hcolumns : ∀ g track v g', g.setColumnWeight track v = .ok g' → P g → P g')
    (hrows : ∀ g track v g', g.setRowWeight track v = .ok g' → P g → P g') (hempty : P {})
    (h : emptyGrid node = .ok g) : P g := by
  obtain ⟨g₁, h₁, h⟩ := bind_eq_ok_iff.mp h
  obtain ⟨g₂, h₂, h⟩ := bind_eq_ok_iff.mp h
  obtain ⟨g₃, h₃, h₄⟩ := bind_eq_ok_iff.mp h
  have hinsets : ∀ inset g x y, P g → P (g.setInsets inset x y).2 := fun inset g x y hg =>
    Grid.setInsets_preserves (fun g => hinset g inset) hg
  have hmargined : P g₁ := withPair_preserves (hinsets .margin) h₁ hempty
  have hframed : P g₂ := withPair_preserves (hinsets .frame) h₂ hmargined
  exact withWeights_preserves hrows h₄ (withWeights_preserves hcolumns h₃ hframed)

private def IsEmpty (g : Grid Element) : Prop :=
  g.entries = [] ∧ g.columns = .int 0 ∧ g.rows = .int 0

private theorem withInset_isEmpty (g : Grid Element) (inset : Inset) (axis : Axis)
    (e? : Option Expression) (h : IsEmpty g) :
    IsEmpty (g.withInset inset axis e?) := by
  obtain ⟨hentries, hcolumns, hrows⟩ := h
  cases axis with
  | horizontal => exact ⟨hentries, (GridAxis.count_withInset ..).trans hcolumns, hrows⟩
  | vertical => exact ⟨hentries, hcolumns, (GridAxis.count_withInset ..).trans hrows⟩

private theorem setWeight_count {a a' : GridAxis} {track : Number} {v : Json}
    (h : a.setWeight track v = .ok a') :
    a'.count = a.count := by
  obtain ⟨w, -, h⟩ := bind_eq_ok_iff.mp h
  obtain rfl := Except.ok.inj h
  rfl

theorem emptyGrid_eq_ok {node : Members} {g : Grid Element} (h : emptyGrid node = .ok g) :
    g.entries = [] ∧ g.columns = .int 0 ∧ g.rows = .int 0 := by
  refine emptyGrid_preserves (P := IsEmpty) (fun g inset axis _ e? _ =>
    withInset_isEmpty g inset axis e?) ?_ ?_
    ⟨rfl, rfl, rfl⟩ h
  · intro g track v g' hset hg
    obtain ⟨a, ha, hset⟩ := bind_eq_ok_iff.mp hset
    obtain rfl := Except.ok.inj hset
    exact ⟨hg.1, (setWeight_count ha).trans hg.2.1, hg.2.2⟩
  · intro g track v g' hset hg
    obtain ⟨a, ha, hset⟩ := bind_eq_ok_iff.mp hset
    obtain rfl := Except.ok.inj hset
    exact ⟨hg.1, hg.2.1, (setWeight_count ha).trans hg.2.2⟩

section Cells

variable {taken : List ((Int × Int) × Nat)} {cell : Int × Int} {i : Nat}

/-- Which child takes which cell, cells in the order in which they were first taken, after one more
child took a cell. -/
def takeCell (taken : List ((Int × Int) × Nat)) (cell : Int × Int) (i : Nat) :
    List ((Int × Int) × Nat) :=
  if taken.any (·.1 = cell) then taken.map fun x => if x.1 = cell then (cell, i) else x
    else taken ++ [(cell, i)]

theorem mem_takeCell {x : (Int × Int) × Nat} :
    x ∈ takeCell taken cell i ↔ x = (cell, i) ∨ x ∈ taken ∧ x.1 ≠ cell := by
  unfold takeCell
  split
  · rename_i hany
    obtain ⟨y, hy, hycell⟩ := List.any_eq_true.mp hany
    rw [List.mem_map]
    constructor
    · rintro ⟨z, hz, rfl⟩
      split
      · exact .inl rfl
      · exact .inr ⟨hz, ‹_›⟩
    · rintro (rfl | ⟨hx, hne⟩)
      · exact ⟨y, hy, if_pos (of_decide_eq_true hycell)⟩
      · exact ⟨x, hx, if_neg hne⟩
  · rename_i hany
    have hfree : ∀ y ∈ taken, y.1 ≠ cell := fun y hy hycell =>
      hany (List.any_eq_true.mpr ⟨y, hy, decide_eq_true hycell⟩)
    rw [List.mem_append, List.mem_singleton]
    constructor
    · rintro (hx | rfl)
      · exact .inr ⟨hx, hfree x hx⟩
      · exact .inl rfl
    · rintro (rfl | ⟨hx, -⟩)
      · exact .inr rfl
      · exact .inl hx

theorem nodup_takeCell (h : (taken.map Prod.fst).Nodup) :
    ((takeCell taken cell i).map Prod.fst).Nodup := by
  unfold takeCell
  split
  · have hsame : (taken.map fun x => if x.1 = cell then (cell, i) else x).map Prod.fst =
        taken.map Prod.fst := by
      rw [List.map_map]
      refine List.map_congr_left fun x _ => ?_
      simp only [Function.comp_apply]
      split
      · exact Eq.symm ‹_›
      · rfl
    rwa [hsame]
  · rename_i hany
    rw [List.map_append, List.nodup_append]
    refine ⟨h, by simp, fun a ha b hb hab => hany ?_⟩
    obtain ⟨x, hx, rfl⟩ := List.mem_map.mp ha
    obtain rfl : b = cell := by simpa using hb
    exact List.any_eq_true.mpr ⟨x, hx, decide_eq_true hab⟩

theorem entries_put {g : Grid Element} {f : Nat → Element}
    (h : g.entries = taken.map fun x => (.ofInts x.1.1 x.1.2, f x.2)) (cell : Int × Int) (i : Nat) :
    (g.put (.ofInts cell.1 cell.2) (f i)).entries =
      (takeCell taken cell i).map fun x => (.ofInts x.1.1 x.1.2, f x.2) := by
  have hat : (g.at? (.ofInts cell.1 cell.2)).isSome = taken.any (·.1 = cell) := by
    rw [Grid.at?, Option.isSome_map, h, Bool.eq_iff_iff, List.find?_isSome, List.any_eq_true]
    simp [Prod.ext_iff]
  unfold Grid.put takeCell
  simp only [Grid.withExtent, hat]
  split
  · rw [h, List.map_map, List.map_map]
    refine List.map_congr_left fun x _ => ?_
    simp only [Function.comp_apply, Location.equals_ofInts, decide_eq_true_eq, ← Prod.ext_iff]
    split
    · rename_i hcell
      rw [hcell]
    · rfl
  · rw [h, List.map_append, List.map_singleton]

private def notAfter {β : Type} (a b : (Int × Int) × β) : Bool :=
  decide (¬(b.1.2 < a.1.2 ∨ b.1.2 = a.1.2 ∧ b.1.1 < a.1.1))

theorem paintOrder_entries {β : Type} {taken : List ((Int × Int) × β)} (f : β → Element)
    (h : (taken.map Prod.fst).Nodup) :
    ∃ sorted : List ((Int × Int) × β), sorted.Perm taken ∧
      Element.paintOrder (taken.map fun x => (Location.ofInts x.1.1 x.1.2, f x.2)) =
        sorted.map (f ·.2) ∧
      sorted.Pairwise fun a b => a.1.2 < b.1.2 ∨ a.1.2 = b.1.2 ∧ a.1.1 < b.1.1 := by
  have hperm : (taken.mergeSort notAfter).Perm taken := List.mergeSort_perm ..
  refine ⟨taken.mergeSort notAfter, hperm, ?_, ?_⟩
  · unfold Element.paintOrder
    rw [← List.map_mergeSort (r := notAfter), List.map_map]
    · rfl
    · intro a _ b _
      simp only [notAfter, Element.paintedFirst_ofInts, decide_not]
  · have hsorted : (taken.mergeSort notAfter).Pairwise (notAfter · · = true) := by
      refine List.pairwise_mergeSort (fun a b c hab hbc => ?_) (fun a b => ?_) taken
      · simp only [notAfter, decide_eq_true_eq] at *
        omega
      · simp only [notAfter, Bool.or_eq_true, decide_eq_true_eq]
        omega
    -- no two entries share a cell, so what does not come after another one comes before it
    have hdistinct : (taken.mergeSort notAfter).Pairwise (·.1 ≠ ·.1) :=
      List.pairwise_map.mp ((hperm.map Prod.fst).nodup_iff.mpr h)
    refine (hsorted.and hdistinct).imp fun {a b} hab => ?_
    have hne : ¬(a.1.1 = b.1.1 ∧ a.1.2 = b.1.2) := fun heq => hab.2 (Prod.ext heq.1 heq.2)
    have hle := hab.1
    simp only [notAfter, decide_eq_true_eq] at hle
    omega

end Cells

def IsChild (settings : Settings) (v : Json) (i : Nat) (e : Element) : Prop :=
  ∃ u loaded, (items v)[i]? = some u ∧ (load settings u).result = .ok loaded ∧
    e = loaded.inCell (cell? u)

def childElement (settings : Settings) (v : Json) (i : Nat) : Element :=
  match (items v)[i]? with
  | some u =>
    match (load settings u).result with
    | .ok loaded => loaded.inCell (cell? u)
    | .error _ => default
  | none => default

def Takes (v : Json) (n : Nat) (x : (Int × Int) × Nat) : Prop :=
  x.2 < n ∧ cellAt v x.2 = some x.1 ∧ ∀ j, x.2 < j → j < n → cellAt v j ≠ some x.1

/-- What is held after the first children of a node are placed in a grid. -/
structure Holds (settings : Settings) (v : Json) (g : Grid Element) (n : Nat)
    (held : Held) : Prop where
  cells : ∃ taken : List ((Int × Int) × Nat),
    held.1.entries = taken.map (fun x => (.ofInts x.1.1 x.1.2, childElement settings v x.2)) ∧
    (taken.map Prod.fst).Nodup ∧ ∀ x, x ∈ taken ↔ Takes v n x
  free : held.2 = ((List.range n).filter fun i => (cellAt v i).isNone).map (childElement settings v)
  shape : held.1.toGridShape = shapeFor g ((items v).take n)
  loaded : ∀ i < n, IsChild settings v i (childElement settings v i)

variable {v : Json} {g : Grid Element} {n : Nat} {held held' : Held}

theorem placeChild_eq_ok {u : Json} (h : (placeChild held u (load settings u)).result = .ok held') :
    ∃ loaded, (load settings u).result = .ok loaded ∧
      (cell? u = none ∧ held' = (held.1, held.2 ++ [loaded]) ∨ ∃ cell, cell? u = some cell ∧
        0 ≤ cell.1 ∧ 0 ≤ cell.2 ∧
        held' = (held.1.put (.ofInts cell.1 cell.2) (loaded.inCell (some cell)), held.2)) := by
  obtain ⟨loaded, hloaded, h⟩ := Report.result_bind_eq_ok_iff.mp h
  refine ⟨loaded, hloaded, ?_⟩
  cases u with
  | object node =>
    have hplaced : ∃ l, locationOf? node = .ok l ∧
      (l = none → held' = (held.1, held.2 ++ [loaded])) ∧
        ∀ location, l = some location →
          ∃ grid, held.1.add (loaded.withLocation location) location = .ok grid ∧
          held' = (grid, held.2) := by
      dsimp only at h
      split at h
      -- the warning about a place or size that the grid decides does not change what is held
      on_goal 1 => obtain ⟨-, -, h⟩ := Report.result_bind_eq_ok_iff.mp h
      all_goals
        obtain ⟨l, hl, h⟩ := Report.result_bind_eq_ok_iff.mp h
        refine ⟨l, hl, ?_, ?_⟩
        · rintro rfl
          exact (Except.ok.inj h).symm
        · rintro location rfl
          obtain ⟨grid, hgrid, h⟩ := Report.result_bind_eq_ok_iff.mp h
          exact ⟨grid, hgrid, (Except.ok.inj h).symm⟩
    obtain ⟨l, hl, hfree, hgridded⟩ := hplaced
    rw [locationOf?_eq hl] at hfree hgridded
    cases hcell : cell? (.object node) with
    | none => exact .inl ⟨rfl, hfree (by rw [hcell, Option.map_none])⟩
    | some cell =>
      obtain ⟨grid, hgrid, rfl⟩ := hgridded (.ofInts cell.1 cell.2) (by rw [hcell, Option.map_some])
      obtain ⟨hcolumn, hrow, rfl⟩ :=
        (Grid.add_eq_ok_iff ⟨Number.isWhole_int cell.1, Number.isWhole_int cell.2⟩).mp hgrid
      exact .inr ⟨cell, rfl, hcolumn, hrow, rfl⟩
  | _ => cases hloaded

theorem tracksFor_append (ts : List Int) (t : Int) :
    tracksFor (ts ++ [t]) = max (tracksFor ts) (t + 1) := by
  rw [tracksFor, List.foldl_append]
  rfl

theorem shapeFor_nil (hcolumns : g.columns = .int 0) (hrows : g.rows = .int 0) :
    shapeFor g [] = g.toGridShape := by
  obtain ⟨⟨⟨columns, _, _, _⟩, ⟨rows, _, _, _⟩⟩, _⟩ := g
  obtain rfl : columns = .int 0 := hcolumns
  obtain rfl : rows = .int 0 := hrows
  rfl

theorem shape_put {us : List Json} {u : Json} {cell : Int × Int}
    (h : held.1.toGridShape = shapeFor g us) (hcell : cell? u = some cell) (e : Element) :
    (held.1.put (.ofInts cell.1 cell.2) e).toGridShape = shapeFor g (us ++ [u]) := by
  have hhorizontal := congrArg GridShape.horizontal h
  have hvertical := congrArg GridShape.vertical h
  have htaken : (us ++ [u]).filterMap cell? = us.filterMap cell? ++ [cell] := by
    rw [List.filterMap_append, List.filterMap_cons, hcell, List.filterMap_nil]
  simp only [Grid.put, Grid.withExtent, GridShape.columns, GridShape.rows, shapeFor, hhorizontal,
    hvertical, htaken, Location.ofInts, Number.succ_int, Number.max_int, List.map_append,
    List.map_singleton, tracksFor_append]

theorem takes_succ_of_free (hn : cellAt v n = none) (x : (Int × Int) × Nat) :
    Takes v (n + 1) x ↔ Takes v n x := by
  constructor
  · rintro ⟨hx, hcell, hlast⟩
    refine ⟨?_, hcell, fun j hj hjn => hlast j hj (by omega)⟩
    rcases Nat.lt_succ_iff_lt_or_eq.mp hx with hx | hx
    · exact hx
    · simp [hx, hn] at hcell
  · rintro ⟨hx, hcell, hlast⟩
    refine ⟨by omega, hcell, fun j hj hjn => ?_⟩
    rcases Nat.lt_succ_iff_lt_or_eq.mp hjn with hjn | rfl
    · exact hlast j hj hjn
    · simp [hn]

theorem takes_succ_of_cell {cell : Int × Int} (hn : cellAt v n = some cell)
    (x : (Int × Int) × Nat) :
    Takes v (n + 1) x ↔ x = (cell, n) ∨ Takes v n x ∧ x.1 ≠ cell := by
  constructor
  · rintro ⟨hx, hcell, hlast⟩
    rcases Nat.lt_succ_iff_lt_or_eq.mp hx with hx | hx
    · refine .inr ⟨⟨hx, hcell, fun j hj hjn => hlast j hj (by omega)⟩, fun heq => ?_⟩
      exact hlast n hx (by omega) (by rw [hn, heq])
    · rw [hx, hn] at hcell
      exact .inl (Prod.ext (Option.some.inj hcell).symm hx)
  · rintro (rfl | ⟨⟨hx, hcell, hlast⟩, hne⟩)
    · exact ⟨by omega, hn, fun j hj hjn => by omega⟩
    · refine ⟨by omega, hcell, fun j hj hjn => ?_⟩
      rcases Nat.lt_succ_iff_lt_or_eq.mp hjn with hjn | rfl
      · exact hlast j hj hjn
      · rw [hn]
        exact fun heq => hne (Option.some.inj heq).symm

theorem Holds.step (h : Holds settings v g n held) {u : Json} (hu : (items v)[n]? = some u)
    (hstep : (placeChild held u (load settings u)).result = .ok held') :
    Holds settings v g (n + 1) held' := by
  obtain ⟨loaded, hloaded, hplaced⟩ := placeChild_eq_ok hstep
  obtain ⟨taken, hentries, hnodup, hmem⟩ := h.cells
  have hcellAt : cellAt v n = cell? u := by
    rw [cellAt, hu]
    rfl
  have helement : childElement settings v n = loaded.inCell (cell? u) := by
    simp only [childElement, hu, hloaded]
  have hall : ∀ i < n + 1, IsChild settings v i (childElement settings v i) := by
    intro i hi
    rcases Nat.lt_succ_iff_lt_or_eq.mp hi with hi | rfl
    · exact h.loaded i hi
    · exact ⟨u, loaded, hu, hloaded, helement⟩
  have htake : (items v).take (n + 1) = (items v).take n ++ [u] := by
    rw [List.take_add_one, hu]
    rfl
  rcases hplaced with ⟨hcell, rfl⟩ | ⟨cell, hcell, -, -, rfl⟩
  · have hfree := hcellAt.trans hcell
    refine ⟨⟨taken, hentries, hnodup, fun x => (hmem x).trans (takes_succ_of_free hfree x).symm⟩,
      ?_, ?_, hall⟩
    · rw [List.range_succ, List.filter_append, List.map_append, ← h.free]
      simp [hfree, helement, hcell, Element.inCell]
    · rw [htake, h.shape, shapeFor, shapeFor, List.filterMap_append]
      simp [hcell]
  · have htaken := hcellAt.trans hcell
    refine ⟨⟨takeCell taken cell n, ?_, nodup_takeCell hnodup, fun x => ?_⟩, ?_, ?_, hall⟩
    · rw [← hcell, ← helement]
      exact entries_put hentries cell n
    · rw [mem_takeCell, hmem, takes_succ_of_cell htaken]
    · rw [h.free, List.range_succ, List.filter_append, List.map_append]
      simp [htaken]
    · rw [htake]
      exact shape_put h.shape hcell _

theorem Holds.run {pre rest : List Json} (hitems : items v = pre ++ rest)
    (h : Holds settings v g pre.length held)
    (hrun : ((rest.map fun u => (u, load settings u)).foldlM (fun held child =>
      placeChild held child.1 child.2) held).result = .ok held') :
    Holds settings v g (items v).length held' := by
  -- by induction on the children that are left, where the number of those before them counts the
  -- steps
  induction rest generalizing pre held with
  | nil =>
    obtain rfl := Except.ok.inj hrun
    rwa [hitems, List.append_nil]
  | cons u rest ih =>
    rw [List.map_cons, List.foldlM_cons] at hrun
    obtain ⟨next, hnext, hrun⟩ := Report.result_bind_eq_ok_iff.mp hrun
    have hu : (items v)[pre.length]? = some u := by simp [hitems]
    have hitems' : items v = (pre ++ [u]) ++ rest := by
      rw [hitems, List.append_assoc, List.singleton_append]
    refine ih hitems' ?_ hrun
    rw [List.length_append]
    exact h.step hu hnext

private theorem lt_length_of_cellAt {i : Nat} {cell : Int × Int} (h : cellAt v i = some cell) :
    i < (items v).length := by
  obtain ⟨u, hu, -⟩ := Option.bind_eq_some_iff.mp h
  exact (List.getElem?_eq_some_iff.mp hu).1

theorem Holds.order (h : Holds settings v g (items v).length held) :
    ∃ order, order.Pairwise (Precedes v) ∧ (∀ i, i ∈ order ↔ IsKept v i) ∧
      List.Forall₂ (IsChild settings v) order (Element.paintOrder held.1.entries ++ held.2) := by
  obtain ⟨taken, hentries, hnodup, hmem⟩ := h.cells
  obtain ⟨sorted, hperm, hpainted, hsorted⟩ := paintOrder_entries (childElement settings v) hnodup
  have hcell : ∀ x ∈ sorted, cellAt v x.2 = some x.1 :=
    fun x hx => ((hmem x).mp (hperm.mem_iff.mp hx)).2.1
  have hkept : ∀ i,
    i ∈ sorted.map Prod.snd ++ (List.range (items v).length).filter (fun i => (cellAt v i).isNone) ↔
      IsKept v i := by
    intro i
    rw [List.mem_append, List.mem_map, List.mem_filter, List.mem_range, Option.isNone_iff_eq_none]
    constructor
    · rintro (⟨x, hx, rfl⟩ | ⟨hi, hfree⟩)
      · obtain ⟨hlt, hxcell, hlast⟩ := (hmem x).mp (hperm.mem_iff.mp hx)
        refine ⟨hlt, fun j hj hsame => absurd (hsame.trans hxcell) (hlast j hj ?_)⟩
        exact lt_length_of_cellAt (hsame.trans hxcell)
      · exact ⟨hi, fun _ _ _ => hfree⟩
    · rintro ⟨hi, hlast⟩
      cases hicell : cellAt v i with
      | none => exact .inr ⟨hi, rfl⟩
      | some cell =>
        refine .inl ⟨(cell, i),
          hperm.mem_iff.mpr ((hmem _).mpr ⟨hi, hicell, fun j hj _ hsame => ?_⟩), rfl⟩
        have hnone := hlast j hj (hsame.trans hicell.symm)
        simp [hicell] at hnone
  refine ⟨_, List.pairwise_append.mpr ⟨?_, ?_, ?_⟩, hkept, ?_⟩
  · refine List.pairwise_map.mpr (hsorted.imp_of_mem fun {a b} ha hb hab => ?_)
    simp only [Precedes, hcell a ha, hcell b hb]
    exact hab
  · refine (List.pairwise_lt_range.filter _).imp_of_mem fun {i j} hi hj hij => ?_
    have hifree := Option.isNone_iff_eq_none.mp (List.mem_filter.mp hi).2
    have hjfree := Option.isNone_iff_eq_none.mp (List.mem_filter.mp hj).2
    simp only [Precedes, hifree, hjfree]
    exact hij
  · intro i hi j hj
    obtain ⟨x, hx, rfl⟩ := List.mem_map.mp hi
    have hjfree := Option.isNone_iff_eq_none.mp (List.mem_filter.mp hj).2
    simp only [Precedes, hcell x hx, hjfree]
  · have hmap : Element.paintOrder held.1.entries ++ held.2 =
        (sorted.map Prod.snd ++ (List.range (items v).length).filter fun i =>
          (cellAt v i).isNone).map
          (childElement settings v) := by
      rw [hentries, hpainted, h.free, List.map_append, List.map_map]
      rfl
    rw [hmap, List.forall₂_map_right_iff, List.forall₂_same]
    exact fun i hi => h.loaded i ((hkept i).mp hi).1

theorem loadItems_eq (us : List Json) :
    loadItems settings us = us.map fun u => (u, load settings u) := by
  induction us with
  | nil => rfl
  | cons u us ih => rw [loadItems, ih, List.map_cons]

theorem loadChildren_eq {node : Members} {us : List Json}
    (h : Json.get? node "children" = some (.array us)) :
    loadChildren settings node = us.map fun u => (u, load settings u) := by
  induction node with
  | nil => cases h
  | cons m node ih =>
    obtain ⟨key, u⟩ := m
    rw [loadChildren]
    rw [Json.get?, List.lookup_cons] at h
    split
    · rename_i hkey
      simp only [hkey, beq_self_eq_true, Option.some.injEq] at h
      rw [h, loadArray, loadItems_eq]
    · rename_i hkey
      simp only [beq_eq_false_iff_ne.mpr (Ne.symm hkey)] at h
      exact ih h

theorem placed_items {node : Members} (hpanel : isPanel node = true)
    {children : List (Json × Report Element)}
    (hchildren : (childrenOf node (loadChildren settings node)).result = .ok children)
    (hrun : (children.foldlM (fun held child => placeChild held child.1 child.2) held).result =
      .ok held') :
    (((items (.object node)).map fun u => (u, load settings u)).foldlM
      (fun held child => placeChild held child.1 child.2) held).result = .ok held' := by
  unfold childrenOf at hchildren
  rw [items, if_pos hpanel]
  split at hchildren
  · rename_i hnone
    obtain rfl := Except.ok.inj hchildren
    simpa [hnone] using hrun
  · rename_i us harray
    obtain rfl := Except.ok.inj hchildren
    rw [loadChildren_eq harray] at hrun
    simpa [harray] using hrun
  · rename_i w hnotArray hw
    split at hchildren
    · rename_i parts hparts
      obtain rfl := Except.ok.inj hchildren
      cases parts with
      | nil =>
        rw [hw]
        split
        · rename_i us heq
          exact (hnotArray us (Option.some.inj heq)).elim
        · exact hrun
      | cons p parts =>
        rw [List.map_cons, List.foldlM_cons] at hrun
        obtain ⟨_, hplace, -⟩ := Report.result_bind_eq_ok_iff.mp hrun
        obtain ⟨_, hfail, -⟩ := Report.result_bind_eq_ok_iff.mp hplace
        cases hfail
    · cases hchildren

/-- A panel is loaded by placing its children in its grid. -/
theorem load_panel_eq_ok {node : Members} {e : Element} (hpanel : isPanel node = true)
    (h : (load settings (.object node)).result = .ok e) :
    ∃ c g held, componentOf settings node = .ok c ∧ emptyGrid node = .ok g ∧
      (((items (.object node)).map fun u => (u, load settings u)).foldlM
        (fun held child => placeChild held child.1 child.2) (g, [])).result = .ok held ∧
      e = .panel c ⟨held.1.toGridShape, flag node "text_resize"⟩
        (Element.paintOrder held.1.entries ++ held.2) := by
  rw [load] at h
  obtain ⟨-, -, h⟩ := Report.result_bind_eq_ok_iff.mp h
  obtain ⟨c, hc, h⟩ := Report.result_bind_eq_ok_iff.mp h
  rw [if_neg (by simp [hpanel])] at h
  obtain ⟨g, hg, h⟩ := Report.result_bind_eq_ok_iff.mp h
  obtain ⟨children, hchildren, h⟩ := Report.result_bind_eq_ok_iff.mp h
  obtain ⟨held, hrun, h⟩ := Report.result_bind_eq_ok_iff.mp h
  exact ⟨c, g, held, hc, hg, placed_items hpanel hchildren hrun, (Except.ok.inj h).symm⟩

private theorem cell_nonneg_of_run {us : List Json} {u : Json} {cell : Int × Int} (hu : u ∈ us)
    (hcell : cell? u = some cell)
    (hrun : ((us.map fun u => (u, load settings u)).foldlM (fun held child =>
      placeChild held child.1 child.2) held).result = .ok held') : 0 ≤ cell.1 ∧ 0 ≤ cell.2 := by
  induction us generalizing held with
  | nil => cases hu
  | cons w us ih =>
    rw [List.map_cons, List.foldlM_cons] at hrun
    obtain ⟨next, hnext, hrun⟩ := Report.result_bind_eq_ok_iff.mp hrun
    rcases List.mem_cons.mp hu with rfl | hu
    · obtain ⟨loaded, -, hplaced⟩ := placeChild_eq_ok hnext
      rcases hplaced with ⟨hfree, -⟩ | ⟨cell', hcell', hcolumn, hrow, -⟩
      · simp [hfree] at hcell
      · obtain rfl := Option.some.inj (hcell.symm.trans hcell')
        exact ⟨hcolumn, hrow⟩
    · exact ih hu hrun

theorem cell_nonneg_of_load {e : Element} (h : (load settings v).result = .ok e) {u : Json}
    (hu : u ∈ items v) {cell : Int × Int} (hcell : cell? u = some cell) :
    0 ≤ cell.1 ∧ 0 ≤ cell.2 := by
  cases v with
  | object node =>
    by_cases hpanel : isPanel node = true
    · obtain ⟨c, g, held, -, -, hrun, -⟩ := load_panel_eq_ok hpanel h
      exact cell_nonneg_of_run hu hcell hrun
    · simp [items, hpanel] at hu
  | _ => simp [items] at hu

/-- What is loaded from a node. A panel holds what is loaded from its children that exist in the
end, in the order of siblings, and its grid has the tracks that its children need. -/
theorem load_eq_ok {e : Element} (h : (load settings v).result = .ok e) :
    ∃ node c, v = .object node ∧ componentOf settings node = .ok c ∧
      (isPanel node = false ∧ e = .leaf c ∨ isPanel node = true ∧
        ∃ shape order es, shapeOf v = .ok shape ∧
        order.Pairwise (Precedes v) ∧ (∀ i, i ∈ order ↔ IsKept v i) ∧
        List.Forall₂ (IsChild settings v) order es ∧
        e = .panel c ⟨shape, flag node "text_resize"⟩ es) := by
  cases v with
  | object node =>
    by_cases hpanel : isPanel node = true
    · obtain ⟨c, g, held, hc, hg, hrun, rfl⟩ := load_panel_eq_ok hpanel h
      obtain ⟨hentries, hcolumns, hrows⟩ := emptyGrid_eq_ok hg
      have hstart : Holds settings (.object node) g ([] : List Json).length (g, []) := by
        refine ⟨⟨[], hentries, List.nodup_nil, by simp [Takes]⟩, rfl, ?_, by simp⟩
        exact (shapeFor_nil hcolumns hrows).symm
      have hend := hstart.run (List.nil_append _).symm hrun
      obtain ⟨order, hordered, hkept, hes⟩ := hend.order
      refine ⟨node, c, rfl, hc,
        .inr ⟨hpanel, held.1.toGridShape, order, _, ?_, hordered, hkept, hes, rfl⟩⟩
      rw [hend.shape, List.take_length]
      exact bind_eq_ok_iff.mpr ⟨g, hg, rfl⟩
    · rw [load] at h
      obtain ⟨-, -, h⟩ := Report.result_bind_eq_ok_iff.mp h
      obtain ⟨c, hc, h⟩ := Report.result_bind_eq_ok_iff.mp h
      rw [if_pos (by simp [hpanel])] at h
      exact ⟨node, c, rfl, hc, .inl ⟨by simpa using hpanel, (Except.ok.inj h).symm⟩⟩
  | _ => cases h

end Document

end PanelLayout
