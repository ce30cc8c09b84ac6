import Mathlib.Logic.Relation
import PanelLayout.Proofs.Document.Range
import PanelLayout.Proofs.Grid.Cells

/-!
# The order of children

Children in the cells of a grid are painted row by row, in whatever order a document lists them. If
no two of them ask for the same cell, they may be listed anywhere among their siblings, and the same
tree is loaded.
-/

namespace PanelLayout

namespace Document

variable {settings : Settings} {node : Members} {us us' : List Json} {u v w : Json}
    {held held' : Held}

def withChildren (node : Members) (us : List Json) : Members :=
  node.map fun m => (m.1, if m.1 = "children" then .array us else m.2)

/-- Whether children are listed in another order. Each one that asks for a cell has its own, and
those that ask for none keep their order. -/
structure IsRearrangement (us us' : List Json) : Prop where
  perm : us.Perm us'
  cells : (us.filterMap cell?).Nodup
  free : us'.filter (fun u => (cell? u).isNone) = us.filter fun u => (cell? u).isNone

/-- Whether a document differs from another one by the order of the children of one node. -/
inductive Rearranges : Json → Json → Prop
  | here {node : Members} {us us' : List Json}
      (hchildren : Json.get? node "children" = some (.array us)) (h : IsRearrangement us us') :
      Rearranges (.object node) (.object (withChildren node us'))
  | within {node : Members} {before after : List Json} {u u' : Json}
      (hchildren : Json.get? node "children" = some (.array (before ++ u :: after)))
      (h : Rearranges u u') :
      Rearranges (.object node) (.object (withChildren node (before ++ u' :: after)))

section WithChildren

theorem get?_withChildren (node : Members) (us : List Json) (key : String) :
    Json.get? (withChildren node us) key =
      (Json.get? node key).map fun v => if key = "children" then .array us else v := by
  unfold Json.get? withChildren
  induction node with
  | nil => rfl
  | cons m node ih =>
    obtain ⟨k, v⟩ := m
    rw [List.map_cons, List.lookup_cons, List.lookup_cons]
    cases hkey : key == k with
    | false => exact ih
    | true =>
      obtain rfl := beq_iff_eq.mp hkey
      rfl

theorem get?_withChildren_of_ne {key : String} (h : key ≠ "children") :
    Json.get? (withChildren node us) key = Json.get? node key := by
  rw [get?_withChildren]
  simp [h]

theorem isPanel_withChildren (node : Members) (us : List Json) :
    isPanel (withChildren node us) = isPanel node := by
  unfold isPanel
  rw [get?_withChildren_of_ne (by decide), get?_withChildren, Option.isSome_map]

theorem componentOf_withChildren (settings : Settings) (node : Members) (us : List Json) :
    componentOf settings (withChildren node us) = componentOf settings node := by
  simp [componentOf, value, flag, membersOf, get?_withChildren_of_ne]

theorem emptyGrid_withChildren (node : Members) (us : List Json) :
    emptyGrid (withChildren node us) = emptyGrid node := by
  simp [emptyGrid, withPair, withWeights, membersOf, Json.getSome?, get?_withChildren_of_ne]

theorem locationOf?_withChildren (node : Members) (us : List Json) :
    locationOf? (withChildren node us) = locationOf? node := by
  simp [locationOf?, get?_withChildren_of_ne]

end WithChildren

section Placing

def loadedFrom (settings : Settings) (u : Json) : Element :=
  (load settings u).result.toOption.getD default

/-- Whether a child has a place: something is loaded from it, and it asks for no cell or for one
that is not negative. -/
structure HasPlace (settings : Settings) (u : Json) : Prop where
  loads : (load settings u).result = .ok (loadedFrom settings u)
  asks : ∀ node, u = .object node → ∃ l, locationOf? node = .ok l
  inside : ∀ l ∈ cell? u, 0 ≤ l.1 ∧ 0 ≤ l.2

def takePlace (settings : Settings) (held : Held) (u : Json) : Held :=
  match cell? u with
  | none => (held.1, held.2 ++ [loadedFrom settings u])
  | some l => (held.1.put (.ofInts l.1 l.2) ((loadedFrom settings u).inCell (some l)), held.2)

theorem loadedFrom_eq {e : Element} (h : (load settings u).result = .ok e) :
    loadedFrom settings u = e := by
  rw [loadedFrom, h]
  rfl

private theorem result_placeChild (held : Held) (node : Members) (element : Report Element) :
    (placeChild held (.object node) element).result = element.result >>= fun child =>
    locationOf? node >>= fun l? =>
      match l? with
      | none => .ok (held.1, held.2 ++ [child])
      | some l => held.1.add (child.withLocation l) l >>= fun grid => .ok (grid, held.2) := by
  have hplace : ∀ child, ((do
      match ← (locationOf? node : Except LayoutError (Option Location)) with
      | none => return (held.1, held.2 ++ [child])
      | some l => do
        let grid ← held.1.add (child.withLocation l) l
        return (grid, held.2)) : Report Held).result = locationOf? node >>= fun l? =>
      match l? with
      | none => .ok (held.1, held.2 ++ [child])
      | some l => held.1.add (child.withLocation l) l >>= fun grid => .ok (grid, held.2) := by
    intro child
    rw [Report.result_bind]
    congr 1
    funext l?
    cases l? with
    | none => rfl
    | some l => rw [Report.result_bind]; rfl
  unfold placeChild
  rw [Report.result_bind]
  congr 1
  funext child
  dsimp only
  -- the warning about a place or size that the grid decides is no part of the result
  split
  all_goals exact hplace child

theorem placeChild_eq_ok_iff : (placeChild held u (load settings u)).result = .ok held' ↔
    HasPlace settings u ∧ held' = takePlace settings held u := by
  constructor
  · intro h
    obtain ⟨loaded, hloaded, hplaced⟩ := placeChild_eq_ok h
    have heq := loadedFrom_eq hloaded
    have hasks : ∀ node, u = .object node → ∃ l, locationOf? node = .ok l := by
      rintro node rfl
      rw [result_placeChild, hloaded, ok_bind] at h
      obtain ⟨l, hl, -⟩ := bind_eq_ok_iff.mp h
      exact ⟨l, hl⟩
    unfold takePlace
    rw [heq]
    rcases hplaced with ⟨hcell, rfl⟩ | ⟨l, hcell, hcolumn, hrow, rfl⟩
    · rw [hcell]
      exact ⟨⟨heq.symm ▸ hloaded, hasks, by simp [hcell]⟩, rfl⟩
    · rw [hcell]
      refine ⟨⟨heq.symm ▸ hloaded, hasks, ?_⟩, rfl⟩
      simp [hcell, hcolumn, hrow]
  · rintro ⟨h, rfl⟩
    cases u with
    | object node =>
      obtain ⟨l, hl⟩ := h.asks node rfl
      rw [result_placeChild, h.loads, ok_bind, hl, ok_bind, locationOf?_eq hl, takePlace]
      cases hcell : cell? (.object node) with
      | none => rfl
      | some l =>
        obtain ⟨hcolumn, hrow⟩ := h.inside l hcell
        have hwhole : (Location.ofInts l.1 l.2).IsWhole l.1 l.2 :=
          ⟨Number.isWhole_int l.1, Number.isWhole_int l.2⟩
        have hadd : held.1.add ((loadedFrom settings (.object node)).withLocation (.ofInts l.1 l.2))
            (.ofInts l.1 l.2) =
            .ok (held.1.put (.ofInts l.1 l.2)
              ((loadedFrom settings (.object node)).inCell (some l))) :=
          (Grid.add_eq_ok_iff hwhole).mpr ⟨hcolumn, hrow, rfl⟩
        simp only [Option.map_some, hadd, ok_bind]
    | _ => cases h.loads

theorem foldlM_placeChild_eq_ok_iff :
    ((us.map fun u => (u, load settings u)).foldlM (fun held child =>
      placeChild held child.1 child.2) held).result =
        .ok held' ↔ (∀ u ∈ us, HasPlace settings u) ∧
        held' = us.foldl (takePlace settings) held := by
  induction us generalizing held with
  | nil => simp [eq_comm]
  | cons u us ih =>
    simp only [List.map_cons, List.foldlM_cons, Report.result_bind_eq_ok_iff, placeChild_eq_ok_iff,
      ih, List.forall_mem_cons, List.foldl_cons]
    constructor
    · rintro ⟨_, ⟨hu, rfl⟩, hus, rfl⟩
      exact ⟨⟨hu, hus⟩, rfl⟩
    · rintro ⟨⟨hu, hus⟩, rfl⟩
      exact ⟨_, ⟨hu, rfl⟩, hus, rfl⟩

def gridded (settings : Settings) (us : List Json) : List ((Int × Int) × Element) :=
  us.filterMap fun u => (cell? u).map fun l => (l, (loadedFrom settings u).inCell (some l))

def inLocation (x : (Int × Int) × Element) : Location × Element := (.ofInts x.1.1 x.1.2, x.2)

theorem map_fst_gridded (settings : Settings) (us : List Json) :
    (gridded settings us).map Prod.fst = us.filterMap cell? := by
  rw [gridded, List.map_filterMap]
  congr 1
  funext u
  cases cell? u <;> rfl

/-- What is held in the end, if no two children ask for the same cell: each one in its place, and as
many tracks as they need. -/
structure HoldsAll (settings : Settings) (g : Grid Element) (us : List Json)
    (held : Held) : Prop where
  entries : held.1.entries = (gridded settings us).map inLocation
  free : held.2 = (us.filter fun u => (cell? u).isNone).map (loadedFrom settings)
  shape : held.1.toGridShape = shapeFor g us

theorem foldl_takePlace {g : Grid Element} (hentries : g.entries = [])
    (hcolumns : g.columns = .int 0) (hrows : g.rows = .int 0)
    (hcells : (us.filterMap cell?).Nodup) :
    HoldsAll settings g us (us.foldl (takePlace settings) (g, [])) := by
  -- by induction on the last child, whose cell no child before it asked for
  induction us using List.reverseRecOn with
  | nil => exact ⟨hentries, rfl, (shapeFor_nil hcolumns hrows).symm⟩
  | append_singleton us u ih =>
    rw [List.filterMap_append, List.nodup_append] at hcells
    obtain ⟨hcells, -, hapart⟩ := hcells
    obtain ⟨ihentries, ihfree, ihshape⟩ := ih hcells
    rw [List.foldl_append, List.foldl_cons, List.foldl_nil]
    generalize us.foldl (takePlace settings) (g, []) = held at ihentries ihfree ihshape
    cases hcell : cell? u with
    | none =>
      have hsame : shapeFor g (us ++ [u]) = shapeFor g us := by
        simp [shapeFor, List.filterMap_append, hcell]
      rw [takePlace, hcell]
      exact ⟨by simp [gridded, hcell, ihentries], by simp [hcell, ihfree], hsame ▸ ihshape⟩
    | some l =>
      have hempty : held.1.at? (.ofInts l.1 l.2) = none := by
        rw [Grid.at?_eq_none_iff, ihentries]
        intro e he
        obtain ⟨x, hx, rfl⟩ := List.mem_map.mp he
        have hmem : x.1 ∈ us.filterMap cell? := map_fst_gridded settings us ▸ List.mem_map_of_mem hx
        have hne : x.1 ≠ l := hapart x.1 hmem l (by simp [hcell])
        rw [inLocation, Location.equals_ofInts, decide_eq_false_iff_not]
        exact fun heq => hne (Prod.ext heq.1 heq.2)
      rw [takePlace, hcell]
      refine ⟨?_, by simp [hcell, ihfree], shape_put ihshape hcell _⟩
      rw [Grid.entries_put, hempty, ihentries]
      simp [gridded, hcell, inLocation]

theorem paintOrder_gridded (hperm : us.Perm us') (hcells : (us.filterMap cell?).Nodup) :
    Element.paintOrder ((gridded settings us').map inLocation) =
      Element.paintOrder ((gridded settings us).map inLocation) := by
  have hgridded : (gridded settings us).Perm (gridded settings us') := hperm.filterMap _
  have hcells' : (us'.filterMap cell?).Nodup := (hperm.filterMap _).nodup_iff.mp hcells
  rw [← map_fst_gridded settings] at hcells hcells'
  obtain ⟨sorted, hsorted, hpainted, hrows⟩ := paintOrder_entries id hcells
  obtain ⟨sorted', hsorted', hpainted', hrows'⟩ := paintOrder_entries id hcells'
  have hsame : sorted' = sorted := by
    apply List.Perm.eq_of_pairwise ?_ hrows' hrows
      ((hsorted'.trans hgridded.symm).trans hsorted.symm)
    intro a b _ _ hab hba
    omega
  exact hpainted'.trans (hsame ▸ hpainted.symm)

theorem tracksFor_perm {ts ts' : List Int} (h : ts.Perm ts') : tracksFor ts' = tracksFor ts := by
  apply h.symm.foldl_eq'
  intro s _ t _ n
  omega

theorem shapeFor_perm (g : Grid Element) (h : us.Perm us') : shapeFor g us' = shapeFor g us := by
  have hcells : (us.filterMap cell?).Perm (us'.filterMap cell?) := h.filterMap _
  simp only [shapeFor, tracksFor_perm (hcells.map Prod.fst), tracksFor_perm (hcells.map Prod.snd)]

end Placing

def panelOf (node : Members) (c : Component) (held : Held) : Element :=
  .panel c ⟨held.1.toGridShape, flag node "text_resize"⟩
    (Element.paintOrder held.1.entries ++ held.2)

theorem load_eq_ok_iff_of_children {e : Element}
    (hchildren : Json.get? node "children" = some (.array us)) :
    (load settings (.object node)).result = .ok e ↔ ∃ c, componentOf settings node = .ok c ∧
      (isPanel node = false ∧ e = .leaf c ∨ isPanel node = true ∧ ∃ g, emptyGrid node = .ok g ∧
        (∀ u ∈ us, HasPlace settings u) ∧
        e = panelOf node c (us.foldl (takePlace settings) (g, []))) := by
  have hbuilt : childrenOf node (loadChildren settings node) =
      pure (us.map fun u => (u, load settings u)) := by
    rw [childrenOf, hchildren, loadChildren_eq hchildren]
  rw [load, assemble, Report.result_bind, result_checkKeys, ok_bind, Report.result_bind_eq_ok_iff]
  apply exists_congr
  intro c
  apply and_congr Iff.rfl
  cases hpanel : isPanel node with
  | false => simp [eq_comm]
  | true =>
    rw [if_neg (by simp), hbuilt]
    simp only [Report.result_bind_eq_ok_iff, Report.result_pure, Except.ok.injEq, exists_eq_left',
      foldlM_placeChild_eq_ok_iff]
    constructor
    · rintro ⟨g, hg, held, ⟨hus, rfl⟩, rfl⟩
      exact .inr ⟨trivial, g, hg, hus, rfl⟩
    · rintro (⟨hfalse, -⟩ | ⟨-, g, hg, hus, rfl⟩)
      · cases hfalse
      · exact ⟨g, hg, _, ⟨hus, rfl⟩, rfl⟩

theorem cell?_withChildren (node : Members) (us : List Json) :
    cell? (.object (withChildren node us)) = cell? (.object node) := by
  rw [cell?, cell?, locationOf?_withChildren]

theorem Rearranges.cell?_eq (h : Rearranges v w) : cell? w = cell? v := by
  cases h <;> exact cell?_withChildren ..

theorem panelOf_withChildren (node : Members) (us : List Json) (c : Component) (held : Held) :
    panelOf (withChildren node us) c held = panelOf node c held := by
  rw [panelOf, panelOf, flag, flag, get?_withChildren_of_ne (by decide)]

theorem HasPlace.of_rearranges (h : Rearranges u w)
    (hload : ∀ e, (load settings u).result = .ok e → (load settings w).result = .ok e)
    (hu : HasPlace settings u) :
    HasPlace settings w ∧ ∀ held, takePlace settings held w = takePlace settings held u := by
  have hsame : loadedFrom settings w = loadedFrom settings u := loadedFrom_eq (hload _ hu.loads)
  refine ⟨⟨?_, ?_, ?_⟩, ?_⟩
  · rw [hsame]
    exact hload _ hu.loads
  · rintro node rfl
    cases h with
    | here | within =>
      rw [locationOf?_withChildren]
      exact hu.asks _ rfl
  · rw [h.cell?_eq]
    exact hu.inside
  · intro held
    rw [takePlace, takePlace, h.cell?_eq, hsame]

theorem IsRearrangement.panelOf_eq {g : Grid Element} {c : Component} (h : IsRearrangement us us')
    (hg : emptyGrid node = .ok g) :
    panelOf node c (us'.foldl (takePlace settings) (g, [])) =
      panelOf node c (us.foldl (takePlace settings) (g, [])) := by
  obtain ⟨hentries, hcolumns, hrows⟩ := emptyGrid_eq_ok hg
  have hcells' : (us'.filterMap cell?).Nodup := (h.perm.filterMap _).nodup_iff.mp h.cells
  have hall : HoldsAll settings g us _ := foldl_takePlace hentries hcolumns hrows h.cells
  have hall' : HoldsAll settings g us' _ := foldl_takePlace hentries hcolumns hrows hcells'
  rw [panelOf, panelOf, hall.entries, hall'.entries, hall.free, hall'.free, hall.shape, hall'.shape,
    paintOrder_gridded h.perm h.cells, shapeFor_perm g h.perm, h.free]

/-- With other children that have places, too, and lead to the same panel, a node loads as the same
element. -/
theorem load_withChildren {e : Element} (hchildren : Json.get? node "children" = some (.array us))
    (h : (∀ u ∈ us, HasPlace settings u) → (∀ u ∈ us', HasPlace settings u) ∧
      ∀ c g, emptyGrid node = .ok g → panelOf node c (us'.foldl (takePlace settings) (g, [])) =
        panelOf node c (us.foldl (takePlace settings) (g, [])))
    (he : (load settings (.object node)).result = .ok e) :
    (load settings (.object (withChildren node us'))).result = .ok e := by
  have hchildren' : Json.get? (withChildren node us') "children" = some (.array us') := by
    rw [get?_withChildren, hchildren]
    rfl
  obtain ⟨c, hc, he⟩ := (load_eq_ok_iff_of_children hchildren).mp he
  rw [load_eq_ok_iff_of_children hchildren', isPanel_withChildren, emptyGrid_withChildren]
  refine ⟨c, (componentOf_withChildren ..).trans hc, ?_⟩
  rcases he with he | ⟨hpanel, g, hg, hus, rfl⟩
  · exact .inl he
  · obtain ⟨hus', hsame⟩ := h hus
    exact .inr ⟨hpanel, g, hg, hus', by rw [panelOf_withChildren, hsame c g hg]⟩

/-- What is loaded from a document is loaded from it after the children of a node are rearranged,
too. -/
theorem Rearranges.load (h : Rearranges v w) :
    ∀ e, (Document.load settings v).result = .ok e → (Document.load settings w).result = .ok e := by
  induction h with
  | here hchildren h =>
    intro e
    apply load_withChildren hchildren
    intro hus
    exact ⟨fun u hu => hus u (h.perm.mem_iff.mpr hu), fun c g hg => h.panelOf_eq hg⟩
  | @within node before after u u' hchildren h ih =>
    intro e
    apply load_withChildren hchildren
    intro hus
    obtain ⟨hu', htake⟩ := HasPlace.of_rearranges h ih (hus u (by simp))
    constructor
    · intro s hs
      rw [List.mem_append, List.mem_cons] at hs
      rcases hs with hs | rfl | hs
      · exact hus s (by simp [hs])
      · exact hu'
      · exact hus s (by simp [hs])
    · intro c g _
      simp only [List.foldl_append, List.foldl_cons, htake]

theorem loadPanel_rearranged (h : Relation.ReflTransGen Rearranges v w) {root : Element}
    (hroot : (loadPanel v settings).result = .ok root) :
    (loadPanel w settings).result = .ok root := by
  induction h with
  | refl => exact hroot
  | tail _ hstep ih =>
    obtain ⟨e, he, hpanel⟩ := Report.result_bind_eq_ok_iff.mp ih
    exact Report.result_bind_eq_ok_iff.mpr ⟨e, hstep.load e he, hpanel⟩

/-- The order in which children in cells are listed does not matter. If the children of some nodes
are rearranged, where no two of one node ask for the same cell and the free ones keep their order,
the document still loads, and in every container both layout passes list the same placements or fail
with the same error. -/
theorem layout_rearranged (h : Relation.ReflTransGen Rearranges v w) {root : Element}
    (hroot : (loadPanel v settings).result = .ok root) :
    (∃ root', (loadPanel w settings).result = .ok root') ∧
      ∀ root', (loadPanel w settings).result = .ok root' →
        ∀ container, root'.layout container = root.layout container := by
  have hsame := loadPanel_rearranged h hroot
  refine ⟨⟨root, hsame⟩, ?_⟩
  intro root' hroot' container
  obtain rfl := Except.ok.inj (hsame.symm.trans hroot')
  rfl

def nestedPanel (children : List Json) : Json :=
  .object
    [("children", .array [.object [("column", .number (.int 0)), ("children", .array children)]])]

/-- A free child and two children in columns. -/
def threeChildren : List Json :=
  [.object [("x", .text "10")], .object [("column", .number (.int 0))],
    .object [("column", .number (.int 1))]]

/-- The second column is listed before the first one, and the free child after both. -/
theorem layout_rearranged_nested :
    Rearranges (nestedPanel threeChildren) (nestedPanel threeChildren.reverse) ∧
      ∃ root root', (loadPanel (nestedPanel threeChildren)).result = .ok root ∧
        (loadPanel (nestedPanel threeChildren.reverse)).result = .ok root' ∧
        ∀ container, root'.layout container = root.layout container := by
  have hreversed : IsRearrangement threeChildren threeChildren.reverse :=
    ⟨(List.reverse_perm threeChildren).symm, by decide +kernel, rfl⟩
  have hinner : Rearranges
    (.object [("column", .number (.int 0)), ("children", .array threeChildren)])
      (.object [("column", .number (.int 0)), ("children", .array threeChildren.reverse)]) :=
        .here rfl hreversed
  have hstep : Rearranges (nestedPanel threeChildren) (nestedPanel threeChildren.reverse) :=
    @Rearranges.within [("children", .array [_])] [] [] _ _ rfl hinner
  have hloads : (loadPanel (nestedPanel threeChildren)).result.toOption.isSome = true := by
    decide +kernel
  obtain ⟨root, hroot⟩ := Option.isSome_iff_exists.mp hloads
  rw [toOption_eq_some_iff] at hroot
  obtain ⟨⟨root', hroot'⟩, hsame⟩ := layout_rearranged (.single hstep) hroot
  exact ⟨hstep, root, root', hroot, hroot', hsame root' hroot'⟩

end Document

end PanelLayout
