import PanelLayout.Proofs.Document.Range

/-!
# Layout passes in range

A loaded document in range has a layout pass in every rectangle in range, or one of its variables
has no value, as long as margins leave a length in range for the tracks wherever a child takes a
cell. All rectangles of the pass are in range.
-/

namespace PanelLayout

namespace Document

variable {v u : Json} {node : Members} {container inner : Rectangle} {i : Nat}

/-- Whether margins leave a length in range for the tracks of a node, on both axes of a rectangle
that the node takes. -/
def HasRoom (v : Json) (container : Rectangle) : Prop :=
  ∀ c shape area marginX marginY, nodeComponent {} v = .ok c → shapeOf v = .ok shape →
    (shape.inset c.registry .truncate container).result = .ok (area, marginX, marginY) →
    shape.horizontal.HasRoom area.width marginX ∧ shape.vertical.HasRoom area.height marginY

/-- Whether there is room for the tracks of every node with a child in a cell that a layout pass
lists. -/
def TreeHasRoom (v : Json) (container : Rectangle) : Prop :=
  ∀ path i u inner, nodeAt? v path = some u → Listed v (path ++ [i]) → cellAt u i ≠ none →
    HasRect {} v container path inner → HasRoom u inner

theorem TreeHasRoom.root (h : TreeHasRoom v container) (hu : (items v)[i]? = some u)
    (hkept : IsKept v i) (hvisible : isVisible u = true) (hcell : cell? u ≠ none) :
    HasRoom v container := by
  refine h [] i v container rfl (.child hu hkept hvisible (.root u)) ?_ (.root v container)
  rwa [cellAt, hu, Option.bind_some]

theorem TreeHasRoom.child (h : TreeHasRoom v container) (hu : (items v)[i]? = some u)
    (hkept : IsKept v i) (hvisible : isVisible u = true)
    (hrect : HasChildRect {} v container u inner) : TreeHasRoom u inner := by
  intro path j w rect hw hlisted hcell hinner
  exact h (i :: path) j w rect ((nodeAt?_cons hu path).trans hw)
    (.child hu hkept hvisible hlisted) hcell
    (.child hu hrect hinner)

theorem lt_tracksFor {taken : List Int} {t : Int} (h : t ∈ taken) : t < tracksFor taken := by
  induction taken using List.reverseRecOn with
  | nil => cases h
  | append_singleton ts t' ih =>
    rw [tracksFor_append]
    rcases List.mem_append.mp h with h | h
    · have hlt := ih h
      omega
    · obtain rfl := List.mem_singleton.mp h
      omega

theorem shapeOf_inRange {shape : GridShape} (htree : TreeInRange v) (hshape : shapeOf v = .ok shape)
    (hu : u ∈ items v) :
    shape.InRange ∧ ∃ columns rows, shape.columns = .int columns ∧ shape.rows = .int rows ∧
      ∀ cell, cell? u = some cell → cell.1 < columns ∧ cell.2 < rows := by
  cases v with
  | object node =>
    have hpanel : isPanel node = true := by
      by_contra hleaf
      simp [items, hleaf] at hu
    obtain ⟨g, hg, hshape⟩ := bind_eq_ok_iff.mp hshape
    obtain rfl := Except.ok.inj hshape
    have hgrid := emptyGrid_yields htree.root hpanel
    rw [hg] at hgrid
    refine ⟨⟨⟨hgrid.horizontal.weights, hgrid.horizontal.margin, hgrid.horizontal.frame⟩,
      ⟨hgrid.vertical.weights, hgrid.vertical.margin, hgrid.vertical.frame⟩⟩, _, _, rfl, rfl,
        fun cell hcell => ?_⟩
    have hmem : cell ∈ (items (.object node)).filterMap cell? :=
      List.mem_filterMap.mpr ⟨u, hu, hcell⟩
    exact ⟨lt_tracksFor (List.mem_map_of_mem hmem), lt_tracksFor (List.mem_map_of_mem hmem)⟩
  | _ => simp [items] at hu

theorem nodeComponent_inRange {c : Component} (htree : TreeInRange v)
    (hc : nodeComponent {} v = .ok c) :
    c.InRange ∧ c.settings = {} := by
  cases v with
  | object node =>
    have hyields : Yields (fun c => c.InRange ∧ c.settings = {}) (componentOf {} node) :=
      componentOf_yields htree.root
    rwa [show componentOf {} node = .ok c from hc] at hyields
  | _ => cases hc

theorem childRect_yields {loaded e : Element} {c d : Component} {shape : GridShape}
    {location : Option Location} (htree : TreeInRange v) (hload : (load {} v).result = .ok loaded)
    (hc : nodeComponent {} v = .ok c) (hshape : shapeOf v = .ok shape) (hu : (items v)[i]? = some u)
    (hd : nodeComponent {} u = .ok d) (hfree : d.location = none)
    (he : e.component = { d with location := (cell? u).map fun l => .ofInts l.1 l.2 })
    (hcontainer : container.InRange) (hroom : cell? u ≠ none → HasRoom v container) :
    Yields Rectangle.InRange (e.childRect { c with location } shape container).result := by
  have hmem : u ∈ items v := List.mem_of_getElem? hu
  unfold Element.childRect
  cases hcell : cell? u with
  | none =>
    have he' : e.component = d := by rw [he, hcell, Option.map_none, ← hfree]
    rw [he', hfree]
    exact Component.renderRect_yields (nodeComponent_inRange (htree.child hu) hd).1 hfree hcontainer
  | some cell =>
    rw [he, hcell]
    obtain ⟨hin, columns, rows, hcolumns, hrows, hbounds⟩ := shapeOf_inRange htree hshape hmem
    obtain ⟨hcolumn, hrow⟩ := cell_nonneg_of_load hload hmem hcell
    obtain ⟨hcolumnLt, hrowLt⟩ := hbounds cell hcell
    have hresolved : Yields Rectangle.InRange
        (shape.resolveAt c.registry .truncate (.ofInts cell.1 cell.2) container).result :=
      hin.resolveAt hcolumns hrows ⟨hcolumn, hcolumnLt⟩ ⟨hrow, hrowLt⟩ hcontainer
        fun area marginX marginY => hroom (by simp [hcell]) c shape area marginX marginY hc hshape
    have hmode : c.settings.gridRounding = .truncate := by rw [(nodeComponent_inRange htree hc).2]
    rw [Option.map_some]
    dsimp only
    rw [hmode, Report.result_bind]
    exact hresolved.bind fun rect _ hrect => hrect

/-- Whether a placement has a rectangle in range, and the scale of the pass up to whether text is
scaled at all. -/
def InPlace (scale : TextScale) (p : Placement) : Prop :=
  p.rect.InRange ∧ p.scale.rootHeight = scale.rootHeight ∧ p.scale.factor = scale.factor

-- The recursion is that of the layout pass, on elements that stand for nodes of the document. What
-- carries it is that their rectangles are in range.
mutual

theorem place_yields :
    ∀ (e : Element) {v : Json} {loaded : Element} {cell : Option (Int × Int)} {scale : TextScale}
    {depth : Nat} {rect : Rectangle}, (load {} v).result = .ok loaded → e = loaded.inCell cell →
    TreeInRange v →
    TreeHasRoom v rect → rect.InRange →
    Yields (fun ps => ∀ p ∈ ps, InPlace scale p) (e.place scale depth rect).result
  | .leaf c, v, loaded, cell, scale, depth, rect, hload, he, htree, hroom, hrect => by
    intro p hp
    rw [List.mem_singleton.mp hp]
    exact ⟨hrect, rfl, rfl⟩
  | .panel c body es, v, loaded, cell, scale, depth, rect, hload, he, htree, hroom, hrect => by
    obtain ⟨node, c', rfl, hc, hkind⟩ := load_eq_ok hload
    obtain ⟨hfree, -⟩ := componentOf_fixed hc
    rcases hkind with ⟨-, rfl⟩ | ⟨hpanel, shape, order, es', hshape, -, hkept, hes, rfl⟩
    · rw [Element.inCell_leaf hfree] at he
      cases he
    · rw [Element.inCell_panel hfree, Element.panel.injEq] at he
      obtain ⟨rfl, rfl, rfl⟩ := he
      rw [Element.place, Report.result_bind]
      refine (placeIn_yields es hload hc hshape hes (fun i hi => (hkept i).mp hi) htree
        hroom hrect).bind
        fun held _ hheld => ?_
      intro p hp
      rcases List.mem_cons.mp hp with rfl | hp
      · exact ⟨hrect, rfl, rfl⟩
      · obtain ⟨hprect, hheight, hfactor⟩ := hheld p hp
        refine ⟨hprect, hheight.trans ?_, hfactor.trans ?_⟩
        all_goals
          dsimp only
          split <;> rfl

theorem placeIn_yields :
    ∀ (es : List Element) {v : Json} {loaded : Element} {c : Component} {shape : GridShape}
      {location : Option Location} {scale : TextScale} {depth : Nat} {container : Rectangle}
      {order : List Nat},
    (load {} v).result = .ok loaded → nodeComponent {} v = .ok c → shapeOf v = .ok shape →
    List.Forall₂ (IsChild {} v) order es → (∀ i ∈ order, IsKept v i) → TreeInRange v →
    TreeHasRoom v container → container.InRange → Yields (fun ps => ∀ p ∈ ps, InPlace scale p)
      (Element.placeIn { c with location } shape scale depth container es).result
  | [], v, loaded, c, shape, location, scale, depth, container, order, hload, hc, hshape, hes,
    hkept, htree, hroom, hcontainer => by
    intro p hp
    cases hp
  | e :: es, v, loaded, c, shape, location, scale, depth, container, order, hload, hc, hshape, hes,
    hkept, htree, hroom, hcontainer => by
    cases hes with
    | @cons i _ order _ hchild hes =>
      obtain ⟨u, d, hu, hd, hfree, hvisible, hcomponent⟩ := component_of_isChild hchild
      have hlater : Yields (fun ps => ∀ p ∈ ps, InPlace scale p)
          (Element.placeIn { c with location } shape scale depth container es).result :=
        placeIn_yields es hload hc hshape hes (fun i hi => hkept i (List.mem_cons_of_mem _ hi))
          htree hroom hcontainer
      have hikept := hkept i List.mem_cons_self
      rw [Element.placeIn]
      split
      · exact hlater
      · rename_i hshown
        have hshown : isVisible u = true := by
          rw [← hvisible]
          simpa [hcomponent] using hshown
        rw [Report.result_bind]
        refine (childRect_yields htree hload hc hshape hu hd hfree hcomponent hcontainer
          fun hcell => hroom.root hu hikept hshown hcell).bind fun rect hrect hinner => ?_
        obtain ⟨u', loaded', hu', hloaded, he⟩ := hchild
        obtain rfl := Option.some.inj (hu'.symm.trans hu)
        have hchildRect := hasChildRect_of_childRect hc hshape hd hfree hcomponent hrect
        rw [Report.result_bind]
        refine (place_yields e hloaded he (htree.child hu)
          (hroom.child hu hikept hshown hchildRect) hinner).bind
          fun here _ hhere => ?_
        rw [Report.result_bind]
        refine hlater.bind fun later _ hlater => ?_
        intro p hp
        rcases List.mem_append.mp hp with hp | hp
        · exact hhere p hp
        · exact hlater p hp

end

/-- A document in range is laid out or refused. -/
theorem layout_yields (htree : TreeInRange v) (hcontainer : container.InRange)
    (hroom : ∀ c rect, nodeComponent {} v = .ok c → (c.renderRect container).result = .ok rect →
      TreeHasRoom v rect) :
    Yields (fun ps => ∀ p ∈ ps, InPlace (.forRoot container {}) p)
      (loadPanel v >>= fun root => root.layout container).result := by
  rw [loadPanel, Report.result_bind, Report.result_bind]
  refine Yields.bind (p := fun root => (load {} v).result = .ok root) ?_ fun root _ hroot => ?_
  · refine (load_yields htree).bind fun e he _ => ?_
    split
    · exact he
    · exact trivial
  · obtain ⟨node, c, rfl, hc, hkind⟩ := load_eq_ok hroot
    obtain ⟨hin, hsettings⟩ := nodeComponent_inRange htree hc
    obtain ⟨hfree, -⟩ := componentOf_fixed hc
    have hcomponent : root.component = c := by
      rcases hkind with ⟨-, rfl⟩ | ⟨-, _, _, _, -, -, -, -, rfl⟩ <;> rfl
    rw [Element.layout, Report.result_bind, hcomponent, hsettings]
    refine (Component.renderRect_yields hin hfree hcontainer).bind fun rect hrect hinner => ?_
    have hplaced : root = root.inCell none := rfl
    exact place_yields root hroot hplaced htree (hroom c rect hc hrect) hinner

end Document

end PanelLayout
