import PanelLayout.Proofs.Document.Loading
import PanelLayout.Proofs.Placement.Levels

/-!
# A layout pass enumerates the tree

A layout pass of a loaded document lists its nodes in their order, each once, and each with what its
path tells about it.
-/

namespace PanelLayout

namespace Document

variable {settings : Settings}

/-- Whether all panels around the node at a path let text be scaled. -/
def scalesText : Json → List Nat → Bool
  | _, [] => true
  | v, i :: path => resizesText v && (items v)[i]?.all (scalesText · path)

theorem scalesText_eq_false_iff {v : Json} {path : List Nat} : scalesText v path = false ↔
    ∃ around u, around <+: path ∧ around ≠ path ∧ nodeAt? v around = some u ∧
    resizesText u = false := by
  induction path generalizing v with
  | nil =>
    simp only [scalesText, Bool.true_eq_false, false_iff]
    rintro ⟨around, u, hprefix, hne, -⟩
    exact hne (List.prefix_nil.mp hprefix)
  | cons i path ih =>
    rw [scalesText, Bool.and_eq_false_iff]
    constructor
    · rintro (hv | hinner)
      · exact ⟨[], v, List.nil_prefix, (List.cons_ne_nil i path).symm, rfl, hv⟩
      · cases hu : (items v)[i]? with
        | none => simp [hu] at hinner
        | some u =>
          rw [hu, Option.all_some] at hinner
          obtain ⟨around, w, hprefix, hne, hw, hfalse⟩ := ih.mp hinner
          refine ⟨i :: around, w, List.cons_prefix_cons.mpr ⟨rfl, hprefix⟩, fun heq =>
            hne (List.cons.inj heq).2, (nodeAt?_cons hu around).trans hw, hfalse⟩
    · rintro ⟨around, w, hprefix, hne, hw, hfalse⟩
      cases around with
      | nil =>
        obtain rfl := Option.some.inj hw
        exact .inl hfalse
      | cons j around =>
        obtain ⟨rfl, hinner⟩ := List.cons_prefix_cons.mp hprefix
        obtain ⟨u, hu, hw⟩ := Option.bind_eq_some_iff.mp hw
        right
        rw [hu, Option.all_some]
        exact ih.mpr ⟨around, w, hinner, fun heq => hne (by rw [heq]), hw, hfalse⟩

/-- Whether a placement is that of the node at a path, if the node that the path starts from is
placed in a rectangle. -/
structure Stands (settings : Settings) (v : Json) (location : Option Location)
    (scale : TextScale) (depth : Nat)
    (rect : Rectangle) (path : List Nat) (p : Placement) : Prop where
  component : ∃ node c, nodeAt? v path = some (.object node) ∧ componentOf settings node = .ok c ∧
    p.component = { c with location := if path = [] then location else placeAt v path } ∧
    p.isPanel = isPanel node
  depth : p.depth = depth + path.length
  rect : HasRect settings v rect path p.rect
  scale : p.scale = { scale with enabled := scale.enabled && scalesText v path }

def innerScale (scale : TextScale) (v : Json) : TextScale :=
  { scale with enabled := scale.enabled && resizesText v }

theorem Stands.child {v u : Json} {i : Nat} {scale : TextScale} {depth : Nat}
    {container inner : Rectangle} {path : List Nat} {p : Placement} (hu : (items v)[i]? = some u)
    (hrect : HasChildRect settings v container u inner)
    (h : Stands settings u ((cell? u).map fun l => .ofInts l.1 l.2) (innerScale scale v)
      (depth + 1) inner path p)
    (location : Option Location) :
    Stands settings v location scale depth container (i :: path) p := by
  have hnode := nodeAt?_cons hu path
  obtain ⟨node, c, hat, hc, hcomponent, hpanel⟩ := h.component
  refine ⟨⟨node, c, hnode.trans hat, hc, ?_, hpanel⟩, ?_, .child hu hrect h.rect, ?_⟩
  · rw [hcomponent, if_neg (List.cons_ne_nil i path)]
    simp only [placeAt, if_neg (List.cons_ne_nil i path), hnode]
    split
    · rename_i hroot
      rw [hroot]
      rfl
    · rfl
  · rw [h.depth, List.length_cons]
    omega
  · rw [h.scale, innerScale, scalesText, hu, Option.all_some, Bool.and_assoc]

theorem component_of_isChild {v : Json} {i : Nat} {e : Element} (h : IsChild settings v i e) :
    ∃ u c, (items v)[i]? = some u ∧ nodeComponent settings u = .ok c ∧ c.location = none ∧
    c.visible = isVisible u ∧
      e.component = { c with location := (cell? u).map fun l => .ofInts l.1 l.2 } := by
  obtain ⟨u, loaded, hu, hloaded, rfl⟩ := h
  obtain ⟨node, c, rfl, hc, hkind⟩ := load_eq_ok hloaded
  obtain ⟨hfree, hvisible⟩ := componentOf_fixed hc
  refine ⟨_, c, hu, hc, hfree, hvisible, ?_⟩
  rcases hkind with ⟨-, rfl⟩ | ⟨-, shape, order, es, -, -, -, -, rfl⟩
  · rw [Element.inCell_leaf hfree]
    rfl
  · rw [Element.inCell_panel hfree]
    rfl

theorem hasChildRect_of_childRect {v u : Json} {c d : Component} {shape : GridShape}
    {location : Option Location} {e : Element} {container rect : Rectangle}
    (hc : nodeComponent settings v = .ok c) (hshape : shapeOf v = .ok shape)
    (hd : nodeComponent settings u = .ok d) (hfree : d.location = none)
    (he : e.component = { d with location := (cell? u).map fun l => .ofInts l.1 l.2 })
    (hrect : (e.childRect { c with location } shape container).result = .ok rect) :
    HasChildRect settings v container u rect := by
  unfold Element.childRect at hrect
  unfold HasChildRect
  cases hcell : cell? u with
  | none =>
    have he' : e.component = d := by rw [he, hcell, Option.map_none, ← hfree]
    simp only [he', hfree] at hrect
    exact ⟨d, hd, hrect⟩
  | some cell =>
    rw [he, hcell] at hrect
    obtain ⟨area, harea, hrect⟩ := Report.result_bind_eq_ok_iff.mp hrect
    obtain rfl : area = rect := Except.ok.inj hrect
    exact ⟨c, shape, hc, hshape, harea⟩

/-- Whether some placements are those of the nodes that a pass lists, from a node on. -/
def Lists (settings : Settings) (v : Json) (location : Option Location) (scale : TextScale)
    (depth : Nat) (rect : Rectangle) (ps : List Placement) : Prop :=
  ∃ paths : List (List Nat), paths.Pairwise (Before v) ∧ (∀ path, path ∈ paths ↔ Listed v path) ∧
    List.Forall₂ (Stands settings v location scale depth rect) paths ps

def ListsIn (settings : Settings) (v : Json) (scale : TextScale) (depth : Nat) (rect : Rectangle)
    (order : List Nat) (ps : List Placement) : Prop :=
  ∃ paths : List (List Nat), paths.Pairwise (Before v) ∧
    (∀ path, path ∈ paths ↔ ∃ i inner, path = i :: inner ∧ i ∈ order ∧ Listed v path) ∧
    ∀ location, List.Forall₂ (Stands settings v location scale depth rect) paths ps

/-- What is below a child comes before what starts with later siblings. -/
theorem pairwise_before_append {v u : Json} {i : Nat} {paths later : List (List Nat)}
    (hu : (items v)[i]? = some u) (hpaths : paths.Pairwise (Before u))
    (hlater : later.Pairwise (Before v))
    (hfollow : ∀ q ∈ later, ∃ j inner, q = j :: inner ∧ Precedes v i j) :
    (paths.map (i :: ·) ++ later).Pairwise (Before v) := by
  refine List.pairwise_append.mpr ⟨List.pairwise_map.mpr (hpaths.imp fun h => .within hu h), hlater,
    ?_⟩
  intro p hp q hq
  obtain ⟨p, -, rfl⟩ := List.mem_map.mp hp
  obtain ⟨j, q, rfl, hprecedes⟩ := hfollow q hq
  exact .across p q hprecedes

theorem mem_map_cons_append {P : List Nat → Prop} {i : Nat} {order path : List Nat}
    {paths later : List (List Nat)} (hpaths : ∀ p, p ∈ paths ↔ P (i :: p))
    (hlater : ∀ q, q ∈ later ↔ ∃ j inner, q = j :: inner ∧ j ∈ order ∧ P q) :
    path ∈ paths.map (i :: ·) ++ later ↔ ∃ j inner, path = j :: inner ∧
    j ∈ i :: order ∧ P path := by
  rw [List.mem_append, List.mem_map, hlater]
  constructor
  · rintro (⟨p, hp, rfl⟩ | ⟨j, inner, hpath, hj, hat⟩)
    · exact ⟨i, p, rfl, List.mem_cons_self, (hpaths p).mp hp⟩
    · exact ⟨j, inner, hpath, List.mem_cons_of_mem _ hj, hat⟩
  · rintro ⟨j, inner, rfl, hj, hat⟩
    rcases List.mem_cons.mp hj with rfl | hj
    · exact .inl ⟨inner, (hpaths inner).mpr hat, rfl⟩
    · exact .inr ⟨j, inner, rfl, hj, hat⟩

theorem listed_child_iff {v u : Json} {i : Nat} {path : List Nat} (hu : (items v)[i]? = some u)
    (hkept : IsKept v i) (hvisible : isVisible u = true) :
    Listed v (i :: path) ↔ Listed u path := by
  constructor
  · intro hlisted
    cases hlisted with
    | child hw _ _ hinner =>
      obtain rfl := Option.some.inj (hu.symm.trans hw)
      exact hinner
  · exact .child hu hkept hvisible

section Steps

variable {v u : Json} {location : Option Location} {scale : TextScale} {depth i : Nat}
    {rect inner : Rectangle}
  {order : List Nat} {here later ps : List Placement} {node : Members} {c : Component}

theorem ListsIn.nil : ListsIn settings v scale depth rect [] [] :=
  ⟨[], .nil, by simp, fun _ => .nil⟩

theorem ListsIn.skip (h : ListsIn settings v scale depth rect order ps)
    (hu : (items v)[i]? = some u) (hvisible : isVisible u = false) :
    ListsIn settings v scale depth rect (i :: order) ps := by
  obtain ⟨paths, hordered, hmem, hstands⟩ := h
  refine ⟨paths, hordered, fun path => (hmem path).trans ?_, hstands⟩
  constructor
  · rintro ⟨j, inner, hpath, hj, hlisted⟩
    exact ⟨j, inner, hpath, List.mem_cons_of_mem _ hj, hlisted⟩
  · rintro ⟨j, inner, rfl, hj, hlisted⟩
    rcases List.mem_cons.mp hj with rfl | hj
    · cases hlisted with
      | child hw _ hshown =>
        obtain rfl := Option.some.inj (hu.symm.trans hw)
        simp [hvisible] at hshown
    · exact ⟨j, inner, rfl, hj, hlisted⟩

theorem ListsIn.cons (hu : (items v)[i]? = some u) (hkept : IsKept v i)
    (hvisible : isVisible u = true) (hrect : HasChildRect settings v rect u inner)
    (hhere : Lists settings u ((cell? u).map fun l => .ofInts l.1 l.2) (innerScale scale v)
      (depth + 1) inner here)
    (hbefore : ∀ j ∈ order, Precedes v i j)
    (hlater : ListsIn settings v scale depth rect order later) :
    ListsIn settings v scale depth rect (i :: order) (here ++ later) := by
  obtain ⟨paths, hordered, hmem, hstands⟩ := hhere
  obtain ⟨paths', hordered', hmem', hstands'⟩ := hlater
  refine ⟨paths.map (i :: ·) ++ paths', pairwise_before_append hu hordered hordered' fun q hq => ?_,
    fun path => ?_, fun location => ?_⟩
  · obtain ⟨j, inner, rfl, hj, -⟩ := (hmem' q).mp hq
    exact ⟨j, inner, rfl, hbefore j hj⟩
  · exact mem_map_cons_append (fun p =>
      (hmem p).trans (listed_child_iff hu hkept hvisible).symm) hmem'
  · refine List.rel_append ?_ (hstands' location)
    rw [List.forall₂_map_left_iff]
    exact hstands.imp fun _ _ h => h.child hu hrect location

theorem Lists.panel (hc : componentOf settings node = .ok c)
    (hkept : ∀ i, IsKept (.object node) i → i ∈ order)
    (h : ListsIn settings (.object node) scale depth rect order ps) :
    Lists settings (.object node) location scale depth rect
      (⟨{ c with location }, isPanel node, rect, scale, depth⟩ :: ps) := by
  obtain ⟨paths, hordered, hmem, hstands⟩ := h
  refine ⟨[] :: paths, List.pairwise_cons.mpr ⟨fun path hpath => ?_, hordered⟩, fun path => ?_,
    .cons ?_ (hstands location)⟩
  · obtain ⟨i, inner, rfl, -⟩ := (hmem path).mp hpath
    exact .inside _ i inner
  · rw [List.mem_cons, hmem]
    constructor
    · rintro (rfl | ⟨i, inner, rfl, -, hlisted⟩)
      · exact .root _
      · exact hlisted
    · intro hlisted
      cases hlisted with
      | root => exact .inl rfl
      | @child _ u i inner hu hexists hvisible hinner =>
        exact .inr ⟨i, inner, rfl, hkept i hexists, .child hu hexists hvisible hinner⟩
  · exact ⟨⟨node, c, rfl, hc, rfl, rfl⟩, rfl, .root _ _, by simp [scalesText]⟩

end Steps

-- The recursion is that of the layout pass: on the elements, with the children that are left as a
-- row of their own. What carries it is that elements stand for nodes of the document, each in the
-- cell that its node asks for.
mutual

theorem place_lists :
    ∀ (e : Element) {v : Json} {loaded : Element} {cell : Option (Int × Int)} {scale : TextScale}
    {depth : Nat} {rect : Rectangle} {ps : List Placement}, (load settings v).result = .ok loaded →
    e = loaded.inCell cell → (e.place scale depth rect).result = .ok ps →
    Lists settings v (cell.map fun l => .ofInts l.1 l.2) scale depth rect ps
  | .leaf c, v, loaded, cell, scale, depth, rect, ps, hload, he, hplace => by
    obtain ⟨node, c', rfl, hc, hkind⟩ := load_eq_ok hload
    obtain ⟨hfree, -⟩ := componentOf_fixed hc
    rcases hkind with ⟨hleaf, rfl⟩ | ⟨-, shape, order, es, -, -, -, -, rfl⟩
    · rw [Element.inCell_leaf hfree, Element.leaf.injEq] at he
      obtain rfl := Except.ok.inj hplace
      have hnone : ∀ i, IsKept (.object node) i → i ∈ ([] : List Nat) := by
        rintro i ⟨hi, -⟩
        simp [items, hleaf] at hi
      rw [he, ← hleaf]
      exact Lists.panel hc hnone .nil
    · rw [Element.inCell_panel hfree] at he
      cases he
  | .panel c body es, v, loaded, cell, scale, depth, rect, ps, hload, he, hplace => by
    obtain ⟨node, c', rfl, hc, hkind⟩ := load_eq_ok hload
    obtain ⟨hfree, -⟩ := componentOf_fixed hc
    rcases hkind with ⟨-, rfl⟩ | ⟨hpanel, shape, order, es', hshape, hordered, hkept, hes, rfl⟩
    · rw [Element.inCell_leaf hfree] at he
      cases he
    · rw [Element.inCell_panel hfree, Element.panel.injEq] at he
      obtain ⟨rfl, rfl, rfl⟩ := he
      obtain ⟨held, hheld, hplace⟩ := Report.result_bind_eq_ok_iff.mp hplace
      obtain rfl := Except.ok.inj hplace
      have hinner : (if flag node "text_resize" then scale else { scale with enabled := false }) =
          innerScale scale (.object node) := by
        rw [innerScale, resizesText]
        cases flag node "text_resize" <;> simp
      dsimp only at hheld
      rw [hinner] at hheld
      rw [← hpanel]
      exact Lists.panel hc (fun i hi => (hkept i).mpr hi)
        (placeIn_lists es hc hshape hes hordered (fun i hi => (hkept i).mp hi) hheld)

theorem placeIn_lists :
    ∀ (es : List Element) {v : Json} {c : Component} {shape : GridShape}
      {location : Option Location} {scale : TextScale} {depth : Nat} {container : Rectangle}
      {order : List Nat} {ps : List Placement},
    nodeComponent settings v = .ok c → shapeOf v = .ok shape →
    List.Forall₂ (IsChild settings v) order es →
    order.Pairwise (Precedes v) → (∀ i ∈ order, IsKept v i) →
    (Element.placeIn { c with location } shape (innerScale scale v) (depth + 1) container
      es).result = .ok ps →
    ListsIn settings v scale depth container order ps
  | [], v, c, shape, location, scale, depth, container, order, ps, hc, hshape, hes, hordered,
      hkept, hplace => by
    obtain rfl := Except.ok.inj hplace
    cases hes
    exact .nil
  | e :: es, v, c, shape, location, scale, depth, container, order, ps, hc, hshape, hes, hordered,
      hkept, hplace => by
    cases hes with
    | @cons i _ order _ hchild hes =>
      obtain ⟨u, d, hu, hd, hfree, hvisible, hcomponent⟩ := component_of_isChild hchild
      have hrest := fun i hi => hkept i (List.mem_cons_of_mem _ hi)
      cases hshown : e.component.visible with
      | false =>
        rw [Element.placeIn_of_hidden hshown] at hplace
        refine (placeIn_lists es hc hshape hes hordered.of_cons hrest hplace).skip hu ?_
        rw [← hvisible]
        simpa [hcomponent] using hshown
      | true =>
        obtain ⟨rect, here, later, hrect, hhere, hlater, rfl⟩ :=
          (Element.placeIn_of_visible hshown).mp hplace
        obtain ⟨u', loaded, hu', hloaded, he⟩ := hchild
        obtain rfl := Option.some.inj (hu'.symm.trans hu)
        refine .cons hu (hkept i List.mem_cons_self) ?_
          (hasChildRect_of_childRect hc hshape hd hfree hcomponent hrect)
            (place_lists e hloaded he hhere)
          (List.pairwise_cons.mp hordered).1
            (placeIn_lists es hc hshape hes hordered.of_cons hrest hlater)
        rw [← hvisible]
        simpa [hcomponent] using hshown

end

theorem not_before_root {v : Json} {path : List Nat} : ¬Before v path [] := nofun

/-- A layout pass enumerates the tree. It lists the root first, and then every node that is visible
with all nodes around it below the root, each once, a node before what it holds and siblings in
their order. What it says about a node is what the path of the node tells. -/
theorem layout_of_loadPanel {v : Json} {settings : Settings} {root : Element}
    {container : Rectangle} {ps : List Placement} (hload : (loadPanel v settings).result = .ok root)
    (hlayout : (root.layout container).result = .ok ps) :
    ∃ paths : List (List Nat), paths.head? = some [] ∧ paths.Nodup ∧ paths.Pairwise (Before v) ∧
      (∀ path, path ∈ paths ↔ Listed v path) ∧
      List.Forall₂ (IsPlacement settings v container) paths ps := by
  obtain ⟨e, he, hroot⟩ := Report.result_bind_eq_ok_iff.mp hload
  have hroot : e = root := by
    split at hroot
    · exact Except.ok.inj hroot
    · cases hroot
  subst hroot
  obtain ⟨rect, hrect, hplace⟩ := Report.result_bind_eq_ok_iff.mp hlayout
  obtain ⟨node, c, rfl, hc, hkind⟩ := load_eq_ok he
  have hcomponent : e.component = c := by
    rcases hkind with ⟨-, rfl⟩ | ⟨-, _, _, _, -, -, -, -, rfl⟩ <;> rfl
  rw [hcomponent] at hrect
  have hfree : e = e.inCell none := rfl
  obtain ⟨paths, hordered, hmem, hstands⟩ := place_lists e he hfree hplace
  refine ⟨paths, ?_, hordered.imp Before.ne, hordered, hmem, hstands.imp fun path p h => ?_⟩
  · have hlisted := (hmem []).mpr (.root _)
    cases paths with
    | nil => cases hlisted
    | cons path paths =>
      rcases List.mem_cons.mp hlisted with rfl | hlater
      · rfl
      · exact absurd ((List.pairwise_cons.mp hordered).1 [] hlater) not_before_root
  · obtain ⟨node', d, hat, hd, hdcomponent, hpanel⟩ := h.component
    refine ⟨⟨node', d, hat, hd, ?_, hpanel⟩, h.depth.trans (Nat.zero_add _),
      ⟨c, rect, hc, hrect, h.rect⟩, ?_, ?_⟩
    · rw [hdcomponent]
      by_cases hpath : path = []
      · rw [if_pos hpath, placeAt, if_pos hpath, Option.map_none]
      · rw [if_neg hpath]
    · rw [h.scale]
      rfl
    · rw [h.scale, ← scalesText_eq_false_iff]
      simp [TextScale.forRoot]

/-- A panel with a free child, two children in the same cell, of which the second one is a panel,
and a hidden child. -/
def fourChildren : Json := .object [("text_resize", .bool false), ("children", .array [
  .object [("x", .text "5"), ("width", .text "20")],
  .object [("column", .number (.int 0))],
  .object [("column", .number (.int 0)), ("children", .array [.object [("height", .text "10")]])],
  .object [("visible", .bool false)]])]

/-- The second child is replaced by the third one, which comes with its own child before the free
one. -/
theorem layout_of_fourChildren :
    ∃ root ps paths, (loadPanel fourChildren).result = .ok root ∧
    (root.layout (.ofInts 0 0 100 40)).result = .ok ps ∧
      ps.map (fun p => (p.depth, p.scale.enabled, p.rect)) =
        [(0, true, .ofInts 0 0 100 40), (1, false, .ofInts 0 0 100 40),
          (2, false, .ofInts 0 0 100 10), (1, false, .ofInts 5 0 20 40)] ∧
      paths.length = 4 ∧ paths.Pairwise (Before fourChildren) ∧
      (∀ path, path ∈ paths ↔ Listed fourChildren path) ∧
      List.Forall₂ (IsPlacement {} fourChildren (.ofInts 0 0 100 40)) paths ps := by
  have h : ((loadPanel fourChildren).result.toOption.bind fun root =>
      (root.layout (.ofInts 0 0 100 40)).result.toOption).map (List.map fun p =>
        (p.depth, p.scale.enabled, p.rect)) =
      some [(0, true, .ofInts 0 0 100 40), (1, false, .ofInts 0 0 100 40),
        (2, false, .ofInts 0 0 100 10), (1, false, .ofInts 5 0 20 40)] := by decide +kernel
  obtain ⟨ps, hps, hshown⟩ := Option.map_eq_some_iff.mp h
  obtain ⟨root, hroot, hlayout⟩ := Option.bind_eq_some_iff.mp hps
  rw [toOption_eq_some_iff] at hroot hlayout
  obtain ⟨paths, -, -, hordered, hmem, hplaced⟩ := layout_of_loadPanel hroot hlayout
  have hlength := congrArg List.length hshown
  rw [List.length_map] at hlength
  exact ⟨root, ps, paths, hroot, hlayout, hshown, hplaced.length_eq.trans hlength, hordered,
    hmem, hplaced⟩

end Document

end PanelLayout
