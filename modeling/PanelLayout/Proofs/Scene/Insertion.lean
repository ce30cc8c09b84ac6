import PanelLayout.Proofs.Placement.Descendants
import PanelLayout.Proofs.Scene.Search

/-!
# Trees in a scene

A tree that is put into a scene is stored there: each of its elements has a node with a key of its
own, and the node of a panel holds the keys of its children. If the children of all panels are in
the order of painting, a scene holds them in that order, and a layout pass of the scene sees the
tree that was put in.
-/

namespace PanelLayout

/-- Whether one child of a panel need not be painted after another: cells row by row, and then what
is free. -/
def Element.Leads (a b : Element) : Prop :=
  match a.component.location, b.component.location with
  | some l, some l' => paintedFirst l' l = false
  | none, some _ => False
  | _, none => True

namespace Scene

variable {s s' s'' : Scene} {key first last k n : Key} {c : Component} {e : Element}
    {es : List Element} {keys : List Key}
  {panel : Option PanelNode} {body : PanelBody}

structure Extends (s s' : Scene) : Prop where
  nodes : ∀ {k : Key} {node : SceneNode}, s.nodes[k]? = some node → s'.nodes[k]? = some node
  registries : ∀ {k : Key} {vs : Variables}, s.registries[k]? = some vs →
    s'.registries[k]? = some vs
  settings : ∀ {k : Key} {settings : Settings}, s.settings[k]? = some settings →
    s'.settings[k]? = some settings

theorem Extends.refl (s : Scene) : s.Extends s := ⟨id, id, id⟩

theorem Extends.trans (h : s.Extends s') (h' : s'.Extends s'') : s.Extends s'' :=
  ⟨fun hnode => h'.nodes (h.nodes hnode), fun hvs => h'.registries (h.registries hvs),
    fun hsettings => h'.settings (h.settings hsettings)⟩

private theorem getElem?_push_of_eq_some {α : Type} {xs : Array α} {x y : α} {i : Nat}
    (h : xs[i]? = some x) :
    (xs.push y)[i]? = some x := by
  obtain ⟨hi, hx⟩ := Array.getElem?_eq_some_iff.mp h
  rw [Array.getElem?_push_lt hi, hx]

theorem extends_addVariables (s : Scene) (vs : Variables) : s.Extends (s.addVariables vs).2 :=
  ⟨id, getElem?_push_of_eq_some, id⟩

theorem extends_addNode (s : Scene) (node : SceneNode) : s.Extends (s.addNode node).2 :=
  ⟨getElem?_push_of_eq_some, id, id⟩

def HasNode (s : Scene) (key : Key) (c : Component) (panel : Option PanelNode) : Prop :=
  ∃ registry settings, s.nodes[key]? = some ⟨c, registry, settings, panel⟩ ∧
    s.registries[registry]? = some c.registry ∧
    s.settings[settings]? = some c.settings

theorem HasNode.mono (h : s.HasNode key c panel) (hs : s.Extends s') : s'.HasNode key c panel := by
  obtain ⟨registry, settings, hnode, hregistry, hsettings⟩ := h
  exact ⟨registry, settings, hs.nodes hnode, hs.registries hregistry, hs.settings hsettings⟩

theorem HasNode.node_panel (h : s.HasNode key c panel) : (s.node key).panel = panel := by
  obtain ⟨registry, settings, hnode, -, -⟩ := h
  rw [node, hnode, Option.getD_some]

theorem HasNode.component_eq (h : s.HasNode key c panel) : s.component key = c := by
  obtain ⟨registry, settings, hnode, hregistry, hsettings⟩ := h
  simp [component, node, hnode, hregistry, hsettings]

def heldAs (keys : List Key) (es : List Element) : List (Key × Option Location) :=
  List.zipWith (fun key e => (key, e.component.location)) keys es

def cellsOf (held : List (Key × Option Location)) : List (Location × Key) :=
  held.filterMap fun (key, location) => location.map fun l => (l, key)

def freeOf (held : List (Key × Option Location)) : List Key :=
  held.filterMap fun (key, location) => if location.isNone then some key else none

section Held

variable (held : List (Key × Option Location)) (key : Key) (l : Location)

theorem cellsOf_free : cellsOf ((key, none) :: held) = cellsOf held := rfl

theorem cellsOf_cell : cellsOf ((key, some l) :: held) = (l, key) :: cellsOf held := rfl

theorem freeOf_free : freeOf ((key, none) :: held) = key :: freeOf held := rfl

theorem freeOf_cell : freeOf ((key, some l) :: held) = freeOf held := rfl

end Held

def panelHolding (body : PanelBody) (keys : List Key) (es : List Element) : PanelNode :=
  ⟨⟨body.shape, cellsOf (heldAs keys es)⟩, freeOf (heldAs keys es), body.textResize⟩

mutual
/-- Whether a scene stores a tree under a key, with keys from a first one on for what the tree
holds. -/
inductive Stores (s : Scene) : Key → Key → Element → Prop
  | leaf {first key : Key} {c : Component} :
      first ≤ key → s.HasNode key c none → Stores s first key (.leaf c)
  | panel {first key : Key} {c : Component} {body : PanelBody} {keys : List Key}
    {es : List Element} :
    s.HasNode key c (some (panelHolding body keys es)) → StoresAll s first key keys es →
    Stores s first key (.panel c body es)

inductive StoresAll (s : Scene) : Key → Key → List Key → List Element → Prop
  | nil {first last : Key} : first ≤ last → StoresAll s first last [] []
  | cons {first key last : Key} {e : Element} {keys : List Key} {es : List Element} :
      Stores s first key e → StoresAll s (key + 1) last keys es →
      StoresAll s first last (key :: keys) (e :: es)
end

mutual
theorem Stores.mono (hs : s.Extends s') :
    ∀ {e : Element} {first key : Key}, s.Stores first key e → s'.Stores first key e
  | .leaf _, _, _, .leaf hle hnode => .leaf hle (hnode.mono hs)
  | .panel _ _ _, _, _, .panel hnode hall => .panel (hnode.mono hs) (hall.mono hs)

theorem StoresAll.mono (hs : s.Extends s') :
    ∀ {es : List Element} {first last : Key} {keys : List Key},
    s.StoresAll first last keys es → s'.StoresAll first last keys es
  | [], _, _, _, .nil hle => .nil hle
  | _ :: _, _, _, _, .cons he hes => .cons (he.mono hs) (hes.mono hs)
end

theorem insert_panel (settingsKey : Key) (s : Scene) (c : Component) (body : PanelBody)
    (es : List Element) :
    s.insert settingsKey (.panel c body es) =
      (insertAll settingsKey (s.addVariables c.registry).2 es).2.addNode
      ⟨c, s.registries.size, settingsKey,
        some ⟨⟨body.shape, cellsOf (insertAll settingsKey (s.addVariables c.registry).2 es).1⟩,
          freeOf (insertAll settingsKey (s.addVariables c.registry).2 es).1, body.textResize⟩⟩ :=
          rfl

mutual
/-- A tree that is put into a scene is stored with new keys, the last of which is its own. -/
theorem insert_stores {settingsKey : Key} {settings : Settings} :
    ∀ (e : Element) {s : Scene}, s.settings[settingsKey]? = some settings →
    (∀ d ∈ e :: e.descendants, d.component.settings = settings) →
    s.Extends (s.insert settingsKey e).2 ∧ (s.insert settingsKey e).2.nodes.size =
      (s.insert settingsKey e).1 + 1 ∧
      (s.insert settingsKey e).2.Stores s.nodes.size (s.insert settingsKey e).1 e
  | .leaf c, s, hkey, hsettings => by
    have hc : c.settings = settings := hsettings _ List.mem_cons_self
    refine ⟨(extends_addVariables s c.registry).trans (extends_addNode ..), Array.size_push _,
      .leaf (Nat.le_refl _) ?_⟩
    exact ⟨_, _, Array.getElem?_push_size, Array.getElem?_push_size, hc ▸ hkey⟩
  | .panel c body es, s, hkey, hsettings => by
    have hc : c.settings = settings := hsettings _ List.mem_cons_self
    obtain ⟨hextends, keys, hheld, hall⟩ :=
      insertAll_stores es (s := (s.addVariables c.registry).2) hkey
      fun d hd => hsettings d (List.mem_cons_of_mem _ hd)
    have hregistry := hextends.registries (k := s.registries.size) Array.getElem?_push_size
    have hkey' := hextends.settings hkey
    rw [insert_panel, hheld]
    generalize (insertAll settingsKey (s.addVariables c.registry).2 es).2 = s' at *
    refine ⟨(extends_addVariables s c.registry).trans (hextends.trans (extends_addNode ..)),
      Array.size_push _,
      .panel ⟨_, _, Array.getElem?_push_size, hregistry, hc ▸ hkey'⟩
        (hall.mono (extends_addNode ..))⟩

theorem insertAll_stores {settingsKey : Key} {settings : Settings} :
    ∀ (es : List Element) {s : Scene},
    s.settings[settingsKey]? = some settings →
    (∀ d ∈ Element.descendantsIn es, d.component.settings = settings) →
    s.Extends (insertAll settingsKey s es).2 ∧ ∃ keys, (insertAll settingsKey s es).1 =
      heldAs keys es ∧
      (insertAll settingsKey s es).2.StoresAll s.nodes.size
        (insertAll settingsKey s es).2.nodes.size keys es
  | [], s, hkey, hsettings => ⟨.refl s, [], rfl, .nil (Nat.le_refl _)⟩
  | e :: es, s, hkey, hsettings => by
    rw [Element.descendantsIn, ← List.cons_append, List.forall_mem_append] at hsettings
    obtain ⟨hextends, hsize, hstores⟩ := insert_stores e hkey hsettings.1
    obtain ⟨hextends', keys, hheld, hall⟩ :=
      insertAll_stores es (hextends.settings hkey) hsettings.2
    exact ⟨hextends.trans hextends', _ :: keys, congrArg (List.cons _) hheld,
      .cons (hstores.mono hextends') (hsize ▸ hall)⟩
end

theorem Stores.component_eq (h : s.Stores first key e) : s.component key = e.component := by
  cases h with
  | leaf _ hnode => exact hnode.component_eq
  | panel hnode _ => exact hnode.component_eq

theorem Stores.isPanel_eq (h : s.Stores first key e) : s.isPanel key = e.isPanel := by
  cases h with
  | leaf _ hnode =>
    rw [isPanel, hnode.node_panel]
    rfl
  | panel hnode _ =>
    rw [isPanel, hnode.node_panel]
    rfl

theorem StoresAll.length_eq (h : s.StoresAll first last keys es) : keys.length = es.length := by
  induction es generalizing first keys with
  | nil =>
    cases h
    rfl
  | cons e es ih =>
    cases h with
    | cons _ hes => rw [List.length_cons, List.length_cons, ih hes]

theorem exists_of_mem_cellsOf {x : Location × Key} (h : x ∈ cellsOf (heldAs keys es)) :
    ∃ e ∈ es, e.component.location = some x.1 := by
  obtain ⟨y, hy, hx⟩ := List.mem_filterMap.mp h
  obtain ⟨i, hi, rfl⟩ := List.getElem_of_mem hy
  rw [heldAs, List.length_zipWith] at hi
  simp only [heldAs, List.getElem_zipWith, Option.map_eq_some_iff] at hx
  obtain ⟨l, hl, rfl⟩ := hx
  exact ⟨es[i], List.getElem_mem _, hl⟩

theorem held_in_order (hlength : keys.length = es.length) (hordered : es.Pairwise Element.Leads) :
    (cellsOf (heldAs keys es)).Pairwise (fun a b => (!Element.paintedFirst b.1 a.1) = true) ∧
      (cellsOf (heldAs keys es)).map Prod.snd ++ freeOf (heldAs keys es) = keys := by
  induction es generalizing keys with
  | nil =>
    obtain rfl := List.length_eq_zero_iff.mp hlength
    exact ⟨.nil, rfl⟩
  | cons e es ih =>
    cases keys with
    | nil => cases hlength
    | cons key keys =>
      obtain ⟨hleads, hordered⟩ := List.pairwise_cons.mp hordered
      obtain ⟨hcells, hkeys⟩ := ih (Nat.succ.inj hlength) hordered
      have hheld : heldAs (key :: keys) (e :: es) = (key, e.component.location) :: heldAs keys es :=
        rfl
      cases hlocation : e.component.location with
      | none =>
        -- after a free element there are no cells
        have hfree : cellsOf (heldAs keys es) = [] := by
          refine List.eq_nil_iff_forall_not_mem.mpr fun x hx => ?_
          obtain ⟨d, hd, hcell⟩ := exists_of_mem_cellsOf hx
          have hfollows := hleads d hd
          simp [Element.Leads, hlocation, hcell] at hfollows
        rw [hfree] at hkeys
        rw [hheld, hlocation, cellsOf_free, freeOf_free, hfree]
        exact ⟨.nil, congrArg (key :: ·) hkeys⟩
      | some l =>
        rw [hheld, hlocation, cellsOf_cell, freeOf_cell]
        refine ⟨List.pairwise_cons.mpr ⟨fun x hx => ?_, hcells⟩, congrArg (key :: ·) hkeys⟩
        obtain ⟨d, hd, hcell⟩ := exists_of_mem_cellsOf hx
        have hfollows := hleads d hd
        simpa [Element.Leads, hlocation, hcell] using hfollows

theorem HasNode.children_eq (h : s.HasNode key c (some (panelHolding body keys es)))
    (hlength : keys.length = es.length) (hordered : es.Pairwise Element.Leads) :
    s.children key = keys := by
  obtain ⟨hcells, hkeys⟩ := held_in_order hlength hordered
  rw [children, Scene.panel, h.node_panel, Option.getD_some, panelHolding, Element.paintOrder,
    List.mergeSort_of_pairwise hcells, hkeys]

def IsElementAt (s : Scene) (key : Key) (e : Element) : Prop :=
  s.component key = e.component ∧ s.isPanel key = e.isPanel

/-- Whether a scene has some elements under some keys, all of them different and between two
keys. -/
structure Enumerates (s : Scene) (first last : Key) (keys : List Key)
    (es : List Element) : Prop where
  elements : List.Forall₂ s.IsElementAt keys es
  nodup : keys.Nodup
  bounds : ∀ k ∈ keys, first ≤ k ∧ k < last

theorem Enumerates.cons {here later : List Key} {ds ds' : List Element} (he : s.IsElementAt key e)
    (hhere : s.Enumerates first key here ds) (hlater : s.Enumerates (key + 1) last later ds')
    (hfirst : first ≤ key) (hlast : key < last) :
    s.Enumerates first last (key :: here ++ later) (e :: (ds ++ ds')) where
  elements :=
    have hchild : List.Forall₂ s.IsElementAt (key :: here) (e :: ds) := .cons he hhere.elements
    List.rel_append hchild hlater.elements
  nodup := by
    have hchild : (key :: here).Nodup :=
      List.nodup_cons.mpr ⟨fun h => Nat.lt_irrefl _ (hhere.bounds key h).2, hhere.nodup⟩
    refine List.nodup_append.mpr ⟨hchild, hlater.nodup, fun a ha b hb => ?_⟩
    have hb := (hlater.bounds b hb).1
    rcases List.mem_cons.mp ha with rfl | ha
    · exact Nat.ne_of_lt hb
    · exact Nat.ne_of_lt (Nat.lt_trans (hhere.bounds a ha).2 hb)
  bounds := by
    intro k hk
    rcases List.mem_append.mp hk with hk | hk
    · rcases List.mem_cons.mp hk with rfl | hk
      · exact ⟨hfirst, hlast⟩
      · obtain ⟨hle, hlt⟩ := hhere.bounds k hk
        exact ⟨hle, Nat.lt_trans hlt hlast⟩
    · obtain ⟨hle, hlt⟩ := hlater.bounds k hk
      exact ⟨Nat.le_trans hfirst (Nat.le_of_succ_le hle), hlt⟩

mutual
theorem Stores.le : ∀ {e : Element} {first key : Key}, s.Stores first key e → first ≤ key
  | .leaf _, _, _, .leaf hle _ => hle
  | .panel _ _ _, _, _, .panel _ hall => hall.le

theorem StoresAll.le : ∀ {es : List Element} {first last : Key} {keys : List Key},
    s.StoresAll first last keys es → first ≤ last
  | [], _, _, _, .nil hle => hle
  | _ :: _, _, _, _, .cons he hes => Nat.le_trans he.le (Nat.le_of_succ_le hes.le)
end

mutual
theorem Stores.enumerates : ∀ {e : Element} {first key : Key} {n : Nat}, s.Stores first key e →
    (∀ d ∈ e :: e.descendants, d.children.Pairwise Element.Leads) → key < n →
    s.Enumerates first key (descendantsWithin n s key) e.descendants
  | .leaf c, first, key, n, hstores, hordered, hn => by
    rw [descendantsWithin_of_leaf n hstores.isPanel_eq]
    exact ⟨.nil, .nil, nofun⟩
  | .panel c body es, first, key, n, .panel hnode hall, hordered, hn => by
    obtain ⟨n, rfl⟩ := Nat.exists_eq_add_one_of_ne_zero (Nat.ne_zero_of_lt hn)
    obtain ⟨hes, hinner⟩ := List.forall_mem_cons.mp hordered
    rw [descendantsWithin, hnode.children_eq hall.length_eq hes]
    exact hall.enumerates hinner (Nat.le_of_lt_succ hn)

theorem StoresAll.enumerates : ∀ {es : List Element} {first last : Key} {keys : List Key} {n : Nat},
    s.StoresAll first last keys es →
    (∀ d ∈ Element.descendantsIn es, d.children.Pairwise Element.Leads) → last ≤ n →
    s.Enumerates first last (keys.flatMap fun child => child :: descendantsWithin n s child)
      (Element.descendantsIn es)
  | [], first, last, _, n, .nil hle, hordered, hn => ⟨.nil, .nil, nofun⟩
  | e :: es, first, last, _, n, .cons he hes, hordered, hn => by
    rw [Element.descendantsIn, ← List.cons_append, List.forall_mem_append] at hordered
    have hlast := hes.le
    exact .cons ⟨he.component_eq, he.isPanel_eq⟩
      (he.enumerates hordered.1 (Nat.lt_of_lt_of_le hlast hn))
      (hes.enumerates hordered.2 hn) he.le hlast
end

theorem isLaidOut_of_mem (hnode : s.HasNode key c (some (panelHolding body keys es))) {i : Nat}
    (hi : i < keys.length) (hi' : i < es.length) (hchild : s.component keys[i] = es[i].component)
    (hvisible : es[i].component.visible = true) :
    s.isLaidOut key keys[i] = true := by
  rw [isLaidOut, hchild, hvisible, Bool.true_and]
  cases hlocation : es[i].component.location with
  | none => rfl
  | some l =>
    have hheld : (keys[i], some l) ∈ heldAs keys es := by
      refine List.mem_iff_getElem.mpr ⟨i, by rw [heldAs, List.length_zipWith]; exact lt_min hi hi',
        ?_⟩
      simp only [heldAs, List.getElem_zipWith, hlocation]
    have hcell : (l, keys[i]) ∈ cellsOf (heldAs keys es) :=
      List.mem_filterMap.mpr ⟨(keys[i], some l), hheld, rfl⟩
    refine List.any_eq_true.mpr ⟨(l, keys[i]), ?_, by simp [Grid.isEntryOf]⟩
    rw [Scene.panel, hnode.node_panel]
    exact hcell

mutual
/-- Where everything is visible, a layout pass of a scene sees the tree that the scene stores. -/
theorem Stores.elementWithin_eq :
    ∀ {e : Element} {first key : Key} {n : Nat}, s.Stores first key e →
    (∀ d ∈ e :: e.descendants, d.children.Pairwise Element.Leads) →
    (∀ d ∈ e.descendants, d.component.visible = true) → key < n → elementWithin n s key = .ok e
  | .leaf c, first, key, n, .leaf _ hnode, hordered, hvisible, hn => by
    obtain ⟨n, rfl⟩ := Nat.exists_eq_add_one_of_ne_zero (Nat.ne_zero_of_lt hn)
    rw [elementWithin_leaf hnode.node_panel, hnode.component_eq]
  | .panel c body es, first, key, n, .panel hnode hall, hordered, hvisible, hn => by
    obtain ⟨n, rfl⟩ := Nat.exists_eq_add_one_of_ne_zero (Nat.ne_zero_of_lt hn)
    obtain ⟨hes, hinner⟩ := List.forall_mem_cons.mp hordered
    have hall' := hall.elementWithin_eq hinner hvisible (Nat.le_of_lt_succ hn)
    refine (elementWithin_panel hnode.node_panel).mpr ⟨es, ?_, ?_⟩
    · rw [hnode.children_eq hall.length_eq hes, List.filter_eq_self.mpr]
      · exact hall'
      · intro k hk
        obtain ⟨i, hi, rfl⟩ := List.getElem_of_mem hk
        have hi' : i < es.length := hall.length_eq ▸ hi
        exact isLaidOut_of_mem hnode hi hi' (component_of_elementWithin (hall'.get hi hi')).symm
          (hvisible _ (Element.mem_descendantsIn (List.getElem_mem hi')))
    · rw [hnode.component_eq]
      rfl

theorem StoresAll.elementWithin_eq :
    ∀ {es : List Element} {first last : Key} {keys : List Key} {n : Nat},
    s.StoresAll first last keys es →
    (∀ d ∈ Element.descendantsIn es, d.children.Pairwise Element.Leads) →
    (∀ d ∈ Element.descendantsIn es, d.component.visible = true) → last ≤ n →
    List.Forall₂ (fun k e => elementWithin n s k = .ok e) keys es
  | [], first, last, _, n, .nil hle, hordered, hvisible, hn => .nil
  | e :: es, first, last, _, n, .cons he hes, hordered, hvisible, hn => by
    rw [Element.descendantsIn, ← List.cons_append, List.forall_mem_append] at hordered
    rw [Element.descendantsIn, List.forall_mem_cons, List.forall_mem_append] at hvisible
    exact .cons (he.elementWithin_eq hordered.1 hvisible.2.1 (Nat.lt_of_lt_of_le hes.le hn))
      (hes.elementWithin_eq hordered.2 hvisible.2.2 hn)
end

end Scene

end PanelLayout
