import PanelLayout.Proofs.Document.Preorder
import PanelLayout.Proofs.Scene.Insertion

/-!
# Search in a loaded panel

A panel that is loaded from a document is searched in the order of the document, and a layout pass
of it goes the same way.
-/

namespace PanelLayout

namespace Document

variable {settings : Settings} {v : Json} {order : List Nat} {es : List Element} {loaded : Element}

theorem location_of_isChild {i : Nat} {e : Element} (h : IsChild settings v i e) :
    e.component.location = (cellAt v i).map fun l => .ofInts l.1 l.2 := by
  obtain ⟨u, c, hu, -, -, -, he⟩ := component_of_isChild h
  rw [he, cellAt, hu, Option.bind_some]

theorem pairwise_leads (hordered : order.Pairwise (Precedes v))
    (hes : List.Forall₂ (IsChild settings v) order es) :
    es.Pairwise Element.Leads := by
  rw [List.pairwise_iff_getElem] at hordered ⊢
  intro i j hi hj hij
  have hi' : i < order.length := hes.length_eq ▸ hi
  have hj' : j < order.length := hes.length_eq ▸ hj
  have hprecedes := hordered i j hi' hj' hij
  have hleft := location_of_isChild (hes.get hi' hi)
  have hright := location_of_isChild (hes.get hj' hj)
  simp only [List.get_eq_getElem] at hleft hright
  unfold Precedes at hprecedes
  unfold Element.Leads
  rw [hleft, hright]
  cases hcell : cellAt v order[i] with
  | none =>
    cases hcell' : cellAt v order[j] with
    | none => trivial
    | some cell' => simp [hcell, hcell'] at hprecedes
  | some cell =>
    cases hcell' : cellAt v order[j] with
    | none => trivial
    | some cell' =>
      simp only [hcell, hcell'] at hprecedes
      simp only [Option.map_some, Element.paintedFirst_ofInts, decide_eq_false_iff_not]
      omega

theorem load_fixed (h : (load settings v).result = .ok loaded) (cell : Option (Int × Int)) :
    (loaded.inCell cell).component.settings = settings ∧
    (loaded.inCell cell).children.Pairwise Element.Leads := by
  obtain ⟨node, c, rfl, hc, hkind⟩ := load_eq_ok h
  obtain ⟨hfree, -⟩ := componentOf_fixed hc
  obtain ⟨-, hsettings⟩ := componentOf_given hc
  rcases hkind with ⟨-, rfl⟩ | ⟨-, shape, order, es, -, hordered, -, hes, rfl⟩
  · rw [Element.inCell_leaf hfree]
    exact ⟨hsettings, .nil⟩
  · rw [Element.inCell_panel hfree]
    exact ⟨hsettings, pairwise_leads hordered hes⟩

/-- The root and all that it holds have the settings of the document, and hold their children in the
order of painting. -/
theorem descendants_fixed {root : Element} (h : (load settings v).result = .ok root) :
    ∀ d ∈ root :: root.descendants, d.component.settings = settings ∧
    d.children.Pairwise Element.Leads := by
  have hfree : root = root.inCell none := rfl
  obtain ⟨order, -, paths, -, -, hloaded⟩ := descendants_loadedFrom root h hfree
  intro d hd
  rcases List.mem_cons.mp hd with rfl | hd
  · exact load_fixed h none
  · obtain ⟨i, hi, rfl⟩ := List.getElem_of_mem hd
    have hi' : i < paths.length := hloaded.length_eq ▸ hi
    obtain ⟨u, loaded, -, hu, he⟩ := hloaded.get hi' hi
    rw [List.get_eq_getElem] at he
    rw [he]
    exact load_fixed hu (cell? u)

end Document

namespace Scene

open Document

variable {s : Scene}

def IsNodeAt (settings : Settings) (v : Json) (s : Scene) (path : List Nat) (key : Key) : Prop :=
  ∃ node c, nodeAt? v path = some (.object node) ∧ componentOf settings node = .ok c ∧
    s.component key = { c with location := placeAt v path } ∧ s.isPanel key = Document.isPanel node

theorem IsNodeAt.name_eq {settings : Settings} {v : Json} {path : List Nat} {key : Key}
    {node : Members} (h : s.IsNodeAt settings v path key)
    (hnode : nodeAt? v path = some (.object node)) :
    (s.component key).name = value node "name" := by
  obtain ⟨node', c, hnode', hc, hcomponent, -⟩ := h
  obtain rfl := Json.object.inj (Option.some.inj (hnode.symm.trans hnode'))
  rw [hcomponent]
  exact (componentOf_given hc).1

theorem map_find?_of_forall₂ {α : Type} {f : α → Component} {keys : List Key} {xs : List α}
    (h : List.Forall₂ (fun k x => f x = s.component k) keys xs) (name : Json) :
    (keys.find? fun k => (s.component k).name.equals name).map s.component =
      (xs.find? fun x => (f x).name.equals name).map f := by
  induction h with
  | nil => rfl
  | @cons k x keys xs hx _ ih =>
    rw [List.find?_cons, List.find?_cons, hx]
    cases (s.component k).name.equals name with
    | true => exact congrArg some hx.symm
    | false => exact ih

section Loaded

variable {settings : Settings} {v : Json} {root : Element} {settingsKey key : Key} {keys : List Key}
    {paths : List (List Nat)}

/-- A loaded panel that is put into a scene is stored there, with its descendants in their order. -/
theorem insert_of_load (h : (load settings v).result = .ok root)
    (hkey : s.settings[settingsKey]? = some settings) :
    let inserted := s.insert settingsKey root
    inserted.2.Stores s.nodes.size inserted.1 root ∧ inserted.1 < inserted.2.nodes.size ∧
      inserted.2.Enumerates s.nodes.size inserted.1 (inserted.2.descendants inserted.1)
        root.descendants := by
  intro inserted
  have hfixed := descendants_fixed h
  obtain ⟨-, hsize, hstores⟩ := insert_stores root hkey fun d hd => (hfixed d hd).1
  have hlast : inserted.1 < inserted.2.nodes.size := hsize ▸ Nat.lt_succ_self inserted.1
  exact ⟨hstores, hlast, hstores.enumerates (fun d hd => (hfixed d hd).2) (Nat.lt_succ_of_lt hlast)⟩

theorem exists_paths (h : (load settings v).result = .ok root)
    (hkeys : List.Forall₂ s.IsElementAt keys root.descendants) :
    ∃ paths : List (List Nat), paths.Pairwise (Before v) ∧
    (∀ path, path ∈ paths ↔ path ≠ [] ∧ KeptAt v path) ∧
      List.Forall₂ (s.IsNodeAt settings v) paths keys := by
  have hfree : root = root.inCell none := rfl
  obtain ⟨order, hkept, paths, hordered, hmem, hloaded⟩ := descendants_loadedFrom root h hfree
  have hpaths : ∀ path, path ∈ paths ↔ path ≠ [] ∧ KeptAt v path := fun path =>
    (hmem path).trans (exists_cons_keptAt hkept)
  have helements : List.Forall₂ (fun e k => s.IsElementAt k e) root.descendants keys := hkeys.flip
  refine ⟨paths, hordered, hpaths, forall₂_trans hloaded helements fun path hpath e k he hk => ?_⟩
  obtain ⟨node, c, hnode, hc, hcomponent, hpanel⟩ := he.component_eq ((hpaths path).mp hpath).1
  exact ⟨node, c, hnode, hc, hk.1.trans hcomponent, hk.2.trans hpanel⟩

theorem find?_eq_none_iff (hpaths : ∀ path, path ∈ paths ↔ path ≠ [] ∧ KeptAt v path)
    (hnodes : List.Forall₂ (s.IsNodeAt settings v) paths keys) (name : Json) :
    (keys.find? fun k => (s.component k).name.equals name) = none ↔ ∀ path node, path ≠ [] →
    KeptAt v path →
      nodeAt? v path = some (.object node) → (value node "name").equals name = false := by
  rw [List.find?_eq_none]
  constructor
  · intro hnone path node hpath hat hnode
    obtain ⟨i, hi, rfl⟩ := List.getElem_of_mem ((hpaths path).mpr ⟨hpath, hat⟩)
    have hi' := hnodes.length_eq ▸ hi
    rw [← (hnodes.get hi hi').name_eq hnode]
    simpa using hnone _ (List.getElem_mem hi')
  · intro hnone k hk
    obtain ⟨i, hi, rfl⟩ := List.getElem_of_mem hk
    have hi' : i < paths.length := hnodes.length_eq ▸ hi
    have hat : s.IsNodeAt settings v paths[i] keys[i] := hnodes.get hi' hi
    obtain ⟨hpath, hkept⟩ := (hpaths paths[i]).mp (List.getElem_mem hi')
    obtain ⟨node, -, hnode, -⟩ := id hat
    rw [hat.name_eq hnode, hnone paths[i] node hpath hkept hnode]
    exact Bool.false_ne_true

theorem layout_of_elements {container : Rectangle} {ps : List Placement}
    (hroot : s.IsElementAt key root) (hkeys : List.Forall₂ s.IsElementAt keys root.descendants)
    (hvisible : ∀ e ∈ root.descendants, e.component.visible = true)
    (h : (root.layout container).result = .ok ps) :
    ∃ first rest, ps = first :: rest ∧ s.IsPlacementOf key first ∧
    List.Forall₂ s.IsPlacementOf keys rest := by
  obtain ⟨rect, -, hplace⟩ := Report.result_bind_eq_ok_iff.mp h
  cases Element.place_descendants hvisible hplace with
  | @cons _ first _ rest hfirst hrest =>
    refine ⟨first, rest, rfl, ⟨hfirst.1.trans hroot.1.symm, hfirst.2.trans hroot.2.symm⟩, ?_⟩
    exact forall₂_trans hkeys hrest fun k _ e p hk hp =>
      ⟨hp.1.trans hk.1.symm, hp.2.trans hk.2.symm⟩

end Loaded

/-- Search and layout go through a loaded panel in the same order. The panel is put into any scene.
Then below its key there are the nodes of the document that are kept, visible or not, each under a
key of its own and in the order of the document, and a search gives the first of them that has the
name, as a search of the tree does, or nothing if none has. If all of them are visible, a layout
pass of the scene lists them in this order after the root, so that a search gives the component of
the first placement after the root that has the name. -/
theorem find?_of_loadPanel {v : Json} {settings : Settings} {root : Element} {settingsKey : Key}
    (hload : (loadPanel v settings).result = .ok root)
    (hkey : s.settings[settingsKey]? = some settings) :
    let key := (s.insert settingsKey root).1
    let s' := (s.insert settingsKey root).2
    ∃ (paths : List (List Nat)) (keys : List Key), paths.Pairwise (Before v) ∧
      (∀ path, path ∈ paths ↔ path ≠ [] ∧ KeptAt v path) ∧ (key :: keys).Nodup ∧
      List.Forall₂ (s'.IsNodeAt settings v) paths keys ∧
      (∀ name, s'.find? name key = keys.find? fun k => (s'.component k).name.equals name) ∧
      (∀ name, (s'.find? name key).map s'.component = (root.find? name).map Element.component) ∧
      (∀ name, s'.find? name key = none ↔ ∀ path node, path ≠ [] → KeptAt v path →
        nodeAt? v path = some (.object node) → (value node "name").equals name = false) ∧
      ((∀ e ∈ root.descendants, e.component.visible = true) → s'.element key = .ok root ∧
        ∀ container ps, (root.layout container).result = .ok ps →
          ∃ first rest, ps = first :: rest ∧ s'.IsPlacementOf key first ∧
          List.Forall₂ s'.IsPlacementOf keys rest ∧
            ∀ name, (s'.find? name key).map s'.component =
              (rest.find? (·.component.name.equals name)).map (·.component)) := by
  intro key s'
  have hroot := load_of_loadPanel hload
  obtain ⟨hstores, hlast, helements, hnodup, hbounds⟩ := insert_of_load hroot hkey
  obtain ⟨paths, hordered, hpaths, hnodes⟩ := exists_paths hroot helements
  refine ⟨paths, s'.descendants key, hordered, hpaths, ?_, hnodes, fun name => s'.find?_eq name key,
    fun name => ?_, fun name => ?_, fun hvisible => ⟨?_, fun container ps hlayout => ?_⟩⟩
  · exact List.nodup_cons.mpr ⟨fun hmem => Nat.lt_irrefl _ (hbounds key hmem).2, hnodup⟩
  · rw [s'.find?_eq, Element.find?_eq]
    exact map_find?_of_forall₂ (helements.imp fun _ _ h => h.1.symm) name
  · rw [s'.find?_eq]
    exact find?_eq_none_iff hpaths hnodes name
  · exact hstores.elementWithin_eq (fun d hd => (descendants_fixed hroot d hd).2) hvisible
      (Nat.lt_succ_of_lt hlast)
  · obtain ⟨first, rest, rfl, hfirst, hrest⟩ :=
      layout_of_elements ⟨hstores.component_eq, hstores.isPanel_eq⟩ helements hvisible hlayout
    refine ⟨first, rest, rfl, hfirst, hrest, fun name => ?_⟩
    rw [s'.find?_eq]
    exact map_find?_of_forall₂ (hrest.imp fun _ _ h => h.1) name

/-- A free child, and a panel in a cell that holds a child of the same name. -/
def knobs : Json := .object [("children", .array [
  .object [("name", .text "knob"), ("width", .text "30")],
  .object [("column", .number (.int 0)), ("children", .array [
    .object [("name", .text "knob"), ("height", .text "10")]])]])]

/-- The child in the panel is found, since cells come before what is free. -/
theorem find?_of_knobs :
    ∃ root ps, (loadPanel knobs).result = .ok root ∧
    (root.layout (.ofInts 0 0 100 40)).result = .ok ps ∧
      ps.map (fun p => (p.component.name.equals (.text "knob"), p.rect)) =
        [(false, .ofInts 0 0 100 40), (false, .ofInts 0 0 100 40), (true, .ofInts 0 0 100 10),
          (true, .ofInts 0 0 30 40)] ∧
      let key := (({ settings := #[{}] } : Scene).insert 0 root).1
      let s' := (({ settings := #[{}] } : Scene).insert 0 root).2
      (s'.find? (.text "knob") key).map s'.component = ps[2]?.map (·.component) := by
  have h : ((loadPanel knobs).result.toOption.bind fun root =>
      if root.descendants.all (·.component.visible)
        then (root.layout (.ofInts 0 0 100 40)).result.toOption
      else none).map (List.map fun p => (p.component.name.equals (.text "knob"), p.rect)) =
      some [(false, .ofInts 0 0 100 40), (false, .ofInts 0 0 100 40), (true, .ofInts 0 0 100 10),
        (true, .ofInts 0 0 30 40)] := by decide +kernel
  obtain ⟨ps, hps, hshown⟩ := Option.map_eq_some_iff.mp h
  obtain ⟨root, hroot, hlayout⟩ := Option.bind_eq_some_iff.mp hps
  obtain ⟨hvisible, hlayout⟩ := Option.ite_none_right_eq_some.mp hlayout
  rw [toOption_eq_some_iff] at hroot hlayout
  have hkey : ({ settings := #[{}] } : Scene).settings[0]? = some ({} : Settings) := rfl
  obtain ⟨_, _, -, -, -, -, -, -, -, hpass⟩ := find?_of_loadPanel hroot hkey
  obtain ⟨-, hpass⟩ := hpass (by simpa using hvisible)
  obtain ⟨first, rest, rfl, -, -, hfound⟩ := hpass _ ps hlayout
  refine ⟨root, _, hroot, hlayout, hshown, (hfound (.text "knob")).trans ?_⟩
  obtain ⟨-, hrest⟩ := List.cons.inj hshown
  obtain ⟨panel, rest, rfl, hpanel, hrest⟩ := List.map_eq_cons_iff.mp hrest
  obtain ⟨inner, rest, rfl, hinner, -⟩ := List.map_eq_cons_iff.mp hrest
  simp [(Prod.mk.inj hpanel).1, (Prod.mk.inj hinner).1]

end Scene

end PanelLayout
