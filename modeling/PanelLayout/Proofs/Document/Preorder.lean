import PanelLayout.Proofs.Document.Enumeration
import PanelLayout.Proofs.Placement.Descendants

/-!
# Descendants of a loaded panel

What a loaded panel holds are the nodes below its own node that are kept, visible or not, in the
order of the document: cells row by row, then the free children, and each child before what it
holds.
-/

namespace PanelLayout

namespace Document

variable {settings : Settings}

theorem load_of_loadPanel {v : Json} {root : Element}
    (h : (loadPanel v settings).result = .ok root) :
    (load settings v).result = .ok root := by
  obtain ⟨e, he, hroot⟩ := Report.result_bind_eq_ok_iff.mp h
  split at hroot
  · exact he.trans hroot
  · cases hroot

/-- Whether the node at a path exists in the end: whether it and all nodes around it below the root
are kept. -/
inductive KeptAt : Json → List Nat → Prop
  | root (v : Json) : KeptAt v []
  | child {v u : Json} {i : Nat} {path : List Nat} :
      (items v)[i]? = some u → IsKept v i → KeptAt u path → KeptAt v (i :: path)

theorem keptAt_child_iff {v u : Json} {i : Nat} {path : List Nat} (hu : (items v)[i]? = some u)
    (hkept : IsKept v i) :
    KeptAt v (i :: path) ↔ KeptAt u path := by
  constructor
  · intro hat
    cases hat with
    | child hw _ hinner =>
      obtain rfl := Option.some.inj (hu.symm.trans hw)
      exact hinner
  · exact .child hu hkept

theorem exists_cons_keptAt {v : Json} {order path : List Nat} (h : ∀ i, IsKept v i → i ∈ order) :
    (∃ i inner, path = i :: inner ∧ i ∈ order ∧ KeptAt v path) ↔ path ≠ [] ∧ KeptAt v path := by
  constructor
  · rintro ⟨i, inner, rfl, -, hat⟩
    exact ⟨List.cons_ne_nil i inner, hat⟩
  · rintro ⟨hpath, hat⟩
    cases hat with
    | root => exact absurd rfl hpath
    | @child _ u i inner hu hkept hinner => exact ⟨i, inner, rfl, h i hkept, .child hu hkept hinner⟩

def IsLoadedAt (settings : Settings) (v : Json) (path : List Nat) (e : Element) : Prop :=
  ∃ u loaded, nodeAt? v path = some u ∧ (load settings u).result = .ok loaded ∧
    e = loaded.inCell (cell? u)

theorem IsLoadedAt.child {v u : Json} {i : Nat} {path : List Nat} {e : Element}
    (hu : (items v)[i]? = some u) (h : IsLoadedAt settings u path e) :
    IsLoadedAt settings v (i :: path) e := by
  obtain ⟨w, loaded, hw, hloaded, he⟩ := h
  exact ⟨w, loaded, (nodeAt?_cons hu path).trans hw, hloaded, he⟩

theorem IsLoadedAt.component_eq {v : Json} {path : List Nat} {e : Element}
    (h : IsLoadedAt settings v path e) (hpath : path ≠ []) :
    ∃ node c, nodeAt? v path = some (.object node) ∧ componentOf settings node = .ok c ∧
      e.component = { c with location := placeAt v path } ∧ e.isPanel = isPanel node := by
  obtain ⟨u, loaded, hu, hloaded, rfl⟩ := h
  obtain ⟨node, c, rfl, hc, hkind⟩ := load_eq_ok hloaded
  obtain ⟨hfree, -⟩ := componentOf_fixed hc
  refine ⟨node, c, hu, hc, ?_⟩
  rw [placeAt, if_neg hpath, hu, Option.bind_some]
  rcases hkind with ⟨hkind, rfl⟩ | ⟨hkind, shape, order, es, -, -, -, -, rfl⟩
  · rw [Element.inCell_leaf hfree, hkind]
    exact ⟨rfl, rfl⟩
  · rw [Element.inCell_panel hfree, hkind]
    exact ⟨rfl, rfl⟩

def LoadedFrom (settings : Settings) (v : Json) (order : List Nat) (es : List Element) : Prop :=
  ∃ paths : List (List Nat), paths.Pairwise (Before v) ∧
    (∀ path, path ∈ paths ↔ ∃ i inner, path = i :: inner ∧ i ∈ order ∧ KeptAt v path) ∧
    List.Forall₂ (IsLoadedAt settings v) paths es

theorem LoadedFrom.nil {v : Json} : LoadedFrom settings v [] [] := ⟨[], .nil, by simp, .nil⟩

theorem LoadedFrom.cons {v u : Json} {i : Nat} {order inside : List Nat} {e : Element}
    {here later : List Element} (hu : (items v)[i]? = some u) (hkept : IsKept v i)
    (he : IsLoadedAt settings u [] e) (hinside : ∀ j, IsKept u j → j ∈ inside)
    (hhere : LoadedFrom settings u inside here) (hbefore : ∀ j ∈ order, Precedes v i j)
    (hlater : LoadedFrom settings v order later) :
    LoadedFrom settings v (i :: order) (e :: (here ++ later)) := by
  obtain ⟨paths, hordered, hmem, hloaded⟩ := hhere
  obtain ⟨paths', hordered', hmem', hloaded'⟩ := hlater
  have hordered : ([] :: paths).Pairwise (Before u) := by
    refine List.pairwise_cons.mpr ⟨fun path hpath => ?_, hordered⟩
    obtain ⟨j, inner, rfl, -⟩ := (hmem path).mp hpath
    exact .inside u j inner
  have hmem : ∀ path, path ∈ [] :: paths ↔ KeptAt u path := by
    intro path
    rw [List.mem_cons, hmem, exists_cons_keptAt hinside]
    constructor
    · rintro (rfl | ⟨-, hat⟩)
      · exact .root u
      · exact hat
    · exact fun hat => or_iff_not_imp_left.mpr fun hpath => ⟨hpath, hat⟩
  refine ⟨([] :: paths).map (i :: ·) ++ paths', pairwise_before_append hu hordered hordered'
    fun q hq => ?_, fun path => ?_, ?_⟩
  · obtain ⟨j, inner, rfl, hj, -⟩ := (hmem' q).mp hq
    exact ⟨j, inner, rfl, hbefore j hj⟩
  · exact mem_map_cons_append (fun p => (hmem p).trans (keptAt_child_iff hu hkept).symm) hmem'
  · have hinner : List.Forall₂ (IsLoadedAt settings u) ([] :: paths) (e :: here) := .cons he hloaded
    have hchild : List.Forall₂ (IsLoadedAt settings v) (([] :: paths).map (i :: ·))
        (e :: here) := by
      rw [List.forall₂_map_left_iff]
      exact hinner.imp fun _ _ h => h.child hu
    exact List.rel_append hchild hloaded'

-- The recursion is that of the elements, as in a layout pass, but here nothing is left out.
mutual

theorem descendants_loadedFrom :
    ∀ (e : Element) {v : Json} {loaded : Element} {cell : Option (Int × Int)},
    (load settings v).result = .ok loaded → e = loaded.inCell cell →
    ∃ order, (∀ i, IsKept v i → i ∈ order) ∧ LoadedFrom settings v order e.descendants
  | .leaf c, v, loaded, cell, hload, he => by
    obtain ⟨node, c', rfl, hc, hkind⟩ := load_eq_ok hload
    obtain ⟨hfree, -⟩ := componentOf_fixed hc
    rcases hkind with ⟨hleaf, rfl⟩ | ⟨-, shape, order, es, -, -, -, -, rfl⟩
    · refine ⟨[], ?_, .nil⟩
      rintro i ⟨hi, -⟩
      simp [items, hleaf] at hi
    · rw [Element.inCell_panel hfree] at he
      cases he
  | .panel c body es, v, loaded, cell, hload, he => by
    obtain ⟨node, c', rfl, hc, hkind⟩ := load_eq_ok hload
    obtain ⟨hfree, -⟩ := componentOf_fixed hc
    rcases hkind with ⟨-, rfl⟩ | ⟨-, shape, order, es', -, hordered, hkept, hes, rfl⟩
    · rw [Element.inCell_leaf hfree] at he
      cases he
    · rw [Element.inCell_panel hfree, Element.panel.injEq] at he
      obtain ⟨-, -, rfl⟩ := he
      exact ⟨order, fun i => (hkept i).mpr, descendantsIn_loadedFrom es hes hordered
        fun i => (hkept i).mp⟩

theorem descendantsIn_loadedFrom : ∀ (es : List Element) {v : Json} {order : List Nat},
    List.Forall₂ (IsChild settings v) order es → order.Pairwise (Precedes v) →
    (∀ i ∈ order, IsKept v i) → LoadedFrom settings v order (Element.descendantsIn es)
  | [], v, order, hes, hordered, hkept => by
    cases hes
    exact .nil
  | e :: es, v, order, hes, hordered, hkept => by
    cases hes with
    | @cons i _ order _ hchild hes =>
      obtain ⟨u, loaded, hu, hloaded, he⟩ := hchild
      obtain ⟨inside, hinside, hhere⟩ := descendants_loadedFrom e hloaded he
      exact .cons hu (hkept i List.mem_cons_self) ⟨u, loaded, rfl, hloaded, he⟩ hinside hhere
        (List.pairwise_cons.mp hordered).1
        (descendantsIn_loadedFrom es hes hordered.of_cons fun j hj =>
          hkept j (List.mem_cons_of_mem _ hj))

end

end Document

end PanelLayout
