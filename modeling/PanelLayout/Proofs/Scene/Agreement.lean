import PanelLayout.Proofs.Scene.Calls
import PanelLayout.Proofs.Scene.Passes

/-!
# Cells and recorded locations

A panel finds a component in a cell if and only if the component recorded the location of that cell.
Calls on the panel keep it so, as long as they name cells of the grid.
-/

namespace PanelLayout

namespace Scene

variable {s t : Scene} {panel key child : Key} {c : Call} {components : List Key} {l : Location}

def Call.NamesCell : Call → Prop
  | .addToGrid _ l => ∃ column row, l.IsWhole column row ∧ 0 ≤ column ∧ 0 ≤ row
  | _ => True

theorem Call.NamesCell.isNegative (h : (Call.addToGrid child l).NamesCell) :
    l.isNegative = false := by
  obtain ⟨column, row, hl, hcolumn, hrow⟩ := h
  rw [hl.isNegative, decide_eq_false_iff_not]
  omega

theorem Call.NamesCell.equals_self (h : (Call.addToGrid child l).NamesCell) :
    l.equals l = true := by
  obtain ⟨column, row, hl, -⟩ := h
  exact hl.equals_self

/-- Whether a panel holds nothing but some components, and has in its cells just those that recorded
a location, each in the cell that it recorded. -/
structure Agrees (s : Scene) (panel : Key) (components : List Key) : Prop where
  orderly : (s.panel panel).grid.IsOrderly
  held : ∀ e ∈ (s.panel panel).grid.entries, e.2 ∈ components ∧ ∃ l, s.location e.2 = some l ∧
    e.1.equals l = true
  recorded : ∀ key ∈ components, ∀ l, s.location key = some l →
    ∃ e ∈ (s.panel panel).grid.entries, e.1.equals l = true ∧ e.2 = key
  free : ∀ key ∈ (s.panel panel).free, key ∈ components

theorem Agrees.start (hempty : (s.panel panel).grid.entries = [])
    (hfree : ∀ key ∈ (s.panel panel).free, key ∈ components)
    (hnone : ∀ key ∈ components, s.location key = none) : s.Agrees panel components where
  orderly := .empty hempty
  held := by simp [hempty]
  recorded := by
    intro key hkey l hl
    simp [hnone key hkey] at hl
  free := hfree

/-- A component that goes to a cell leaves its own one, and what was there before has no location
any more. -/
theorem Agrees.placed (h : s.Agrees panel components) (hin : ∀ key ∈ components, key < s.nodes.size)
    (hchild : child ∈ components) (hc : (Call.addToGrid child l).NamesCell)
    (hgrid : (t.panel panel).grid = ((s.panel panel).grid.without child).put l child)
    (hfree : (t.panel panel).free = (s.panel panel).free) (hself : t.location child = some l)
    (hother : ∀ key, key ≠ child → t.location key = (s.displaced panel child l).location key) :
    t.Agrees panel components := by
  constructor
  case orderly =>
    rw [hgrid]
    exact (h.orderly.without child).put Grid.notMem_clients_without hc.isNegative
  case held =>
    intro e he
    rw [hgrid] at he
    rcases Grid.mem_entries_put.mp he with ⟨hleft, hequal⟩ | ⟨hclient, hcell⟩
    · obtain ⟨hold, hne⟩ := Grid.mem_entries_without.mp hleft
      have hkept : (s.panel panel).grid.at? l ≠ some e.2 := by
        intro hat
        obtain ⟨d, hd, hdl, hde⟩ := h.orderly.at?_eq_some_iff.mp hat
        rw [h.orderly.eq_of_client hd hold hde, hequal] at hdl
        cases hdl
      rw [hother e.2 hne, location_displaced hkept]
      exact h.held e hold
    · rw [hclient, hself]
      refine ⟨hchild, l, rfl, ?_⟩
      rcases hcell with ⟨-, heq⟩ | ⟨d, -, heq, hequal⟩
      · exact heq ▸ hc.equals_self
      · exact heq ▸ hequal
  case recorded =>
    intro key hkey l' hl'
    rw [hgrid]
    by_cases hne : key = child
    · subst hne
      obtain rfl := Option.some.inj (hself.symm.trans hl')
      obtain ⟨e, he, hclient, hequal⟩ :=
        ((s.panel panel).grid.without key).exists_mem_entries_put hc.equals_self key
      exact ⟨e, he, hequal, hclient⟩
    · rw [hother key hne] at hl'
      have hkept : (s.panel panel).grid.at? l ≠ some key := by
        intro hat
        rw [location_displaced_of_at? hat hne (hin key hkey)] at hl'
        cases hl'
      rw [location_displaced hkept] at hl'
      obtain ⟨e, he, hequal, hclient⟩ := h.recorded key hkey l' hl'
      have hapart : e.1.equals l = false := by
        by_contra hcell
        exact hkept (h.orderly.at?_eq_some_iff.mpr ⟨e, he, Bool.not_eq_false _ ▸ hcell, hclient⟩)
      have hleft : e ∈ ((s.panel panel).grid.without child).entries :=
        Grid.mem_entries_without.mpr ⟨he, hclient ▸ hne⟩
      exact ⟨e, Grid.mem_entries_put.mpr (.inl ⟨hleft, hapart⟩), hequal, hclient⟩
  case free =>
    rw [hfree]
    exact h.free

theorem Agrees.withdrawn (h : s.Agrees panel components) (child : Key)
    (hentries : (t.panel panel).grid.entries = ((s.panel panel).grid.without child).entries)
    (hfree : (t.panel panel).free = (s.panel panel).free) (hself : t.location child = none)
    (hother : ∀ key, key ≠ child → t.location key = s.location key) :
    t.Agrees panel components := by
  constructor
  case orderly => exact h.orderly.sublist (hentries ▸ List.filter_sublist)
  case held =>
    intro e he
    rw [hentries] at he
    obtain ⟨hold, hne⟩ := Grid.mem_entries_without.mp he
    rw [hother e.2 hne]
    exact h.held e hold
  case recorded =>
    intro key hkey l hl
    have hne : key ≠ child := by
      intro heq
      simp [heq, hself] at hl
    rw [hother key hne] at hl
    obtain ⟨e, he, hequal, hclient⟩ := h.recorded key hkey l hl
    rw [hentries]
    exact ⟨e, Grid.mem_entries_without.mpr ⟨he, hclient ▸ hne⟩, hequal, hclient⟩
  case free =>
    rw [hfree]
    exact h.free

theorem Agrees.withFree (h : s.Agrees panel components) (hpanel : panel < s.nodes.size)
    {free : List Key} (hfree : ∀ key ∈ free, key ∈ components) :
    (s.withFree panel free).Agrees panel components := by
  refine ⟨by simpa using h.orderly, by simpa using h.held, by simpa using h.recorded, ?_⟩
  simpa [panel_withFree, hpanel] using hfree

theorem Outcome.agrees (h : Outcome s panel c t) (hpanel : panel < s.nodes.size)
    (hin : ∀ key ∈ components, key < s.nodes.size) (hchild : c.child ∈ components)
    (hc : c.NamesCell) (hs : s.Agrees panel components) : t.Agrees panel components := by
  cases h with
  | same => exact hs
  | added hlocation hnew =>
    apply hs.withFree hpanel
    intro key hkey
    rcases List.mem_append.mp hkey with hkey | hkey
    · exact hs.free key hkey
    · rwa [List.mem_singleton.mp hkey]
  | @placed child l hl =>
    change child ∈ components at hchild
    apply hs.placed hin hchild hc
    · simp [panel_withGrid, hpanel]
    · simp [panel_withGrid, hpanel]
    · simp [location_setLocation, hin child hchild]
    · intro key hne
      simp [location_setLocation, hne.symm]
  | refused hl =>
    rw [hc.isNegative] at hl
    cases hl
  | @withdrawn child l e resize hlocation he hentry =>
    change child ∈ components at hchild
    apply hs.withdrawn child
    · simp [panel_withGrid, hpanel, hs.orderly.entries_withdraw he hentry resize]
    · simp [panel_withGrid, hpanel]
    · simp [location_setLocation, hin child hchild]
    · intro key hne
      simp [location_setLocation, hne.symm]
  | dropped hlocation hfree =>
    apply hs.withFree hpanel
    intro key hkey
    exact hs.free key (List.mem_of_mem_erase hkey)

theorem run_agrees {calls : List (Key × Call)} (hpanel : panel < s.nodes.size)
    (hin : ∀ key ∈ components, key < s.nodes.size)
    (hcalls : ∀ c ∈ calls, c.1 = panel ∧ c.2.child ∈ components ∧ c.2.NamesCell)
    (h : s.Agrees panel components) :
    (s.run calls).Agrees panel components ∧ (s.run calls).nodes.size = s.nodes.size := by
  apply run_induction (fun t => t.Agrees panel components ∧ t.nodes.size = s.nodes.size) ⟨h, rfl⟩
    (throughout_of_forall (fun _ => hcalls) s)
  intro t c ht hc
  obtain ⟨rfl, hchild, hcell⟩ := hc
  have hcall := call_outcome ht.1.orderly c.2
  exact ⟨hcall.agrees (ht.2 ▸ hpanel) (ht.2 ▸ hin) hchild hcell ht.1, hcall.size_eq.trans ht.2⟩

theorem Agrees.at?_eq_some_iff (h : s.Agrees panel components) (hkey : key ∈ components) :
    (s.panel panel).grid.at? l = some key ↔ ∃ held, s.location key = some held ∧
    held.equals l = true := by
  rw [h.orderly.at?_eq_some_iff]
  constructor
  · intro hat
    obtain ⟨e, he, hequal, rfl⟩ := hat
    obtain ⟨-, held, hheld, hsame⟩ := h.held e he
    rw [Location.equals_comm] at hsame
    exact ⟨held, hheld, Location.equals_trans hsame hequal⟩
  · intro hlocation
    obtain ⟨held, hheld, hequal⟩ := hlocation
    obtain ⟨e, he, hsame, hclient⟩ := h.recorded key hkey held hheld
    exact ⟨e, he, Location.equals_trans hsame hequal, hclient⟩

theorem Agrees.holds (h : s.Agrees panel components) (hkey : key ∈ components)
    (hl : s.location key = some l) :
    (s.panel panel).grid.holds key l = true := by
  obtain ⟨e, he, hequal, hclient⟩ := h.recorded key hkey l hl
  exact List.any_eq_true.mpr ⟨e, he, Grid.isEntryOf_iff.mpr ⟨.inr hequal, hclient⟩⟩

theorem Agrees.mem_components (h : s.Agrees panel components) (hkey : key ∈ s.children panel) :
    key ∈ components := by
  rcases mem_children.mp hkey with hcell | hfree
  · obtain ⟨e, he, rfl⟩ := List.mem_map.mp hcell
    exact (h.held e he).1
  · exact h.free key hfree

theorem Agrees.isLaidOut (h : s.Agrees panel components) (hkey : key ∈ s.children panel) :
    s.isLaidOut panel key = (s.component key).visible := by
  rw [Scene.isLaidOut, location_component]
  cases hl : s.location key with
  | none => simp
  | some l => simp [h.holds (h.mem_components hkey) hl]

/-- Whether a placement is that of a component which, if it recorded a location, gets its rectangle
from the grid of a panel that takes a container. -/
def IsResolvedIn (s : Scene) (panel : Key) (container : Rectangle) (key : Key) (p : Placement) :
    Prop :=
  p.component = s.component key ∧ ∀ l, s.location key = some l →
    ((s.panel panel).grid.resolve (s.component panel).registry
      (s.component panel).settings.gridRounding key (some l)
      container).result = .ok (some p.rect)

private theorem isResolvedIn_of_isChildPlacement {n : Nat} {container : Rectangle} {e : Element}
    {p : Placement}
    (hholds : ∀ l, s.location key = some l → (s.panel panel).grid.holds key l = true)
    (he : elementWithin n s key = .ok e)
    (hp : e.IsChildPlacement (s.component panel) (s.panel panel).grid.toGridShape container p) :
    s.IsResolvedIn panel container key p := by
  obtain ⟨hcomponent, hrect⟩ := hp
  have hsame := component_of_elementWithin he
  refine ⟨hcomponent.trans hsame, fun l hl => ?_⟩
  have hgridded : e.component.location = some l := by rw [hsame, location_component, hl]
  rw [Element.childRect, hgridded] at hrect
  obtain ⟨rect, hcell, hrender⟩ := Report.result_bind_eq_ok_iff.mp hrect
  rw [Component.renderRect, hgridded, Option.isSome_some, if_pos rfl] at hrender
  obtain rfl := Except.ok.inj hrender
  rw [Grid.resolve, hholds l hl]
  exact Report.result_bind_eq_ok_iff.mpr ⟨_, hcell, rfl⟩

theorem Agrees.layout_children (h : s.Agrees panel components) {root : Element}
    {container : Rectangle} {ps : List Placement} (hroot : s.element panel = .ok root)
    (hlayout : (root.layout container).result = .ok ps) :
    ∃ rect, ((s.component panel).renderRect container).result = .ok rect ∧
      List.Forall₂ (s.IsResolvedIn panel rect) ((s.children panel).filter fun key =>
        (s.component key).visible) (ps.filter (·.depth == 1)) := by
  have hshown : (s.children panel).filter (s.isLaidOut panel) =
      (s.children panel).filter fun key => (s.component key).visible :=
    List.filter_congr fun key hkey => h.isLaidOut hkey
  cases hp : (s.node panel).panel with
  | none =>
    rw [element, elementWithin_leaf hp] at hroot
    obtain rfl := Except.ok.inj hroot
    obtain ⟨rect, hrect, hlayout⟩ := Report.result_bind_eq_ok_iff.mp hlayout
    obtain rfl := Except.ok.inj hlayout
    rw [children_of_none hp]
    exact ⟨rect, hrect, .nil⟩
  | some p =>
    obtain ⟨es, hes, rfl⟩ := (elementWithin_panel hp).mp hroot
    obtain ⟨rect, hrect, hlevel⟩ := Element.layout_level_one hlayout
    refine ⟨rect, hrect, ?_⟩
    have hpanel : s.panel panel = p := by rw [Scene.panel, hp, Option.getD_some]
    rw [hshown] at hes
    have hvisible : ∀ e ∈ es, e.component.visible = true := by
      intro e he
      obtain ⟨i, hi, rfl⟩ := List.getElem_of_mem he
      have hi' := hes.length_eq.symm ▸ hi
      have hcomponent := component_of_elementWithin (hes.get hi' hi)
      rw [List.get_eq_getElem, List.get_eq_getElem] at hcomponent
      rw [hcomponent]
      exact (List.mem_filter.mp (List.getElem_mem hi')).2
    rw [List.filter_eq_self.mpr hvisible] at hlevel
    apply forall₂_trans hes hlevel
    intro key hkey e p' he hchild
    have hmem := h.mem_components (List.mem_filter.mp hkey).1
    rw [← hpanel] at hchild
    exact isResolvedIn_of_isChildPlacement (fun l => h.holds hmem) he hchild

/-- After any calls on a panel that started with an empty grid, about components that had no
location, a cell holds a component if and only if the component recorded the location of the cell,
and no component sits in two cells. What is displaced from a cell or removed has no location any
more. A layout pass that succeeds lists all visible children of the panel right below it, and every
one that recorded a location in the rectangle that the grid resolves for it. -/
theorem run_agrees_with_locations (calls : List (Key × Call)) (panel : Key) (components : List Key)
    (hpanel : panel < s.nodes.size) (hempty : (s.panel panel).grid.entries = [])
    (hfree : ∀ key ∈ (s.panel panel).free, key ∈ components)
    (hcomponents : ∀ key ∈ components, key < s.nodes.size ∧ s.location key = none)
    (hcalls : ∀ c ∈ calls, c.1 = panel ∧ c.2.child ∈ components ∧ c.2.NamesCell) :
    let t := s.run calls
    (∀ key ∈ components, ∀ l, (t.panel panel).grid.at? l = some key ↔
        ∃ held, t.location key = some held ∧ held.equals l = true) ∧
      (t.panel panel).grid.clients.Nodup ∧
      (∀ child ∈ components, ∀ l, (Call.addToGrid child l).NamesCell →
        ∀ old, (t.panel panel).grid.at? l = some old →
        old ≠ child → (t.addToGrid panel child l).2.location old = none) ∧
      (∀ child ∈ components, ∀ resize, (t.remove panel child resize).1 = true →
        (t.remove panel child resize).2.location child = none) ∧
      ∀ root container ps, t.element panel = .ok root → (root.layout container).result = .ok ps →
        ∃ rect, ((t.component panel).renderRect container).result = .ok rect ∧
          List.Forall₂ (t.IsResolvedIn panel rect) ((t.children panel).filter fun key =>
            (t.component key).visible)
            (ps.filter (·.depth == 1)) := by
  intro t
  have hin : ∀ key ∈ components, key < s.nodes.size := fun key hkey => (hcomponents key hkey).1
  obtain ⟨h, hsize⟩ :=
    run_agrees hpanel hin hcalls (.start hempty hfree fun key hkey => (hcomponents key hkey).2)
  change t.Agrees panel components at h
  refine ⟨?_, h.orderly.distinct, ?_, ?_, ?_⟩
  · intro key hkey l
    exact h.at?_eq_some_iff hkey
  · intro child hchild l hl old hold hne
    have hheld : old ∈ components := by
      obtain ⟨e, he, -, rfl⟩ := Grid.exists_of_at?_eq_some hold
      exact (h.held e he).1
    rw [addToGrid_of_not_isNegative h.orderly child hl.isNegative, location_setLocation,
      if_neg (fun heq => hne heq.1.symm), location_withGrid]
    exact location_displaced_of_at? hold hne (hsize ▸ hin old hheld)
  · intro child hchild resize
    rw [remove_eq]
    cases hl : t.location child with
    | some l =>
      simp [h.holds hchild hl, location_setLocation, show child < t.nodes.size
        from hsize ▸ hin child hchild]
    | none => by_cases hmem : child ∈ (t.panel panel).free <;> simp [hmem, hl]
  · intro root container ps hroot hlayout
    exact h.layout_children hroot hlayout

/-- A component that is displaced from the first cell, by one that then moves to the second cell. -/
theorem run_agrees_with_locations_after_move :
    let t := (fresh 2).run
      [(0, .addToGrid 1 (.ofInts 0 0)), (0, .addToGrid 2 (.ofInts 0 0)),
        (0, .addToGrid 2 (.ofInts 1 0))]
    (t.panel 0).grid.at? (.ofInts 1 0) = some 2 ∧ (t.panel 0).grid.at? (.ofInts 0 0) ≠ some 2 ∧
      t.location 1 = none ∧
      ∃ root ps, t.element 0 = .ok root ∧ (root.layout (.ofInts 0 0 60 20)).result = .ok ps ∧
        (ps.filter (·.depth == 1)).map (·.rect) = [.ofInts 30 0 30 20] ∧
        List.Forall₂ (t.IsResolvedIn 0 (.ofInts 0 0 60 20)) [2] (ps.filter (·.depth == 1)) := by
  intro t
  have hcalls : ∀ c ∈ [((0 : Key), Call.addToGrid 1 (.ofInts 0 0)), (0, .addToGrid 2 (.ofInts 0 0)),
      (0, .addToGrid 2 (.ofInts 1 0))], c.1 = 0 ∧ c.2.child ∈ [1, 2] ∧ c.2.NamesCell := by
    simp only [List.forall_mem_cons, List.not_mem_nil, false_implies, implies_true,
      and_true, true_and]
    exact ⟨⟨by decide, 0, 0, ⟨rfl, rfl⟩, by decide⟩, ⟨by decide, 0, 0, ⟨rfl, rfl⟩, by decide⟩,
      ⟨by decide, 1, 0, ⟨rfl, rfl⟩, by decide⟩⟩
  obtain ⟨hcell, -, -, -, hlayout⟩ :=
    run_agrees_with_locations (s := fresh 2) _ 0 [1, 2] (by decide) (by simp) (by simp) (by
      decide) hcalls
  have hheld : t.location 2 = some (.ofInts 1 0) := by decide
  refine ⟨(hcell 2 (by decide) _).mpr ⟨_, hheld, rfl⟩, fun hat => ?_, by decide, ?_⟩
  · obtain ⟨l, hl, hequal⟩ := (hcell 2 (by decide) _).mp hat
    obtain rfl := Option.some.inj (hheld.symm.trans hl)
    cases hequal
  · have hsome : ((t.element 0).toOption.bind fun root =>
      (root.layout (.ofInts 0 0 60 20)).result.toOption).map
        (fun ps => (ps.filter (·.depth == 1)).map (·.rect)) = some [.ofInts 30 0 30 20] := by
          decide +kernel
    obtain ⟨ps, hps, hrects⟩ := Option.map_eq_some_iff.mp hsome
    obtain ⟨root, hroot, hplaced⟩ := Option.bind_eq_some_iff.mp hps
    rw [toOption_eq_some_iff] at hroot hplaced
    obtain ⟨rect, hrect, hresolved⟩ := hlayout root _ ps hroot hplaced
    have hwhole : ((t.component 0).renderRect (.ofInts 0 0 60 20)).result =
        .ok (.ofInts 0 0 60 20) :=
      toOption_eq_some_iff.mp (by decide +kernel)
    have hshown : (t.children 0).filter (fun key => (t.component key).visible) = [2] := by
      decide +kernel
    obtain rfl := Except.ok.inj (hwhole.symm.trans hrect)
    exact ⟨root, ps, hroot, hplaced, hrects, hshown ▸ hresolved⟩

end Scene

end PanelLayout
