import PanelLayout.Proofs.Document.Range
import PanelLayout.Proofs.Placement.Unresolved

/-!
# Missing variables of a document

All expressions of a document that is loaded keep to the scopes that they are read for. So whether a
layout pass fails for a missing variable is a matter of the document, not of the container.
-/

namespace PanelLayout

theorem Component.IsScoped.withLocation {c : Component} (h : c.IsScoped)
    (location : Option Location) :
    Component.IsScoped { c with location } := ⟨h.sizes, h.positions⟩

theorem Element.IsScoped.inCell {e : Element} (h : e.IsScoped) (cell : Option (Int × Int)) :
    (e.inCell cell).IsScoped := by
  cases cell with
  | none => exact h
  | some l =>
    cases h with
    | leaf h => exact .leaf (h.withLocation _)
    | panel h hshape hes => exact .panel (h.withLocation _) hshape hes

namespace Component

variable {c c' : Component}

theorem IsScoped.setSize {width height : Json} (hc : c.IsScoped)
    (h : c.setSize width height = .ok c') : c'.IsScoped := by
  simp only [Component.setSize, bind_eq_ok_iff] at h
  obtain ⟨w, hw, h', hh, _, -, _, -, h⟩ := h
  obtain rfl := Except.ok.inj h
  refine ⟨?_, hc.positions⟩
  intro e he
  rcases mem_sizes.mp he with he | he
  · exact optionalExpression_isScoped hw e he
  · exact optionalExpression_isScoped hh e he

theorem IsScoped.setPosition {x y : Json} (hc : c.IsScoped) (h : c.setPosition x y = .ok c') :
    c'.IsScoped := by
  simp only [Component.setPosition, bind_eq_ok_iff] at h
  obtain ⟨x, hx, y, hy, _, -, _, -, h⟩ := h
  obtain rfl := Except.ok.inj h
  refine ⟨hc.sizes, ?_⟩
  intro e he
  rcases mem_positions.mp he with he | he
  · exact optionalExpression_isScoped hx e he
  · exact optionalExpression_isScoped hy e he

end Component

namespace Grid

variable {α : Type} {g : Grid α}

private theorem insets_isScoped_iff {g : GridShape} : g.IsScoped ↔
    ((∀ e ∈ g.horizontal.frame, e.IsScoped false) ∧ ∀ e ∈ g.vertical.frame, e.IsScoped false) ∧
      (∀ e ∈ g.horizontal.margin, e.IsScoped false) ∧
      ∀ e ∈ g.vertical.margin, e.IsScoped false := by
  simp only [GridShape.IsScoped, GridShape.mem_insets, or_imp, forall_and]

theorem withInset_isScoped (inset : Inset) (axis : Axis) {e? : Option Expression}
    (he : ∀ e ∈ e?, e.IsScoped false) (hg : g.toGridShape.IsScoped) :
    (g.withInset inset axis e?).toGridShape.IsScoped := by
  obtain ⟨⟨hframeX, hframeY⟩, hmarginX, hmarginY⟩ := insets_isScoped_iff.mp hg
  rw [insets_isScoped_iff]
  cases inset with
  | margin =>
    cases axis with
    | horizontal => exact ⟨⟨hframeX, hframeY⟩, he, hmarginY⟩
    | vertical => exact ⟨⟨hframeX, hframeY⟩, hmarginX, he⟩
  | frame =>
    cases axis with
    | horizontal => exact ⟨⟨he, hframeY⟩, hmarginX, hmarginY⟩
    | vertical => exact ⟨⟨hframeX, he⟩, hmarginX, hmarginY⟩

end Grid

namespace Document

variable {settings : Settings} {v : Json} {root : Element}

theorem componentOf_isScoped {node : Members} {c : Component}
    (h : componentOf settings node = .ok c) : c.IsScoped := by
  simp only [componentOf, bind_eq_ok_iff] at h
  obtain ⟨c', hc', members, -, registry, -, h⟩ := h
  obtain rfl := Except.ok.inj h
  obtain ⟨sized, hsized, hpositioned⟩ := bind_eq_ok_iff.mp hc'
  have hempty : Component.IsScoped
      { name := value node "name", visible := flag node "visible", settings } :=
    ⟨by simp [Component.sizes], by simp [Component.positions]⟩
  have hc : c'.IsScoped := (hempty.setSize hsized).setPosition hpositioned
  exact ⟨hc.sizes, hc.positions⟩

theorem emptyGrid_isScoped {node : Members} {g : Grid Element} (h : emptyGrid node = .ok g) :
    g.toGridShape.IsScoped := by
  refine emptyGrid_preserves (P := fun g => g.toGridShape.IsScoped)
    (fun g inset axis v e? hv =>
      Grid.withInset_isScoped inset axis (optionalExpression_isScoped hv)) ?_ ?_
    (by simp [GridShape.IsScoped, GridShape.insets]) h
  all_goals
    intro g track w g' hset hg
    obtain ⟨a, ha, hset⟩ := bind_eq_ok_iff.mp hset
    obtain ⟨weight, -, ha⟩ := bind_eq_ok_iff.mp ha
    obtain rfl := Except.ok.inj ha
    obtain rfl := Except.ok.inj hset
    exact hg

theorem load_isScoped {e : Element} (h : (load settings v).result = .ok e) : e.IsScoped := by
  induction v using items_induction generalizing e with
  | h v ih =>
    obtain ⟨node, c, rfl, hc, ⟨-, rfl⟩ | ⟨-, shape, order, es, hshape, -, -, hes, rfl⟩⟩ :=
      load_eq_ok h
    · exact .leaf (componentOf_isScoped hc)
    · refine .panel (componentOf_isScoped hc) ?_ ?_
      · obtain ⟨g, hg, hshape⟩ := bind_eq_ok_iff.mp hshape
        obtain rfl := Except.ok.inj hshape
        have hscoped : g.toGridShape.IsScoped := emptyGrid_isScoped hg
        exact hscoped
      · intro e he
        obtain ⟨i, hi, rfl⟩ := List.getElem_of_mem he
        have hlength : i < order.length := by rw [hes.length_eq]; exact hi
        obtain ⟨u, loaded, hu, hloaded, hchild⟩ := hes.get hlength hi
        rw [List.get_eq_getElem] at hchild
        rw [hchild]
        exact (ih u (List.mem_of_getElem? hu) hloaded).inCell _

/-- Missing variables do not depend on the container. If a layout pass comes to an element that
lacks a variable, then it does not end well in any container. If it comes to none, it does not tell
of variables without a value in any container. So if it ends well in one container, it does not tell
of such variables in another one. -/
theorem layout_unresolved (h : (loadPanel v settings).result = .ok root) :
    ((∃ e, Element.Reaches root e ∧ e.LacksVariable) →
      ∀ container ps, (root.layout container).result ≠ .ok ps) ∧
    ((¬∃ e, Element.Reaches root e ∧ e.LacksVariable) → ∀ container error,
      (root.layout container).result = .error error → error.category ≠ .unresolved) ∧
    ∀ container container' ps error, (root.layout container).result = .ok ps →
      (root.layout container').result = .error error → error.category ≠ .unresolved := by
  obtain ⟨e, he, hpanel⟩ := Report.result_bind_eq_ok_iff.mp h
  have hroot : (load settings v).result = .ok root := by
    split at hpanel
    · obtain rfl := Except.ok.inj hpanel
      exact he
    · cases hpanel
  have hnone : (¬∃ e, Element.Reaches root e ∧ e.LacksVariable) →
      ∀ container, (root.layout container).FailsOnly (· ≠ .unresolved) :=
    fun hlacks container => Element.layout_failsOnly (load_isScoped hroot) fun e hreach hmissing =>
      hlacks ⟨e, hreach, hmissing⟩
  refine ⟨?_, hnone, ?_⟩
  · rintro ⟨e, hreach, hmissing⟩ container ps hps
    exact Element.not_lacksVariable_of_layout hps hreach hmissing
  · intro container container' ps error hps
    apply hnone
    rintro ⟨e, hreach, hmissing⟩
    exact Element.not_lacksVariable_of_layout hps hreach hmissing

/-- A panel whose only child has a custom variable for its position, which may have a value or
not. -/
def scrolledPanel (given : Members) : Json :=
  .object [("children", .array [.object [("x", .text "scroll"), ("variables", .object given)]])]

/-- With a value for it no layout pass tells of a missing variable, without one no pass ends
well. -/
theorem layout_unresolved_scroll :
    (∃ root, (loadPanel (scrolledPanel [("scroll", .number (.int 5))])).result = .ok root ∧
      ∀ container error, (root.layout container).result = .error error →
      error.category ≠ .unresolved) ∧
    ∃ root, (loadPanel (scrolledPanel [])).result = .ok root ∧
      ∀ container ps, (root.layout container).result ≠ .ok ps := by
  let window : Rectangle := .ofInts 0 0 100 100
  have hpasses : ((loadPanel (scrolledPanel [("scroll", .number (.int 5))])).result.toOption.bind
      fun root =>
      (root.layout window).result.toOption).isSome = true := by decide +kernel
  have hfails : ((loadPanel (scrolledPanel [])).result.toOption.map fun root =>
      match (root.layout window).result with
      | .ok _ => none
      | .error error => some error.category) = some (some .unresolved) := by decide +kernel
  constructor
  · obtain ⟨ps, hps⟩ := Option.isSome_iff_exists.mp hpasses
    obtain ⟨root, hroot, hps⟩ := Option.bind_eq_some_iff.mp hps
    rw [toOption_eq_some_iff] at hroot hps
    exact ⟨root, hroot, fun container error =>
      (layout_unresolved hroot).2.2 window container ps error hps⟩
  · obtain ⟨root, hroot, hcategory⟩ := Option.map_eq_some_iff.mp hfails
    rw [toOption_eq_some_iff] at hroot
    refine ⟨root, hroot, (layout_unresolved hroot).1 ?_⟩
    by_contra hnone
    cases hresult : (root.layout window).result with
    | ok ps =>
      rw [hresult] at hcategory
      cases hcategory
    | error error =>
      rw [hresult] at hcategory
      exact (layout_unresolved hroot).2.1 hnone window error hresult (Option.some.inj hcategory)

end Document

end PanelLayout
