import Mathlib.Data.List.Forall2
import PanelLayout.Placement
import PanelLayout.Proofs.Computation

/-!
# Levels of a layout pass

What a pass lists for an element comes before what it lists for its descendants, and at a higher
level. So the visible children of a panel are the placements one level below it.
-/

namespace PanelLayout

namespace Element

variable {panel : Component} {shape : GridShape} {scale : TextScale} {depth : Nat}
    {container rect : Rectangle} {e : Element}
  {es : List Element} {ps : List Placement}

theorem placeIn_of_hidden (h : e.component.visible = false) :
    placeIn panel shape scale depth container (e :: es) =
      placeIn panel shape scale depth container es := by
  rw [placeIn, h, Bool.not_false, if_pos rfl]

theorem placeIn_of_visible (h : e.component.visible = true) :
    (placeIn panel shape scale depth container (e :: es)).result = .ok ps ↔
      ∃ rect here later, (e.childRect panel shape container).result = .ok rect ∧
      (e.place scale depth rect).result = .ok here ∧
        (placeIn panel shape scale depth container es).result = .ok later ∧ ps = here ++ later := by
  rw [placeIn, h, Bool.not_true, if_neg Bool.false_ne_true]
  simp only [Report.result_bind_eq_ok_iff, Report.result_pure, Except.ok.injEq]
  constructor
  · rintro ⟨rect, hrect, here, hhere, later, hlater, hps⟩
    exact ⟨rect, here, later, hrect, hhere, hlater, hps.symm⟩
  · rintro ⟨rect, here, later, hrect, hhere, hlater, hps⟩
    exact ⟨rect, hrect, here, hhere, later, hlater, hps.symm⟩

mutual
theorem place_eq_cons {depth : Nat} {rect : Rectangle} {scale : TextScale} {ps : List Placement}
    {e : Element} (h : (e.place scale depth rect).result = .ok ps) :
    ∃ inner, ps = ⟨e.component, e.isPanel, rect, scale, depth⟩ :: inner ∧
    ∀ p ∈ inner, depth < p.depth := by
  cases e with
  | leaf c =>
    obtain rfl := Except.ok.inj h
    exact ⟨[], rfl, by simp⟩
  | panel c body es =>
    obtain ⟨held, hheld, h⟩ := Report.result_bind_eq_ok_iff.mp h
    obtain rfl := Except.ok.inj h
    exact ⟨held, rfl, le_depth_of_placeIn hheld⟩

theorem le_depth_of_placeIn {panel : Component} {shape : GridShape} {scale : TextScale}
    {depth : Nat} {container : Rectangle} {es : List Element} {ps : List Placement}
    (h : (placeIn panel shape scale depth container es).result = .ok ps) :
    ∀ p ∈ ps, depth ≤ p.depth := by
  cases es with
  | nil =>
    obtain rfl := Except.ok.inj h
    simp
  | cons e es =>
    cases hvisible : e.component.visible with
    | false =>
      rw [placeIn_of_hidden hvisible] at h
      exact le_depth_of_placeIn h
    | true =>
      obtain ⟨rect, here, later, -, hhere, hlater, rfl⟩ := (placeIn_of_visible hvisible).mp h
      obtain ⟨inner, rfl, hinner⟩ := place_eq_cons hhere
      intro p hp
      rcases List.mem_append.mp hp with hp | hp
      · rcases List.mem_cons.mp hp with rfl | hp
        · exact Nat.le_refl depth
        · exact Nat.le_of_lt (hinner p hp)
      · exact le_depth_of_placeIn hlater p hp
end

def IsChildPlacement (panel : Component) (shape : GridShape) (container : Rectangle) (e : Element)
    (p : Placement) : Prop :=
  p.component = e.component ∧ (e.childRect panel shape container).result = .ok p.rect

theorem placeIn_level (h : (placeIn panel shape scale depth container es).result = .ok ps) :
    List.Forall₂ (IsChildPlacement panel shape container) (es.filter (·.component.visible))
      (ps.filter (·.depth == depth)) := by
  induction es generalizing ps with
  | nil =>
    obtain rfl := Except.ok.inj h
    exact .nil
  | cons e es ih =>
    cases hvisible : e.component.visible with
    | false =>
      rw [placeIn_of_hidden hvisible] at h
      rw [List.filter_cons_of_neg (by simp [hvisible])]
      exact ih h
    | true =>
      obtain ⟨rect, here, later, hrect, hhere, hlater, rfl⟩ := (placeIn_of_visible hvisible).mp h
      obtain ⟨inner, rfl, hinner⟩ := place_eq_cons hhere
      have hbelow : inner.filter (·.depth == depth) = [] := by
        rw [List.filter_eq_nil_iff]
        intro p hp
        have hlt := hinner p hp
        simpa using Nat.ne_of_gt hlt
      rw [List.filter_cons_of_pos (by simp [hvisible]), List.filter_append,
        List.filter_cons_of_pos (by simp), hbelow]
      exact .cons ⟨rfl, hrect⟩ (ih hlater)

theorem layout_level_one {c : Component} {body : PanelBody}
    (h : ((Element.panel c body es).layout container).result = .ok ps) :
    ∃ rect, (c.renderRect container).result = .ok rect ∧
      List.Forall₂ (IsChildPlacement c body.shape rect) (es.filter (·.component.visible))
        (ps.filter (·.depth == 1)) := by
  obtain ⟨rect, hrect, h⟩ := Report.result_bind_eq_ok_iff.mp h
  obtain ⟨held, hheld, h⟩ := Report.result_bind_eq_ok_iff.mp h
  obtain rfl := Except.ok.inj h
  refine ⟨rect, hrect, ?_⟩
  rw [List.filter_cons_of_neg (by simp)]
  exact placeIn_level hheld

end Element

end PanelLayout
