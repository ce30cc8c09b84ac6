import Mathlib.Data.List.Forall2
import PanelLayout.Proofs.Placement.Levels

/-!
# Descendants

All that an element holds, in one list: a child, what that child holds, and then the next child. A
search goes through this list, and so does a layout pass of a tree in which everything is visible.
-/

namespace PanelLayout

namespace Element

mutual
/-- All that an element holds, each before what it holds itself. -/
def descendants : Element → List Element
  | .leaf _ => []
  | .panel _ _ es => descendantsIn es

def descendantsIn : List Element → List Element
  | [] => []
  | e :: es => e :: (descendants e ++ descendantsIn es)
end

theorem descendantsIn_eq_flatMap (es : List Element) :
    descendantsIn es = es.flatMap fun e => e :: e.descendants := by
  induction es with
  | nil => rfl
  | cons e es ih => rw [descendantsIn, ih, List.flatMap_cons, List.cons_append]

theorem mem_descendantsIn {e : Element} {es : List Element} (h : e ∈ es) :
    e ∈ descendantsIn es := by
  rw [descendantsIn_eq_flatMap]
  exact List.mem_flatMap.mpr ⟨e, h, List.mem_cons_self⟩

mutual
theorem find?_eq (name : Json) :
    ∀ e : Element, e.find? name = e.descendants.find? (·.component.name.equals name)
  | .leaf _ => rfl
  | .panel _ _ es => findIn?_eq name es

theorem findIn?_eq (name : Json) :
    ∀ es : List Element, findIn? name es = (descendantsIn es).find? (·.component.name.equals name)
  | [] => rfl
  | e :: es => by
    rw [findIn?, descendantsIn, List.find?_cons, List.find?_append, find?_eq name e,
      findIn?_eq name es]
    cases e.component.name.equals name with
    | true => rfl
    | false => cases e.descendants.find? (·.component.name.equals name) <;> rfl
end

def IsPlacedAs (e : Element) (p : Placement) : Prop :=
  p.component = e.component ∧ p.isPanel = e.isPanel

mutual
/-- Where all descendants are visible, a pass lists an element and then its descendants. -/
theorem place_descendants {e : Element} {scale : TextScale} {depth : Nat} {rect : Rectangle}
    {ps : List Placement} (hvisible : ∀ d ∈ e.descendants, d.component.visible = true)
    (h : (e.place scale depth rect).result = .ok ps) :
    List.Forall₂ IsPlacedAs (e :: e.descendants) ps := by
  cases e with
  | leaf c =>
    obtain rfl := Except.ok.inj h
    exact .cons ⟨rfl, rfl⟩ .nil
  | panel c body es =>
    obtain ⟨held, hheld, h⟩ := Report.result_bind_eq_ok_iff.mp h
    obtain rfl := Except.ok.inj h
    exact .cons ⟨rfl, rfl⟩ (placeIn_descendants hvisible hheld)

theorem placeIn_descendants {es : List Element} {panel : Component} {shape : GridShape}
    {scale : TextScale} {depth : Nat} {container : Rectangle} {ps : List Placement}
    (hvisible : ∀ d ∈ descendantsIn es, d.component.visible = true)
    (h : (placeIn panel shape scale depth container es).result = .ok ps) :
    List.Forall₂ IsPlacedAs (descendantsIn es) ps := by
  cases es with
  | nil =>
    obtain rfl := Except.ok.inj h
    exact .nil
  | cons e es =>
    rw [descendantsIn, List.forall_mem_cons, List.forall_mem_append] at hvisible
    obtain ⟨hshown, hinner, hrest⟩ := hvisible
    obtain ⟨rect, here, later, -, hhere, hlater, rfl⟩ := (placeIn_of_visible hshown).mp h
    have hchild := place_descendants hinner hhere
    exact List.rel_append hchild (placeIn_descendants hrest hlater)
end

end Element

end PanelLayout
