import Mathlib.Data.List.Forall2
import PanelLayout.Placement
import PanelLayout.Proofs.Computation

/-!
# Moving the container

A layout pass does not depend on where its container lies. In a container of whole pixels that is
moved, every placement moves along, and nothing else changes.
-/

namespace PanelLayout

namespace Report

variable {α β γ δ : Type} {R : α → β → Prop} {S : γ → δ → Prop}

/-- Computations that give the same warnings, and then fail with the same error or give related
values. -/
inductive Corresponds (R : α → β → Prop) : Report α → Report β → Prop
  | error (ws : List Warning) (e : LayoutError) : Corresponds R ⟨ws, .error e⟩ ⟨ws, .error e⟩
  | ok (ws : List Warning) {a : α} {b : β} (h : R a b) : Corresponds R ⟨ws, .ok a⟩ ⟨ws, .ok b⟩

namespace Corresponds

protected theorem pure {a : α} {b : β} (h : R a b) : Corresponds R (pure a) (pure b) := .ok [] h

theorem same (r : Report α) : Corresponds Eq r r := by
  obtain ⟨ws, result⟩ := r
  cases result with
  | error e => exact .error ws e
  | ok a => exact .ok ws rfl

protected theorem bind {r : Report α} {s : Report β} {f : α → Report γ} {g : β → Report δ}
    (h : Corresponds R r s) (hfg : ∀ a b, R a b → Corresponds S (f a) (g b)) :
    Corresponds S (r >>= f) (s >>= g) := by
  cases h with
  | error ws e => exact .error ws e
  | @ok ws a b hab =>
    have hlater := hfg a b hab
    change Corresponds S ⟨ws ++ (f a).warnings, (f a).result⟩ ⟨ws ++ (g b).warnings, (g b).result⟩
    generalize f a = u at hlater ⊢
    generalize g b = v at hlater ⊢
    cases hlater with
    | error ws' e => exact .error _ e
    | ok ws' hcd => exact .ok _ hcd

theorem after (r : Report α) {f : α → Report γ} {g : α → Report δ}
    (hfg : ∀ a, Corresponds S (f a) (g a)) :
    Corresponds S (r >>= f) (r >>= g) := by
  apply (same r).bind
  intro a b hab
  subst hab
  exact hfg a

end Corresponds

@[simp] theorem ofNumber_ok_bind (a : α) (f : α → Report γ) : (ofNumber (.ok a) >>= f) = f a := rfl

end Report

open Report

def Rectangle.IsMoved (dx dy : Int) (r s : Rectangle) : Prop :=
  ∃ x y w h, r = .ofInts x y w h ∧ s = .ofInts (x + dx) (y + dy) w h

structure Placement.IsMoved (dx dy : Int) (p q : Placement) : Prop where
  component : q.component = p.component
  isPanel : q.isPanel = p.isPanel
  rect : p.rect.IsMoved dx dy q.rect
  scale : q.scale = p.scale
  depth : q.depth = p.depth

variable {dx dy : Int} {r s : Rectangle}

theorem marginPixels_moved (hrs : r.IsMoved dx dy s) (registry : Variables) (mode : Rounding)
    (e : Option Expression) :
    marginPixels registry mode s e = marginPixels registry mode r e := by
  obtain ⟨x, y, w, h, rfl, rfl⟩ := hrs
  rfl

theorem Rectangle.shrunk_moved (hrs : r.IsMoved dx dy s) (i j : Int) :
    Corresponds (IsMoved dx dy) (ofNumber (r.shrunk (.int i) (.int j)))
      (ofNumber (s.shrunk (.int i) (.int j))) := by
  obtain ⟨x, y, w, h, rfl, rfl⟩ := hrs
  simp only [shrunk, ofInts, shrunkAxis_int, ok_bind]
  apply Corresponds.pure
  by_cases hw : 0 ≤ w - 2 * i
  all_goals by_cases hh : 0 ≤ h - 2 * j
  all_goals
    simp only [hw, hh, if_true, if_false]
    exact ⟨_, _, _, _, rfl, by simp only [ofInts, Int.add_right_comm]⟩

namespace GridAxis

theorem boundary_int (a : GridAxis) (mode : Rounding) (count : Nat) (usable : Int) (tracks : Nat) :
    Corresponds (fun b c => ∃ n, b = .int n ∧ c = .int n)
      (a.boundary mode count (.int usable) tracks)
      (a.boundary mode count (.int usable) tracks) := by
  unfold boundary
  split
  · exact .pure ⟨usable, rfl, rfl⟩
  · apply Corresponds.after
    intro share
    apply Corresponds.after
    intro pixel
    exact .pure ⟨pixel, rfl, rfl⟩

theorem span_moved (a : GridAxis) (mode : Rounding) (start available margin d : Int)
    (track : Number) :
    Corresponds (fun p q => ∃ i n, p = (.int i, .int n) ∧ q = (.int (i + d), .int n))
      (a.span mode (.int start) (.int available) margin track)
      (a.span mode (.int (start + d)) (.int available) margin track) := by
  unfold span
  generalize (if (decide (margin < 0) || (Number.int available).lt (.int 1)) = true then 0
    else margin) = margin
  apply Corresponds.after
  intro count
  simp only [Number.sub_int, ofNumber_ok_bind]
  apply Corresponds.after
  intro track
  apply (a.boundary_int mode count _ track).bind
  rintro _ _ ⟨i, rfl, rfl⟩
  simp only [edge, Number.add_int, ok_bind, ofNumber_ok_bind]
  apply (a.boundary_int mode count _ (track + 1)).bind
  rintro _ _ ⟨j, rfl, rfl⟩
  simp only [Number.add_int, Number.sub_int, ok_bind, ofNumber_ok_bind, Number.max_int]
  refine .pure ⟨_, _, rfl, ?_⟩
  congr 2 <;> omega

end GridAxis

namespace GridShape

theorem resolveAt_moved (g : GridShape) (registry : Variables) (mode : Rounding)
    (location : Location) (hrs : r.IsMoved dx dy s) :
    Corresponds (Rectangle.IsMoved dx dy) (g.resolveAt registry mode location r)
      (g.resolveAt registry mode location s) := by
  unfold resolveAt
  rw [marginPixels_moved hrs, marginPixels_moved hrs]
  split
  · exact .error _ _
  · apply Corresponds.after
    intro frameX
    apply Corresponds.after
    intro frameY
    apply (Rectangle.shrunk_moved hrs frameX frameY).bind
    intro area area' harea
    rw [marginPixels_moved harea, marginPixels_moved harea]
    obtain ⟨x, y, w, h, rfl, rfl⟩ := harea
    apply Corresponds.after
    intro marginX
    apply Corresponds.after
    intro marginY
    apply (g.horizontal.span_moved mode x w marginX dx location.column).bind
    rintro _ _ ⟨left, width, rfl, rfl⟩
    apply (g.vertical.span_moved mode y h marginY dy location.row).bind
    rintro _ _ ⟨top, height, rfl, rfl⟩
    exact .pure ⟨left, top, width, height, rfl, rfl⟩

end GridShape

/-- Expressions see the size of a container only, so that what they place moves with it. -/
theorem Component.renderRect_moved (c : Component) (hrs : r.IsMoved dx dy s) :
    Corresponds (Rectangle.IsMoved dx dy) (c.renderRect r) (c.renderRect s) := by
  unfold renderRect
  split
  · exact .pure hrs
  · obtain ⟨x, y, w, h, rfl, rfl⟩ := hrs
    simp only [Rectangle.ofInts, Number.add_int, ofNumber_ok_bind]
    iterate 6
      apply Corresponds.after
      intro length
    apply Corresponds.after
    intro left
    apply Corresponds.after
    intro top
    apply Corresponds.after
    intro width
    apply Corresponds.after
    intro height
    refine .pure ⟨x + left, y + top, max width 0, max height 0, rfl, ?_⟩
    simp only [Rectangle.ofInts, Int.add_right_comm]

namespace Element

theorem childRect_moved (panel : Component) (shape : GridShape) (e : Element)
    (hrs : r.IsMoved dx dy s) :
    Corresponds (Rectangle.IsMoved dx dy) (e.childRect panel shape r)
      (e.childRect panel shape s) := by
  unfold childRect
  cases e.component.location with
  | none => exact e.component.renderRect_moved hrs
  | some location =>
    apply (shape.resolveAt_moved panel.registry panel.settings.gridRounding location hrs).bind
    intro cell cell' hcell
    exact e.component.renderRect_moved hcell

mutual
theorem place_moved (scale : TextScale) (depth : Nat) {r s : Rectangle} (hrs : r.IsMoved dx dy s)
    (e : Element) :
    Corresponds (List.Forall₂ (Placement.IsMoved dx dy)) (e.place scale depth r)
      (e.place scale depth s) := by
  cases e with
  | leaf c =>
    unfold place
    exact .pure (.cons ⟨rfl, rfl, hrs, rfl, rfl⟩ .nil)
  | panel c body es =>
    unfold place
    apply (placeIn_moved c body.shape _ (depth + 1) hrs es).bind
    intro held held' hheld
    exact .pure (.cons ⟨rfl, rfl, hrs, rfl, rfl⟩ hheld)

theorem placeIn_moved (panel : Component) (shape : GridShape) (scale : TextScale) (depth : Nat)
    {r s : Rectangle} (hrs : r.IsMoved dx dy s) (es : List Element) :
    Corresponds (List.Forall₂ (Placement.IsMoved dx dy)) (placeIn panel shape scale depth r es)
      (placeIn panel shape scale depth s es) := by
  cases es with
  | nil =>
    unfold placeIn
    exact .pure .nil
  | cons e es =>
    unfold placeIn
    split
    · exact placeIn_moved panel shape scale depth hrs es
    · apply (childRect_moved panel shape e hrs).bind
      intro rect rect' hrect
      apply (place_moved scale depth hrect e).bind
      intro here here' hhere
      apply (placeIn_moved panel shape scale depth hrs es).bind
      intro later later' hlater
      exact .pure (List.rel_append hhere hlater)
end

/-- A layout pass commutes with moving its container. If a container of whole pixels is moved, the
pass gives the same warnings; it fails with the same error, or lists the same components, each at
the same depth and with the same scale, in a rectangle of the same size that is moved as far. -/
theorem layout_moved (root : Element) (x y w h dx dy : Int) :
    Corresponds (List.Forall₂ (Placement.IsMoved dx dy)) (root.layout (.ofInts x y w h))
      (root.layout (.ofInts (x + dx) (y + dy) w h)) := by
  have hcontainer : (Rectangle.ofInts x y w h).IsMoved dx dy (.ofInts (x + dx) (y + dy) w h) :=
    ⟨x, y, w, h, rfl, rfl⟩
  unfold layout
  apply (root.component.renderRect_moved hcontainer).bind
  intro rect rect' hrect
  exact root.place_moved _ 0 hrect

end Element

end PanelLayout
