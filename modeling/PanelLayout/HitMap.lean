import PanelLayout.Rectangle

/-!
# Hit maps

The clients of a layout pass by their rectangles, to find what lies under a point. What is painted
later lies on top. Empty rectangles are never hit. A plane index only preselects: it may give
numbers of rectangles in any order and more of them than asked for, so that the numbers are sorted
and each rectangle is looked at again.
-/

namespace PanelLayout

namespace Rectangle

/-- Refuses a rectangle with a corner that has no nearest double, or with a first corner that does
not come before the second one, their columns being compared before their rows. -/
def checkBox (r : Rectangle) : Except NumberError Unit := do
  let right ← r.right
  let bottom ← r.bottom
  [r.x, r.y, right, bottom].forM fun n => discard n.toDouble
  if !(if r.x.equals right then r.y.le bottom else r.x.le right) then throw .unordered

/-- How many spots fit into a pixel: sides of this part of a pixel or less are no extent. -/
def spotsPerPixel : Int := 4503599627370496

/-- Whether the sides of a rectangle are together no longer than a spot. -/
def isSpot (r : Rectangle) : Bool :=
  match (do (← r.width.add r.height).mul (.int spotsPerPixel) : Except NumberError Number) with
  | .ok spots => spots.le (.int 1)
  | .error _ => false

/-- Whether a point lies inside a rectangle or on one of its edges. -/
def touches (r : Rectangle) (px py : Number) : Bool :=
  match r.right, r.bottom with
  | .ok right, .ok bottom => r.x.le px && px.le right && r.y.le py && py.le bottom
  | _, _ => false

theorem isSpot_ofInts (x y w h : Int) : (ofInts x y w h).isSpot = decide (w + h ≤ 0) := by
  have hspot : (ofInts x y w h).isSpot = decide ((w + h) * spotsPerPixel ≤ 1) := rfl
  rw [hspot, decide_eq_decide, spotsPerPixel]
  omega

theorem touches_ofInts (x y w h px py : Int) :
    (ofInts x y w h).touches (.int px) (.int py) =
      decide (x ≤ px ∧ px ≤ x + w ∧ y ≤ py ∧ py ≤ y + h) := by
  simp [touches, ofInts, right, bottom, Bool.decide_and, Bool.and_assoc]

end Rectangle

/-- An index of boxes on the plane, which are known by the numbers in which they come in, from zero
on. -/
structure PlaneIndex where
  /-- Refuses a box that the index cannot take in. -/
  accept : Rectangle → Except NumberError Unit
  /-- Numbers of boxes that may lie at a point. -/
  search : {n : Nat} → (Fin n → Rectangle) → Number → Number → Except NumberError (List (Fin n))

/-- The index over the plane of doubles, which takes in boxes and points in its range. A box without
an extent worth the name lies at its corner only. -/
def PlaneIndex.ofDoubles : PlaneIndex where
  accept := Rectangle.checkBox
  search box px py := do
    discard px.toDouble
    discard py.toDouble
    return (List.finRange _).filter fun i =>
      (box i).touches px py && (!(box i).isSpot || (px.equals (box i).x && py.equals (box i).y))

/-- Clients with rectangles that are not empty, bottom-most first. -/
structure HitMap (α : Type) where
  entries : List (α × Rectangle) := []

namespace HitMap

variable {α : Type}

/-- Puts a client on top, unless its rectangle is empty. -/
def insert (m : HitMap α) (client : α) (rect : Rectangle) (index : PlaneIndex := .ofDoubles) :
    Except NumberError (HitMap α) := do
  if rect.isEmpty then return m
  index.accept rect
  return ⟨m.entries ++ [(client, rect)]⟩

/-- The map of clients in the order of painting. -/
def ofList (clients : List (α × Rectangle)) (index : PlaneIndex := .ofDoubles) :
    Except NumberError (HitMap α) :=
  clients.foldlM (fun m c => m.insert c.1 c.2 index) {}

def size (m : HitMap α) : Nat := m.entries.length

/-- The client with a number, if its rectangle contains a point. -/
def hit? (m : HitMap α) (px py : Number) (number : Fin m.entries.length) :
    Except NumberError (Option α) := do
  let (client, rect) := m.entries.get number
  return if ← rect.contains px py then some client else none

/-- All clients at a point, bottom-most first. -/
def allAt (m : HitMap α) (px py : Number) (index : PlaneIndex := .ofDoubles) :
    Except NumberError (List α) := do
  let found ← index.search (fun i => (m.entries.get i).2) px py
  (found.mergeSort fun i j => decide (i ≤ j)).filterMapM (m.hit? px py)

/-- The top-most client at a point. -/
def at? (m : HitMap α) (px py : Number) (index : PlaneIndex := .ofDoubles) :
    Except NumberError (Option α) := do
  return (← m.allAt px py index).getLast?

end HitMap

end PanelLayout
