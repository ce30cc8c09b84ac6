import PanelLayout.Number

/-!
# Rectangles

Rectangles on a window, most often of whole pixels. The left and the upper edge belong to a
rectangle, the right and the lower one do not. Everything is computed in the arithmetic of numbers,
so that rectangles of whole numbers stay exact.
-/

namespace PanelLayout

structure Rectangle where
  x : Number := .int 0
  y : Number := .int 0
  width : Number := .int 0
  height : Number := .int 0
  deriving DecidableEq

namespace Rectangle

instance : Inhabited Rectangle := ⟨{}⟩

/-- A rectangle of whole pixels. -/
def ofInts (x y width height : Int) : Rectangle := ⟨.int x, .int y, .int width, .int height⟩

def right (r : Rectangle) : Except NumberError Number := r.x.add r.width

def bottom (r : Rectangle) : Except NumberError Number := r.y.add r.height

def isEmpty (r : Rectangle) : Bool := r.width.le (.int 0) || r.height.le (.int 0)

/-- Whether a number lies from the start of an axis up to but not including its end. -/
def axisContains (start extent p : Number) : Except NumberError Bool :=
  if start.le p then do return p.lt (← start.add extent) else .ok false

/-- Whether a point lies inside. -/
def contains (r : Rectangle) (px py : Number) : Except NumberError Bool := do
  if ← axisContains r.x r.width px then axisContains r.y r.height py else return false

/-- One axis of a rectangle, moved inwards by `d` at both ends. An axis that is too short for it
collapses in place. -/
def shrunkAxis (start extent d : Number) : Except NumberError (Number × Number) := do
  let rest ← extent.sub (← (Number.int 2).mul d)
  if (Number.int 0).le rest then return (← start.add d, rest) else return (start, .int 0)

/-- The rectangle without a border of `dx` on the left and right and of `dy` above and below. -/
def shrunk (r : Rectangle) (dx dy : Number) : Except NumberError Rectangle := do
  let (x, width) ← shrunkAxis r.x r.width dx
  let (y, height) ← shrunkAxis r.y r.height dy
  return ⟨x, y, width, height⟩

/-- Where something of a whole length starts if it is centred on an axis. -/
def centredStart (start extent : Number) (length : Int) : Except NumberError Number := do
  (← start.add extent.halfFloor).sub (.int (length / 2))

/-- The largest rectangle of a given aspect ratio, centred inside. -/
def fitted (r : Rectangle) (aspectWidth aspectHeight : Number) : Except NumberError Rectangle := do
  if aspectWidth.le (.int 0) || aspectHeight.le (.int 0) then return ⟨r.x, r.y, .int 0, .int 0⟩
  let ratioWidth ← r.width.div aspectWidth
  let ratioHeight ← r.height.div aspectHeight
  if ratioWidth.le ratioHeight then
    let h ← (← ratioWidth.mul aspectHeight).truncate
    return ⟨r.x, ← centredStart r.y r.height h, r.width, .int h⟩
  else
    let w ← (← ratioHeight.mul aspectWidth).truncate
    return ⟨← centredStart r.x r.width w, r.y, .int w, r.height⟩

/-- The rectangle moved by a distance. -/
def moved (r : Rectangle) (dx dy : Number) : Except NumberError Rectangle := do
  return { r with x := ← r.x.add dx, y := ← r.y.add dy }

/-- Equality by value on all four numbers. -/
def equals (r s : Rectangle) : Bool :=
  r.x.equals s.x && r.y.equals s.y && r.width.equals s.width && r.height.equals s.height

def shown (r : Rectangle) : String :=
  "<Rectangle " ++ r.width.text ++ "x" ++ r.height.text ++ "+" ++ r.x.text ++ "+" ++ r.y.text ++ ">"

/-- On whole pixels the right edge is the sum. -/
@[simp] theorem right_ofInts (x y w h : Int) : (ofInts x y w h).right = .ok (.int (x + w)) := rfl

@[simp] theorem bottom_ofInts (x y w h : Int) : (ofInts x y w h).bottom = .ok (.int (y + h)) := rfl

@[simp] theorem isEmpty_ofInts (x y w h : Int) : (ofInts x y w h).isEmpty =
    (decide (w ≤ 0) || decide (h ≤ 0)) := rfl

theorem axisContains_int (start extent p : Int) :
    axisContains (.int start) (.int extent) (.int p) =
      .ok (decide (start ≤ p ∧ p < start + extent)) := by
  simp only [axisContains, Number.le_int]
  by_cases h : start ≤ p
  · simp [h, bind, Except.bind, pure, Except.pure]
  · simp [h]

/-- On whole pixels containment is a comparison with the four edges. -/
theorem contains_ofInts (x y w h px py : Int) :
    (ofInts x y w h).contains (.int px) (.int py) =
      .ok (decide (x ≤ px ∧ px < x + w ∧ y ≤ py ∧ py < y + h)) := by
  simp only [contains, ofInts, axisContains_int, bind, Except.bind, pure, Except.pure]
  by_cases hx : x ≤ px ∧ px < x + w
  · simp [hx]
  · have hall : ¬(x ≤ px ∧ px < x + w ∧ y ≤ py ∧ py < y + h) := fun hall => hx ⟨hall.1, hall.2.1⟩
    simp [hx, hall]

theorem shrunkAxis_int (start extent d : Int) :
    shrunkAxis (.int start) (.int extent) (.int d) =
      .ok (if 0 ≤ extent - 2 * d then (.int (start + d), .int (extent - 2 * d))
        else (.int start, .int 0)) := by
  simp only [shrunkAxis, Number.mul_int, bind, Except.bind, Number.sub_int, Number.le_int,
    Number.add_int, pure, Except.pure, decide_eq_true_eq]
  split <;> rfl

end Rectangle

end PanelLayout
