import PanelLayout.Expression.Reader
import PanelLayout.Rectangle
import PanelLayout.Settings
import PanelLayout.Variables

/-!
# Axes of a grid

The columns and the rows of a grid follow the same rules. An axis is split between its tracks by
their weights; a frame insets all of them and margins keep neighbours apart.
-/

namespace PanelLayout

/-- The columns or the rows of a grid. -/
structure GridAxis where
  /-- Number of tracks. It is no whole number if a client was placed beyond a track that is none. -/
  count : Number := .int 0
  /-- Weights other than one. -/
  weights : List (Number × Double) := []
  margin : Option Expression := none
  frame : Option Expression := none

/-- The expression that a value writes, `null` standing for none. -/
def optionalExpression (rules : ReadingRules) : Json → Except LayoutError (Option Expression)
  | .null => .ok none
  | .text s => ((Expression.read rules s).map some).mapError .parse
  | v => .error (.notText v.kind)

namespace GridAxis

instance : Inhabited GridAxis := ⟨{}⟩

/-- The weight of a track. -/
def weight (a : GridAxis) (track : Number) : Double :=
  ((a.weights.find? (·.1.equals track)).map Prod.snd).getD .one

/-- A value as a weight, a positive finite number. -/
def checkWeight (v : Json) : Except LayoutError Double := do
  let w ← v.toDouble.mapError .conversion
  if !w.isFinite || w.le (.zero false) then throw (.weight w)
  return w

/-- The weights after one track is given another one. A weight of one is not kept. -/
def setEntry (weights : List (Number × Double)) (track : Number) (w : Double) :
    List (Number × Double) :=
  if w.equals .one then weights.filter (!·.1.equals track)
  else if weights.any (·.1.equals track) then weights.map fun e => if e.1.equals track
    then (e.1, w) else e
  else weights ++ [(track, w)]

/-- Gives a track a weight. -/
def setWeight (a : GridAxis) (track : Number) (v : Json) : Except LayoutError GridAxis := do
  let w ← checkWeight v
  return { a with weights := setEntry a.weights track w }

/-- Whether a track lies on the axis. -/
def has (a : GridAxis) (track : Number) : Bool := (Number.int 0).le track && track.lt a.count

theorem has_int {a : GridAxis} {n : Int} (h : a.count = .int n) (track : Int) :
    a.has (.int track) = decide (0 ≤ track ∧ track < n) := by
  simp [has, h]

/-- Sum of the weights of the first tracks, a whole zero if there are none. -/
def weightSum (a : GridAxis) (tracks : Nat) : Number :=
  if tracks = 0 then .int 0
  else .double ((List.range tracks).foldl (fun (sum : Double) (i : Nat) => sum + a.weight (.int i))
    (.zero false))

/-- End of the first `tracks` of `count` tracks within a usable length. The last track ends with it,
however lengths are rounded. -/
def boundary (a : GridAxis) (mode : Rounding) (count : Nat) (usable : Number) (tracks : Nat) :
    Report Number :=
  if tracks ≥ count then return usable
  else do
    let share ← Report.ofNumber do (← usable.mul (a.weightSum tracks)).div (a.weightSum count)
    return .int (← share.toPixel mode)

/-- How many tracks a number stands for. Only whole tracks can be counted. -/
def wholeTracks (n : Number) : Except LayoutError Nat :=
  match n.value with
  | .inl n => .ok n.toNat
  | .inr _ => .error (.conversion (.notWhole .double))

@[simp] theorem wholeTracks_int (n : Int) : wholeTracks (.int n) = .ok n.toNat := rfl

/-- Where a boundary lies if the stretch and the margins before it are counted in. -/
def edge (start boundary : Number) (margin : Int) (tracks : Nat) : Except NumberError Number := do
  (← start.add boundary).add (.int (margin * tracks))

/-- Start and length of a track in an available stretch. Margins count only if the stretch has a
pixel. -/
def span (a : GridAxis) (mode : Rounding) (start available : Number) (margin : Int)
    (track : Number) :
    Report (Number × Number) := do
  let margin : Int := if margin < 0 || available.lt (.int 1) then 0 else margin
  let count ← (wholeTracks a.count : Except LayoutError Nat)
  let usable ← Report.ofNumber (available.sub (.int (margin * (count - 1 : Nat))))
  let track ← (wholeTracks track : Except LayoutError Nat)
  let first ← Report.ofNumber (edge start (← a.boundary mode count usable track) margin track)
  let last ← Report.ofNumber
    (edge start (← a.boundary mode count usable (track + 1)) margin (track + 1))
  let length ← Report.ofNumber do (← last.sub first).sub (.int margin)
  return (first, length.max (.int 0))

end GridAxis

/-- The pixels that an optional expression stands for in a container, none if they would be
negative. -/
def marginPixels (registry : Variables) (mode : Rounding) (container : Rectangle)
    (e : Option Expression) : Report Int :=
  match e with
  | none => return 0
  | some e => do
    let x ← registry.evaluate e container.width container.height
    return max (← x.toPixel mode) 0

end PanelLayout
