import PanelLayout.Markup
import PanelLayout.Placement

/-!
# Drawings

A layout pass as an SVG drawing: one outlined rectangle for each component that is not empty,
coloured by its level of nesting, with the name of the component in its upper left corner.
-/

namespace PanelLayout

namespace Drawing

/-- An SVG root of at least one pixel, with a background and some elements on it. -/
def page (content : List Markup) (width height : Number) (color : String := "white") : Markup :=
  let w := (width.max (.int 1)).text
  let h := (height.max (.int 1)).text
  let background := Markup.element "rect"
    [("x", "0"), ("y", "0"), ("width", w), ("height", h), ("style", "fill: " ++ color)] [] false
  .element "svg"
    [("width", w ++ "px"), ("height", h ++ "px"), ("viewBox", "0 0 " ++ w ++ " " ++ h),
      ("xmlns", "http://www.w3.org/2000/svg"), ("xmlns__xlink", "http://www.w3.org/1999/xlink")]
    (background :: content) true

/-- The colours of the levels of nesting, used again from the first one on when they run out. -/
def depthColor (depth : Nat) : String :=
  match depth % 5 with
  | 0 => "#d0d0d0"
  | 1 => "#8fb8de"
  | 2 => "#9bd19b"
  | 3 => "#e8c37a"
  | _ => "#d98c8c"

/-- The natural size of labels. -/
def labelSize : Int := 14

/-- The name of a component in the upper left corner of its rectangle, in text of at least one
pixel. -/
def label (p : Placement) : Except NumberError (List Markup) :=
  if p.component.name.isTruthy then do
    let size := max (← p.scale.wholeTextSize labelSize) 1
    let left ← p.rect.x.add (.int 2)
    let top ← p.rect.y.add (.int size)
    return [.element "text"
      [("x", left.text), ("y", top.text), ("font_size", toString size),
        ("font_family", "sans-serif")]
      [.text p.component.name.plain] false]
  else .ok []

/-- The elements for one component. -/
def shapes (p : Placement) : Except NumberError (List Markup) :=
  if p.rect.isEmpty then .ok []
  else do
    let style :=
      "fill: " ++ depthColor p.depth ++ "; fill-opacity: 0.5; stroke: black; stroke-width: 1"
    let outline := Markup.element "rect"
      [("x", p.rect.x.text), ("y", p.rect.y.text), ("width", p.rect.width.text),
        ("height", p.rect.height.text), ("style", style)] [] false
    return outline :: (← label p)

/-- The drawing of a layout pass on a page of a given size. -/
def ofPlacements (placements : List Placement) (width height : Number) :
    Except NumberError Markup := do
  return page (← placements.mapM shapes).flatten width height

end Drawing

end PanelLayout
