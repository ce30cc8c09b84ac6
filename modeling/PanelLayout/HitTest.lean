import PanelLayout.HitMap
import PanelLayout.Placement

/-!
# Hit tests

Which component of a panel tree lies under a point of a window.
-/

namespace PanelLayout

namespace Element

/-- The top-most component at a point, the root itself left out. -/
def hit? (root : Element) (window : Rectangle) (px py : Int) (index : PlaneIndex := .ofDoubles) :
    Report (Option Placement) := do
  let placements ← root.layout window
  let held := placements.filter fun p => p.depth > 0
  Report.ofNumber do
    let hits ← HitMap.ofList (held.map fun p => (p, p.rect)) index
    hits.at? (.int px) (.int py) index

end Element

end PanelLayout
