import PanelLayout.Placement

/-!
# Listings

A layout pass as text, one line for each component, and as JSON, one object for each component.
-/

namespace PanelLayout

namespace Placement

/-- The name of a component; the kind of one without a name, in angle brackets. -/
def title (p : Placement) : String :=
  if p.component.name.isTruthy then p.component.name.plain
    else "<" ++ Element.kindName p.isPanel ++ ">"

/-- One line, indented by the level of nesting. -/
def line (p : Placement) : String :=
  let indent := String.ofList (List.replicate (2 * p.depth) ' ')
  let title := p.title
  let r := p.rect
  indent ++ title ++ ": " ++ String.intercalate " " [r.x.text, r.y.text, r.width.text,
    r.height.text] ++ "\n"

def toJson (p : Placement) : Json :=
  .object [("name", p.component.name), ("depth", .number (.int p.depth)), ("x", .ofNumber p.rect.x),
    ("y", .ofNumber p.rect.y), ("width", .ofNumber p.rect.width),
    ("height", .ofNumber p.rect.height)]

end Placement

namespace Listing

def text (placements : List Placement) : String := String.join (placements.map Placement.line)

def json (placements : List Placement) : Json := .array (placements.map Placement.toJson)

end Listing

end PanelLayout
