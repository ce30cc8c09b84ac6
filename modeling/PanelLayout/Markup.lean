import PanelLayout.Text.Blank

/-!
# Markup

Elements with attributes and children, written with an indentation of two blanks for each level.
Texts and attribute values are escaped, so that they cannot open or close an element.
-/

namespace PanelLayout

/-- An element, or a text between elements. -/
inductive Markup where
  | element (name : String) (attributes : List (String × String)) (children : List Markup)
    (isRoot : Bool)
  | text (s : String)

namespace Markup

instance : Inhabited Markup := ⟨.text ""⟩

/-- A character of a text. -/
def escapeText (c : Char) : List Char :=
  match c with
  | '&' => "&amp;".toList
  | '<' => "&lt;".toList
  | '>' => "&gt;".toList
  | c => [c]

/-- A character of an attribute value, where quotes are escaped too. -/
def escapeValue (c : Char) : List Char :=
  match c with
  | '"' => "&quot;".toList
  | '\'' => "&#x27;".toList
  | c => escapeText c

/-- The written name of an attribute: a double underscore is a colon, a single one a hyphen. -/
def attributeName : List Char → List Char
  | '_' :: '_' :: cs => ':' :: attributeName cs
  | '_' :: cs => '-' :: attributeName cs
  | c :: cs => c :: attributeName cs
  | [] => []

/-- The lines of a text, each with its line end. -/
def lines : List Char → List (List Char)
  | [] => []
  | '\r' :: '\n' :: cs => ['\r', '\n'] :: lines cs
  | c :: cs =>
    if isLineEnd c then [c] :: lines cs
    else
      match lines cs with
      | [] => [[c]]
      | line :: rest => (c :: line) :: rest

/-- Every line that is not blank moved by two blanks. -/
def indent (cs : List Char) : List Char :=
  (lines cs).flatMap fun line => if line.all isBlank then line else ' ' :: ' ' :: line

/-- An attribute behind the name of an element. -/
def attributeChars (a : String × String) : List Char :=
  ' ' :: attributeName a.1.toList ++ '=' :: '"' :: a.2.toList.flatMap escapeValue ++ ['"']

/-- Name and attributes of an element. -/
def openingChars (name : String) (attributes : List (String × String)) : List Char :=
  name.toList ++ attributes.flatMap attributeChars

/-- The declaration in front of a root element. -/
def declaration (isRoot : Bool) : List Char :=
  if isRoot then "<?xml version=\"1.0\" encoding=\"utf-8\"?>\n".toList else []

mutual
/-- The characters of the written form. -/
def chars : Markup → List Char
  | .text s => s.toList.flatMap escapeText
  | .element name attributes [] isRoot =>
    declaration isRoot ++ '<' :: openingChars name attributes ++ ['/', '>']
  | .element name attributes (child :: children) isRoot =>
    declaration isRoot ++ '<' :: openingChars name attributes ++ '>' :: '\n' ::
      (indent (chars child) ++ childrenChars children) ++ '\n' :: '<' :: '/' :: name.toList ++ ['>']

/-- Further children, each on lines of its own. -/
def childrenChars : List Markup → List Char
  | [] => []
  | child :: children => '\n' :: indent (chars child) ++ childrenChars children
end

/-- The written form. -/
def render (m : Markup) : String := String.ofList m.chars

end Markup

end PanelLayout
