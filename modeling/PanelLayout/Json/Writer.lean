import PanelLayout.Json.Basic

/-!
# Writing JSON

JSON text in ASCII, other characters escaped by their 16-bit units. The indented form puts every
item and every member on a line of its own.
-/

namespace PanelLayout

namespace Json

private def escapeUnit (n : Nat) : List Char := '\\' :: 'u' :: hexDigits 4 n

private def escapeTextChar (c : Char) : List Char :=
  if c = '"' ∨ c = '\\' then ['\\', c]
  else if c = '\n' then ['\\', 'n']
  else if c = '\r' then ['\\', 'r']
  else if c = '\t' then ['\\', 't']
  else if c = '\x08' then ['\\', 'b']
  else if c = '\x0c' then ['\\', 'f']
  else if 0x20 ≤ c.toNat ∧ c.toNat < 0x7f then [c]
  else if c.toNat < 0x10000 then escapeUnit c.toNat
  else
    let n := c.toNat - 0x10000
    escapeUnit (0xd800 + n / 0x400) ++ escapeUnit (0xdc00 + n % 0x400)

/-- A text in double quotes. -/
def quotedText (s : String) : String :=
  String.ofList ('"' :: (s.toList.flatMap escapeTextChar ++ ['"']))

private def numberText : Number → String
  | .double .nan => "NaN"
  | .double (.infinite s) => if s then "-Infinity" else "Infinity"
  | n => n.text

/-- A line end and the blanks of a level. -/
private def newline (level : Nat) : String := String.ofList ('\n' :: List.replicate (2 * level) ' ')

private def enclosed (opening closing : String) (level : Nat) (parts : List String) : String :=
  if parts.isEmpty then opening ++ closing
  else
    opening ++ newline (level + 1) ++ String.intercalate ("," ++ newline (level + 1)) parts ++
      newline level ++ closing

mutual
/-- The value with two blanks of indentation for each level. -/
def indented (level : Nat) : Json → String
  | .null => "null"
  | .bool b => if b then "true" else "false"
  | .number n => numberText n
  | .text s => quotedText s
  | .array items => enclosed "[" "]" level (indentedItems (level + 1) items)
  | .object members => enclosed "\x7b" "\x7d" level (indentedMembers (level + 1) members)

private def indentedItems (level : Nat) : List Json → List String
  | [] => []
  | item :: items => indented level item :: indentedItems level items

private def indentedMembers (level : Nat) : List (String × Json) → List String
  | [] => []
  | (key, value) :: members =>
    (quotedText key ++ ": " ++ indented level value) :: indentedMembers level members
end

mutual
/-- The value on one line. -/
def compact : Json → String
  | .null => "null"
  | .bool b => if b then "true" else "false"
  | .number n => numberText n
  | .text s => quotedText s
  | .array items => "[" ++ String.intercalate ", " (compactItems items) ++ "]"
  | .object members => "\x7b" ++ String.intercalate ", " (compactMembers members) ++ "\x7d"

private def compactItems : List Json → List String
  | [] => []
  | item :: items => compact item :: compactItems items

private def compactMembers : List (String × Json) → List String
  | [] => []
  | (key, value) :: members => (quotedText key ++ ": " ++ compact value) :: compactMembers members
end

end Json

end PanelLayout
