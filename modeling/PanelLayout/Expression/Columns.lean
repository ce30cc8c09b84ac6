import PanelLayout.Decimal.Notation
import PanelLayout.Expression.Grammar

/-!
# Columns

The words of an expression are handed to the parser in one line, with a blank between two of them
and each number written anew, so that a word stands at another place there than in the source. The
parser speaks of columns of this line; a table of the columns at which words start leads back to the
source.
-/

namespace PanelLayout

/-- A word as it stands in the line. A number is the shortest text that reads back as its value; one
beyond the doubles is written as another one that is. -/
def Lexeme.rendered : Lexeme → List Char
  | .number cs =>
    let value := Surface.numberValue cs
    if value.isFinite then value.text.toList else "1e999".toList
  | w => w.text

/-- The words of a line from a column on, each with the column where it starts. -/
def lineFrom : Nat → List Token → List Token
  | _, [] => []
  | column, t :: ts => ⟨t.lexeme, column⟩ :: lineFrom (column + t.lexeme.rendered.length + 1) ts

def line (ts : List Token) : List Token := lineFrom 0 ts

/-- The columns where the words start, each with the position of the word in the source. -/
def columnTable (ts : List Token) : List (Nat × Nat) :=
  ((line ts).map Token.position).zip (ts.map Token.position)

/-- The position in the source that belongs to a column: as far behind the start of a word as in the
line. -/
def sourcePosition (table : List (Nat × Nat)) (column : Nat) : Nat :=
  match table.reverse.find? (·.1 ≤ column) with
  | some (start, position) => position + (column - start)
  | none => 0

end PanelLayout
