/-!
# Names

A name starts with an ASCII letter or an underscore and goes on with ASCII letters, digits and
underscores. A few names are reserved words.
-/

namespace PanelLayout

def isNameStart (c : Char) : Bool := c.isAlpha || c == '_'

def isNameChar (c : Char) : Bool := c.isAlphanum || c == '_'

/-- Words that name nothing. -/
def reservedWords : List String :=
  ["False", "None", "True", "and", "as", "assert", "async", "await", "break", "class",
    "continue", "def", "del", "elif", "else", "except", "finally", "for", "from", "global", "if",
    "import", "in", "is", "lambda", "nonlocal", "not", "or", "pass", "raise", "return", "try",
    "while", "with", "yield"]

def isReserved (name : String) : Bool := reservedWords.contains name

/-- Whether a text has the form of a name. -/
def isName (s : String) : Bool :=
  match s.toList with
  | [] => false
  | c :: cs => isNameStart c && cs.all isNameChar

end PanelLayout
