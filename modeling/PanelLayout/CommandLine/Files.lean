import PanelLayout.LayoutError

/-!
# Files

What the paths of a command line lead to, and why a file cannot be written.
-/

namespace PanelLayout

namespace CommandLine

/-- What a path leads to. -/
inductive PathEntry where
  | file (text : String)
  | directory

/-- Whether the system takes a text for a path. -/
def isPath (s : String) : Bool := !s.toList.contains '\x00'

/-- Why a file cannot be opened for writing. -/
inductive WriteFault where
  /-- The directory of the file does not exist, or its name is empty. -/
  | missing
  | isDirectory
  /-- A step of the path other than the last one is a file. -/
  | notDirectory
  | nameTooLong
  deriving DecidableEq, Repr

def WriteFault.message : WriteFault → String
  | .missing => "No such file or directory"
  | .isDirectory => "Is a directory"
  | .notDirectory => "Not a directory"
  | .nameTooLong => "File name too long"

end CommandLine

end PanelLayout
