import PanelLayout.CommandLine.Outcome

/-!
# Directories

A working directory held as data, so that what a command line does with its files is a function:
which files it finds, and which files there are afterwards.
-/

namespace PanelLayout

namespace CommandLine

/-- The files of a working directory by name. All other paths lead outside of it. -/
structure Directory where
  files : List (String × String) := []

namespace Directory

/-- Directories at the root of the system. -/
def systemDirectories : List String :=
  ["bin", "dev", "etc", "home", "opt", "proc", "root", "run", "sys", "tmp", "usr", "var"]

/-- The longest name of a file, in bytes. -/
def nameLimit : Nat := 255

/-- Where a path has led so far: to the working directory, to a directory outside of it, or to a
file. -/
inductive Place where
  | inside
  | outside
  | file (text : String)

/-- One step of a path. -/
def step (d : Directory) (p : Place) (name : String) : Except WriteFault Place :=
  match p, name with
  | .file _, _ => .error .notDirectory
  | p, "" | p, "." => .ok p
  | .inside, ".." | .outside, ".." => .ok .outside
  | .outside, "null" => .ok (.file "")
  | .outside, name => if systemDirectories.contains name then .ok .outside else .error .missing
  | .inside, name =>
    match d.files.lookup name with
    | some text => .ok (.file text)
    | none => .error (if name.utf8ByteSize > nameLimit then .nameTooLong else .missing)

/-- Some steps of a path, which start at the root for a path that begins with a slash. -/
def follow (d : Directory) (path : String) (steps : List String) : Except WriteFault Place :=
  steps.foldlM d.step (if path.startsWith "/" then .outside else .inside)

/-- What a path leads to. -/
def look (d : Directory) (path : String) : Option PathEntry :=
  match if path.isEmpty then .error .missing else d.follow path (path.splitOn "/") with
  | .ok (.file text) => some (.file text)
  | .ok _ => some .directory
  | .error _ => none

/-- The directory after a text is written at a path. What is written outside of it is not kept. -/
def write (d : Directory) (path text : String) : Except WriteFault Directory := do
  if path.isEmpty then throw .missing
  let named := String.ofList (path.toList.reverse.dropWhile (· == '/')).reverse
  let steps := named.splitOn "/"
  let name := steps.getLast?.getD ""
  match ← d.follow path steps.dropLast with
  | .file _ => throw .notDirectory
  | place =>
    if named != path || ["", ".", ".."].contains name then throw .isDirectory
    if name.utf8ByteSize > nameLimit then throw .nameTooLong
    match place with
    | .inside => return ⟨(name, text) :: d.files⟩
    | _ => if systemDirectories.contains name then throw .isDirectory else return d

/-- What a command line writes as its output, or how it fails, and the directory after it. -/
def run (d : Directory) (words : List String) : Outcome × Directory :=
  let outcome := Outcome.ofList d.look words
  match outcome.result with
  | .ok ⟨text, some target⟩ =>
    match d.write target text with
    | .ok d' => ({ outcome with result := .ok ⟨"", none⟩ }, d')
    | .error fault => ({ outcome with result := .error (.cannotWrite target fault) }, d)
  | _ => (outcome, d)

end Directory

end CommandLine

end PanelLayout
