import PanelLayout.CommandLine.Outcome

/-!
# Program

The command line. The files that it names are read first, then its outcome is written.
-/

open PanelLayout CommandLine

/-- The code of the system for a directory where a file is wanted. -/
def directoryCode : UInt32 := 21

/-- What a path leads to, if it leads anywhere. -/
def lookAt? (path : String) : IO (Option PathEntry) := do
  try
    return some (.file (← IO.FS.readFile path))
  catch
    | .inappropriateType _ code _ => return if code = directoryCode then some .directory else none
    | _ => return none

/-- Writes a file, or tells why that is not possible. -/
def writeFile? (path text : String) : IO (Option WriteFault) := do
  try
    IO.FS.writeFile path text
    return none
  catch
    | .noFileOrDirectory .. => return some .missing
    | .inappropriateType _ code _ =>
      return some (if code = directoryCode then .isDirectory else .notDirectory)
    | _ => return some .nameTooLong

/-- Tells of a failure and ends with its exit code. -/
def failWith (f : Failure) : IO UInt32 := do
  IO.eprintln f.message
  return f.exitCode.toUInt32

def main (words : List String) : IO UInt32 := do
  let entries ← words.filterMapM fun word => do return (← lookAt? word).map (word, ·)
  let outcome := Outcome.ofList (fun path => entries.lookup path) words
  for w in outcome.warnings do
    IO.eprintln w.message
  match outcome.result with
  | .ok ⟨text, none⟩ =>
    IO.print text
    return 0
  | .ok ⟨text, some target⟩ =>
    match ← writeFile? target text with
    | none => return 0
    | some fault => failWith (.cannotWrite target fault)
  | .error f => failWith f
