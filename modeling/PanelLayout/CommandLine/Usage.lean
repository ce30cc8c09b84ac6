import PanelLayout.LayoutError

/-!
# Usage

The switches of the commands, and what can be wrong with the words of a command line.
-/

namespace PanelLayout

namespace CommandLine

inductive Switch where
  | size
  | own
  | define
  | preface
  | pixels
  | warnings
  | format
  deriving DecidableEq, Repr

namespace Switch

/-- Long names. Where there are several, they are the values of the switch. -/
def names : Switch → List String
  | .size => ["size"]
  | .own => ["own"]
  | .define => ["define"]
  | .preface => ["preface", "no-preface"]
  | .pixels => ["pixels"]
  | .warnings => ["warnings"]
  | .format => ["format"]

def letter? : Switch → Option Char
  | .size => some 's'
  | .own => some 'o'
  | .define => some 'D'
  | .format => some 'f'
  | .preface | .pixels | .warnings => none

/-- Whether the switch is followed by a value. -/
def takesValue (s : Switch) : Bool := s.names.length = 1

/-- The switch as usage errors name it. -/
def shown (s : Switch) : String :=
  let long := s.names.map fun name => "'--" ++ name ++ "'"
  let short := s.letter?.toList.map fun c => String.ofList ['\'', '-', c, '\'']
  String.intercalate " / " (short ++ long)

end Switch

/-- What is wrong with the words of a command line. -/
inductive UsageError where
  | missingCommand
  | unknownCommand (name : String)
  | unknownSwitch (written : String)
  /-- A switch at the end that needs a value. -/
  | missingValue (written : String)
  /-- A value for a switch that takes none. -/
  | unwantedValue (written : String)
  | notSize (s : Switch) (written : String)
  | notDefinition (written : String)
  | notChoice (s : Switch) (written : String) (choices : List String)
  /-- A variable that cannot be defined. -/
  | refusedDefinition (e : LayoutError)
  | missingArgument (name : String)
  | noFile (written : String)
  | directory (written : String)
  /-- A path that the system does not take. -/
  | notPath
  | notWhole (name written : String)
  | extraArguments (written : List String)

def badValue (of reason : String) : String := "Invalid value for " ++ of ++ ": " ++ reason

def UsageError.message : UsageError → String
  | .missingCommand => "Missing command."
  | .unknownCommand name => s!"No such command {quoted name}."
  | .unknownSwitch written => "No such option: " ++ written
  | .missingValue written => s!"Option {quoted written} requires an argument."
  | .unwantedValue written => s!"Option {quoted written} does not take a value."
  | .notSize s written =>
    badValue s.shown (quoted written ++
      " is not a valid size. A size is given as \"[width]x[height]\", e.g. \"800x600\".")
  | .notDefinition written =>
    badValue Switch.define.shown (quoted written ++
      " is not a valid variable definition. Use \"[name]=[number]\", e.g. \"scroll=0.5\".")
  | .notChoice s written choices =>
    badValue s.shown
      (quoted written ++ " is not one of " ++ String.intercalate ", " (choices.map quoted) ++ ".")
  | .refusedDefinition e => badValue "--define" e.message
  | .missingArgument name => s!"Missing argument '{name}'."
  | .noFile written => badValue "'PATH'" s!"File {quoted written} does not exist."
  | .directory written => badValue "'PATH'" s!"File {quoted written} is a directory."
  | .notPath => ConversionError.notPath.message
  | .notWhole name written => badValue s!"'{name}'" (quoted written ++ " is not a valid integer.")
  | .extraArguments [written] => s!"Got unexpected extra argument ({written})"
  | .extraArguments written =>
    "Got unexpected extra arguments (" ++ String.intercalate " " written ++ ")"

end CommandLine

end PanelLayout
