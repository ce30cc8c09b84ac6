import PanelLayout.CommandLine.Files
import PanelLayout.CommandLine.Options

/-!
# Commands

The command that the words of a command line stand for.
-/

namespace PanelLayout

namespace CommandLine

inductive Command where
  | version
  /-- Evaluate an expression. -/
  | evaluate (expression : String)
  /-- Lay out the document in a file, and write the result to another file or to the output. -/
  | layout (path : String) (target : Option String)
  /-- Tell which component of the document in a file is at a point. -/
  | hit (path : String) (px py : Int)

namespace Command

/-- The next argument. -/
def argument (name : String) : List String → Except UsageError (String × List String)
  | [] => .error (.missingArgument name)
  | word :: rest => .ok (word, rest)

/-- The next argument, the name of a file that there is. -/
def fileArgument (look : String → Option PathEntry) (words : List String) :
    Except UsageError (String × List String) := do
  let (path, rest) ← argument "PATH" words
  if !isPath path then throw .notPath
  match look path with
  | some (.file _) => return (path, rest)
  | some .directory => throw (.directory path)
  | none => throw (.noFile path)

/-- The next argument, a whole number. -/
def wholeArgument (name : String) (words : List String) :
    Except UsageError (Int × List String) := do
  let (written, rest) ← argument name words
  match intOfNumeral? written with
  | some n => return (n, rest)
  | none => throw (.notWhole name written)

/-- Refuses more arguments. -/
def noMore : List String → Except UsageError Unit
  | [] => .ok ()
  | words => .error (.extraArguments words)

/-- The command of a given name with its options. -/
def ofName (look : String → Option PathEntry) (name : String) (words : List String) :
    Except UsageError (Command × Options) :=
  match name with
  | "eval" => do
    let ws ← Words.ofList [.warnings, .size, .own, .define, .preface, .pixels] words
    let o ← Options.ofWords ws
    let (expression, rest) ← argument "EXPRESSION" ws.others
    noMore rest
    return (.evaluate expression, o)
  | "layout" => do
    let ws ← Words.ofList [.warnings, .size, .format] words
    let o ← Options.ofWords ws
    let (path, rest) ← fileArgument look ws.others
    noMore (rest.drop 1)
    return (.layout path (rest.head?.filter (· != "-")), o)
  | "hit" => do
    let ws ← Words.ofList [.warnings, .size] words
    let o ← Options.ofWords ws
    let (path, rest) ← fileArgument look ws.others
    let (px, rest) ← wholeArgument "X" rest
    let (py, rest) ← wholeArgument "Y" rest
    noMore rest
    return (.hit path px py, o)
  | name => .error (.unknownCommand name)

/-- The command of a whole command line, where the version may be asked for before the name of a
command. -/
def ofList (look : String → Option PathEntry) (version : Bool) :
    List String → Except UsageError (Command × Options)
  | [] => if version then .ok (.version, {}) else .error .missingCommand
  | word :: rest =>
    if word = "--version" then ofList look true rest
    else if word.startsWith "-" && word.length > 1 && word != "--" then .error (.unknownSwitch word)
    else if version then .ok (.version, {})
    else
      match if word = "--" then rest else word :: rest with
      | [] => .error .missingCommand
      | name :: words => ofName look name words

end Command

end CommandLine

end PanelLayout
