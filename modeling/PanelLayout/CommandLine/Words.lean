import PanelLayout.CommandLine.Usage

/-!
# Words of a command line

Switches may stand anywhere among the other words, up to a lone pair of dashes. A value follows its
switch in the next word, after an equals sign or directly behind the letter.
-/

namespace PanelLayout

namespace CommandLine

/-- The words of a command line, sorted into switches with their values and others. -/
structure Words where
  switches : List (Switch × String) := []
  others : List String := []

namespace Words

/-- What one word is. -/
inductive Role where
  | other
  | switch (s : Switch) (value : String)
  /-- A switch whose value is the next word. -/
  | valueNext (s : Switch)

/-- The role of a word that begins with two dashes. -/
def longRole (known : List Switch) (body : List Char) : Except UsageError Role :=
  let name := String.ofList (body.takeWhile (· != '='))
  match known.find? fun s => s.names.contains name, body.dropWhile (· != '=') with
  | none, _ => .error (.unknownSwitch ("--" ++ name))
  | some s, [] => .ok (if s.takesValue then .valueNext s else .switch s name)
  | some s, _ :: value =>
    if s.takesValue then .ok (.switch s (String.ofList value))
      else .error (.unwantedValue ("--" ++ name))

/-- The role of a word that begins with one dash and a letter. -/
def shortRole (known : List Switch) (letter : Char) (value : List Char) : Except UsageError Role :=
  match known.find? fun s => s.letter? = some letter with
  | none => .error (.unknownSwitch (String.ofList ['-', letter]))
  | some s => .ok (if value.isEmpty then .valueNext s else .switch s (String.ofList value))

def role (known : List Switch) (word : String) : Except UsageError Role :=
  match word.toList with
  | '-' :: '-' :: body => longRole known body
  | '-' :: letter :: value => shortRole known letter value
  | _ => .ok .other

/-- The words of a command that has some switches. -/
def ofList (known : List Switch) : List String → Except UsageError Words
  | [] => .ok {}
  | word :: rest =>
    if word = "--" then .ok { others := rest }
    else do
      match ← role known word, rest with
      | .other, rest => do
        let ws ← ofList known rest
        return { ws with others := word :: ws.others }
      | .switch s value, rest => do
        let ws ← ofList known rest
        return { ws with switches := (s, value) :: ws.switches }
      | .valueNext _, [] => .error (.missingValue word)
      | .valueNext s, value :: rest => do
        let ws ← ofList known rest
        return { ws with switches := (s, value) :: ws.switches }

/-- The values given to a switch, in order. -/
def values (ws : Words) (s : Switch) : List String :=
  ws.switches.filterMap fun given => if given.1 = s then some given.2 else none

/-- The switches that are given, each once, in the order of their first use. -/
def given (ws : Words) : List Switch := (ws.switches.map Prod.fst).eraseDups

end Words

end CommandLine

end PanelLayout
