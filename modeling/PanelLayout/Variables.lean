import PanelLayout.Json.Conversion
import PanelLayout.Text.Name

/-!
# Custom variables

A registry of named doubles, in the order in which they were first defined. The names of the
container and of the own size cannot be taken.
-/

namespace PanelLayout

structure Variables where
  entries : List (String × Double) := []
  deriving DecidableEq

namespace Variables

instance : Inhabited Variables := ⟨⟨[]⟩⟩

/-- The name that a value gives, if it may be defined. -/
def checkName (name : Json) : Except LayoutError String :=
  match name with
  | .text s =>
    if !isName s || isReserved s then .error (.invalidName name)
    else if builtinNames.contains s.toLower && (s == s.toLower || s == s.toUpper)
      then .error (.builtinName s)
    else .ok s
  | _ => .error (.invalidName name)

def get? (vs : Variables) (name : String) : Option Double := vs.entries.lookup name

/-- Gives a name a value. A name that is defined already keeps its place. -/
def set (vs : Variables) (name : String) (value : Double) : Variables :=
  if (vs.get? name).isSome then ⟨vs.entries.map fun e => if e.1 == name then (name, value) else e⟩
  else ⟨vs.entries ++ [(name, value)]⟩

/-- Defines a variable by JSON values for its name and its value. -/
def define (vs : Variables) (name value : Json) : Except LayoutError Variables := do
  let name ← checkName name
  let value ← value.toDouble.mapError .conversion
  return vs.set name value

/-- Removes a name. -/
def erase (vs : Variables) (name : String) : Variables := ⟨vs.entries.filter (·.1 != name)⟩

/-- Defines each member of an object. -/
def ofMembers (members : List (String × Json)) : Except LayoutError Variables :=
  members.foldlM (fun vs m => vs.define (.text m.1) m.2) {}

/-- What variables mean in a container of a given size, the own size known or not. -/
def context (vs : Variables) (width height : Number) (own : Option (Number × Number) := none) :
    Context :=
  ⟨width, height, own, vs.entries.map fun e => (e.1, .double e.2)⟩

def evaluate (vs : Variables) (e : Expression) (width height : Number)
    (own : Option (Number × Number) := none) :
    Except LayoutError Double :=
  (e.evaluate (vs.context width height own)).mapError .ofEvaluation

/-- The registry as messages show it. -/
def shown (vs : Variables) : String :=
  "<Solver variables=" ++
    (Json.object (vs.entries.map fun e => (e.1, .number (.double e.2)))).shown ++ ">"

end Variables

end PanelLayout
