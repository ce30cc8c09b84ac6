import PanelLayout.CommandLine.Command
import PanelLayout.Document
import PanelLayout.Drawing
import PanelLayout.HitTest
import PanelLayout.Json.Reader
import PanelLayout.Json.Writer
import PanelLayout.Listing
import PanelLayout.Text.TerminalCode

/-!
# Outcomes

What a command line does, given the files that it may read: the text that it writes, the warnings
that it shows, and how it fails.
-/

namespace PanelLayout

namespace CommandLine

/-- Why the document in a file cannot be laid out at all. -/
inductive LoadError where
  /-- The text of the file is no JSON. -/
  | json (text : String) (fault : Json.FaultAt)
  | layout (e : LayoutError)

def LoadError.message : LoadError → String
  | .json text fault => fault.message text
  | .layout e => e.message

/-- Why a run fails. -/
inductive Failure where
  | usage (e : UsageError)
  | cannotLoad (path : String) (e : LoadError)
  /-- An expression cannot be read or evaluated. -/
  | refused (e : LayoutError)
  | nothingHit
  /-- The result cannot be written into a file. -/
  | cannotWrite (path : String) (fault : WriteFault)
  /-- An error for which no message is foreseen. -/
  | unforeseen (e : LayoutError)

namespace Failure

def exitCode : Failure → Nat
  | .usage _ => 2
  | _ => 1

/-- An error as it is told, without terminal codes. -/
def told (message : String) : String := "Error: " ++ String.ofList (withoutCodes message.toList)

def message : Failure → String
  | .usage e => told e.message
  | .cannotLoad path e => told ("Cannot load layout " ++ path ++ ": " ++ e.message)
  | .refused e | .unforeseen e => told e.message
  | .nothingHit => "No component at this position"
  | .cannotWrite path fault => told ("Could not open file " ++ quoted path ++ ": " ++ fault.message)

/-- The failure of an evaluation or of a layout pass. -/
def ofLayoutError (e : LayoutError) : Failure :=
  match e.category with
  | .parse | .unresolved => .refused e
  | _ => .unforeseen e

/-- The failure to build the tree of a document. -/
def ofLoading (path : String) (e : LayoutError) : Failure :=
  match e.category with
  | .parse | .value | .type => .cannotLoad path (.layout e)
  | _ => .unforeseen e

end Failure

/-- What a run writes, into a file or as its output. -/
structure Written where
  text : String
  target : Option String := none

structure Outcome where
  warnings : List Warning := []
  result : Except Failure Written

namespace Outcome

def written (text : String) (target : Option String := none) : Outcome :=
  { result := .ok ⟨text, target⟩ }

def failed (f : Failure) : Outcome := { result := .error f }

/-- A computation and what is done with its value. -/
def after {α : Type} (r : Report α) (failure : LayoutError → Failure) (next : α → Outcome) :
    Outcome :=
  match r.result with
  | .error e => ⟨r.warnings, .error (failure e)⟩
  | .ok a => { next a with warnings := r.warnings ++ (next a).warnings }

/-- Lines that end in one way only, whatever way they ended in. -/
def unifyLines : List Char → List Char
  | [] => []
  | '\r' :: '\n' :: cs => '\n' :: unifyLines cs
  | '\r' :: cs => '\n' :: unifyLines cs
  | c :: cs => c :: unifyLines cs

/-- The name of a file without steps that lead nowhere. -/
def plainPath (path : String) : String :=
  let root := if path.startsWith "/" then "/" else ""
  let steps := (path.splitOn "/").filter fun step => step != "" && step != "."
  if root.isEmpty && steps.isEmpty then "." else root ++ String.intercalate "/" steps

/-- What is done with the tree of the document in a file. -/
def withRoot (path content : String) (next : Element → Outcome) : Outcome :=
  let text := String.ofList (unifyLines content.toList)
  match Json.ofText text with
  | .error fault =>
    if fault.fault = .tooDeep then failed (.unforeseen .endless)
    else failed (.cannotLoad (plainPath path) (.json text fault))
  | .ok v => after (Document.loadPanel v) (.ofLoading (plainPath path)) next

/-- The outcome of evaluating an expression. -/
def ofEvaluation (o : Options) (source : String) : Outcome :=
  match o.definitions.foldlM (fun vs d => vs.define (.text d.1) (.number (.double d.2)))
    ({} : Variables) with
  | .error e => failed (.usage (.refusedDefinition e))
  | .ok registry =>
    let evaluation : Report String := do
      let rules : ReadingRules := { extended := o.own.isSome, preface := o.preface }
      let e ← Report.ofExcept ((Expression.read rules source).mapError .parse)
      let own := o.own.map fun s => (Number.double s.width, Number.double s.height)
      let x ← registry.evaluate e (.double o.size.width) (.double o.size.height) own
      let value := x.significantText 6 ++ (if e.ends then " (end coordinate)\n" else "\n")
      match o.pixels with
      | none => return value
      | some mode => do
        let n ← x.toPixel mode
        return s!"{value}{n} px\n"
    after evaluation .ofLayoutError written

/-- A layout pass in some format. -/
def formatted (format : Format) (window : Rectangle) (placements : List Placement) :
    Except NumberError String :=
  match format with
  | .text => .ok (Listing.text placements)
  | .json => .ok ((Listing.json placements).indented 0 ++ "\n")
  | .svg => do return (← Drawing.ofPlacements placements window.width window.height).render

/-- The outcome of laying out the document in a file. -/
def ofLayout (o : Options) (path content : String) (target : Option String) : Outcome :=
  withRoot path content fun root =>
    let pass : Report String := do
      let placements ← root.layout o.size.window
      Report.ofNumber (formatted o.format o.size.window placements)
    after pass .ofLayoutError fun text =>
      if target.all isPath then written text target else failed (.unforeseen (.conversion .notPath))

/-- How a component that was hit is told: by its name if it has one. -/
def hitText (p : Placement) : String :=
  let name := p.component.name
  let told := if name.isTruthy then name.plain else p.component.shown (Element.kindName p.isPanel)
  String.ofList (withoutCodes told.toList) ++ "\n"

/-- The outcome of looking for the component at a point. -/
def ofHit (o : Options) (path content : String) (px py : Int) (index : PlaneIndex := .ofDoubles) :
    Outcome :=
  withRoot path content fun root =>
    after (root.hit? o.size.window px py index) .ofLayoutError fun found =>
      match found with
      | none => failed .nothingHit
      | some p => written (hitText p)

/-- The number of this program's release. -/
def releaseNumber : String := "1.0.0"

/-- The text of the file at a path, empty where there is no file. -/
def textAt (look : String → Option PathEntry) (path : String) : String :=
  match look path with
  | some (.file text) => text
  | _ => ""

/-- The outcome of a command; `look` tells what paths lead to. -/
def ofCommand (look : String → Option PathEntry) (o : Options) : Command → Outcome
  | .version => written ("Version " ++ releaseNumber ++ "\n")
  | .evaluate expression => ofEvaluation o expression
  | .layout path target => ofLayout o path (textAt look path) target
  | .hit path px py => ofHit o path (textAt look path) px py

/-- The outcome of a command line. -/
def ofList (look : String → Option PathEntry) (words : List String) : Outcome :=
  match Command.ofList look false words with
  | .error .notPath => failed (.unforeseen (.conversion .notPath))
  | .error e => failed (.usage e)
  | .ok (command, o) =>
    let outcome := ofCommand look o command
    if o.warns then outcome else { outcome with warnings := [] }

end Outcome

end CommandLine

end PanelLayout
