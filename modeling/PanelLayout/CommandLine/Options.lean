import PanelLayout.CommandLine.Words
import PanelLayout.Decimal.Numeral
import PanelLayout.Pixel
import PanelLayout.Rectangle

/-!
# Options

What the switches of a command line say. Of several values of one switch the last one counts, except
that every definition counts.
-/

namespace PanelLayout

namespace CommandLine

/-- A size in pixels, finite and not negative. -/
structure Size where
  width : Double
  height : Double

/-- Two numerals with `x` or a comma between them. -/
def Size.ofText? (s : String) : Option Size :=
  let isLength (x : Double) := x.isFinite && !x.lt (.zero false)
  match String.splitOn (s.map fun c => if c = ',' then 'x' else c) "x" with
  | [w, h] => do
    let w ← Double.ofNumeral? w
    let h ← Double.ofNumeral? h
    if isLength w && isLength h then return ⟨w, h⟩ else none
  | _ => none

/-- The rectangle of a window, in whole pixels. -/
def Size.window (s : Size) : Rectangle :=
  .ofInts 0 0 (s.width.truncate?.getD 0) (s.height.truncate?.getD 0)

/-- A name and a numeral with an equals sign between them. -/
def definitionOfText? (s : String) : Option (String × Double) :=
  let cs := s.toList
  match cs.dropWhile (· != '=') with
  | [] => none
  | _ :: value => do
    let x ← Double.ofNumeral? (String.ofList value)
    return (String.ofList (trimBlanks isBlank (cs.takeWhile (· != '='))), x)

/-- The form in which a layout pass is written. -/
inductive Format where
  | text
  | json
  | svg
  deriving DecidableEq, Repr

structure Options where
  size : Size := ⟨.ofInt 800, .ofInt 600⟩
  own : Option Size := none
  definitions : List (String × Double) := []
  /-- Whether an expression may begin with the marker of end coordinates. -/
  preface : Bool := false
  pixels : Option Rounding := none
  /-- Whether warnings are shown. -/
  warns : Bool := true
  format : Format := .text

namespace Options

/-- The choice that a word names. -/
def choose {α : Type} (s : Switch) (choices : List (String × α)) (written : String) :
    Except UsageError α :=
  match choices.lookup written with
  | some a => .ok a
  | none => .error (.notChoice s written (choices.map Prod.fst))

def sizeOf (s : Switch) (written : String) : Except UsageError Size :=
  match Size.ofText? written with
  | some size => .ok size
  | none => .error (.notSize s written)

def definitionOf (written : String) : Except UsageError (String × Double) :=
  match definitionOfText? written with
  | some definition => .ok definition
  | none => .error (.notDefinition written)

/-- The options with what one switch says; `last` is the last of its `values`. -/
def set (o : Options) (s : Switch) (values : List String) (last : String) :
    Except UsageError Options :=
  match s with
  | .size => do return { o with size := ← sizeOf s last }
  | .own => do return { o with own := some (← sizeOf s last) }
  | .define => do return { o with definitions := ← values.mapM definitionOf }
  | .preface => .ok { o with preface := last = "preface" }
  | .pixels => do
    let modes := [Rounding.truncate, .nearest].map fun r => (r.name, r)
    return { o with pixels := some (← choose s modes last) }
  | .warnings => do
    let choices := [("default", true), ("ignore", false), ("once", true)]
    return { o with warns := ← choose s choices last }
  | .format => do
    let choices := [("text", .text), ("json", .json), ("svg", .svg)]
    return { o with format := ← choose s choices last }

/-- What the switches among some words say. -/
def ofWords (ws : Words) : Except UsageError Options :=
  ws.given.foldlM (fun o s => o.set s (ws.values s) ((ws.values s).getLast?.getD "")) {}

end Options

end CommandLine

end PanelLayout
