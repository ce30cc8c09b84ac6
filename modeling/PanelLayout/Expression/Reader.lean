import PanelLayout.Expression.Columns
import PanelLayout.Expression.Misplaced

/-!
# Reading expressions

From text to expression: words, their form, then the names. Where no own size is known, its names
are refused; a leading marker turns a size into an end coordinate where that is allowed.
-/

namespace PanelLayout

/-- Most parentheses that may be open at once. -/
def openLimit : Nat := 200

/-- Most nodes in a row from the outermost one inwards. -/
def depthLimit : Nat := 900

/-- How deeply an expression may nest. -/
structure NestingLimits where
  openings : Nat := openLimit
  depth : Nat := depthLimit
  /-- Whether the parser has no room left for reading some words. -/
  exhausts : List Lexeme → Bool := fun _ => false

/-- How an expression may be written. -/
structure ReadingRules where
  /-- The names of the own size may be used. -/
  extended : Bool := false
  /-- A leading marker may turn the expression into an end coordinate. -/
  preface : Bool := false
  marker : String := "?"
  limits : NestingLimits := {}

/-- What a name refers to; nothing if it means the own size where none is known. -/
def resolveName (extended : Bool) (name : String) : Option Variable :=
  if builtinNames.contains name then some ⟨name, .container⟩
  else if builtinNames.contains name.toLower && name == name.toUpper then
    if extended then some ⟨name.toLower, .own⟩ else none
  else some ⟨name, .custom⟩

namespace Surface

/-- The expression that a form stands for. Each node is looked at before its operands and the left
operand before the right one. -/
def resolve (extended : Bool) : Surface → Except FaultAt Expression
  | .number x => .ok (.constant (.double x) false)
  | .name cs position =>
    match resolveName extended (String.ofList cs) with
    | some v => .ok (.variable v false)
    | none => .error ⟨.ownSize (String.ofList cs), position⟩
  | .signed false e => e.resolve extended
  | .signed true e => do return .negation (← e.resolve extended) false
  | .operation op l r => do
    let l ← l.resolve extended
    let r ← r.resolve extended
    return .operation op l r false
  | .empty position => .error ⟨.emptyParentheses, position⟩
  | .call _ position => .error ⟨.called, position⟩
  | .callWith _ _ position => .error ⟨.called, position⟩

end Surface

/-- The parenthesis that would be open beyond the limit, where `depth` are open before. -/
def excessOpening? (limit : Nat) : Nat → List Token → Option Nat
  | _, [] => none
  | depth, ⟨.opening, position⟩ :: ts =>
    if depth = limit then some position else excessOpening? limit (depth + 1) ts
  | depth, ⟨.closing, _⟩ :: ts => excessOpening? limit (depth - 1) ts
  | depth, _ :: ts => excessOpening? limit depth ts

namespace Surface

/-- What the words of a line form, within the limit on open parentheses. A failure is located by its
column. -/
def ofLine (limit : Nat) (ts : List Token) : Except FaultAt Surface :=
  match excessOpening? limit 0 ts with
  | some column => .error ⟨.misformed, column⟩
  | none =>
    match ofTokens ts with
    | .ok surface => .ok surface
    | .error rest => .error ⟨.misformed, Misplaced.columnOf (Misplaced.offset ts rest)⟩

end Surface

namespace Expression

/-- A fault at a column of a line, located in a source of `size` characters. -/
def located (ts : List Token) (size : Nat) (f : FaultAt) : FaultAt :=
  ⟨f.fault, min (sourcePosition (columnTable ts) f.position) size⟩

/-- The expression that some words stand for, which are those of a source of `size` characters from
`start` on. -/
def ofTokens (limits : NestingLimits) (extended : Bool) (size start : Nat) (ts : List Token) :
    Except FaultAt Expression :=
  if limits.exhausts (words ts) then .error ⟨.tooDeep, start⟩
  else do
    let surface ← (Surface.ofLine limits.openings (line ts)).mapError (located ts size)
    if surface.depth > limits.depth then .error ⟨.tooDeep, start⟩
    else (surface.resolve extended).mapError (located ts size)

/-- Length of the marker that a text starts with, if it does and may. -/
def markerLength? (rules : ReadingRules) (source : String) : Option Nat :=
  if rules.preface && rules.marker.toList.isPrefixOf source.toList
    then some rules.marker.length else none

/-- The expression that a text writes. -/
def read (rules : ReadingRules) (source : String) : Except ParseError Expression :=
  let marker := markerLength? rules source
  let start := marker.getD 0
  let result := do
    let ts ← tokenize source start
    let e ← ofTokens rules.limits rules.extended source.length start ts
    return if marker.isSome then e.markEnd else e
  result.mapError fun f => ⟨f, source⟩

end Expression

end PanelLayout
