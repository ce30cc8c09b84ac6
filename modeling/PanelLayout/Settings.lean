import PanelLayout.Pixel
import PanelLayout.Text.Alphanumeric

/-!
# Settings

How lengths are rounded, at which height text has its natural size, and which character marks an end
coordinate. Every change is checked.
-/

namespace PanelLayout

/-- The height of the root container at which text has its natural size. -/
structure TextFactor where
  value : Nat
  /-- The factor as it was given. -/
  shown : String
  positive : 0 < value

/-- The factor of a layout that names none. -/
def TextFactor.standard : TextFactor := ⟨370, "370", by decide⟩

/-- A JSON value as a text factor: a positive whole number or `true`. -/
def TextFactor.ofJson? (v : Json) : Option TextFactor :=
  match v with
  | .number (.int n) => if h : 0 < n.toNat then some ⟨n.toNat, v.shown, h⟩ else none
  | .bool true => some ⟨1, v.shown, Nat.one_pos⟩
  | _ => none

/-- Whether a character can mark an end coordinate: none that an expression can start with. -/
def isMarker (c : Char) : Bool :=
  !(isAlphanumeric c || ['+', '-', '*', '/', '(', ')', '.', '_'].contains c || isBlank c)

/-- A JSON value as a marker. -/
def markerOfJson? : Json → Option Char
  | .text s =>
    match s.toList with
    | [c] => if isMarker c then some c else none
    | _ => none
  | _ => none

structure Settings where
  gridRounding : Rounding := .truncate
  freeRounding : Rounding := .nearest
  textFactor : TextFactor := .standard
  marker : Char := '?'

namespace Settings

instance : Inhabited Settings := ⟨{}⟩

def roundingOf (key : String) (value : Json) : Except LayoutError Rounding :=
  match value with
  | .text s =>
    match Rounding.ofName? s with
    | some mode => .ok mode
    | none => .error (.roundingSetting key value)
  | _ => .error (.roundingSetting key value)

/-- Changes one setting. Other names than those of the settings change nothing. -/
def set (s : Settings) (key : String) (value : Json) : Except LayoutError Settings :=
  match key with
  | "grid_rounding" => do return { s with gridRounding := ← roundingOf key value }
  | "free_rounding" => do return { s with freeRounding := ← roundingOf key value }
  | "text_resize_factor" =>
    match TextFactor.ofJson? value with
    | some f => .ok { s with textFactor := f }
    | none => .error (.textFactor value)
  | "preface_marker" =>
    match markerOfJson? value with
    | some c => .ok { s with marker := c }
    | none => .error (.marker value)
  | _ => .ok s

/-- The names of the settings. -/
def keys : List String := ["grid_rounding", "free_rounding", "text_resize_factor", "preface_marker"]

/-- Settings from the members of an object. Names are checked before values, and values in the order
of the settings. -/
def ofMembers (members : List (String × Json)) : Except LayoutError Settings :=
  match members.find? fun m => !keys.contains m.1 with
  | some m => .error (.conversion (.unknownSetting m.1))
  | none =>
    keys.foldlM (fun s key =>
      match members.lookup key with
      | some value => s.set key value
      | none => .ok s) {}

def equals (s t : Settings) : Bool :=
  s.gridRounding == t.gridRounding && s.freeRounding == t.freeRounding &&
    s.textFactor.value == t.textFactor.value && s.marker == t.marker

def shown (s : Settings) : String :=
  s!"<Layout settings: grid={s.gridRounding.name} free={s.freeRounding.name} " ++
    s!"text_factor={s.textFactor.shown} marker={quoted (String.singleton s.marker)}>"

end Settings

end PanelLayout
