import PanelLayout.Number
import PanelLayout.Text.Quoted

/-!
# JSON values

Layouts arrive as JSON. Objects keep their members in written order, and numbers keep apart whole
numbers of any size and doubles.
-/

namespace PanelLayout

/-- A JSON value. Its texts and keys are made of characters: there is none with half of a surrogate
pair alone. -/
inductive Json where
  | null
  | bool (b : Bool)
  | number (n : Number)
  | text (s : String)
  | array (items : List Json)
  | object (members : List (String × Json))

namespace Json

instance : Inhabited Json := ⟨.null⟩

mutual
private def decEq : (a b : Json) → Decidable (a = b)
  | .null, b =>
    match b with
    | .null => isTrue rfl
    | .bool _ | .number _ | .text _ | .array _ | .object _ => isFalse nofun
  | .bool x, b =>
    match b with
    | .bool y => decidable_of_iff (x = y) (by rw [bool.injEq])
    | .null | .number _ | .text _ | .array _ | .object _ => isFalse nofun
  | .number m, b =>
    match b with
    | .number n => decidable_of_iff (m = n) (by rw [number.injEq])
    | .null | .bool _ | .text _ | .array _ | .object _ => isFalse nofun
  | .text s, b =>
    match b with
    | .text t => decidable_of_iff (s = t) (by rw [text.injEq])
    | .null | .bool _ | .number _ | .array _ | .object _ => isFalse nofun
  | .array as, b =>
    match b with
    | .array bs => have := decEqItems as bs; decidable_of_iff (as = bs) (by rw [array.injEq])
    | .null | .bool _ | .number _ | .text _ | .object _ => isFalse nofun
  | .object as, b =>
    match b with
    | .object bs => have := decEqMembers as bs; decidable_of_iff (as = bs) (by rw [object.injEq])
    | .null | .bool _ | .number _ | .text _ | .array _ => isFalse nofun

private def decEqItems : (as bs : List Json) → Decidable (as = bs)
  | [], [] => isTrue rfl
  | [], _ :: _ | _ :: _, [] => isFalse nofun
  | a :: as, b :: bs =>
    have := decEq a b
    have := decEqItems as bs
    decidable_of_iff (a = b ∧ as = bs) (by rw [List.cons.injEq])

private def decEqMembers : (as bs : List (String × Json)) → Decidable (as = bs)
  | [], [] => isTrue rfl
  | [], _ :: _ | _ :: _, [] => isFalse nofun
  | (key, a) :: as, (key', b) :: bs =>
    have := decEq a b
    have := decEqMembers as bs
    decidable_of_iff ((key = key' ∧ a = b) ∧ as = bs) (by rw [List.cons.injEq, Prod.mk.injEq])
end

instance : DecidableEq Json := decEq

/-- The kinds of value that a message can name. -/
inductive Kind where
  | null
  | bool
  | int
  | double
  | text
  | array
  | object
  deriving DecidableEq, Repr

def kind : Json → Kind
  | .null => .null
  | .bool _ => .bool
  | .number (.int _) => .int
  | .number (.double _) => .double
  | .number (.flag _) => .bool
  | .text _ => .text
  | .array _ => .array
  | .object _ => .object

/-- The kind as messages name it. -/
def Kind.name : Kind → String
  | .null => "NoneType"
  | .bool => "bool"
  | .int => "int"
  | .double => "float"
  | .text => "str"
  | .array => "list"
  | .object => "dict"

/-- The value under a key. -/
def get? (members : List (String × Json)) (key : String) : Option Json := members.lookup key

/-- The value under a key, where an absent key and `null` mean the same. -/
def getSome? (members : List (String × Json)) (key : String) : Option Json :=
  match get? members key with
  | some .null => none
  | v => v

/-- Whether a value counts as set: everything but `null`, `false`, zero and what is empty. -/
def isTruthy : Json → Bool
  | .null => false
  | .bool b => b
  | .number n => !n.equals (.int 0)
  | .text s => !s.isEmpty
  | .array items => !items.isEmpty
  | .object members => !members.isEmpty

/-- The number that a value is; a flag counts as one. -/
def number? : Json → Option Number
  | .number n => some n
  | .bool b => some (.flag b)
  | _ => none

/-- A number as a value. -/
def ofNumber : Number → Json
  | .flag b => .bool b
  | n => .number n

mutual
/-- Equality by content. A flag equals the number one or zero, and the order of members does not
matter. -/
def equals : Json → Json → Bool
  | .null, .null => true
  | .bool a, .bool b => a == b
  | .bool a, .number b => (Number.flag a).equals b
  | .number a, .bool b => a.equals (.flag b)
  | .number a, .number b => a.equals b
  | .text a, .text b => a == b
  | .array a, .array b => equalItems a b
  | .object a, .object b => a.length == b.length && equalMembers a b
  | _, _ => false

def equalItems : List Json → List Json → Bool
  | [], [] => true
  | a :: as, b :: bs => equals a b && equalItems as bs
  | _, _ => false

def equalMembers : List (String × Json) → List (String × Json) → Bool
  | [], _ => true
  | (key, a) :: as, bs =>
    (match bs.lookup key with
      | some b => equals a b
      | none => false) && equalMembers as bs
end

mutual
/-- The value as messages show it: text in quotes, the three constants with a capital letter. -/
def shown : Json → String
  | .null => "None"
  | .bool b => if b then "True" else "False"
  | .number n => n.text
  | .text s => quoted s
  | .array items => "[" ++ String.intercalate ", " (shownItems items) ++ "]"
  | .object members => "\x7b" ++ String.intercalate ", " (shownMembers members) ++ "\x7d"

def shownItems : List Json → List String
  | [] => []
  | item :: items => shown item :: shownItems items

def shownMembers : List (String × Json) → List String
  | [] => []
  | (key, value) :: members => (quoted key ++ ": " ++ shown value) :: shownMembers members
end

/-- The value as running text, where a text stands as it is. -/
def plain : Json → String
  | .text s => s
  | v => v.shown

end Json

end PanelLayout
