/-!
# Terminal codes

Codes that steer a terminal, such as a change of colour: an escape character and a bracket, some
parameters, some intermediate characters, and a final one. Lines that may be read by a program are
written without them.
-/

namespace PanelLayout

/-- Digits and marks between the bracket and the rest of a code. -/
def isCodeParameter (c : Char) : Bool := '0' ≤ c && c ≤ '?'

/-- Characters between the parameters and the end of a code. -/
def isCodeIntermediate (c : Char) : Bool := ' ' ≤ c && c ≤ '/'

/-- Characters that end a code. -/
def isCodeFinal (c : Char) : Bool := '@' ≤ c && c ≤ '~'

/-- The text behind a code, where its bracket has just been read. -/
def afterCode? (cs : List Char) : Option (List Char) :=
  match (cs.dropWhile isCodeParameter).dropWhile isCodeIntermediate with
  | c :: rest => if isCodeFinal c then some rest else none
  | [] => none

theorem length_lt_of_afterCode? {cs rest : List Char} (h : afterCode? cs = some rest) :
    rest.length < cs.length := by
  have hp := (List.dropWhile_sublist isCodeParameter (l := cs)).length_le
  have hi :=
    (List.dropWhile_sublist isCodeIntermediate (l := cs.dropWhile isCodeParameter)).length_le
  unfold afterCode? at h
  split at h
  · next c tail heq =>
    split at h
    · cases h
      rw [heq, List.length_cons] at hi
      omega
    · cases h
  · cases h

/-- The text without terminal codes. -/
def withoutCodes : List Char → List Char
  | [] => []
  | '\x1b' :: '[' :: cs =>
    match _h : afterCode? cs with
    | some rest => withoutCodes rest
    | none => '\x1b' :: '[' :: withoutCodes cs
  | c :: cs => c :: withoutCodes cs
termination_by cs => cs.length
decreasing_by
  · have := length_lt_of_afterCode? ‹_›
    simp only [List.length_cons]
    omega
  all_goals simp only [List.length_cons]; omega

end PanelLayout
