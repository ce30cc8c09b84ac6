/-!
# Percent codes

Characters of a path written as a percent sign and two hexadecimal digits.
-/

namespace PanelLayout

/-- The value of a hexadecimal digit. -/
def percentDigit? (c : Char) : Option Nat :=
  if '0' ≤ c ∧ c ≤ '9' then some (c.toNat - 48)
  else if 'a' ≤ c ∧ c ≤ 'f' then some (c.toNat - 87)
  else if 'A' ≤ c ∧ c ≤ 'F' then some (c.toNat - 55)
  else none

/-- The character of a code; beyond ASCII a code is only a part of one, and the replacement
character stands for it. -/
def percentChar (code : Nat) : Char := if code < 128 then Char.ofNat code else '\ufffd'

/-- The text that percent codes stand for. A percent sign without two digits stands for itself. -/
def percentDecoded : List Char → List Char
  | '%' :: a :: b :: cs =>
    match percentDigit? a, percentDigit? b with
    | some high, some low => percentChar (16 * high + low) :: percentDecoded cs
    | _, _ => '%' :: percentDecoded (a :: b :: cs)
  | c :: cs => c :: percentDecoded cs
  | [] => []

end PanelLayout
