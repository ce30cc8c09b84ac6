import PanelLayout.Proofs.Expression.Rendering

/-!
# Written numbers

The value of a number that was written with a fixed number of places is the double nearest to it:
its digits stand for what was rounded to, and zeros that are dropped behind the point stand for
nothing.
-/

namespace PanelLayout

attribute [local instance (high)] instPowNat

theorem digitValue?_of_isDigit {c : Char} (h : c.isDigit = true) :
    digitValue? c = some (c.toNat - 48) := by
  have hrange := Char.isDigit_iff_toNat.mp h
  rw [digitValue?, show digitZeros = 48 :: digitZeros.tail from rfl,
    List.find?_cons_of_pos (by simpa using hrange), Option.map_some]

theorem digitsValue_eq_ofDigitChars {cs : List Char} (h : ∀ c ∈ cs, c.isDigit = true) :
    digitsValue cs = Nat.ofDigitChars 10 cs 0 := by
  rw [digitsValue, Nat.ofDigitChars_eq_foldl]
  refine List.foldl_ext _ _ _ fun n c hc => ?_
  rw [digitValue?_of_isDigit (h c hc)]
  rfl

theorem digitsValue_append_zeros (cs : List Char) (n : Nat) :
    digitsValue (cs ++ List.replicate n '0') = digitsValue cs * 10 ^ n := by
  induction n with
  | zero => simp
  | succ n ih =>
    have hlast (ds : List Char) : digitsValue (ds ++ ['0']) = digitsValue ds * 10 := by
      rw [digitsValue, List.foldl_append, Nat.mul_comm]
      rfl
    rw [List.replicate_succ', ← List.append_assoc, hlast, ih, Nat.pow_succ, Nat.mul_assoc]

namespace Decimal

theorem length_padded {size n : Nat} (hsize : 0 < size) (h : n < 10 ^ size) :
    (padded size n).length = size := by
  have hle : (digitsText n).length ≤ size := (Nat.length_toDigits_le_iff (by decide) hsize).mpr h
  rw [padded, List.length_append, List.length_replicate]
  omega

/-- The digits of a quotient and those of the remainder behind it are the digits of the whole. -/
theorem digitsValue_padded {size : Nat} (hsize : 0 < size) (n : Nat) :
    digitsValue (digitsText (n / 10 ^ size) ++ padded size (n % 10 ^ size)) = n := by
  have hmod : n % 10 ^ size < 10 ^ size := Nat.mod_lt n (Nat.pow_pos (by decide))
  have hlength := length_padded hsize hmod
  rw [digitsValue_eq_ofDigitChars, Nat.ofDigitChars_append, digitsText,
    Nat.ofDigitChars_ten_toDigits, Nat.ofDigitChars_eq_ofDigitChars_zero, hlength]
  · rw [padded, Nat.ofDigitChars_append, Nat.ofDigitChars_replicate_zero, Nat.mul_zero, digitsText,
      Nat.ofDigitChars_ten_toDigits]
    exact Nat.div_add_mod n (10 ^ size)
  · intro c hc
    rcases List.mem_append.mp hc with hc | hc
    · exact Expression.isDigit_digitsText c hc
    · exact Expression.isDigit_padded c hc

end Decimal

namespace Surface

theorem numberValue_whole {cs : List Char} (h : ∀ c ∈ cs, isDecimalDigit c = true) :
    numberValue cs = Double.ofDecimal (digitsValue cs) (-((0 : Nat) : Int)) := by
  rw [numberValue, List.takeWhile_eq_self_iff.mpr h, List.dropWhile_eq_nil_iff.mpr h]
  simp

theorem numberValue_fraction {cs places : List Char} (h : ∀ c ∈ cs, isDecimalDigit c = true) :
    numberValue (cs ++ '.' :: places) =
      Double.ofDecimal (digitsValue (cs ++ places)) (-(places.length : Int)) := by
  have hpoint : isDecimalDigit '.' = false := by decide
  rw [numberValue, List.takeWhile_append_of_pos h, List.dropWhile_append_of_pos h,
    List.takeWhile_cons_of_neg (by simp [hpoint]), List.dropWhile_cons_of_neg (by simp [hpoint])]
  simp

/-- The value of a constant that was written and is read again. -/
def rewritten (m : Magnitude) : Double :=
  if (Double.finite false m).isClose (.zero false) then .zero false
    else .ofDecimal m.millionths (-6)

theorem numberValue_constantSource (m : Magnitude) :
    numberValue (Expression.constantSource (.double (.finite false m))) = rewritten m := by
  have hdigit {cs : List Char} (h : ∀ c ∈ cs, c.isDigit = true) :
      ∀ c ∈ cs, isDecimalDigit c = true :=
    fun c hc => isDecimalDigit_of_isDigit (h c hc)
  rw [rewritten]
  split
  · rename_i hzero
    rw [Expression.constantSource_of_isClose hzero]
    rfl
  · rename_i hzero
    obtain ⟨kept, n, hplaces, hsource⟩ := Expression.constantSource_eq (Bool.not_eq_true _ ▸ hzero)
    have hvalue : digitsValue (Decimal.digitsText (m.millionths / 10 ^ 6) ++ kept) * 10 ^ n =
        m.millionths := by
      rw [← digitsValue_append_zeros, List.append_assoc, ← hplaces,
        Decimal.digitsValue_padded (by decide)]
    have hlength : kept.length + n = 6 := by
      have :=
        Decimal.length_padded (by decide) (Nat.mod_lt m.millionths (show 0 < 10 ^ 6 by decide))
      rw [hplaces, List.length_append, List.length_replicate] at this
      exact this
    have hread : numberValue (Expression.constantSource (.double (.finite false m))) =
        Double.ofDecimal (digitsValue (Decimal.digitsText (m.millionths / 10 ^ 6) ++ kept))
          (-(kept.length : Int)) := by
      rw [hsource]
      split
      · rename_i hnone
        rw [hnone, List.append_nil]
        exact numberValue_whole (hdigit Expression.isDigit_digitsText)
      · exact numberValue_fraction (hdigit Expression.isDigit_digitsText)
    rw [hread, Double.ofDecimal, ← Decimal.toDouble_mul_pow _ _ _ n, hvalue, hlength]
    rfl

end Surface

end PanelLayout
