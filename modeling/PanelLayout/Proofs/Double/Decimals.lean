import PanelLayout.Decimal.Basic
import PanelLayout.Proofs.Double.Pixels
import PanelLayout.Proofs.Double.Range

/-!
# Decimals as doubles

A decimal fraction is read as the double nearest to it, and zeros behind its last place make no
difference.
-/

namespace PanelLayout

attribute [local instance (high)] instPowNat

namespace Decimal

theorem width_pos (n : Nat) : 0 < width n := Nat.length_toDigits_pos

theorem width_le_iff {n k : Nat} (hk : 0 < k) : width n ≤ k ↔ n < 10 ^ k :=
  Nat.length_toDigits_le_iff (by decide) hk

theorem width_mul_ten {n : Nat} (h : 0 < n) : width (n * 10) = width n + 1 := by
  have hpos := width_pos n
  have hlt : n < 10 ^ width n := (width_le_iff hpos).mp (Nat.le_refl _)
  apply Nat.le_antisymm
  · rw [width_le_iff (Nat.succ_pos _), Nat.pow_succ]
    omega
  · by_contra hless
    have hmul : n * 10 < 10 ^ width n := (width_le_iff hpos).mp (by omega)
    obtain ⟨k, hk⟩ : ∃ k, width n = k + 1 := ⟨width n - 1, by omega⟩
    rw [hk, Nat.pow_succ] at hmul
    rcases Nat.eq_zero_or_pos k with rfl | hk0
    · omega
    · have := (width_le_iff hk0).mpr (show n < 10 ^ k by omega)
      omega

theorem quanta_neg (digits places : Nat) :
    quanta ⟨digits, -(places : Int)⟩ = digits * quantaPerOne := by
  rw [quanta, show (-(places : Int)).toNat = 0 by omega, Nat.pow_zero, Nat.mul_one]

theorem scale_neg (digits places : Nat) : scale ⟨digits, -(places : Int)⟩ = 10 ^ places := by
  rw [scale, show (- -(places : Int)).toNat = places by omega]

private theorem toDouble_mul_ten (negative : Bool) (digits places : Nat) :
    toDouble negative ⟨digits * 10, -((places + 1 : Nat) : Int)⟩ =
      toDouble negative ⟨digits, -(places : Int)⟩ := by
  unfold toDouble
  rcases Nat.eq_zero_or_pos digits with rfl | hpos
  · rw [if_pos (Nat.zero_mul 10), if_pos (Eq.refl 0)]
  · have hpoint : (width (digits * 10) : Int) + -((places + 1 : Nat) : Int) =
        width digits + -(places : Int) := by
      rw [width_mul_ten hpos]
      omega
    have hrounded : nearestQuanta (quanta ⟨digits * 10, -((places + 1 : Nat) : Int)⟩)
        (scale ⟨digits * 10, -((places + 1 : Nat) : Int)⟩) =
        nearestQuanta (quanta ⟨digits, -(places : Int)⟩) (scale ⟨digits, -(places : Int)⟩) := by
      rw [quanta_neg, quanta_neg, scale_neg, scale_neg, Nat.mul_right_comm, Nat.pow_succ]
      exact nearestQuanta_mul_right _ (Nat.pow_pos (by decide)) (by decide)
    dsimp only
    rw [if_neg (show ¬digits * 10 = 0 by omega), if_neg hpos.ne', hpoint,
      Double.ofQuanta_congr hrounded]

theorem toDouble_mul_pow (negative : Bool) (digits places n : Nat) :
    toDouble negative ⟨digits * 10 ^ n, -((places + n : Nat) : Int)⟩ =
      toDouble negative ⟨digits, -(places : Int)⟩ := by
  induction n with
  | zero => simp
  | succ n ih => rw [Nat.pow_succ, ← Nat.mul_assoc, ← Nat.add_assoc, toDouble_mul_ten, ih]

theorem toDouble_neg (negative : Bool) {digits places : Nat} (hpos : 0 < digits)
    (hdigits : width digits ≤ 400 + places) (hplaces : places ≤ 400) :
    toDouble negative ⟨digits, -(places : Int)⟩ =
      .ofQuanta negative (digits * quantaPerOne) (10 ^ places) := by
  have hwidth := width_pos digits
  unfold toDouble
  dsimp only
  rw [if_neg hpos.ne', if_neg (by omega), if_neg (by omega), quanta_neg, scale_neg]

end Decimal

/-- The whole number of millionths that is nearest to a magnitude. -/
def Magnitude.millionths (m : Magnitude) : Nat := divHalfEven (m.quanta * 10 ^ 6) quantaPerOne

namespace Double

variable {m : Magnitude} {n : Nat}

theorem quanta_of_ofDecimal_millionths (h : ofDecimal n (-6) = .finite false m) :
    m.quanta = nearestQuanta (n * quantaPerOne) (10 ^ 6) := by
  rcases Nat.eq_zero_or_pos n with rfl | hpos
  · obtain ⟨-, rfl⟩ := Double.finite.inj (show zero false = .finite false m from h)
    rw [Nat.zero_mul, nearestQuanta_zero]
  · have hwidth : Decimal.width n ≤ 400 + 6 := by
      by_contra hlong
      have hinfinite : ofDecimal n (-6) = .infinite false := by
        unfold ofDecimal Decimal.toDouble
        dsimp only
        rw [if_neg hpos.ne', if_pos (by omega)]
      rw [hinfinite] at h
      cases h
    exact quanta_of_ofQuanta ((Decimal.toDouble_neg false hpos hwidth (by decide)).symm.trans h)

/-- Below 512 millionths are told from each other by the doubles nearest to them. -/
theorem millionths_ofDecimal (h : ofDecimal n (-6) = .finite false m)
    (hsmall : m.quanta < 512 * quantaPerOne) :
    m.millionths = n := by
  have hquanta := quanta_of_ofDecimal_millionths h
  obtain ⟨t, hone⟩ : ∃ t, quantaPerOne = 2 ^ (41 : Nat) * 2 ^ t := ⟨1033, by decide +kernel⟩
  have hpos := Nat.two_pow_pos t
  obtain ⟨hlow, hhigh⟩ := nearestQuanta_error_div (n * quantaPerOne) (show 0 < 10 ^ 6 by decide)
  rw [← hquanta] at hlow hhigh
  -- the last digit that is kept is less than half of a millionth
  have hbound : n * quantaPerOne / 10 ^ 6 < 2 ^ (53 + t) := by
    by_contra hlarge
    have hwhole : IsDoubleQuanta (512 * quantaPerOne) := isDoubleQuanta_mul_quantaPerOne (by decide)
    have hle := nearestQuanta_mono Nat.one_pos (show 0 < 10 ^ 6 by decide)
      (show 512 * quantaPerOne * 10 ^ 6 ≤ n * quantaPerOne * 1 by
        rw [Nat.pow_add] at hlarge
        omega)
    rw [hwhole.nearestQuanta_eq] at hle
    omega
  have hdigit : 2 ^ droppedBits (n * quantaPerOne / 10 ^ 6) ≤ 2 ^ t :=
    Nat.pow_le_pow_right Nat.two_pos (droppedBits_le hbound)
  exact divHalfEven_eq_of_near quantaPerOne_pos (by omega) (by omega)

theorem ofDecimal_millionths (hpos : 0 < m.millionths) :
    ofDecimal m.millionths (-6) = .ofQuanta false (m.millionths * quantaPerOne) (10 ^ 6) := by
  have hlimit := m.isDouble.lt_quantaLimit
  have hmany : quantaLimit * 10 ^ 6 + quantaPerOne < 10 ^ (400 : Nat) * quantaPerOne := by
    decide +kernel
  have hle := (divHalfEven_error (m.quanta * 10 ^ 6) quantaPerOne_pos).1
  have hlt : m.millionths * quantaPerOne < 10 ^ (400 : Nat) * quantaPerOne := by
    rw [Magnitude.millionths]
    omega
  have hwidth := (Decimal.width_le_iff (by decide)).mpr (Nat.lt_of_mul_lt_mul_right hlt)
  exact Decimal.toDouble_neg false hpos (by omega) (by decide)

end Double

end PanelLayout
