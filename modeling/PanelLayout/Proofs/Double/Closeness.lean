import PanelLayout.Expression.Basic
import PanelLayout.Proofs.Double.Decimals
import PanelLayout.Proofs.Double.Units

/-!
# Close doubles

Doubles that count as equal: a double is close to itself, and to each one that differs from it by
less than its billionth part; what is no larger than a billionth is close to zero. From 512 on,
rounding to millionths is as close as that.
-/

namespace PanelLayout

attribute [local instance (high)] instPowNat

namespace Double

variable {m k : Magnitude}

theorem exists_tolerance :
    ∃ t : Magnitude, ofDecimal 1 (-9) = .finite false t ∧ t.quanta ≤ quantaPerOne ∧
    quantaPerOne ≤ 1001000000 * t.quanta := by
  have hbounds : nearestQuanta (1 * quantaPerOne) (10 ^ 9) < quantaLimit ∧
      nearestQuanta (1 * quantaPerOne) (10 ^ 9) ≤ quantaPerOne ∧
      quantaPerOne ≤ 1001000000 * nearestQuanta (1 * quantaPerOne) (10 ^ 9) := by
    decide +kernel
  obtain ⟨t, ht, hquanta⟩ := ofQuanta_of_lt (s := false) hbounds.1
  refine ⟨t, ?_, hquanta ▸ hbounds.2⟩
  rw [← ht]
  exact Decimal.toDouble_neg false Nat.one_pos (by decide) (by decide)

private theorem Alike.abs_eq {x y : Double} (h : Alike x y) : x.abs = y.abs := by
  rcases alike_iff.mp h with rfl | ⟨⟨s, m, rfl, hm⟩, t, k, rfl, hk⟩
  · rfl
  · rw [Magnitude.signed_eq_zero] at hm hk
    obtain ⟨_, _⟩ := m
    obtain ⟨_, _⟩ := k
    subst hm hk
    rfl

theorem isClose_comm (x y : Double) : x.isClose y = y.isClose x := by
  have hdistance : (y - x).abs = (x - y).abs := by
    calc (y - x).abs = (-(x - y)).abs := (neg_sub x y).abs_eq.symm
      _ = (x - y).abs := by cases x - y <;> rfl
  rw [isClose, isClose, hdistance, equals, equals, Bool.and_comm (x.le y), Bool.and_comm x.isFinite,
    Bool.or_comm ((x - y).abs.le (ofDecimal 1 (-9) * y).abs)]

theorem isClose_self (m : Magnitude) : (finite false m).isClose (finite false m) = true := by
  simp [isClose, equals, le]

private theorem isQuanta_distance (m k : Magnitude) :
    (finite false m - finite false k).abs.IsQuanta
      (nearestQuanta ((m.quanta : Int) - k.quanta).natAbs 1 : Nat) := by
  have hlt : nearestQuanta ((m.quanta : Int) - k.quanta).natAbs 1 < quantaLimit := by
    rcases Nat.le_total m.quanta k.quanta with h | h
    · exact k.isDouble.nearestQuanta_lt Nat.one_pos (by omega)
    · exact m.isDouble.nearestQuanta_lt Nat.one_pos (by omega)
  have habs := ((isQuanta_finite m).sub (isQuanta_finite k) hlt).abs
  have hsigned (n : Int) : (nearestSigned n).natAbs = nearestQuanta n.natAbs 1 := by
    rcases Int.lt_or_le n 0 with hn | hn
    · rw [nearestSigned_of_neg hn]
      omega
    · rw [nearestSigned_of_nonneg hn]
      omega
  rwa [hsigned] at habs

theorem isClose_of_near (hlow : 1001000000 * m.quanta ≤ 1001000000 * k.quanta + m.quanta)
    (hhigh : 1001000000 * k.quanta ≤ 1001000000 * m.quanta + m.quanta) :
    (finite false k).isClose (finite false m) = true := by
  obtain ⟨t, ht, hle, hge⟩ := exists_tolerance
  have hproduct : (finite false t * finite false m).abs.IsQuanta
      (nearestQuanta (t.quanta * m.quanta) quantaPerOne : Nat) := by
    have hlt : nearestQuanta (t.quanta * m.quanta) quantaPerOne < quantaLimit := by
      refine m.isDouble.nearestQuanta_lt quantaPerOne_pos ?_
      rw [Nat.mul_comm]
      exact Nat.mul_le_mul_left _ hle
    obtain ⟨p, hp, hquanta⟩ := ofQuanta_of_lt (s := false) hlt
    have hmul : (finite false t * finite false m : Double) = finite false p := by
      rw [← hp]
      change Double.mul _ _ = _
      simp [Double.mul]
    rw [hmul, ← hquanta]
    exact isQuanta_finite p
  have hdistance : nearestQuanta ((m.quanta : Int) - k.quanta).natAbs 1 ≤
      nearestQuanta (t.quanta * m.quanta) quantaPerOne := by
    refine nearestQuanta_mono Nat.one_pos quantaPerOne_pos ?_
    have hpart : 1001000000 * ((m.quanta : Int) - k.quanta).natAbs ≤ m.quanta := by omega
    calc ((m.quanta : Int) - k.quanta).natAbs * quantaPerOne
        ≤ ((m.quanta : Int) - k.quanta).natAbs * (1001000000 * t.quanta) :=
          Nat.mul_le_mul_left _ hge
      _ = 1001000000 * ((m.quanta : Int) - k.quanta).natAbs * t.quanta := by ring
      _ ≤ m.quanta * t.quanta := Nat.mul_le_mul_right _ hpart
      _ = t.quanta * m.quanta * 1 := by ring
  have hwithin : (finite false m - finite false k).abs.le (finite false t * finite false m).abs =
      true := by
    rw [(isQuanta_distance m k).le hproduct]
    exact decide_eq_true (by omega)
  simp [isClose, ht, isFinite, hwithin]

theorem isClose_zero (h : (finite false m).le (ofDecimal 1 (-9)) = true) :
    (finite false m).isClose (.zero false) = true := by
  obtain ⟨t, ht, -⟩ := exists_tolerance
  have hdistance := isQuanta_distance ⟨0, 0, 0, by decide, by decide, rfl⟩ m
  rw [show ((0 : Nat) : Int) - m.quanta = -(m.quanta : Int) by omega, Int.natAbs_neg,
    Int.natAbs_natCast, m.isDouble.nearestQuanta_eq] at hdistance
  rw [ht, (isQuanta_finite m).le (isQuanta_finite t)] at h
  have hwithin : (zero false - finite false m).abs.le (finite false t) = true := by
    rw [← h]
    exact hdistance.le (isQuanta_finite t)
  have hfinite : (zero false).isFinite = true := rfl
  simp [isClose, ht, hwithin, hfinite, (isQuanta_finite m).isFinite]

/-- A double from 2⁵² on is a whole number, which has no millionths to round. -/
private theorem millionths_of_whole (hlarge : 2 ^ (52 : Nat) * quantaPerOne ≤ m.quanta) :
    m.millionths * quantaPerOne = m.quanta * 10 ^ 6 := by
  obtain ⟨t, hone⟩ : ∃ t, quantaPerOne = 2 ^ t := ⟨1074, by decide +kernel⟩
  have hkept : t ≤ droppedBits m.quanta := le_droppedBits (by rwa [Nat.pow_add, ← hone])
  obtain ⟨c, hc⟩ := (pow_dvd_pow 2 hkept).trans m.isDouble.dvd
  rw [← hone] at hc
  have hscaled : m.quanta * 10 ^ 6 = c * 10 ^ 6 * quantaPerOne := by
    rw [hc]
    ring
  have heq : m.millionths = c * 10 ^ 6 := by
    have hpos := quantaPerOne_pos
    rw [Magnitude.millionths, hscaled]
    exact divHalfEven_eq_of_near hpos (by omega) (by omega)
  rw [heq, hscaled]

/-- From 512 on, what is rounded to millionths stays close. -/
theorem isClose_millionths (hlarge : 512 * quantaPerOne ≤ m.quanta) :
    (ofDecimal m.millionths (-6)).isClose (finite false m) = true := by
  have hpos := quantaPerOne_pos
  obtain ⟨hlow, hhigh⟩ := divHalfEven_error (m.quanta * 10 ^ 6) quantaPerOne_pos
  change 2 * (m.millionths * quantaPerOne) ≤ _ at hlow
  change _ ≤ 2 * (m.millionths * quantaPerOne) + _ at hhigh
  have hmany : 0 < m.millionths := by
    rcases Nat.eq_zero_or_pos m.millionths with hzero | hmany
    · rw [hzero] at hhigh
      omega
    · exact hmany
  rw [ofDecimal_millionths hmany]
  rcases Nat.lt_or_ge m.quanta (2 ^ (52 : Nat) * quantaPerOne) with hsmall | hwhole
  · have hlt : nearestQuanta (m.millionths * quantaPerOne) (10 ^ 6) < quantaLimit := by
      have hbound : IsDoubleQuanta ((2 ^ (52 : Nat) + 1) * quantaPerOne) :=
        isDoubleQuanta_mul_quantaPerOne (by decide)
      exact hbound.nearestQuanta_lt (by decide) (by omega)
    obtain ⟨k, hk, hquanta⟩ := ofQuanta_of_lt (s := false) hlt
    obtain ⟨hless, hmore⟩ :=
      nearestQuanta_error_div (m.millionths * quantaPerOne) (show 0 < 10 ^ 6 by decide)
    have hdropped : droppedBits (m.millionths * quantaPerOne / 10 ^ 6) ≠ 0 := by
      have hone : 2 ^ (52 + 1) ≤ quantaPerOne := by decide +kernel
      have hkept :=
        le_droppedBits (show 2 ^ (52 + 1) ≤ m.millionths * quantaPerOne / 10 ^ 6 by omega)
      omega
    have hdigit := two_pow_le_of_droppedBits_ne_zero hdropped
    rw [Nat.pow_add] at hdigit
    rw [← hquanta] at hless hmore
    rw [hk]
    exact isClose_of_near (by omega) (by omega)
  · rw [millionths_of_whole hwhole, ofQuanta_mul false m (by decide)]
    exact isClose_self m

end Double

end PanelLayout
