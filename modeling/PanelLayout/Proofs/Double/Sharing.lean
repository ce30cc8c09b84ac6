import PanelLayout.Proofs.Double.Order

/-!
# Pixels of shares

A share is cut to whole pixels after its product and its quotient have been rounded. Where its
length is not too large, this differs from the exact share only if that lies right beside a whole
number of pixels.
-/

namespace PanelLayout

attribute [local instance (high)] instPowNat

theorem exists_fraction : ∃ q : Nat, quantaPerOne = 2 ^ (32 : Nat) * q ∧ 0 < q ∧
    ∀ n < 2 ^ (53 : Nat), IsDoubleQuanta (n * q) := by
  obtain ⟨t, ht, hone⟩ : ∃ t, t = 1042 ∧ quantaPerOne = 2 ^ (32 : Nat) * 2 ^ t :=
    ⟨1042, rfl, by decide +kernel⟩
  exact ⟨2 ^ t, hone, Nat.two_pow_pos t, fun n hn => ⟨n, t, hn, by omega, rfl⟩⟩

/-- The whole part of a rounded quotient is not too small, and it is too large only for a quotient
right below it. -/
theorem whole_quotient_bounds {n d p : Nat} (hd : 0 < d)
    (hlow : p * quantaPerOne ≤ nearestQuanta (n * quantaPerOne) d)
    (hhigh : nearestQuanta (n * quantaPerOne) d < (p + 1) * quantaPerOne)
    (hp : p < 2 ^ (20 : Nat)) :
    n < (p + 1) * d ∧ 2 ^ (32 : Nat) * (p * d) < 2 ^ (32 : Nat) * n + d := by
  obtain ⟨q, hone, hq, hdouble⟩ := exists_fraction
  constructor
  · by_contra hge
    have hwhole : IsDoubleQuanta ((p + 1) * quantaPerOne) :=
      isDoubleQuanta_mul_quantaPerOne (by omega)
    have hle : nearestQuanta ((p + 1) * quantaPerOne) 1 ≤ nearestQuanta (n * quantaPerOne) d := by
      refine nearestQuanta_mono Nat.one_pos hd ?_
      rw [Nat.mul_one, Nat.mul_right_comm]
      exact Nat.mul_le_mul_right _ (Nat.not_lt.mp hge)
    rw [hwhole.nearestQuanta_eq] at hle
    omega
  · by_contra hge
    have hpos : 0 < p := by
      rcases Nat.eq_zero_or_pos p with rfl | hpos
      · omega
      · exact hpos
    -- the fraction right before the whole number is a double, so that rounding does not get past it
    have hbefore : nearestQuanta (n * quantaPerOne) d ≤
        nearestQuanta ((2 ^ (32 : Nat) * p - 1) * q) 1 := by
      refine nearestQuanta_mono hd Nat.one_pos ?_
      rw [Nat.mul_one, hone, Nat.mul_left_comm, Nat.mul_right_comm, ← Nat.mul_assoc, Nat.sub_mul]
      refine Nat.mul_le_mul_right q ?_
      rw [Nat.mul_assoc]
      omega
    rw [(hdouble _ (by omega)).nearestQuanta_eq] at hbefore
    have hless : (2 ^ (32 : Nat) * p - 1) * q < p * quantaPerOne := by
      rw [hone, Nat.mul_left_comm, ← Nat.mul_assoc]
      exact Nat.mul_lt_mul_of_pos_right (by omega) hq
    omega

namespace Double

/-- The pixels of a share, between the bounds that its rounded product sets. -/
theorem exists_pixel_share {n : Nat} {m part whole : Magnitude} (hm : m.quanta = n * quantaPerOne)
    (hn : n < 2 ^ (20 : Nat)) (hpart : part.quanta ≤ whole.quanta) (hwhole : 0 < whole.quanta)
    (hfinite : (.finite false m * .finite false part / .finite false whole : Double) ≠
      .infinite false) :
    ∃ pixel : Nat,
    (.finite false m * .finite false part / .finite false whole : Double).pixel .truncate = pixel ∧
      nearestQuanta (n * part.quanta) 1 < (pixel + 1) * whole.quanta ∧
      2 ^ (32 : Nat) * (pixel * whole.quanta) < 2 ^ (32 : Nat) * nearestQuanta (n * part.quanta) 1 +
        whole.quanta := by
  have hle : (.finite false m * .finite false part / .finite false whole : Double).pixel .truncate ≤
      n :=
    pixel_share_le hm (by omega) hpart hwhole
  rcases mul_div_cases false m part hwhole with ⟨heq, -⟩ | ⟨-, k, heq, hk⟩
  · exact absurd heq hfinite
  · rw [heq] at hle ⊢
    have hpixel : (Double.finite false k).pixel .truncate = (k.quanta / quantaPerOne : Nat) := by
      simp only [pixel, pixelOf, Magnitude.signed, Bool.false_eq_true, if_false, Int.ofNat_tdiv]
    rw [hpixel] at hle ⊢
    have hshare : k.quanta =
        nearestQuanta (nearestQuanta (n * part.quanta) 1 * quantaPerOne) whole.quanta := by
      rw [hk, shareQuanta, hm, Nat.mul_right_comm, nearestQuanta_mul_self _ quantaPerOne_pos]
    have hdiv := Nat.div_add_mod k.quanta quantaPerOne
    have hmod := Nat.mod_lt k.quanta quantaPerOne_pos
    rw [Nat.mul_comm] at hdiv
    refine ⟨_, rfl, whole_quotient_bounds hwhole ?_ ?_ (by omega)⟩
    · omega
    · rw [Nat.add_mul]
      omega

end Double

end PanelLayout
