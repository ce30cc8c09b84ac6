import Mathlib.Data.Nat.Log
import Mathlib.Tactic.Linarith
import Mathlib.Tactic.Positivity
import Mathlib.Tactic.Ring
import PanelLayout.Double.Basic

/-!
# Rounding of doubles

What rounding to the nearest double does to whole quanta: a double is kept, the order against
doubles is kept, and what is changed is changed by no more than half the distance of two doubles.
-/

namespace PanelLayout

attribute [local instance (high)] instPowNat

theorem quantaPerOne_pos : 0 < quantaPerOne := by
  rw [quantaPerOne]
  positivity

section HalfEven

variable {n d m : Nat}

private theorem divHalfEven_cases (n d : Nat) :
    divHalfEven n d = n / d ∧ 2 * (n % d) ≤ d ∨ divHalfEven n d = n / d + 1 ∧ d ≤ 2 * (n % d) := by
  simp only [divHalfEven]
  split
  · left; omega
  · right; omega

private theorem le_divHalfEven_of_mul_le (hd : 0 < d) (h : m * d ≤ n) : m ≤ divHalfEven n d := by
  have hm : m ≤ n / d := (Nat.le_div_iff_mul_le hd).mpr h
  rcases divHalfEven_cases n d with ⟨hq, -⟩ | ⟨hq, -⟩ <;> omega

private theorem divHalfEven_le_of_le_mul (hd : 0 < d) (h : n ≤ m * d) : divHalfEven n d ≤ m := by
  have hn := Nat.div_add_mod n d
  have hr := Nat.mod_lt n hd
  have hm : n / d ≤ m := Nat.div_le_of_le_mul (by rwa [Nat.mul_comm])
  rcases divHalfEven_cases n d with ⟨hq, -⟩ | ⟨hq, hhalf⟩
  · omega
  · rcases Nat.lt_or_eq_of_le hm with hlt | heq
    · omega
    · -- with the quotient already at `m` nothing is left over, so nothing is rounded up
      rw [heq, Nat.mul_comm] at hn
      omega

theorem divHalfEven_error (n : Nat) (hd : 0 < d) :
    2 * (divHalfEven n d * d) ≤ 2 * n + d ∧ 2 * n ≤ 2 * (divHalfEven n d * d) + d := by
  have hn := Nat.div_add_mod n d
  have hcomm : d * (n / d) = n / d * d := Nat.mul_comm ..
  rcases divHalfEven_cases n d with ⟨hq, hle⟩ | ⟨hq, hge⟩
  · rw [hq]
    omega
  · have hr := Nat.mod_lt n hd
    rw [hq, Nat.add_mul, Nat.one_mul]
    omega

theorem divHalfEven_eq_of_near (hd : 0 < d) (hlow : 2 * (m * d) < 2 * n + d)
    (hhigh : 2 * n < 2 * (m * d) + d) :
    divHalfEven n d = m := by
  obtain ⟨hle, hge⟩ := divHalfEven_error n hd
  have hbelow : divHalfEven n d * d < (m + 1) * d := by
    rw [Nat.add_mul]
    omega
  have habove : m * d < (divHalfEven n d + 1) * d := by
    rw [Nat.add_mul]
    omega
  have := Nat.lt_of_mul_lt_mul_right hbelow
  have := Nat.lt_of_mul_lt_mul_right habove
  omega

private theorem div_le_div_of_mul_le {n' d' : Nat} (hd : 0 < d) (hd' : 0 < d')
    (h : n * d' ≤ n' * d) :
    n / d ≤ n' / d' := by
  rw [Nat.le_div_iff_mul_le hd']
  have hscaled : n / d * d' * d ≤ n' * d := by
    calc n / d * d' * d = n / d * d * d' := by ring
      _ ≤ n * d' := Nat.mul_le_mul_right _ (Nat.div_mul_le_self n d)
      _ ≤ n' * d := h
  exact Nat.le_of_mul_le_mul_right hscaled hd

private theorem divHalfEven_mono {n' d' : Nat} (hd : 0 < d) (hd' : 0 < d') (h : n * d' ≤ n' * d) :
    divHalfEven n d ≤ divHalfEven n' d' := by
  have hn := Nat.div_add_mod n d
  have hn' := Nat.div_add_mod n' d'
  have hquotient := div_le_div_of_mul_le hd hd' h
  rcases Nat.lt_or_eq_of_le hquotient with hlt | heq
  · rcases divHalfEven_cases n d with ⟨hq, -⟩ | ⟨hq, -⟩ <;>
      rcases divHalfEven_cases n' d' with ⟨hq', -⟩ | ⟨hq', -⟩ <;> omega
  · -- with equal quotients the larger remainder is rounded up if the smaller one is
    have hremainder : n % d * d' ≤ n' % d' * d := by
      rw [heq] at hn
      nlinarith
    by_cases hdown : 2 * (n' % d') < d' ∨ 2 * (n' % d') = d' ∧ n' / d' % 2 = 0
    · have hdown' : 2 * (n % d) < d ∨ 2 * (n % d) = d ∧ n / d % 2 = 0 := by
        rcases hdown with hlt | ⟨htie, heven⟩
        · left
          by_contra hge
          nlinarith
        · rcases Nat.lt_trichotomy (2 * (n % d)) d with hlt | htie' | hgt
          · exact .inl hlt
          · exact .inr ⟨htie', heq ▸ heven⟩
          · nlinarith
      simp only [divHalfEven, if_pos hdown, if_pos hdown']
      exact heq.le
    · simp only [divHalfEven, if_neg hdown]
      split <;> omega

end HalfEven

section Quanta

variable {n m k : Nat}

@[simp] theorem nearestQuanta_zero (d : Nat) : nearestQuanta 0 d = 0 := by
  simp only [nearestQuanta, divHalfEven, Nat.zero_div, Nat.zero_mod]
  split <;> simp_all

theorem nearestQuanta_one (n : Nat) :
    nearestQuanta n 1 = divHalfEven n (2 ^ droppedBits n) * 2 ^ droppedBits n := by
  simp only [nearestQuanta, Nat.div_one, Nat.one_mul]

theorem IsDoubleQuanta.dvd (h : IsDoubleQuanta n) : 2 ^ droppedBits n ∣ n := by
  obtain ⟨m, k, hm, -, rfl⟩ := h
  rcases Nat.eq_zero_or_pos m with rfl | hpos
  · simp
  · have hlog : (m * 2 ^ k).log2 < 53 + k := by
      rw [Nat.log2_lt (Nat.mul_pos hpos (Nat.two_pow_pos k)).ne', Nat.pow_add]
      exact Nat.mul_lt_mul_of_pos_right hm (Nat.two_pow_pos k)
    have hk : droppedBits (m * 2 ^ k) ≤ k := by
      rw [droppedBits]
      omega
    exact (pow_dvd_pow 2 hk).trans (Nat.dvd_mul_left _ _)

theorem isDoubleQuanta_of_dvd (hdvd : 2 ^ k ∣ n) (hlt : n < 2 ^ (53 + k)) (hk : k ≤ 2045) :
    IsDoubleQuanta n := by
  obtain ⟨m, rfl⟩ := hdvd
  refine ⟨m, k, ?_, hk, Nat.mul_comm _ _⟩
  rw [Nat.pow_add, Nat.mul_comm] at hlt
  exact Nat.lt_of_mul_lt_mul_right hlt

theorem isDoubleQuanta_two_pow (hk : k ≤ 2045) : IsDoubleQuanta (2 ^ k) :=
  ⟨1, k, by decide, hk, (Nat.one_mul _).symm⟩

theorem droppedBits_mono (h : m ≤ n) : droppedBits m ≤ droppedBits n := by
  have hlog : m.log2 ≤ n.log2 := by
    rw [Nat.log2_eq_log_two, Nat.log2_eq_log_two]
    exact Nat.log_mono_right h
  rw [droppedBits, droppedBits]
  omega

theorem droppedBits_le (h : n < 2 ^ (53 + k)) : droppedBits n ≤ k := by
  rcases Nat.eq_zero_or_pos n with rfl | hpos
  · simp [droppedBits]
  · have hlog : n.log2 < 53 + k := (Nat.log2_lt hpos.ne').mpr h
    rw [droppedBits]
    omega

theorem le_droppedBits (h : 2 ^ (52 + k) ≤ n) : k ≤ droppedBits n := by
  have hpos : n ≠ 0 := by
    have := Nat.two_pow_pos (52 + k)
    omega
  have hlog : 52 + k ≤ n.log2 := (Nat.le_log2 hpos).mpr h
  rw [droppedBits]
  omega

theorem lt_two_pow_droppedBits (n : Nat) : n < 2 ^ (53 + droppedBits n) := by
  refine Nat.lt_log2_self.trans_le (Nat.pow_le_pow_right Nat.two_pos ?_)
  rw [droppedBits]
  omega

theorem nearestQuanta_of_dvd (h : 2 ^ droppedBits n ∣ n) : nearestQuanta n 1 = n := by
  have hpos := Nat.two_pow_pos (droppedBits n)
  obtain ⟨c, hc⟩ := h
  rw [Nat.mul_comm] at hc
  have hle := le_divHalfEven_of_mul_le hpos hc.ge
  have hge := divHalfEven_le_of_le_mul hpos hc.le
  rw [nearestQuanta_one, Nat.le_antisymm hge hle, ← hc]

theorem IsDoubleQuanta.nearestQuanta_eq (h : IsDoubleQuanta n) : nearestQuanta n 1 = n :=
  nearestQuanta_of_dvd h.dvd

theorem IsDoubleQuanta.nearestQuanta_le (h : IsDoubleQuanta m) (hn : n ≤ m) :
    nearestQuanta n 1 ≤ m := by
  have hpos := Nat.two_pow_pos (droppedBits n)
  obtain ⟨c, hc⟩ := (pow_dvd_pow 2 (droppedBits_mono hn)).trans h.dvd
  rw [Nat.mul_comm] at hc
  rw [nearestQuanta_one, hc]
  exact Nat.mul_le_mul_right _ (divHalfEven_le_of_le_mul hpos (hc ▸ hn))

theorem IsDoubleQuanta.le_nearestQuanta (h : IsDoubleQuanta m) (hm : m ≤ n) :
    m ≤ nearestQuanta n 1 := by
  have hpos := Nat.two_pow_pos (droppedBits n)
  rcases Nat.lt_or_eq_of_le (droppedBits_mono hm) with hlt | heq
  · -- a power of two lies between them, and it is a multiple of the last digit that `n` keeps
    have hne : n ≠ 0 := by
      rintro rfl
      simp [droppedBits] at hlt
    have hlog : m.log2 < n.log2 ∧ droppedBits n ≤ n.log2 := by
      rw [droppedBits, droppedBits] at hlt
      rw [droppedBits]
      omega
    have hsplit : 2 ^ (n.log2 - droppedBits n) * 2 ^ droppedBits n = 2 ^ n.log2 := by
      rw [← Nat.pow_add, Nat.sub_add_cancel hlog.2]
    have hpower : 2 ^ n.log2 ≤ n := Nat.log2_self_le hne
    have hreach := le_divHalfEven_of_mul_le hpos (hsplit.trans_le hpower)
    rw [nearestQuanta_one]
    calc m ≤ 2 ^ (m.log2 + 1) := Nat.lt_log2_self.le
      _ ≤ 2 ^ n.log2 := Nat.pow_le_pow_right Nat.two_pos hlog.1
      _ = 2 ^ (n.log2 - droppedBits n) * 2 ^ droppedBits n := hsplit.symm
      _ ≤ _ := Nat.mul_le_mul_right _ hreach
  · obtain ⟨c, hc⟩ := heq ▸ h.dvd
    rw [Nat.mul_comm] at hc
    rw [nearestQuanta_one, hc]
    exact Nat.mul_le_mul_right _ (le_divHalfEven_of_mul_le hpos (hc ▸ hm))

/-- Rounding changes by at most half of the last digit that is kept. -/
theorem nearestQuanta_error (n : Nat) :
    2 * nearestQuanta n 1 ≤ 2 * n + 2 ^ droppedBits n ∧
    2 * n ≤ 2 * nearestQuanta n 1 + 2 ^ droppedBits n := by
  rw [nearestQuanta_one]
  exact divHalfEven_error n (Nat.two_pow_pos _)

theorem nearestQuanta_error_div (n : Nat) {d : Nat} (hd : 0 < d) :
    2 * (nearestQuanta n d * d) ≤ 2 * n + d * 2 ^ droppedBits (n / d) ∧
      2 * n ≤ 2 * (nearestQuanta n d * d) + d * 2 ^ droppedBits (n / d) := by
  have herror := divHalfEven_error n (Nat.mul_pos hd (Nat.two_pow_pos (droppedBits (n / d))))
  rwa [show divHalfEven n (d * 2 ^ droppedBits (n / d)) * (d * 2 ^ droppedBits (n / d)) =
      nearestQuanta n d * d by
    rw [nearestQuanta]
    ring] at herror

theorem two_pow_le_of_droppedBits_ne_zero (h : droppedBits n ≠ 0) :
    2 ^ (52 + droppedBits n) ≤ n := by
  have hne : n ≠ 0 := by
    rintro rfl
    exact h (by simp [droppedBits])
  refine (Nat.pow_le_pow_right Nat.two_pos ?_).trans (Nat.log2_self_le hne)
  rw [droppedBits] at h ⊢
  omega

/-- Rounding adds at most half of the last one of 53 digits. -/
theorem nearestQuanta_le_relative (n : Nat) :
    2 ^ (53 : Nat) * nearestQuanta n 1 ≤ (2 ^ (53 : Nat) + 1) * n := by
  by_cases hdropped : droppedBits n = 0
  · rw [nearestQuanta_of_dvd (by rw [hdropped]; exact Nat.one_dvd n)]
    omega
  · have hkept := two_pow_le_of_droppedBits_ne_zero hdropped
    have herror := (nearestQuanta_error n).1
    rw [Nat.pow_add] at hkept
    omega

theorem le_nearestQuanta_relative (n : Nat) :
    2 ^ (53 : Nat) * n ≤ 2 ^ (53 : Nat) * nearestQuanta n 1 + n := by
  by_cases hdropped : droppedBits n = 0
  · rw [nearestQuanta_of_dvd (by rw [hdropped]; exact Nat.one_dvd n)]
    omega
  · have hkept := two_pow_le_of_droppedBits_ne_zero hdropped
    have herror := (nearestQuanta_error n).2
    rw [Nat.pow_add] at hkept
    omega

theorem nearestQuanta_mono {d n' d' : Nat} (hd : 0 < d) (hd' : 0 < d') (h : n * d' ≤ n' * d) :
    nearestQuanta n d ≤ nearestQuanta n' d' := by
  have hquotient := div_le_div_of_mul_le hd hd' h
  simp only [nearestQuanta]
  have hkept := droppedBits_mono hquotient
  have hpos := Nat.two_pow_pos (droppedBits (n / d))
  have hpos' := Nat.two_pow_pos (droppedBits (n' / d'))
  rcases Nat.lt_or_eq_of_le hkept with hlt | heq
  · -- a power of two lies between the quotients, and it is a multiple of the last digits that
    -- both keep
    have hne : n' / d' ≠ 0 := by
      intro hzero
      simp [hzero, droppedBits] at hlt
    have hlog : (n / d).log2 < (n' / d').log2 ∧ droppedBits (n / d) ≤ (n' / d').log2 ∧
        droppedBits (n' / d') ≤ (n' / d').log2 := by
      rw [droppedBits, droppedBits] at hlt
      rw [droppedBits, droppedBits]
      omega
    generalize hpower : 2 ^ (n' / d').log2 = p at *
    have hreached : p ≤ n' / d' := hpower ▸ Nat.log2_self_le hne
    have hbeyond : n / d < p :=
      hpower ▸ Nat.lt_log2_self.trans_le (Nat.pow_le_pow_right Nat.two_pos hlog.1)
    obtain ⟨c, hc⟩ : 2 ^ droppedBits (n / d) ∣ p := hpower ▸ pow_dvd_pow 2 hlog.2.1
    obtain ⟨c', hc'⟩ : 2 ^ droppedBits (n' / d') ∣ p := hpower ▸ pow_dvd_pow 2 hlog.2.2
    have hbelow : divHalfEven n (d * 2 ^ droppedBits (n / d)) ≤ c := by
      apply divHalfEven_le_of_le_mul (Nat.mul_pos hd hpos)
      calc n ≤ p * d := ((Nat.div_lt_iff_lt_mul hd).mp hbeyond).le
        _ = c * (d * 2 ^ droppedBits (n / d)) := by rw [hc]; ring
    have habove : c' ≤ divHalfEven n' (d' * 2 ^ droppedBits (n' / d')) := by
      apply le_divHalfEven_of_mul_le (Nat.mul_pos hd' hpos')
      calc c' * (d' * 2 ^ droppedBits (n' / d')) = p * d' := by rw [hc']; ring
        _ ≤ n' := (Nat.le_div_iff_mul_le hd').mp hreached
    calc divHalfEven n (d * 2 ^ droppedBits (n / d)) * 2 ^ droppedBits (n / d)
        ≤ c * 2 ^ droppedBits (n / d) := Nat.mul_le_mul_right _ hbelow
      _ = c' * 2 ^ droppedBits (n' / d') := by rw [Nat.mul_comm c, ← hc, hc', Nat.mul_comm]
      _ ≤ _ := Nat.mul_le_mul_right _ habove
  · rw [← heq]
    refine Nat.mul_le_mul_right _ (divHalfEven_mono (Nat.mul_pos hd hpos) (Nat.mul_pos hd' hpos) ?_)
    calc n * (d' * 2 ^ droppedBits (n / d)) = n * d' * 2 ^ droppedBits (n / d) := by ring
      _ ≤ n' * d * 2 ^ droppedBits (n / d) := Nat.mul_le_mul_right _ h
      _ = n' * (d * 2 ^ droppedBits (n / d)) := by ring

theorem nearestQuanta_mul_right (n : Nat) {d c : Nat} (hd : 0 < d) (hc : 0 < c) :
    nearestQuanta (n * c) (d * c) = nearestQuanta n d := by
  have heq : n * c * d = n * (d * c) := by rw [Nat.mul_assoc, Nat.mul_comm c d]
  exact Nat.le_antisymm (nearestQuanta_mono (Nat.mul_pos hd hc) hd heq.le)
    (nearestQuanta_mono hd (Nat.mul_pos hd hc) heq.ge)

theorem nearestQuanta_mul_self (n : Nat) {d : Nat} (hd : 0 < d) :
    nearestQuanta (n * d) d = nearestQuanta n 1 := by
  have hmul := nearestQuanta_mul_right n Nat.one_pos hd
  rwa [Nat.one_mul] at hmul

theorem IsDoubleQuanta.lt_quantaLimit (h : IsDoubleQuanta n) : n < quantaLimit := by
  obtain ⟨m, k, hm, hk, rfl⟩ := h
  obtain ⟨t, ht, hlimit⟩ : ∃ t, t = 2045 ∧ quantaLimit = 2 ^ (53 : Nat) * 2 ^ t :=
    ⟨2045, rfl, by decide +kernel⟩
  have hpow : 2 ^ k ≤ 2 ^ t := Nat.pow_le_pow_right Nat.two_pos (by omega)
  rw [hlimit]
  calc m * 2 ^ k ≤ m * 2 ^ t := Nat.mul_le_mul_left m hpow
    _ < 2 ^ (53 : Nat) * 2 ^ t := Nat.mul_lt_mul_of_pos_right hm (Nat.two_pow_pos t)

theorem IsDoubleQuanta.nearestQuanta_lt {d : Nat} (h : IsDoubleQuanta m) (hd : 0 < d)
    (hn : n ≤ m * d) :
    nearestQuanta n d < quantaLimit := by
  have hle : n * 1 ≤ m * d := by omega
  have hmono := nearestQuanta_mono hd Nat.one_pos hle
  rw [h.nearestQuanta_eq] at hmono
  exact hmono.trans_lt h.lt_quantaLimit

end Quanta

section Signed

variable {m n : Int} {k : Nat}

def nearestSigned (n : Int) : Int := n.sign * nearestQuanta n.natAbs 1

theorem nearestSigned_of_nonneg (h : 0 ≤ n) : nearestSigned n = nearestQuanta n.natAbs 1 := by
  rcases Int.lt_or_eq_of_le h with hpos | rfl
  · rw [nearestSigned, Int.sign_eq_one_of_pos hpos, Int.one_mul]
  · rfl

theorem nearestSigned_of_neg (h : n < 0) : nearestSigned n = -(nearestQuanta n.natAbs 1 : Int) := by
  rw [nearestSigned, Int.sign_eq_neg_one_of_neg h, Int.neg_one_mul]

theorem nearestSigned_eq (h : IsDoubleQuanta n.natAbs) : nearestSigned n = n := by
  rw [nearestSigned, h.nearestQuanta_eq, Int.sign_mul_natAbs]

theorem le_nearestSigned (hm : IsDoubleQuanta m.natAbs) (h : m ≤ n) : m ≤ nearestSigned n := by
  rcases Int.lt_or_le n 0 with hn | hn
  · have hle := hm.nearestQuanta_le (n := n.natAbs) (by omega)
    rw [nearestSigned_of_neg hn]
    omega
  · rw [nearestSigned_of_nonneg hn]
    rcases Int.lt_or_le m 0 with hneg | hneg
    · omega
    · have hle := hm.le_nearestQuanta (n := n.natAbs) (by omega)
      omega

theorem nearestSigned_le (hm : IsDoubleQuanta m.natAbs) (h : n ≤ m) : nearestSigned n ≤ m := by
  rcases Int.lt_or_le n 0 with hn | hn
  · rw [nearestSigned_of_neg hn]
    rcases Int.lt_or_le m 0 with hneg | hneg
    · have hle := hm.le_nearestQuanta (n := n.natAbs) (by omega)
      omega
    · omega
  · have hle := hm.nearestQuanta_le (n := n.natAbs) (by omega)
    rw [nearestSigned_of_nonneg hn]
    omega

theorem nearestSigned_mono (h : m ≤ n) : nearestSigned m ≤ nearestSigned n := by
  have hmono : ∀ i j : Int, i.natAbs ≤ j.natAbs →
      nearestQuanta i.natAbs 1 ≤ nearestQuanta j.natAbs 1 :=
    fun i j hij => nearestQuanta_mono Nat.one_pos Nat.one_pos (Nat.mul_le_mul_right 1 hij)
  rcases Int.lt_or_le m 0 with hm | hm
  · rw [nearestSigned_of_neg hm]
    rcases Int.lt_or_le n 0 with hn | hn
    · have hle := hmono n m (by omega)
      rw [nearestSigned_of_neg hn]
      omega
    · rw [nearestSigned_of_nonneg hn]
      omega
  · have hle := hmono m n (by omega)
    rw [nearestSigned_of_nonneg hm, nearestSigned_of_nonneg (hm.trans h)]
    omega

theorem nearestSigned_error (n : Int) :
    2 * nearestSigned n ≤ 2 * n + 2 ^ droppedBits n.natAbs ∧
    2 * n ≤ 2 * nearestSigned n + 2 ^ droppedBits n.natAbs := by
  have herror := nearestQuanta_error n.natAbs
  zify at herror
  rcases Int.lt_or_le n 0 with hn | hn
  · rw [nearestSigned_of_neg hn]
    rw [abs_of_neg hn] at herror
    omega
  · rw [nearestSigned_of_nonneg hn]
    rw [abs_of_nonneg hn] at herror
    omega

theorem nearestSigned_natAbs_le (h : n.natAbs ≤ 2 ^ k) (hk : k ≤ 2045) :
    (nearestSigned n).natAbs ≤ 2 ^ k := by
  have hle := (isDoubleQuanta_two_pow hk).nearestQuanta_le h
  rw [nearestSigned, Int.natAbs_mul, Int.natAbs_natCast]
  calc n.sign.natAbs * nearestQuanta n.natAbs 1
      ≤ 1 * nearestQuanta n.natAbs 1 := Nat.mul_le_mul_right _ ?_
    _ ≤ 2 ^ k := by rwa [Nat.one_mul]
  rw [Int.natAbs_sign]
  split <;> omega

end Signed

namespace Double

variable {x y : Double} {a b : Int} {k : Nat}

/-- Whether a double is a finite one of so many quanta. -/
def IsQuanta (x : Double) (n : Int) : Prop := ∃ s m, x = .finite s m ∧ m.signed s = n

theorem IsQuanta.unique (ha : x.IsQuanta a) (hb : x.IsQuanta b) : a = b := by
  obtain ⟨s, m, rfl, rfl⟩ := ha
  obtain ⟨t, l, hx, rfl⟩ := hb
  obtain ⟨rfl, rfl⟩ := Double.finite.inj hx
  rfl

theorem IsQuanta.isDouble (h : x.IsQuanta a) : IsDoubleQuanta a.natAbs := by
  obtain ⟨s, m, -, rfl⟩ := h
  cases s with
  | false => simpa [Magnitude.signed] using m.isDouble
  | true => simpa [Magnitude.signed] using m.isDouble

theorem exists_isQuanta (h : x.isFinite = true) : ∃ n, x.IsQuanta n := by
  cases x with
  | nan | infinite => cases h
  | finite s m => exact ⟨_, s, m, rfl, rfl⟩

theorem IsQuanta.isFinite (h : x.IsQuanta a) : x.isFinite = true := by
  obtain ⟨s, m, rfl, -⟩ := h
  rfl

theorem isQuanta_zero (s : Bool) : (zero s).IsQuanta 0 := ⟨s, _, rfl, by cases s <;> rfl⟩

theorem IsQuanta.neg (h : x.IsQuanta a) : (-x).IsQuanta (-a) := by
  obtain ⟨s, m, rfl, rfl⟩ := h
  exact ⟨!s, m, rfl, by cases s <;> simp [Magnitude.signed]⟩

theorem IsQuanta.abs (h : x.IsQuanta a) : x.abs.IsQuanta a.natAbs := by
  obtain ⟨s, m, rfl, rfl⟩ := h
  exact ⟨false, m, rfl, by cases s <;> simp [Magnitude.signed]⟩

theorem IsQuanta.le (ha : x.IsQuanta a) (hb : y.IsQuanta b) : x.le y = decide (a ≤ b) := by
  obtain ⟨s, m, rfl, rfl⟩ := ha
  obtain ⟨t, l, rfl, rfl⟩ := hb
  rfl

theorem isQuanta_ofQuanta (h : nearestQuanta a.natAbs 1 < quantaLimit) :
    (ofQuanta (decide (a < 0)) a.natAbs 1).IsQuanta (nearestSigned a) := by
  rw [ofQuanta, dif_pos h]
  refine ⟨_, _, rfl, ?_⟩
  rcases Int.lt_or_le a 0 with ha | ha
  · simp [Magnitude.signed, nearestSigned_of_neg ha, ha]
  · simp [Magnitude.signed, nearestSigned_of_nonneg ha, Int.not_lt.mpr ha]

theorem IsQuanta.add (ha : x.IsQuanta a) (hb : y.IsQuanta b)
    (h : nearestQuanta (a + b).natAbs 1 < quantaLimit) :
    (x + y).IsQuanta (nearestSigned (a + b)) := by
  have hsum := isQuanta_ofQuanta h
  obtain ⟨s, m, rfl, rfl⟩ := ha
  obtain ⟨t, l, rfl, rfl⟩ := hb
  change (Double.add _ _).IsQuanta _
  simp only [Double.add]
  split
  · rename_i hzero
    rw [hzero]
    exact isQuanta_zero _
  · exact hsum

theorem IsQuanta.sub (ha : x.IsQuanta a) (hb : y.IsQuanta b)
    (h : nearestQuanta (a - b).natAbs 1 < quantaLimit) :
    (x - y).IsQuanta (nearestSigned (a - b)) := by
  rw [Int.sub_eq_add_neg] at h ⊢
  exact ha.add hb.neg h

end Double

end PanelLayout
