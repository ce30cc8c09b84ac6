import Mathlib.Data.Rat.Floor
import PanelLayout.Proofs.Double.Exact

/-!
# Rounding a half up

The nearest pixel of a double is the whole part of the double and one half, where the sum is rounded
before it is cut down. For doubles with a fraction that is no loss, except for the one right below
one half, whose sum is rounded up to one. From `2⁵²` on all doubles are whole, and the odd ones are
rounded up to the next even one.
-/

namespace PanelLayout

attribute [local instance (high)] instPowNat

section Quanta

variable {m : Nat} {n : Int}

theorem divHalfEven_tie (c : Nat) {r : Nat} (hr : 0 < r) :
    divHalfEven (c * (2 * r) + r) (2 * r) = c + c % 2 := by
  have hdiv : (c * (2 * r) + r) / (2 * r) = c := by
    rw [Nat.add_comm, Nat.add_mul_div_right _ _ (by omega),
      Nat.div_eq_of_lt (by omega), Nat.zero_add]
  have hmod : (c * (2 * r) + r) % (2 * r) = r := by
    rw [Nat.add_comm, Nat.add_mul_mod_self_right, Nat.mod_eq_of_lt (by omega)]
  simp only [divHalfEven, hdiv, hmod, Nat.lt_irrefl, false_or, true_and]
  split <;> omega

section Ties

variable {c r e : Nat}

private theorem divHalfEven_add_half (c : Nat) (hr : 0 < r) (he : e = 1 ∨ 2 ∣ e ∧ 0 < e) :
    divHalfEven (c * (2 * r * e) + r) (2 * r * e) * (2 * r * e) =
      c * (2 * r * e) + c * e % 2 * (2 * r) := by
  rcases he with rfl | ⟨⟨k, rfl⟩, hpos⟩
  · rw [Nat.mul_one, Nat.mul_one, divHalfEven_tie c hr, Nat.add_mul]
  · have hk : r ≤ r * k := Nat.le_mul_of_pos_right r (by omega)
    have hunit : 2 * r * (2 * k) = 4 * (r * k) := by ring
    have heven : c * (2 * k) % 2 = 0 := by rw [Nat.mul_left_comm, Nat.mul_mod_right]
    rw [hunit, heven, Nat.zero_mul, Nat.add_zero,
      divHalfEven_eq_of_near (m := c) (by omega) (by omega) (by omega)]

private theorem divHalfEven_sub_half (hc : 0 < c) (hr : 0 < r) (he : e = 1 ∨ 2 ∣ e ∧ 0 < e) :
    divHalfEven (c * (2 * r * e) - r) (2 * r * e) * (2 * r * e) =
      c * (2 * r * e) - c * e % 2 * (2 * r) := by
  obtain ⟨b, rfl⟩ := Nat.exists_eq_add_of_lt hc
  rw [Nat.zero_add, Nat.add_mul, Nat.one_mul]
  rcases he with rfl | ⟨⟨k, rfl⟩, hpos⟩
  · have hdown : b * (2 * r) + 2 * r - r = b * (2 * r) + r := by omega
    rw [Nat.mul_one, Nat.mul_one, hdown, divHalfEven_tie b hr, Nat.add_mul]
    rcases Nat.mod_two_eq_zero_or_one b with hb | hb
    · rw [hb, show (b + 1) % 2 = 1 by omega]
      omega
    · rw [hb, show (b + 1) % 2 = 0 by omega]
      omega
  · have hk : r ≤ r * k := Nat.le_mul_of_pos_right r (by omega)
    have hunit : 2 * r * (2 * k) = 4 * (r * k) := by ring
    have heven : (b + 1) * (2 * k) % 2 = 0 := by rw [Nat.mul_left_comm, Nat.mul_mod_right]
    have hnext : b * (4 * (r * k)) + 4 * (r * k) = (b + 1) * (4 * (r * k)) := by ring
    rw [hunit, heven, Nat.zero_mul, Nat.sub_zero, hnext,
      divHalfEven_eq_of_near (m := b + 1) (by omega) (by omega) (by omega)]

end Ties

/-- One half and the last digit that a double from `2⁵²` on keeps, a power of two that is at least
one. -/
private theorem exists_last_digit (hlow : 2 ^ (52 : Nat) * quantaPerOne ≤ m) :
    ∃ e, 2 ^ droppedBits m = 2 * halfQuanta * e ∧
    (e = 1 ∨ 2 ∣ e ∧ 0 < e) := by
  obtain ⟨t, ht, hhalf, hone⟩ := exists_exponent
  have hlast : t + 1 ≤ droppedBits m := by
    rw [hone, ← Nat.pow_add] at hlow
    exact le_droppedBits hlow
  obtain ⟨d, hd⟩ := Nat.exists_eq_add_of_le hlast
  refine ⟨2 ^ d, by rw [hd, hhalf, Nat.pow_add, Nat.pow_succ, Nat.mul_comm (2 ^ t)], ?_⟩
  cases d with
  | zero => exact .inl rfl
  | succ d => exact .inr ⟨Dvd.intro_left (2 ^ d) rfl, Nat.two_pow_pos _⟩

private theorem natHalfQuanta_pos : 0 < halfQuanta := Int.natCast_pos.mp halfQuanta_pos

theorem nearestQuanta_add_halfQuanta (h : IsDoubleQuanta m)
    (hlow : 2 ^ (52 : Nat) * quantaPerOne ≤ m) :
    nearestQuanta (m + halfQuanta) 1 = m + m / quantaPerOne % 2 * quantaPerOne := by
  obtain ⟨e, hdigit, he⟩ := exists_last_digit hlow
  have hpos := natHalfQuanta_pos
  have hepos : 0 < e := by omega
  obtain ⟨c, hc⟩ := h.dvd
  have hbelow := lt_two_pow_droppedBits m
  rw [Nat.pow_add, hdigit] at hbelow
  rw [hdigit, Nat.mul_comm] at hc
  have hdropped : droppedBits (m + halfQuanta) = droppedBits m := by
    refine Nat.le_antisymm (droppedBits_le ?_) (droppedBits_mono (Nat.le_add_right m _))
    rw [Nat.pow_add, hdigit]
    have hlt : c < 2 ^ (53 : Nat) := by
      rw [hc] at hbelow
      exact Nat.lt_of_mul_lt_mul_right hbelow
    calc m + halfQuanta < c * (2 * halfQuanta * e) + 2 * halfQuanta * e := by
          have := Nat.le_mul_of_pos_right (2 * halfQuanta) hepos
          omega
      _ = (c + 1) * (2 * halfQuanta * e) := by ring
      _ ≤ 2 ^ (53 : Nat) * (2 * halfQuanta * e) := Nat.mul_le_mul_right _ hlt
  have hquotient : m / quantaPerOne = c * e := by
    rw [hc, quantaPerOne_eq, Nat.mul_comm (2 * halfQuanta), ← Nat.mul_assoc,
      Nat.mul_div_cancel _ (by omega)]
  rw [nearestQuanta_one, hdropped, hdigit, hquotient, quantaPerOne_eq]
  conv_lhs => rw [hc]
  rw [divHalfEven_add_half c hpos he, ← hc]

theorem quantaPerOne_dvd (h : IsDoubleQuanta m) (hlow : 2 ^ (52 : Nat) * quantaPerOne ≤ m) :
    quantaPerOne ∣ m := by
  obtain ⟨e, hdigit, -⟩ := exists_last_digit hlow
  refine Nat.dvd_trans ?_ h.dvd
  rw [hdigit, quantaPerOne_eq]
  exact Nat.dvd_mul_right _ _

theorem nearestQuanta_sub_halfQuanta (h : IsDoubleQuanta m)
    (hlow : 2 ^ (52 : Nat) * quantaPerOne < m) :
    nearestQuanta (m - halfQuanta) 1 = m - m / quantaPerOne % 2 * quantaPerOne := by
  have hpos := natHalfQuanta_pos
  have hbelow : 2 ^ (52 : Nat) * quantaPerOne ≤ m - halfQuanta := by
    obtain ⟨k, hm⟩ := quantaPerOne_dvd h hlow.le
    have hone := quantaPerOne_eq
    rw [hm, Nat.mul_comm] at hlow
    have hk : 2 ^ (52 : Nat) < k := Nat.lt_of_mul_lt_mul_left hlow
    have hmul := Nat.mul_le_mul_left quantaPerOne (Nat.succ_le_of_lt hk)
    rw [Nat.mul_succ, ← hm, Nat.mul_comm] at hmul
    omega
  obtain ⟨e, hdigit, he⟩ := exists_last_digit hbelow
  obtain ⟨c, hc⟩ := (pow_dvd_pow 2 (droppedBits_mono (Nat.sub_le m halfQuanta))).trans h.dvd
  rw [hdigit, Nat.mul_comm] at hc
  have hcpos : 0 < c := by
    rcases Nat.eq_zero_or_pos c with rfl | hcpos
    · omega
    · exact hcpos
  have hquotient : m / quantaPerOne = c * e := by
    rw [hc, quantaPerOne_eq, Nat.mul_comm (2 * halfQuanta), ← Nat.mul_assoc,
      Nat.mul_div_cancel _ (by omega)]
  rw [nearestQuanta_one, hdigit, hquotient, quantaPerOne_eq]
  conv_lhs => rw [hc]
  rw [divHalfEven_sub_half hcpos hpos he, ← hc]

/-- Up to `2⁵²`, a half can be taken from a double that is not less without rounding. -/
theorem isDoubleQuanta_sub_halfQuanta (h : IsDoubleQuanta m) (hlow : halfQuanta ≤ m)
    (hhigh : m ≤ 2 ^ (52 : Nat) * quantaPerOne) : IsDoubleQuanta (m - halfQuanta) := by
  obtain ⟨t, ht, hhalf, hone⟩ := exists_exponent
  have hpos := natHalfQuanta_pos
  have hdvd : 2 ^ min (droppedBits m) t ∣ m := (pow_dvd_pow 2 (Nat.min_le_left _ t)).trans h.dvd
  have hle : m ≤ 2 ^ (53 + min (droppedBits m) t) := by
    rcases Nat.le_total (droppedBits m) t with hmin | hmin
    · rw [Nat.min_eq_left hmin]
      exact (lt_two_pow_droppedBits m).le
    · rw [hone, ← Nat.pow_add] at hhigh
      rwa [Nat.min_eq_right hmin, show 53 + t = 52 + (t + 1) by omega]
  refine isDoubleQuanta_of_dvd (Nat.dvd_sub hdvd ?_) (by omega) (by omega)
  rw [hhalf]
  exact pow_dvd_pow 2 (Nat.min_le_right _ t)

/-- Up to `2⁵²`, a half on top of a double that is not less is rounded off at most behind the
point. -/
theorem nearestQuanta_add_halfQuanta_div (h : IsDoubleQuanta m) (hlow : halfQuanta ≤ m)
    (hhigh : m < 2 ^ (52 : Nat) * quantaPerOne) :
    nearestQuanta (m + halfQuanta) 1 / quantaPerOne = (m + halfQuanta) / quantaPerOne := by
  obtain ⟨t, ht, hhalf, hone⟩ := exists_exponent
  have hkept : droppedBits m ≤ t := by
    rw [hone, ← Nat.pow_add, show 52 + (t + 1) = 53 + t by omega] at hhigh
    exact droppedBits_le hhigh
  rcases Nat.lt_or_eq_of_le hkept with hlt | heq
  · have hreach : t < 53 + droppedBits m := by
      obtain ⟨l, hl⟩ : ∃ l, t = 52 + l := ⟨t - 52, by omega⟩
      rw [hhalf, hl] at hlow
      have := le_droppedBits hlow
      omega
    rw [hhalf, hone]
    exact nearestQuanta_add_div h.dvd (lt_two_pow_droppedBits m) hlt hreach (by omega)
  · -- the double is a multiple of one half, and so is the sum
    obtain ⟨c, hc⟩ := h.dvd
    have hbelow := lt_two_pow_droppedBits m
    rw [heq, Nat.pow_add, Nat.mul_comm] at hbelow
    rw [heq, ← hhalf] at hc
    rw [← hhalf, hc] at hbelow
    have hcount : c < 2 ^ (53 : Nat) := Nat.lt_of_mul_lt_mul_left hbelow
    have hsum : m + halfQuanta = (c + 1) * 2 ^ t := by rw [hc, hhalf]; ring
    have hdouble : IsDoubleQuanta (m + halfQuanta) := by
      rcases Nat.lt_or_eq_of_le (Nat.succ_le_of_lt hcount) with hlt | hlast
      · exact ⟨c + 1, t, hlt, by omega, hsum⟩
      · rw [hsum, ← Nat.succ_eq_add_one, hlast, ← Nat.pow_add]
        exact isDoubleQuanta_two_pow (by omega)
    rw [hdouble.nearestQuanta_eq]

private theorem exists_unit : ∃ s, s = 1020 ∧ halfQuanta = 2 ^ (53 : Nat) * 2 ^ s ∧
    quantaPerOne = 2 ^ (53 : Nat) * (2 * 2 ^ s) := by
  obtain ⟨t, ht, hhalf, hone⟩ := exists_exponent
  have hunit : 2 ^ t = 2 ^ (53 : Nat) * 2 ^ (t - 53) := by
    rw [← Nat.pow_add, Nat.add_sub_cancel' (by omega)]
  refine ⟨t - 53, by omega, by rw [hhalf, hunit], ?_⟩
  rw [hone, Nat.pow_succ, hunit]
  ring

/-- The sum of one half and a smaller double is rounded up to one exactly for the double right below
one half. -/
theorem nearestQuanta_add_halfQuanta_of_lt (h : IsDoubleQuanta m) (hlt : m < halfQuanta) :
    nearestQuanta (m + halfQuanta) 1 / quantaPerOne = if m + 2 ^ (1020 : Nat) = halfQuanta
      then 1 else 0 := by
  obtain ⟨s, hs, hhalf, hone⟩ := exists_unit
  rw [← hs]
  have hpos := Nat.two_pow_pos s
  have hunit : 2 ^ (s + 1) = 2 * 2 ^ s := Nat.pow_succ'
  rw [hhalf] at hlt ⊢
  rcases Nat.lt_or_ge (2 ^ (53 : Nat) * 2 ^ s) (m + 2 * 2 ^ s) with hnear | hfar
  · -- only one double is left here, and its sum is a tie between the last double below one and one
    have hlast : s ≤ droppedBits m := le_droppedBits (by rw [Nat.pow_add]; omega)
    obtain ⟨c, hc⟩ := (pow_dvd_pow 2 hlast).trans h.dvd
    rw [Nat.mul_comm] at hc
    have hcount : c = 2 ^ (53 : Nat) - 1 := by
      rw [hc] at hlt hnear
      rw [← Nat.add_mul] at hnear
      have hbelow : c < 2 ^ (53 : Nat) := Nat.lt_of_mul_lt_mul_right hlt
      have habove : 2 ^ (53 : Nat) < c + 2 := Nat.lt_of_mul_lt_mul_right hnear
      omega
    rw [hcount] at hc
    have hdropped : droppedBits (m + 2 ^ (53 : Nat) * 2 ^ s) = s + 1 := by
      refine Nat.le_antisymm (droppedBits_le ?_) (le_droppedBits ?_)
      · rw [Nat.pow_add, hunit]
        omega
      · rw [Nat.pow_add, hunit]
        omega
    have htie : m + 2 ^ (53 : Nat) * 2 ^ s = (2 ^ (53 : Nat) - 1) * (2 * 2 ^ s) + 2 ^ s := by omega
    rw [nearestQuanta_one, hdropped, htie, hunit, divHalfEven_tie _ hpos, if_pos (by omega), hone]
    exact Nat.div_self (by omega)
  · have hdouble : IsDoubleQuanta ((2 ^ (53 : Nat) - 1) * 2 ^ (s + 1)) :=
      ⟨_, s + 1, by decide, by omega, rfl⟩
    have hround := hdouble.nearestQuanta_le (n := m + 2 ^ (53 : Nat) * 2 ^ s) (by rw [hunit]; omega)
    rw [hunit] at hround
    rw [if_neg (by omega), hone, Nat.div_eq_of_lt (by omega)]

private theorem whole_add_half_div (k : Int) :
    (k * quantaPerOne + halfQuanta) / (quantaPerOne : Int) = k := by
  have hpos := quantaPerOne_cast_pos
  have hhalf := halfQuanta_pos
  have hlt : (halfQuanta : Int) < quantaPerOne := by
    rw [quantaPerOne_cast]
    omega
  rw [Int.add_comm, Int.add_mul_ediv_right _ _ hpos.ne',
    Int.ediv_eq_zero_of_lt hhalf.le hlt, Int.zero_add]

/-- Beyond `2⁵²`, an even double is its own pixel, and an odd one has the pixel of the next. -/
theorem pixelOf_nearest_whole {k : Int} (h : IsDoubleQuanta (k * quantaPerOne).natAbs)
    (hlarge : 2 ^ (52 : Nat) ≤ k ∨ k < -2 ^ (52 : Nat)) :
    pixelOf .nearest (k * quantaPerOne) = k + k % 2 := by
  have hpos := quantaPerOne_cast_pos
  have hone := quantaPerOne_eq
  have hhalf := natHalfQuanta_pos
  rw [Int.natAbs_mul, Int.natAbs_natCast] at h
  have hquotient : k.natAbs * quantaPerOne / quantaPerOne = k.natAbs :=
    Nat.mul_div_cancel _ quantaPerOne_pos
  rcases hlarge with hlarge | hlarge
  · lift k to Nat using (by omega)
    have hround := nearestQuanta_add_halfQuanta h (Nat.mul_le_mul_right _ (by omega))
    rw [hquotient, Int.natAbs_natCast, ← Nat.add_mul] at hround
    have hsum : ((k : Int) * quantaPerOne + halfQuanta).natAbs = k * quantaPerOne + halfQuanta := by
      rw [← Int.natCast_mul, ← Int.natCast_add, Int.natAbs_natCast]
    have hnonneg : 0 ≤ (k : Int) * quantaPerOne + halfQuanta := by
      rw [← Int.natCast_mul, ← Int.natCast_add]
      exact Int.natCast_nonneg _
    rw [pixelOf, nearestSigned_of_nonneg hnonneg, hsum, hround, Int.natCast_mul,
      Int.mul_ediv_cancel _ hpos.ne']
    omega
  · obtain ⟨k, rfl⟩ : ∃ l : Nat, k = -(l : Int) := ⟨k.natAbs, by omega⟩
    rw [Int.natAbs_neg, Int.natAbs_natCast] at h hquotient
    have hround :=
      nearestQuanta_sub_halfQuanta h (Nat.mul_lt_mul_of_pos_right (by omega) quantaPerOne_pos)
    rw [hquotient, ← Nat.sub_mul] at hround
    have hle : quantaPerOne ≤ k * quantaPerOne := Nat.le_mul_of_pos_left _ (by omega)
    have hsum : -(k : Int) * quantaPerOne + halfQuanta =
        -((k * quantaPerOne - halfQuanta : Nat) : Int) := by
      rw [Int.neg_mul, ← Int.natCast_mul]
      omega
    rw [pixelOf, hsum, nearestSigned_of_neg (by omega), Int.natAbs_neg, Int.natAbs_natCast, hround,
      Int.natCast_mul, ← Int.neg_mul, Int.mul_ediv_cancel _ hpos.ne']
    omega

/-- Below `2⁵²`, only the double right below one half is rounded to more than the whole part of its
sum with one half. -/
theorem pixelOf_nearest_of_small (h : IsDoubleQuanta n.natAbs)
    (hlow : -(2 ^ (52 : Nat) * quantaPerOne : Nat) ≤ n)
    (hhigh : n < (2 ^ (52 : Nat) * quantaPerOne : Nat)) :
    pixelOf .nearest n = (n + halfQuanta) / quantaPerOne + if n + 2 ^ (1020 : Nat) = halfQuanta
      then 1 else 0 := by
  have hpos := quantaPerOne_cast_pos
  have hhalf := halfQuanta_pos
  have hone := quantaPerOne_cast
  obtain ⟨s, hs, hle, -⟩ := exists_unit
  have hunit : (0 : Int) < 2 ^ s ∧ (2 : Int) ^ s ≤ halfQuanta := by
    rw [hle]
    push_cast
    have : (0 : Int) < 2 ^ s := by positivity
    omega
  rw [pixelOf, ← hs]
  rcases Int.lt_or_le n 0 with hneg | hnonneg
  · rw [if_neg (by omega), Int.add_zero]
    rcases Int.lt_or_le (n + halfQuanta) 0 with hbelow | habove
    · -- the sum is a double
      have hsum : (n + halfQuanta).natAbs = n.natAbs - halfQuanta := by omega
      rw [nearestSigned_eq (hsum ▸ isDoubleQuanta_sub_halfQuanta h (by omega) (by omega))]
    · have hzero := le_nearestSigned isDoubleQuanta_zero habove
      have hdouble : IsDoubleQuanta (halfQuanta : Int).natAbs := by
        rw [Int.natAbs_natCast]
        exact isDoubleQuanta_halfQuanta
      have hround := nearestSigned_le (n := n + halfQuanta) hdouble (by omega)
      rw [Int.ediv_eq_zero_of_lt hzero (by omega), Int.ediv_eq_zero_of_lt habove (by omega)]
  · lift n to Nat using hnonneg
    have hsum : ((n : Int) + halfQuanta).natAbs = n + halfQuanta := by omega
    rw [nearestSigned_of_nonneg (by omega), hsum]
    rcases Nat.lt_or_ge n halfQuanta with hlt | hge
    · have hround := nearestQuanta_add_halfQuanta_of_lt (by simpa using h) hlt
      rw [← hs] at hround
      have hfloor : ((n : Int) + halfQuanta) / quantaPerOne = 0 :=
        Int.ediv_eq_zero_of_lt (by omega) (by omega)
      rw [hfloor, Int.zero_add]
      exact_mod_cast hround
    · have hround := nearestQuanta_add_halfQuanta_div (by simpa using h) hge (by omega)
      rw [if_neg (by omega), Int.add_zero]
      exact_mod_cast hround

/-- The whole numbers of quanta whose sum with one half is rounded up to the next whole number. -/
def IsOver (n : Int) : Prop :=
  n + 2 ^ (1020 : Nat) = halfQuanta ∨ ∃ k : Int, k % 2 = 1 ∧ 2 ^ (52 : Nat) < k.natAbs ∧
    n = k * quantaPerOne

theorem isOver_whole_iff {k : Int} (hk : 2 ^ (52 : Nat) ≤ k.natAbs) :
    IsOver (k * quantaPerOne) ↔ k % 2 = 1 := by
  constructor
  · intro h
    rcases h with h | ⟨l, hodd, -, hl⟩
    · obtain ⟨s, hs, hhalf, hone⟩ := exists_unit
      have hpos : (2 : Int) ^ s ≠ 0 := by positivity
      rw [hhalf, hone, ← hs] at h
      push_cast at h
      have hcancel : k * 2 ^ (54 : Nat) + 1 = 2 ^ (53 : Nat) := mul_right_cancel₀ hpos (by linarith)
      omega
    · obtain rfl := Int.eq_of_mul_eq_mul_right quantaPerOne_cast_pos.ne' hl
      exact hodd
  · exact fun hodd => .inr ⟨k, hodd, by omega, rfl⟩

/-- Only doubles whose sum with one half is rounded up to the next whole number have another pixel
than the whole part of the sum, and that is the next one. -/
theorem pixelOf_nearest (h : IsDoubleQuanta n.natAbs) :
    IsOver n ∧ pixelOf .nearest n = (n + halfQuanta) / quantaPerOne + 1 ∨
      ¬IsOver n ∧ pixelOf .nearest n = (n + halfQuanta) / quantaPerOne := by
  have hpos := quantaPerOne_cast_pos
  by_cases hlarge : (2 ^ (52 : Nat) * quantaPerOne : Nat) ≤ n ∨
    n < -(2 ^ (52 : Nat) * quantaPerOne : Nat)
  · obtain ⟨k, rfl⟩ : ∃ k : Int, n = k * quantaPerOne :=
      exists_eq_mul_left_of_dvd (Int.natCast_dvd.mpr (quantaPerOne_dvd h (by omega)))
    have hk : 2 ^ (52 : Nat) ≤ k ∨ k < -2 ^ (52 : Nat) := by
      rw [Int.natCast_mul, ← Int.neg_mul] at hlarge
      rcases hlarge with hlarge | hlarge
      · have := Int.le_of_mul_le_mul_right hlarge hpos
        omega
      · have := Int.lt_of_mul_lt_mul_right hlarge hpos.le
        omega
    have hpixel := pixelOf_nearest_whole h hk
    have hover := isOver_whole_iff (k := k) (by omega)
    rw [hpixel, hover, whole_add_half_div]
    omega
  · rw [pixelOf_nearest_of_small h (by omega) (by omega)]
    have hwhole : ¬∃ k : Int, k % 2 = 1 ∧ 2 ^ (52 : Nat) < k.natAbs ∧ n = k * quantaPerOne := by
      intro hwhole
      obtain ⟨k, -, hk, rfl⟩ := hwhole
      have habs := Nat.mul_lt_mul_of_pos_right hk quantaPerOne_pos
      have hnatAbs : (k * quantaPerOne).natAbs = k.natAbs * quantaPerOne := by
        rw [Int.natAbs_mul, Int.natAbs_natCast]
      omega
    rw [IsOver, or_iff_left hwhole]
    by_cases hunder : n + 2 ^ (1020 : Nat) = halfQuanta
    · rw [if_pos hunder]
      exact .inl ⟨hunder, rfl⟩
    · rw [if_neg hunder, Int.add_zero]
      exact .inr ⟨hunder, rfl⟩

end Quanta

namespace Double

variable {x : Double} {n : Int}

def towardsZero (v : ℚ) : Int := if 0 ≤ v then ⌊v⌋ else ⌈v⌉

/-- Whether a whole number is the nearest to a number, and the upper one of two that are equally
near. -/
structure IsHalfUp (v : ℚ) (n : Int) : Prop where
  greatest : IsGreatest {k : Int | (k : ℚ) ≤ v + 1 / 2} n
  near : |n - v| ≤ 1 / 2
  tie : ∀ k : Int, v = k + 1 / 2 → n = k + 1
  whole : ∀ k : Int, v = k → n = k

theorem isHalfUp_iff {v : ℚ} {n : Int} : IsHalfUp v n ↔ n = ⌊v + 1 / 2⌋ := by
  constructor
  · intro h
    exact h.greatest.unique ⟨Int.floor_le (v + 1 / 2), fun k hk => Int.le_floor.mpr hk⟩
  · rintro rfl
    have hlow := Int.floor_le (v + 1 / 2)
    have hhigh := Int.lt_floor_add_one (v + 1 / 2)
    refine ⟨⟨hlow, fun k hk => Int.le_floor.mpr hk⟩, abs_le.mpr ⟨by linarith, by linarith⟩, ?_, ?_⟩
    · rintro k rfl
      rw [add_assoc, add_halves, ← Int.cast_one, ← Int.cast_add, Int.floor_intCast]
    · rintro k rfl
      rw [Int.floor_intCast_add, (Int.floor_eq_zero_iff).mpr ⟨by norm_num, by norm_num⟩,
        Int.add_zero]

/-- Whether one half on top of a double is rounded up to the next whole number: the double is the
one right below one half, or it is odd and beyond `2⁵²`. -/
def IsRoundedOver (x : Double) : Prop :=
  x.exact = 1 / 2 - 1 / 2 ^ 54 ∨ ∃ k : Int, k % 2 = 1 ∧ 2 ^ 52 < k.natAbs ∧ x.exact = k

theorem floor_exact_add_half (h : x.IsQuanta n) :
    ⌊x.exact + 1 / 2⌋ = (n + halfQuanta) / quantaPerOne := by
  have hpos : (0 : ℚ) < halfQuanta := by exact_mod_cast halfQuanta_pos
  have hsum : x.exact + 1 / 2 = ((n + halfQuanta : Int) : ℚ) / (quantaPerOne : Nat) := by
    have hsplit (q : ℚ) (hq : 0 < q) : (n : ℚ) / (2 * q) + 1 / 2 = (n + q) / (2 * q) := by
      field_simp
    rw [h.exact_eq, quantaPerOne_eq, Nat.cast_mul, Nat.cast_ofNat, hsplit _ hpos, Int.cast_add,
      Int.cast_natCast]
  rw [hsum, Rat.floor_intCast_div_natCast]

theorem towardsZero_exact (h : x.IsQuanta n) : towardsZero x.exact = n.tdiv quantaPerOne := by
  have hpos : (0 : ℚ) < quantaPerOne := by exact_mod_cast quantaPerOne_pos
  rw [towardsZero, h.exact_eq]
  rcases Int.lt_or_le n 0 with hneg | hnonneg
  · have hlt : (n : ℚ) / quantaPerOne < 0 := div_neg_of_neg_of_pos (by exact_mod_cast hneg) hpos
    have hceil : (n : ℚ) / quantaPerOne = -(((-n : Int) : ℚ) / (quantaPerOne : Nat)) := by
      push_cast
      ring
    rw [if_neg (not_le.mpr hlt), hceil, Int.ceil_neg, Rat.floor_intCast_div_natCast,
      ← Int.tdiv_eq_ediv_of_nonneg (by omega), Int.neg_tdiv, Int.neg_neg]
  · have hle : 0 ≤ (n : ℚ) / quantaPerOne := div_nonneg (by exact_mod_cast hnonneg) hpos.le
    rw [if_pos hle, Rat.floor_intCast_div_natCast, Int.tdiv_eq_ediv_of_nonneg hnonneg]

theorem isRoundedOver_iff (h : x.IsQuanta n) : x.IsRoundedOver ↔ IsOver n := by
  obtain ⟨s, hs, hhalf, hone⟩ := exists_unit
  have hunit : (0 : ℚ) < 2 ^ s := by positivity
  have hpos : (quantaPerOne : ℚ) ≠ 0 := by exact_mod_cast quantaPerOne_pos.ne'
  rw [IsRoundedOver, IsOver, h.exact_eq, ← hs]
  refine or_congr ?_ (exists_congr fun k => and_congr_right fun _ => and_congr_right fun _ => ?_)
  · have hquanta : n + 2 ^ s = halfQuanta ↔ (n : ℚ) + 2 ^ s = halfQuanta := by
      exact_mod_cast Iff.rfl
    rw [div_eq_iff hpos, hquanta, hhalf, hone]
    push_cast
    constructor <;> intro heq <;> linarith
  · rw [div_eq_iff hpos]
    exact_mod_cast Iff.rfl

/-- A finite double is cut down to the exact pixel. Its nearest pixel is exact too, with a half
rounded up, unless one half on top of the double is rounded up to the next whole number, which is
then the pixel. -/
theorem toPixel_exact (h : x.isFinite = true) : x.toPixel .truncate = pure (towardsZero x.exact) ∧
    ∃ n, x.toPixel .nearest = pure n ∧ (IsHalfUp x.exact n ↔ ¬x.IsRoundedOver) ∧
      (x.IsRoundedOver → n = ⌊x.exact + 1 / 2⌋ + 1) := by
  obtain ⟨n, hn⟩ := exists_isQuanta h
  refine ⟨?_, pixelOf .nearest n, hn.toPixel_eq_pure .nearest, ?_⟩
  · rw [hn.toPixel_eq_pure, towardsZero_exact hn]
    rfl
  · rw [isHalfUp_iff, isRoundedOver_iff hn, floor_exact_add_half hn]
    rcases pixelOf_nearest hn.isDouble with ⟨hover, hpixel⟩ | ⟨hexact, hpixel⟩
    · exact ⟨⟨fun heq => by omega, fun hnot => absurd hover hnot⟩, fun _ => hpixel⟩
    · exact ⟨⟨fun _ => hexact, fun _ => hpixel⟩, fun hover => absurd hover hexact⟩

/-- Twelve and a half. -/
theorem toPixel_twelve_and_a_half :
    (ofRatio 25 2).isFinite = true ∧ (ofRatio 25 2).toPixel .truncate = pure 12 ∧
    (ofRatio 25 2).toPixel .nearest = pure 13 := by
  obtain ⟨t, ht, hhalf, hone⟩ := exists_exponent
  have hdouble : IsDoubleQuanta (25 * 2 ^ t) := ⟨25, t, by decide, by omega, rfl⟩
  have heq : 25 * quantaPerOne = 25 * 2 ^ t * 2 := by rw [hone, Nat.pow_succ, Nat.mul_assoc]
  have hexact : (ofRatio 25 2).exact = ((25 : Nat) : ℚ) / (2 : Nat) :=
    exact_ofRatio_of_eq (a := 25) (b := 2) (by decide) (by decide) hdouble heq
  have hfinite : (ofRatio 25 2).isFinite = true :=
    (isQuanta_ofRatio (a := 25) (b := 2) (by decide) (by decide)).isFinite
  obtain ⟨htruncate, n, hnearest, hiff, -⟩ := toPixel_exact hfinite
  have hover : ¬(ofRatio 25 2).IsRoundedOver := by
    rw [IsRoundedOver, hexact]
    rintro (hlow | ⟨k, -, hlarge, heq⟩)
    · norm_num at hlow
    · rw [div_eq_iff (by norm_num)] at heq
      have hodd : 25 = k * 2 := by exact_mod_cast heq
      omega
  refine ⟨hfinite, ?_, ?_⟩
  · rw [htruncate, hexact]
    norm_num [towardsZero]
  · rw [hnearest, (hiff.mpr hover).tie 12 (by rw [hexact]; norm_num)]
    rfl

/-- The nearest pixel of the double right below one half is one. -/
theorem toPixel_nearest_below_half :
    (ofRatio 9007199254740991 18014398509481984).exact = 1 / 2 - 1 / 2 ^ 54 ∧
    (ofRatio 9007199254740991 18014398509481984).toPixel .nearest = pure 1 ∧
    ¬IsHalfUp (ofRatio 9007199254740991 18014398509481984).exact 1 := by
  obtain ⟨s, hs, hhalf, hone⟩ := exists_unit
  have hdouble : IsDoubleQuanta (9007199254740991 * 2 ^ s) := ⟨_, s, by decide, by omega, rfl⟩
  have heq : 9007199254740991 * quantaPerOne = 9007199254740991 * 2 ^ s * 18014398509481984 := by
    rw [hone]
    ring
  have hvalue : (ofRatio 9007199254740991 18014398509481984).exact =
      ((9007199254740991 : Nat) : ℚ) / (18014398509481984 : Nat) :=
    exact_ofRatio_of_eq (a := 9007199254740991) (b := 18014398509481984) (by decide) (by
      decide) hdouble heq
  have hexact : (ofRatio 9007199254740991 18014398509481984).exact = 1 / 2 - 1 / 2 ^ 54 := by
    rw [hvalue]
    norm_num
  have hquanta : (ofRatio 9007199254740991 18014398509481984).IsQuanta
      (ratioQuanta 9007199254740991 18014398509481984) :=
    isQuanta_ofRatio (a := 9007199254740991) (b := 18014398509481984) (by decide) (by decide)
  have hpos := Nat.two_pow_pos s
  rw [ratioQuanta_eq hdouble (by decide) heq] at hquanta
  have hover : IsOver (9007199254740991 * 2 ^ s : Nat) := by
    refine .inl ?_
    rw [← hs, hhalf]
    push_cast
    ring
  have hfloor : ((9007199254740991 * 2 ^ s : Nat) + halfQuanta : Int) / quantaPerOne = 0 := by
    refine Int.ediv_eq_zero_of_lt (by omega) ?_
    rw [hhalf, hone]
    omega
  have hpixel : pixelOf .nearest (9007199254740991 * 2 ^ s : Nat) = 1 := by
    rcases pixelOf_nearest (n := (9007199254740991 * 2 ^ s : Nat)) hquanta.isDouble
      with ⟨-, hpixel⟩ | ⟨hnot, -⟩
    · rw [hpixel, hfloor, Int.zero_add]
    · exact absurd hover hnot
  refine ⟨hexact, by rw [hquanta.toPixel_eq_pure, hpixel], ?_⟩
  rw [isHalfUp_iff, hexact]
  norm_num

end Double

end PanelLayout
