import Mathlib.Data.Nat.Cast.Field
import Mathlib.Tactic.FieldSimp
import PanelLayout.Proofs.Double.Pixels
import PanelLayout.Proofs.Double.Range

/-!
# Exact values

The rational number that a finite double stands for. The double of a ratio of whole numbers is off
by at most one part in `2⁵³`. This tells ratios of moderate numbers apart, and what is computed from
one of them has the exact whole part, unless it was a whole number that rounding has put below.
-/

namespace PanelLayout

attribute [local instance (high)] instPowNat

/-- Whether a whole number is positive and so small that the product of two such numbers leaves a
binary digit of a double. -/
def IsModerate (n : Nat) : Prop := 0 < n ∧ n < 2 ^ (26 : Nat)

section Quanta

variable {a b c d n r : Nat}

theorem IsModerate.lt (h : IsModerate n) : n < 2 ^ (53 : Nat) := h.2.trans (by decide)

theorem IsModerate.mul_lt (ha : IsModerate a) (hb : IsModerate b) : a * b < 2 ^ (52 : Nat) := by
  calc a * b < 2 ^ (26 : Nat) * 2 ^ (26 : Nat) := Nat.mul_lt_mul'' ha.2 hb.2
    _ = 2 ^ (52 : Nat) := rfl

theorem nearestQuanta_relative_div (hd : 0 < d) (h : 2 ^ (53 : Nat) * d ≤ n) :
    2 ^ (53 : Nat) * (nearestQuanta n d * d) ≤ (2 ^ (53 : Nat) + 1) * n ∧
      2 ^ (53 : Nat) * n ≤ 2 ^ (53 : Nat) * (nearestQuanta n d * d) + n := by
  have hdigit : 2 ^ (52 : Nat) * (d * 2 ^ droppedBits (n / d)) ≤ n := by
    by_cases hdropped : droppedBits (n / d) = 0
    · rw [hdropped, Nat.pow_zero, Nat.mul_one]
      omega
    · have hkept := (Nat.le_div_iff_mul_le hd).mp (two_pow_le_of_droppedBits_ne_zero hdropped)
      rwa [Nat.pow_add, Nat.mul_assoc, Nat.mul_comm _ d] at hkept
  obtain ⟨hup, hdown⟩ := nearestQuanta_error_div n hd
  constructor <;> omega

def ratioQuanta (a b : Nat) : Nat := nearestQuanta (a * quantaPerOne) b

theorem two_pow_le_quantaPerOne : 2 ^ (200 : Nat) ≤ quantaPerOne := by
  obtain ⟨t, ht, -, hone⟩ := exists_exponent
  rw [hone]
  exact Nat.pow_le_pow_right Nat.two_pos (by omega)

/-- Even the products and quotients of moderate numbers are far from the largest double. -/
theorem isDoubleQuanta_large : IsDoubleQuanta (2 ^ (53 : Nat) * quantaPerOne) := by
  obtain ⟨t, ht, -, hone⟩ := exists_exponent
  rw [hone, ← Nat.pow_add]
  exact isDoubleQuanta_two_pow (by omega)

theorem ratioQuanta_relative (ha : 0 < a) (hb : IsModerate b) :
    2 ^ (53 : Nat) * (ratioQuanta a b * b) ≤ (2 ^ (53 : Nat) + 1) * (a * quantaPerOne) ∧
      2 ^ (53 : Nat) * (a * quantaPerOne) ≤ 2 ^ (53 : Nat) * (ratioQuanta a b * b) +
        a * quantaPerOne := by
  obtain ⟨hpos, hlt⟩ := hb
  refine nearestQuanta_relative_div hpos ?_
  have hone := two_pow_le_quantaPerOne
  have hle : quantaPerOne ≤ a * quantaPerOne := Nat.le_mul_of_pos_left _ ha
  omega

theorem ratioQuanta_bounds (ha : IsModerate a) (hb : IsModerate b) :
    quantaPerOne ≤ 2 ^ (27 : Nat) * ratioQuanta a b ∧
    ratioQuanta a b ≤ 2 ^ (27 : Nat) * quantaPerOne := by
  obtain ⟨hhigh, hlow⟩ := ratioQuanta_relative ha.1 hb
  have hleast : quantaPerOne ≤ a * quantaPerOne := Nat.le_mul_of_pos_left _ ha.1
  have hmost : a * quantaPerOne ≤ 2 ^ (26 : Nat) * quantaPerOne := Nat.mul_le_mul_right _ ha.2.le
  have hleast' : ratioQuanta a b ≤ ratioQuanta a b * b := Nat.le_mul_of_pos_right _ hb.1
  have hmost' : ratioQuanta a b * b ≤ ratioQuanta a b * 2 ^ (26 : Nat) :=
    Nat.mul_le_mul_left _ hb.2.le
  constructor <;> omega

theorem ratioQuanta_pos (ha : IsModerate a) (hb : IsModerate b) : 0 < ratioQuanta a b := by
  have hleast := (ratioQuanta_bounds ha hb).1
  have hpos := quantaPerOne_pos
  omega

theorem ratioQuanta_eq (h : IsDoubleQuanta n) (hb : 0 < b) (heq : a * quantaPerOne = n * b) :
    ratioQuanta a b = n := by
  rw [ratioQuanta, heq, nearestQuanta_mul_self _ hb, h.nearestQuanta_eq]

theorem ratioQuanta_le_iff (ha : IsModerate a) (hb : IsModerate b) (hc : 0 < c)
    (hd : IsModerate d) :
    ratioQuanta a b ≤ ratioQuanta c d ↔ a * d ≤ c * b := by
  constructor
  · intro h
    by_contra hlt
    have hlow := (ratioQuanta_relative ha.1 hb).2
    have hhigh := (ratioQuanta_relative hc hd).1
    have hpos := quantaPerOne_pos
    have hleft := Nat.mul_le_mul_right d hlow
    have hright := Nat.mul_le_mul_right b hhigh
    have horder := Nat.mul_le_mul_right (b * d) h
    have hgap := Nat.mul_le_mul_right quantaPerOne (Nat.succ_le_of_lt (Nat.not_le.mp hlt))
    have hcontra : (2 ^ (53 : Nat) + 1) * quantaPerOne ≤ 2 * (a * d * quantaPerOne) := by
      rw [Nat.succ_mul] at hgap
      linarith
    have hsmall := Nat.mul_lt_mul_of_pos_right (ha.mul_lt hd) hpos
    omega
  · intro h
    refine nearestQuanta_mono hb.1 hd.1 ?_
    rw [Nat.mul_right_comm, Nat.mul_right_comm c]
    exact Nat.mul_le_mul_right _ h

/-- What is close enough to a quotient has its whole part, unless the quotient is whole and not
reached. -/
theorem whole_part_cases (hd : 0 < d) (hn : n < 2 ^ (52 : Nat))
    (hhigh : 2 ^ (53 : Nat) * (r * d) ≤ (2 ^ (53 : Nat) + 1) * (n * quantaPerOne) + r * d)
    (hlow : ∀ e, e * d < n → e * quantaPerOne ≤ r) :
    (d ∣ n ∧ r < n / d * quantaPerOne) ∧ r / quantaPerOne + 1 = n / d ∨
      ¬(d ∣ n ∧ r < n / d * quantaPerOne) ∧ r / quantaPerOne = n / d := by
  have hpos := quantaPerOne_pos
  -- the error of one part in 2⁵² does not reach the next whole number, which is further away
  have hbelow : r < (n / d + 1) * quantaPerOne := by
    by_contra hge
    have hnext : n + 1 ≤ (n / d + 1) * d := by
      have := Nat.div_add_mod n d
      have := Nat.mod_lt n hd
      rw [Nat.add_mul, Nat.one_mul, Nat.mul_comm]
      omega
    have hreach := Nat.mul_le_mul_right d (Nat.not_lt.mp hge)
    have hgap := Nat.mul_le_mul_right quantaPerOne hnext
    have hsmall := Nat.mul_le_mul_right quantaPerOne (Nat.le_sub_one_of_lt hn)
    have hcontra : 2 ^ (53 : Nat) * quantaPerOne ≤ 2 * (n * quantaPerOne) + quantaPerOne := by
      linarith
    omega
  have hat (e : Nat) (hle : e * quantaPerOne ≤ r) : e ≤ r / quantaPerOne :=
    (Nat.le_div_iff_mul_le hpos).mpr hle
  have hmost := (Nat.div_lt_iff_lt_mul hpos).mpr hbelow
  by_cases hdvd : d ∣ n
  · rcases Nat.lt_or_ge r (n / d * quantaPerOne) with hlt | hge
    · have hone : 0 < n / d := Nat.pos_of_mul_pos_right (Nat.zero_lt_of_lt hlt)
      have hbefore : (n / d - 1) * d < n := by
        rw [Nat.sub_mul, Nat.div_mul_cancel hdvd]
        have := Nat.pos_of_div_pos hone
        omega
      have hleast := hat _ (hlow _ hbefore)
      have hless := (Nat.div_lt_iff_lt_mul hpos).mpr hlt
      -- one less is below the exact quotient, so that it is reached
      exact .inl ⟨⟨hdvd, hlt⟩, by omega⟩
    · have hleast := hat _ hge
      exact .inr ⟨fun hless => by omega, by omega⟩
  · have hrest : n / d * d < n :=
      Nat.lt_of_le_of_ne (Nat.div_mul_le_self n d) fun heq => hdvd (Dvd.intro_left _ heq)
    have hleast := hat _ (hlow _ hrest)
    exact .inr ⟨fun hless => hdvd hless.1, by omega⟩

end Quanta

namespace Double

variable {x : Double} {n : Int} {a b : Nat}

def exact : Double → ℚ
  | .finite s m => (m.signed s : ℚ) / quantaPerOne
  | _ => 0

theorem IsQuanta.exact_eq (h : x.IsQuanta n) : x.exact = (n : ℚ) / quantaPerOne := by
  obtain ⟨s, m, rfl, rfl⟩ := h
  rfl

/-- Whether a double is below a quotient that is a whole number. -/
def FallsShort (x : Double) (a b : Nat) : Prop := b ∣ a ∧ x.exact < (a : ℚ) / b

theorem fallsShort_finite_iff {m : Magnitude} (hb : 0 < b) :
    (finite false m).FallsShort a b ↔ b ∣ a ∧ m.quanta < a / b * quantaPerOne := by
  refine and_congr_right fun hdvd => ?_
  have hpos : (0 : ℚ) < quantaPerOne := by exact_mod_cast quantaPerOne_pos
  rw [(isQuanta_finite m).exact_eq, div_lt_iff₀ hpos,
    ← Nat.cast_div hdvd (by exact_mod_cast hb.ne'), Int.cast_natCast, ← Nat.cast_mul, Nat.cast_lt]

/-- What is close enough to a quotient is cut down to its whole part, unless it falls short of
it. -/
theorem cut_down {m : Magnitude} (hb : 0 < b) (ha : a < 2 ^ (52 : Nat))
    (hhigh : 2 ^ (53 : Nat) * (m.quanta * b) ≤
      (2 ^ (53 : Nat) + 1) * (a * quantaPerOne) + m.quanta * b)
    (hlow : ∀ e, e * b < a → e * quantaPerOne ≤ m.quanta) :
    ((finite false m).FallsShort a b → m.quanta / quantaPerOne + 1 = a / b) ∧
      (¬(finite false m).FallsShort a b → m.quanta / quantaPerOne = a / b) := by
  rw [fallsShort_finite_iff hb]
  rcases whole_part_cases hb ha hhigh hlow with ⟨hshort, heq⟩ | ⟨hreached, heq⟩
  · exact ⟨fun _ => heq, fun hnot => absurd hshort hnot⟩
  · exact ⟨fun hshort => absurd hshort hreached, fun _ => heq⟩

theorem ofInt_natCast (h : a < 2 ^ (53 : Nat)) :
    ∃ m, ofInt a = finite false m ∧ m.quanta = a * quantaPerOne := by
  have hwhole := isDoubleQuanta_mul_quantaPerOne h
  obtain ⟨m, hm, hquanta⟩ :=
    ofQuanta_of_lt (s := decide ((a : Int) < 0)) (hwhole.nearestQuanta_eq ▸ hwhole.lt_quantaLimit)
  rw [hwhole.nearestQuanta_eq] at hquanta
  exact ⟨m, by rw [ofInt, Int.natAbs_natCast, hm, decide_eq_false (by omega)], hquanta⟩

theorem ofRatio_natCast (ha : a < 2 ^ (53 : Nat)) (hb : 0 < b) :
    ∃ m, ofRatio a b = finite false m ∧ m.quanta = ratioQuanta a b := by
  have hle : a * quantaPerOne ≤ a * quantaPerOne * b := Nat.le_mul_of_pos_right _ hb
  obtain ⟨m, hm, hquanta⟩ := ofQuanta_of_lt (s := decide ((a : Int) < 0) != decide ((b : Int) < 0))
    ((isDoubleQuanta_mul_quantaPerOne ha).nearestQuanta_lt hb hle)
  refine ⟨m, ?_, hquanta⟩
  rw [ofRatio, Int.natAbs_natCast, Int.natAbs_natCast, hm, decide_eq_false (by omega),
    decide_eq_false (by omega)]
  rfl

theorem finite_mul_finite (m k : Magnitude) :
    (finite false m * finite false k : Double) =
      ofQuanta false (m.quanta * k.quanta) quantaPerOne := by
  change Double.mul _ _ = _
  simp [Double.mul]

theorem finite_div_finite (m : Magnitude) {k : Magnitude} (hk : 0 < k.quanta) :
    (finite false m / finite false k : Double) =
      ofQuanta false (m.quanta * quantaPerOne) k.quanta := by
  change Double.div _ _ = _
  simp [Double.div, hk.ne']

section Ratio

variable (ha : a < 2 ^ (53 : Nat)) (hb : 0 < b)
include ha hb

theorem isQuanta_ofRatio : (ofRatio a b).IsQuanta (ratioQuanta a b) := by
  obtain ⟨m, hm, hquanta⟩ := ofRatio_natCast ha hb
  rw [hm, ← hquanta]
  exact isQuanta_finite m

theorem exact_ofRatio : (ofRatio a b).exact = (ratioQuanta a b : ℚ) / quantaPerOne := by
  rw [(isQuanta_ofRatio ha hb).exact_eq, Int.cast_natCast]

theorem exact_ofRatio_of_eq {q : Nat} (h : IsDoubleQuanta q) (heq : a * quantaPerOne = q * b) :
    (ofRatio a b).exact = (a : ℚ) / b := by
  have hpos : (quantaPerOne : ℚ) ≠ 0 := by exact_mod_cast quantaPerOne_pos.ne'
  have hden : (b : ℚ) ≠ 0 := by exact_mod_cast hb.ne'
  rw [exact_ofRatio ha hb, ratioQuanta_eq h hb heq, div_eq_div_iff hpos hden]
  exact_mod_cast heq.symm

theorem lt_exact_ofRatio_iff :
    (a : ℚ) / b < (ofRatio a b).exact ↔ a * quantaPerOne < ratioQuanta a b * b := by
  have hpos : (0 : ℚ) < quantaPerOne := by exact_mod_cast quantaPerOne_pos
  have hden : (0 : ℚ) < b := by exact_mod_cast hb
  rw [exact_ofRatio ha hb, div_lt_div_iff₀ hden hpos, ← Nat.cast_mul, ← Nat.cast_mul, Nat.cast_lt]

theorem exact_ofRatio_lt_iff :
    (ofRatio a b).exact < (a : ℚ) / b ↔ ratioQuanta a b * b < a * quantaPerOne := by
  have hpos : (0 : ℚ) < quantaPerOne := by exact_mod_cast quantaPerOne_pos
  have hden : (0 : ℚ) < b := by exact_mod_cast hb
  rw [exact_ofRatio ha hb, div_lt_div_iff₀ hpos hden, ← Nat.cast_mul, ← Nat.cast_mul, Nat.cast_lt]

end Ratio

end Double

namespace Number

variable {a b : Nat}

theorem toDouble_natCast (h : a < 2 ^ (53 : Nat)) : (int a).toDouble = .ok (.ofInt a) := by
  obtain ⟨m, hm, -⟩ := Double.ofInt_natCast h
  change rounded (Double.ofInt a) = .ok (Double.ofInt a)
  rw [hm]
  rfl

theorem div_natCast (ha : a < 2 ^ (53 : Nat)) (hb : 0 < b) :
    (int a).div (int b) = .ok (double (.ofRatio a b)) := by
  obtain ⟨m, hm, -⟩ := Double.ofRatio_natCast ha hb
  have hne : (b : Int) ≠ 0 := by omega
  simp only [div, value_int, if_neg hne, hm]
  rfl

theorem mul_natCast (x : Double) (hb : b < 2 ^ (53 : Nat)) :
    (double x).mul (int b) = .ok (double (x * .ofInt b)) := by
  have hvalue : (double x).toDouble = .ok x := rfl
  unfold mul
  simp only [value_double, value_int, hvalue, toDouble_natCast hb, ok_bind, pure_eq_ok]

theorem div_finite {m : Magnitude} (ha : a < 2 ^ (53 : Nat)) (hm : 0 < m.quanta) :
    (int a).div (double (.finite false m)) = .ok (double (.ofInt a / .finite false m)) := by
  have hvalue : (double (.finite false m)).toDouble = .ok (.finite false m) := rfl
  have hnonzero : (Double.finite false m).equals (.zero false) = false :=
    Double.IsPositive.equals_zero (.inr ⟨m, rfl, hm⟩)
  unfold div
  simp only [value_double, value_int, hvalue, toDouble_natCast ha, ok_bind, hnonzero,
    Bool.false_eq_true, if_false]

theorem truncate_finite (m : Magnitude) :
    (double (.finite false m)).truncate = .ok ((m.quanta / quantaPerOne : Nat) : Int) := rfl

end Number

end PanelLayout
