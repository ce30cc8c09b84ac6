import PanelLayout.Expression.Basic
import PanelLayout.Proofs.Double.Pixels
import PanelLayout.Proofs.Double.Range

/-!
# Arithmetic with zero and one

Doubles count as alike if they are equal, where either zero will do, or if neither is a number.
Alike operands give alike results, but for a division of anything else than zero by zero, where the
sign of the zero shows. Up to that, zero and one change nothing, and minus one changes the sign.
-/

namespace PanelLayout

attribute [local instance (high)] instPowNat

@[simp] theorem Magnitude.signed_eq_zero {s : Bool} {m : Magnitude} : m.signed s = 0 ↔
    m.quanta = 0 := by
  cases s <;> simp [Magnitude.signed]

theorem Magnitude.signed_not (s : Bool) (m : Magnitude) : m.signed (!s) = -m.signed s := by
  cases s <;> simp [Magnitude.signed]

namespace Double

variable {x x' y y' z : Double} {s t : Bool} {m k : Magnitude} {n : Int}

/-- Whether two doubles are equal, zeros of either sign included, or neither is a number. -/
def Alike (x y : Double) : Prop := x.equals y = true ∨ x = .nan ∧ y = .nan

def IsZero (x : Double) : Prop := x.IsQuanta 0

@[simp] theorem isZero_finite : (finite s m).IsZero ↔ m.quanta = 0 := by
  constructor
  · rintro ⟨s', m', h, hquanta⟩
    obtain ⟨rfl, rfl⟩ := Double.finite.inj h
    exact Magnitude.signed_eq_zero.mp hquanta
  · exact fun h => ⟨s, m, rfl, Magnitude.signed_eq_zero.mpr h⟩

@[simp] theorem not_isZero_nan : ¬nan.IsZero := by
  rintro ⟨s, m, h, -⟩
  cases h

@[simp] theorem not_isZero_infinite : ¬(infinite s).IsZero := by
  rintro ⟨s, m, h, -⟩
  cases h

@[simp] theorem isZero_zero (s : Bool) : (zero s).IsZero := isQuanta_zero s

theorem eq_of_signed (h : m.signed s = k.signed t) (hm : m.quanta ≠ 0) :
    (finite s m) = finite t k := by
  obtain ⟨m, hmdouble⟩ := m
  obtain ⟨k, hkdouble⟩ := k
  cases s <;> cases t <;> simp_all [Magnitude.signed]

theorem alike_iff : Alike x y ↔ x = y ∨ x.IsZero ∧ y.IsZero := by
  constructor
  · rintro (h | ⟨rfl, rfl⟩)
    · cases x with
      | nan => simp [equals, le] at h
      | infinite s =>
        cases y with
        | infinite t => cases s <;> cases t <;> simp_all [equals, le]
        | nan | finite => cases s <;> simp [equals, le] at h
      | finite s m =>
        cases y with
        | nan => simp [equals, le] at h
        | infinite t => cases t <;> simp [equals, le] at h
        | finite t k =>
          have heq : m.signed s = k.signed t := by
            simp [equals, le] at h
            omega
          by_cases hm : m.quanta = 0
          · right
            rw [Magnitude.signed_eq_zero.mpr hm, eq_comm, Magnitude.signed_eq_zero] at heq
            exact ⟨isZero_finite.mpr hm, isZero_finite.mpr heq⟩
          · exact .inl (eq_of_signed heq hm)
    · exact .inl rfl
  · rintro (rfl | ⟨⟨s, m, rfl, hm⟩, t, k, rfl, hk⟩)
    · cases x with
      | nan => exact .inr ⟨rfl, rfl⟩
      | infinite s => cases s <;> exact .inl rfl
      | finite s m => exact .inl (by simp [equals, le])
    · exact .inl (by simp [equals, le, hm, hk])

namespace Alike

theorem refl (x : Double) : Alike x x := alike_iff.mpr (.inl rfl)

theorem of_eq (h : x = y) : Alike x y := alike_iff.mpr (.inl h)

theorem of_isZero (hx : x.IsZero) (hy : y.IsZero) : Alike x y := alike_iff.mpr (.inr ⟨hx, hy⟩)

theorem symm (h : Alike x y) : Alike y x := alike_iff.mpr ((alike_iff.mp h).imp Eq.symm And.symm)

theorem trans (hxy : Alike x y) (hyz : Alike y z) : Alike x z := by
  rw [alike_iff] at *
  rcases hxy with rfl | ⟨hx, hy⟩
  · exact hyz
  · rcases hyz with rfl | ⟨-, hz⟩
    · exact .inr ⟨hx, hy⟩
    · exact .inr ⟨hx, hz⟩

theorem isZero (h : Alike x y) : x.IsZero ↔ y.IsZero := by
  rw [alike_iff] at h
  rcases h with rfl | ⟨hx, hy⟩
  · rfl
  · exact ⟨fun _ => hy, fun _ => hx⟩

theorem eq_nan (h : Alike x .nan) : x = .nan := by
  rw [alike_iff] at h
  simpa using h

end Alike

section Sums

theorem neg_neg (x : Double) : -(-x) = x := by
  cases x with
  | nan => rfl
  | infinite s | finite s m =>
    change neg (neg _) = _
    simp [neg]

theorem IsZero.neg (h : x.IsZero) : (-x).IsZero := IsQuanta.neg h

theorem Alike.neg (h : Alike x y) : Alike (-x) (-y) := by
  rw [alike_iff] at *
  exact h.imp (congrArg _) fun h => ⟨h.1.neg, h.2.neg⟩

theorem neg_ofQuanta (s : Bool) (n d : Nat) : -ofQuanta s n d = ofQuanta (!s) n d := by
  change neg _ = _
  unfold ofQuanta
  split <;> rfl

theorem ofQuanta_mul (s : Bool) (m : Magnitude) {d : Nat} (hd : 0 < d) :
    ofQuanta s (m.quanta * d) d = .finite s m := by
  have hle := nearestQuanta_mono hd Nat.one_pos (Nat.mul_one (m.quanta * d)).le
  have hge := nearestQuanta_mono Nat.one_pos hd (Nat.mul_one (m.quanta * d)).ge
  rw [m.isDouble.nearestQuanta_eq] at hle hge
  obtain ⟨k, hk, hquanta⟩ := ofQuanta_of_lt (s := s) (hle.trans_lt m.isDouble.lt_quantaLimit)
  obtain ⟨m, hm⟩ := m
  obtain ⟨k, hk'⟩ := k
  obtain rfl : k = m := hquanta.trans (hle.antisymm hge)
  exact hk

theorem IsZero.add (hx : x.IsZero) (y : Double) : Alike (x + y) y := by
  obtain ⟨s, m, rfl, hm⟩ := hx
  change Alike (Double.add _ _) _
  cases y with
  | nan | infinite => exact .refl _
  | finite t k =>
    simp only [Double.add, hm, Int.zero_add, Magnitude.signed_eq_zero]
    split
    · rename_i hk
      exact .of_isZero (isZero_zero _) (isZero_finite.mpr hk)
    · rename_i hk
      have hofQuanta : ofQuanta (decide (k.signed t < 0)) (k.signed t).natAbs 1 = .finite t k := by
        have hsign : decide (k.signed t < 0) = t := by
          cases t <;> simp [Magnitude.signed]
          omega
        have habs : (k.signed t).natAbs = k.quanta := by cases t <;> simp [Magnitude.signed]
        rw [hsign, habs, ← Nat.mul_one k.quanta, ofQuanta_mul t k Nat.one_pos]
      exact alike_iff.mpr (.inl hofQuanta)

theorem add_comm (x y : Double) : x + y = y + x := by
  change Double.add _ _ = Double.add _ _
  cases x with
  | nan => cases y <;> rfl
  | infinite s =>
    cases y with
    | nan | finite => rfl
    | infinite t =>
      simp only [Double.add, eq_comm]
      split <;> simp_all
  | finite s m =>
    cases y with
    | nan | infinite => rfl
    | finite t k => simp only [Double.add, Int.add_comm, Bool.and_comm]

theorem add_isZero (x : Double) (hy : y.IsZero) : Alike (x + y) x := by
  rw [add_comm]
  exact hy.add x

theorem Alike.add (hx : Alike x x') (hy : Alike y y') : Alike (x + y) (x' + y') := by
  rcases alike_iff.mp hx with rfl | ⟨hzero, hzero'⟩
  · rcases alike_iff.mp hy with rfl | ⟨hzero, hzero'⟩
    · exact .refl _
    · exact (add_isZero x hzero).trans (add_isZero x hzero').symm
  · exact (hzero.add y).trans (hy.trans (hzero'.add y').symm)

theorem sub_eq_add_neg (x y : Double) : x - y = x + -y := rfl

theorem sub_neg (x y : Double) : x - -y = x + y := by
  rw [sub_eq_add_neg, neg_neg]

theorem Alike.sub (hx : Alike x x') (hy : Alike y y') : Alike (x - y) (x' - y') := hx.add hy.neg

theorem sub_isZero (x : Double) (hy : y.IsZero) : Alike (x - y) x := add_isZero x hy.neg

theorem IsZero.sub (hx : x.IsZero) (y : Double) : Alike (x - y) (-y) := hx.add (-y)

theorem neg_add (x y : Double) : Alike (-(x + y)) (-x + -y) := by
  change Alike (neg (Double.add _ _)) (Double.add (neg _) (neg _))
  cases x with
  | nan => exact .refl _
  | infinite s =>
    cases y with
    | nan | finite => exact .refl _
    | infinite t =>
      by_cases h : s = t
      · simp [Double.add, neg, h, Alike.refl]
      · simp [Double.add, neg, h, Alike.refl]
  | finite s m =>
    cases y with
    | nan | infinite => exact .refl _
    | finite t k =>
      have hsum : m.signed (!s) + k.signed (!t) = -(m.signed s + k.signed t) := by
        rw [Magnitude.signed_not, Magnitude.signed_not, Int.neg_add]
      change Alike (neg (Double.add (finite s m) (finite t k)))
        (Double.add (finite (!s) m) (finite (!t) k))
      by_cases hn : m.signed s + k.signed t = 0
      · simp only [Double.add, hsum, hn, Int.neg_zero, if_true]
        exact .of_isZero (IsZero.neg (isZero_zero _)) (isZero_zero _)
      · have hsign : decide (-(m.signed s + k.signed t) < 0) =
            !decide (m.signed s + k.signed t < 0) := by
          rw [← decide_not, decide_eq_decide]
          omega
        simp only [Double.add, hsum, Int.neg_eq_zero, hn, if_false, Int.natAbs_neg, hsign]
        exact alike_iff.mpr (.inl (neg_ofQuanta _ _ _))

theorem neg_sub (x y : Double) : Alike (-(x - y)) (y - x) := by
  have h := neg_add x (-y)
  rwa [neg_neg, add_comm (-x)] at h

end Sums

section Products

theorem mul_comm (x y : Double) : x * y = y * x := by
  change Double.mul _ _ = Double.mul _ _
  cases x with
  | nan => cases y <;> rfl
  | infinite s => cases y <;> simp only [Double.mul, bne_comm]
  | finite s m =>
    cases y with
    | nan => rfl
    | infinite t => simp only [Double.mul, bne_comm]
    | finite t k => rw [Double.mul, Double.mul, bne_comm, Nat.mul_comm]

theorem isZero_ofQuanta (s : Bool) {d : Nat} (hd : 0 < d) : (ofQuanta s 0 d).IsZero := by
  have h := ofQuanta_mul s ⟨0, 0, 0, by decide, by decide, rfl⟩ hd
  rw [Nat.zero_mul] at h
  rw [h]
  exact isZero_zero s

theorem Alike.mul_of_isZero (hx : x.IsZero) (hx' : x'.IsZero) (y : Double) :
    Alike (x * y) (x' * y) := by
  obtain ⟨s, m, rfl, hm⟩ := hx
  obtain ⟨s', m', rfl, hm'⟩ := hx'
  rw [Magnitude.signed_eq_zero] at hm hm'
  change Alike (Double.mul _ _) (Double.mul _ _)
  cases y with
  | nan => exact .refl _
  | infinite t =>
    simp only [Double.mul, hm, hm']
    exact .refl _
  | finite t k =>
    simp only [Double.mul, hm, hm', Nat.zero_mul]
    exact .of_isZero (isZero_ofQuanta _ quantaPerOne_pos) (isZero_ofQuanta _ quantaPerOne_pos)

theorem Alike.mul (hx : Alike x x') (hy : Alike y y') : Alike (x * y) (x' * y') := by
  have hleft : Alike (x * y) (x' * y) := by
    rcases alike_iff.mp hx with rfl | ⟨hzero, hzero'⟩
    · exact .refl _
    · exact .mul_of_isZero hzero hzero' y
  have hright : Alike (x' * y) (x' * y') := by
    rcases alike_iff.mp hy with rfl | ⟨hzero, hzero'⟩
    · exact .refl _
    · rw [mul_comm x', mul_comm x']
      exact .mul_of_isZero hzero hzero' x'
  exact hleft.trans hright

/-- Whether a quotient is one of a number other than zero by zero. -/
def IsPole (x y : Double) : Prop := y.IsZero ∧ ¬x.IsZero ∧ x ≠ .nan

theorem Alike.div_left (hx : Alike x x') (y : Double) : Alike (x / y) (x' / y) := by
  change Alike (Double.div _ _) (Double.div _ _)
  rcases alike_iff.mp hx with rfl | ⟨⟨s, m, rfl, hm⟩, s', m', rfl, hm'⟩
  · exact .refl _
  · rw [Magnitude.signed_eq_zero] at hm hm'
    cases y with
    | nan => exact .refl _
    | infinite t => exact .of_isZero (isZero_zero _) (isZero_zero _)
    | finite t k =>
      by_cases hk : k.quanta = 0
      · simp [Double.div, hm, hm', hk, Alike.refl]
      · simp only [Double.div, hm, hm', hk, Nat.zero_mul, if_false]
        exact .of_isZero (isZero_ofQuanta _ (Nat.pos_of_ne_zero hk))
          (isZero_ofQuanta _ (Nat.pos_of_ne_zero hk))

theorem div_eq_nan (hx : x.IsZero ∨ x = .nan) (hy : y.IsZero) : x / y = .nan := by
  change Double.div _ _ = _
  obtain ⟨t, k, rfl, hk⟩ := hy
  rcases hx with ⟨s, m, rfl, hm⟩ | rfl
  · rw [Magnitude.signed_eq_zero] at hm hk
    simp [Double.div, hm, hk]
  · rfl

/-- Only where the divisor is a zero of another sign and the dividend is neither a zero nor `nan`,
the quotient differs. -/
theorem Alike.div (hx : Alike x x') (hy : Alike y y') (h : y = y' ∨ ¬IsPole x y) :
    Alike (x / y) (x' / y') := by
  rcases alike_iff.mp hy with rfl | ⟨hzero, hzero'⟩
  · exact hx.div_left y
  · rcases h with rfl | h
    · exact hx.div_left y
    · have hnan : x.IsZero ∨ x = .nan := by
        by_contra hx
        exact h ⟨hzero, fun h => hx (.inl h), fun h => hx (.inr h)⟩
      have hnan' : x'.IsZero ∨ x' = .nan := by
        rcases hnan with hnan | rfl
        · exact .inl (hx.isZero.mp hnan)
        · exact .inr hx.symm.eq_nan
      rw [div_eq_nan hnan hzero, div_eq_nan hnan' hzero']
      exact .refl _

end Products

section Units

theorem isZero_ofInt : (ofInt 0).IsZero := by
  have h : (ofInt 0).IsQuanta (0 * quantaPerOne) := isQuanta_ofInt (by decide)
  rwa [Int.zero_mul] at h

theorem not_isZero_ofInt (hn : n ≠ 0) (h : n.natAbs ≤ 2 ^ (51 : Nat)) : ¬(ofInt n).IsZero := by
  intro hzero
  have hne : (quantaPerOne : Int) ≠ 0 := Int.natCast_ne_zero.mpr quantaPerOne_pos.ne'
  exact Int.mul_ne_zero hn hne ((isQuanta_ofInt h).unique hzero)

theorem ofInt_neg (n : Int) : Alike (ofInt (-n)) (-ofInt n) := by
  by_cases hn : n = 0
  · subst hn
    exact .of_isZero isZero_ofInt isZero_ofInt.neg
  · have hsign : decide (-n < 0) = !decide (n < 0) := by
      rw [← decide_not, decide_eq_decide]
      omega
    rw [ofInt, ofInt, hsign, Int.natAbs_neg, neg_ofQuanta]
    exact .refl _

theorem ofInt_unit (s : Bool) :
    ∃ m, ofInt (if s then -1 else 1) = finite s m ∧ m.quanta = quantaPerOne := by
  have hpos : 0 < quantaPerOne := quantaPerOne_pos
  obtain ⟨t, m, hm, hquanta⟩ := @isQuanta_ofInt (if s then -1 else 1) (by cases s <;> decide)
  refine ⟨m, ?_⟩
  rw [hm]
  generalize quantaPerOne = q at hpos hquanta ⊢
  cases s <;> cases t <;> simp [Magnitude.signed] at hquanta ⊢ <;> omega

theorem mul_unit (x : Double) (hm : m.quanta = quantaPerOne) :
    x * finite s m = if s then -x else x := by
  change Double.mul _ _ = _
  cases x with
  | nan => cases s <;> rfl
  | infinite t =>
    have hne : quantaPerOne ≠ 0 := quantaPerOne_pos.ne'
    simp only [Double.mul, hm, hne, if_false]
    cases s <;> cases t <;> rfl
  | finite t k =>
    rw [Double.mul, hm, ofQuanta_mul _ _ quantaPerOne_pos]
    cases s <;> cases t <;> rfl

theorem div_unit (x : Double) (hm : m.quanta = quantaPerOne) :
    x / finite s m = if s then -x else x := by
  change Double.div _ _ = _
  cases x with
  | nan => cases s <;> rfl
  | infinite t =>
    cases s <;> cases t <;> rfl
  | finite t k =>
    have hne : quantaPerOne ≠ 0 := quantaPerOne_pos.ne'
    simp only [Double.div, hm, hne, if_false]
    rw [ofQuanta_mul _ _ quantaPerOne_pos]
    cases s <;> cases t <;> rfl

theorem mul_one (x : Double) : x * ofInt 1 = x := by
  obtain ⟨m, hm, hquanta⟩ := ofInt_unit false
  exact (congrArg (x * ·) hm).trans (mul_unit x hquanta)

theorem mul_neg_one (x : Double) : x * ofInt (-1) = -x := by
  obtain ⟨m, hm, hquanta⟩ := ofInt_unit true
  exact (congrArg (x * ·) hm).trans (mul_unit x hquanta)

theorem div_one (x : Double) : x / ofInt 1 = x := by
  obtain ⟨m, hm, hquanta⟩ := ofInt_unit false
  exact (congrArg (x / ·) hm).trans (div_unit x hquanta)

theorem div_neg_one (x : Double) : x / ofInt (-1) = -x := by
  obtain ⟨m, hm, hquanta⟩ := ofInt_unit true
  exact (congrArg (x / ·) hm).trans (div_unit x hquanta)

end Units

end Double

namespace Operator

variable {op : Operator} {x x' y y' : Double}

def IsPole (op : Operator) (x y : Double) : Prop := op = .div ∧ Double.IsPole x y

theorem apply_alike (hx : x.Alike x') (hy : y.Alike y') (h : y = y' ∨ ¬op.IsPole x y) :
    (op.apply x y).Alike (op.apply x' y') := by
  cases op with
  | add => exact hx.add hy
  | sub => exact hx.sub hy
  | mul => exact hx.mul hy
  | div => exact hx.div hy (h.imp_right fun h hpole => h ⟨rfl, hpole⟩)

end Operator

namespace Number

variable {a : Number} {x z : Double}

theorem rounded_eq_ok (h : rounded z = .ok x) : x = z := by
  cases z with
  | nan | finite => exact (Except.ok.inj h).symm
  | infinite s => cases h

theorem toDouble_int (n : Int) : (int n).toDouble = rounded (.ofInt n) := rfl

theorem toDouble_int_of_natAbs_le (h : n.natAbs ≤ 2 ^ (51 : Nat)) :
    (int n).toDouble = .ok (.ofInt n) := by
  obtain ⟨s, m, hm, -⟩ := Double.isQuanta_ofInt h
  rw [toDouble_int, hm]
  rfl

theorem toDouble_neg (h : a.neg.toDouble = .ok x) : ∃ y, a.toDouble = .ok y ∧ x.Alike (-y) := by
  cases hvalue : a.value with
  | inr y =>
    rw [neg, hvalue] at h
    obtain rfl := Except.ok.inj h
    exact ⟨y, by rw [toDouble, hvalue], .refl _⟩
  | inl n =>
    simp only [neg, hvalue] at h
    obtain ⟨y, hy⟩ : (int n).Fits := Fits.of_natAbs_le ⟨x, h⟩ (Int.natAbs_neg n).ge
    have ha : a.toDouble = (int n).toDouble := toDouble_congr hvalue
    rw [toDouble_int] at h hy
    rw [ha, toDouble_int, hy]
    refine ⟨y, rfl, ?_⟩
    rw [rounded_eq_ok h, rounded_eq_ok hy]
    exact Double.ofInt_neg n

end Number

end PanelLayout
