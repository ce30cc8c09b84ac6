import PanelLayout.Pixel
import PanelLayout.Proofs.Computation
import PanelLayout.Proofs.Double.Rounding

/-!
# The range of doubles

Which numbers have a nearest double, and which operations stay among them. Pixels that come from
doubles do, and so do lengths between two pixels on the same side of zero.
-/

namespace PanelLayout

attribute [local instance (high)] instPowNat

namespace Double

theorem ofQuanta_of_lt {s : Bool} {n d : Nat} (h : nearestQuanta n d < quantaLimit) :
    ∃ m, ofQuanta s n d = .finite s m ∧ m.quanta = nearestQuanta n d := by
  rw [ofQuanta, dif_pos h]
  exact ⟨_, rfl, rfl⟩

theorem quanta_of_ofQuanta {s t : Bool} {n d : Nat} {m : Magnitude}
    (h : ofQuanta s n d = .finite t m) :
    m.quanta = nearestQuanta n d := by
  unfold ofQuanta at h
  split at h
  · obtain ⟨-, rfl⟩ := Double.finite.inj h
    rfl
  · cases h

theorem ofQuanta_congr {s : Bool} {n d n' d' : Nat} (h : nearestQuanta n d = nearestQuanta n' d') :
    ofQuanta s n d = ofQuanta s n' d' := by
  simp only [ofQuanta, h]

theorem ofQuanta_of_le {s : Bool} {n d : Nat} (h : quantaLimit ≤ nearestQuanta n d) :
    ofQuanta s n d = .infinite s := by
  rw [ofQuanta, dif_neg (Nat.not_lt.mpr h)]

end Double

namespace Number

variable {a b : Number} {m n : Int} {x : Double}

def Fits (a : Number) : Prop := ∃ x, a.toDouble = .ok x

theorem fits_double (x : Double) : (double x).Fits := ⟨x, rfl⟩

theorem fits_int_iff : (int n).Fits ↔ nearestQuanta (n.natAbs * quantaPerOne) 1 < quantaLimit := by
  change (∃ x, rounded (Double.ofInt n) = .ok x) ↔ _
  constructor
  · intro h
    by_contra hge
    obtain ⟨x, hx⟩ := h
    rw [Double.ofInt, Double.ofQuanta_of_le (Nat.not_lt.mp hge)] at hx
    cases hx
  · intro h
    obtain ⟨k, hk, -⟩ := Double.ofQuanta_of_lt (s := decide (n < 0)) h
    rw [Double.ofInt, hk]
    exact ⟨_, rfl⟩

theorem Fits.toDouble_int (h : (int n).Fits) :
    ∃ k, (int n).toDouble = .ok (.finite (decide (n < 0)) k) ∧
    k.quanta = nearestQuanta (n.natAbs * quantaPerOne) 1 := by
  obtain ⟨k, hk, hquanta⟩ := Double.ofQuanta_of_lt (s := decide (n < 0)) (fits_int_iff.mp h)
  refine ⟨k, ?_, hquanta⟩
  change rounded (Double.ofInt n) = _
  rw [Double.ofInt, hk]
  rfl

theorem Fits.of_natAbs_le (h : (int n).Fits) (hle : m.natAbs ≤ n.natAbs) : (int m).Fits := by
  rw [fits_int_iff] at *
  have hmul : m.natAbs * quantaPerOne ≤ n.natAbs * quantaPerOne := Nat.mul_le_mul_right _ hle
  exact (nearestQuanta_mono Nat.one_pos Nat.one_pos (by omega)).trans_lt h

theorem fits_of_mul_le {q : Nat} (hq : IsDoubleQuanta q) (hle : n.natAbs * quantaPerOne ≤ q) :
    (int n).Fits :=
  fits_int_iff.mpr (hq.nearestQuanta_lt Nat.one_pos (by omega))

theorem fits_zero : (int 0).Fits := fits_of_mul_le ⟨0, 0, by decide, by decide, rfl⟩ (by simp)

theorem toDouble_congr (h : a.value = b.value) : a.toDouble = b.toDouble := by
  simp only [toDouble, h]

theorem result_toPixel (h : a.toDouble = .ok x) (mode : Rounding) :
    (a.toPixel mode).result = (x.toPixel mode).result := by
  rw [Number.toPixel, Report.result_bind, h]
  rfl

theorem Fits.neg (h : a.Fits) : a.neg.Fits := by
  unfold Number.neg
  cases hvalue : a.value with
  | inl n =>
    have hint : (int n).Fits := by rwa [Fits, ← toDouble_congr (a := a) (b := int n) hvalue]
    exact hint.of_natAbs_le (by rw [Int.natAbs_neg])
  | inr x => exact fits_double _

theorem Fits.half (h : a.Fits) : ∃ x, a.div (int 2) = .ok (double x) := by
  unfold Number.div
  cases hvalue : a.value with
  | inl n =>
    have hint : (int n).Fits := by rwa [Fits, ← toDouble_congr (a := a) (b := int n) hvalue]
    have hlt : nearestQuanta (n.natAbs * quantaPerOne) (2 : Int).natAbs < quantaLimit := by
      refine (nearestQuanta_mono (by decide) Nat.one_pos ?_).trans_lt (fits_int_iff.mp hint)
      exact Nat.mul_le_mul_left _ (by decide)
    obtain ⟨k, hk, -⟩ := Double.ofQuanta_of_lt (s := decide (n < 0) != decide ((2 : Int) < 0)) hlt
    simp only [value_int, OfNat.ofNat_ne_zero, if_false, Double.ofRatio, hk]
    exact ⟨_, rfl⟩
  | inr x =>
    have htwo : (int 2).toDouble = .ok (Double.ofInt 2) := by decide +kernel
    have hzero : (Double.ofInt 2).equals (.zero false) = false := by decide +kernel
    simp only [value_int, toDouble, hvalue] at htwo ⊢
    simp only [htwo, ok_bind, hzero, Bool.false_eq_true, if_false]
    exact ⟨_, rfl⟩

theorem Fits.sub_double (ha : a.Fits) (x : Double) : ∃ y, a.sub (double x) = .ok (double y) := by
  obtain ⟨z, hz⟩ := ha
  refine ⟨z - x, ?_⟩
  unfold Number.sub
  split
  · rename_i hvalue
    cases hvalue
  · rw [hz]
    rfl

theorem Fits.double_sub (hb : b.Fits) (x : Double) : ∃ y, (double x).sub b = .ok (double y) := by
  obtain ⟨z, hz⟩ := hb
  refine ⟨x - z, ?_⟩
  unfold Number.sub
  split
  · rename_i hvalue _
    cases hvalue
  · rw [hz]
    rfl

end Number

namespace Double

variable {x y : Double} {s : Bool}

def IsPositive (x : Double) : Prop := x = .infinite false ∨ ∃ m, x = .finite false m ∧ 0 < m.quanta

/-- Whether a double lies on a side of zero, unless it is not a number. A zero lies on the side of
its sign. -/
def IsOnSide (negative : Bool) (x : Double) : Prop := x = .nan ∨ x.isNegative = negative

theorem isNegative_ofQuanta (s : Bool) (n d : Nat) : (ofQuanta s n d).isNegative = s := by
  unfold ofQuanta
  split <;> rfl

theorem isPositive_ofQuanta {n : Nat} (h : 0 < n) : (ofQuanta false n 1).IsPositive := by
  by_cases hlt : nearestQuanta n 1 < quantaLimit
  · obtain ⟨m, hm, hquanta⟩ := ofQuanta_of_lt (s := false) hlt
    have hone : IsDoubleQuanta 1 := ⟨1, 0, by decide, by decide, rfl⟩
    have hpos := hone.le_nearestQuanta (n := n) h
    exact .inr ⟨m, hm, by omega⟩
  · exact .inl (ofQuanta_of_le (Nat.not_lt.mp hlt))

theorem isPositive_one : one.IsPositive := by
  have hpos :=
    isPositive_ofQuanta (n := (1 : Int).natAbs * quantaPerOne)
      (Nat.mul_pos Nat.one_pos quantaPerOne_pos)
  rw [one, ofInt]
  exact hpos

theorem add_of_quanta_pos (m : Magnitude) {k : Magnitude} (hk : 0 < k.quanta) :
    (.finite false m + .finite false k : Double) = ofQuanta false (m.quanta + k.quanta) 1 := by
  have hsum : m.signed false + k.signed false = ((m.quanta + k.quanta : Nat) : Int) := by
    simp [Magnitude.signed]
  have hne : ((m.quanta + k.quanta : Nat) : Int) ≠ 0 := by omega
  change Double.add _ _ = _
  simp only [Double.add, hsum, if_neg hne]
  rw [decide_eq_false (by omega), Int.natAbs_natCast]

theorem IsPositive.add (hx : x = .zero false ∨ x.IsPositive) (hy : y.IsPositive) :
    (x + y).IsPositive := by
  have hfinite : ∀ m k : Magnitude, 0 < k.quanta →
      (.finite false m + .finite false k : Double).IsPositive := by
    intro m k hk
    rw [add_of_quanta_pos m hk]
    exact isPositive_ofQuanta (by omega)
  rcases hx with rfl | rfl | ⟨m, rfl, hm⟩
  · rcases hy with rfl | ⟨k, rfl, hk⟩
    · exact .inl rfl
    · exact hfinite _ k hk
  · rcases hy with rfl | ⟨k, rfl, hk⟩ <;> exact .inl rfl
  · rcases hy with rfl | ⟨k, rfl, hk⟩
    · exact .inl rfl
    · exact hfinite m k hk

theorem IsPositive.equals_zero (h : x.IsPositive) : x.equals (.zero false) = false := by
  rcases h with rfl | ⟨m, rfl, hm⟩
  · rfl
  · simp [equals, le, zero, Magnitude.signed]
    omega

theorem IsOnSide.mul (hx : x.IsOnSide s) (hy : y.IsPositive) : (x * y).IsOnSide s := by
  change (Double.mul x y).IsOnSide s
  cases x with
  | nan => exact .inl rfl
  | infinite t =>
    obtain rfl : t = s := by simpa [IsOnSide, isNegative] using hx
    rcases hy with rfl | ⟨k, rfl, hk⟩
    · exact .inr (by simp [Double.mul, isNegative])
    · exact .inr (by simp [Double.mul, isNegative, hk.ne'])
  | finite t m =>
    obtain rfl : t = s := by simpa [IsOnSide, isNegative] using hx
    rcases hy with rfl | ⟨k, rfl, hk⟩
    · simp only [Double.mul]
      split
      · exact .inl rfl
      · exact .inr (by simp [isNegative])
    · exact .inr (by simp [Double.mul, isNegative_ofQuanta])

theorem IsOnSide.div (hx : x.IsOnSide s) (hy : y.IsPositive) : (x / y).IsOnSide s := by
  change (Double.div x y).IsOnSide s
  cases x with
  | nan => exact .inl rfl
  | infinite t =>
    obtain rfl : t = s := by simpa [IsOnSide, isNegative] using hx
    rcases hy with rfl | ⟨k, rfl, hk⟩
    · exact .inl rfl
    · exact .inr (by simp [Double.div, isNegative])
  | finite t m =>
    obtain rfl : t = s := by simpa [IsOnSide, isNegative] using hx
    rcases hy with rfl | ⟨k, rfl, hk⟩
    · exact .inr (by simp [Double.div, zero, isNegative])
    · exact .inr (by simp [Double.div, hk.ne', isNegative_ofQuanta])

theorem toPixel_truncate (x : Double) :
    ∃ i, (x.toPixel .truncate).result = .ok i ∧ (Number.int i).Fits := by
  cases x with
  | nan | infinite => exact ⟨0, rfl, Number.fits_zero⟩
  | finite t m =>
    have hle : m.quanta / quantaPerOne * quantaPerOne ≤ m.quanta := Nat.div_mul_le_self ..
    cases t with
    | false => exact ⟨(m.quanta / quantaPerOne : Nat), rfl, Number.fits_of_mul_le m.isDouble hle⟩
    | true =>
      refine ⟨-(m.quanta / quantaPerOne : Nat), rfl, Number.fits_of_mul_le m.isDouble ?_⟩
      rwa [Int.natAbs_neg]

theorem toPixel_fits (mode : Rounding) (x : Double) :
    ∃ i, (x.toPixel mode).result = .ok i ∧ (Number.int (max i 0)).Fits := by
  cases mode with
  | truncate =>
    obtain ⟨i, hi, hfits⟩ := toPixel_truncate x
    exact ⟨i, hi, hfits.of_natAbs_le (by omega)⟩
  | nearest =>
    have hzero : (Number.int (max 0 0)).Fits := Number.fits_zero
    cases x with
    | nan => exact ⟨0, rfl, hzero⟩
    | infinite t => exact ⟨0, rfl, hzero⟩
    | finite t m =>
      unfold Double.toPixel
      simp only [isFinite, if_true, roundTo?]
      cases hsum : Double.finite t m + half with
      | nan => exact ⟨0, rfl, hzero⟩
      | infinite u => exact ⟨0, rfl, hzero⟩
      | finite u k =>
        refine ⟨k.signed u / quantaPerOne, rfl, Number.fits_of_mul_le k.isDouble ?_⟩
        have hpos : (0 : Int) < quantaPerOne := Int.natCast_pos.mpr quantaPerOne_pos
        cases u with
        | false =>
          have hfloor : k.signed false / (quantaPerOne : Int) = (k.quanta / quantaPerOne : Nat) :=
            rfl
          rw [hfloor, Int.max_eq_left (Int.natCast_nonneg _), Int.natAbs_natCast]
          exact Nat.div_mul_le_self ..
        | true =>
          have hneg : k.signed true ≤ 0 := by simp [Magnitude.signed]
          have hfloor := Int.ediv_le_ediv hpos hneg
          rw [Int.zero_ediv] at hfloor
          rw [Int.max_eq_right hfloor, Int.natAbs_zero, Nat.zero_mul]
          exact Nat.zero_le _

end Double

end PanelLayout
