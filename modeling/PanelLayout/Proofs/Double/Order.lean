import PanelLayout.Proofs.Double.Pixels
import PanelLayout.Proofs.Double.Range
import PanelLayout.Proofs.Number

/-!
# Shares in order

A share of a length is a product that is divided by a sum. Each step is rounded, yet none of them
turns the order around, and where one share is too large for a double, all larger ones are. No share
of a whole length has more pixels than the length.
-/

namespace PanelLayout

attribute [local instance (high)] instPowNat

namespace Double

variable {x y z : Double} {s : Bool} {mode : Rounding}

theorem le_trans (hxy : x.le y = true) (hyz : y.le z = true) : x.le z = true :=
  Number.le_trans (a := .double x) (b := .double y) (c := .double z) hxy hyz

theorem IsPositive.le_add (hx : x = .zero false ∨ x.IsPositive) (hy : y.IsPositive) :
    x.le (x + y) = true := by
  have hfinite : ∀ m k : Magnitude, 0 < k.quanta →
      (Double.finite false m).le (.finite false m + .finite false k) = true := by
    intro m k hk
    rw [add_of_quanta_pos m hk]
    by_cases hlt : nearestQuanta (m.quanta + k.quanta) 1 < quantaLimit
    · obtain ⟨n, hn, hquanta⟩ := ofQuanta_of_lt (s := false) hlt
      have hle := m.isDouble.le_nearestQuanta (n := m.quanta + k.quanta) (by omega)
      simp [hn, le, Magnitude.signed, hquanta, hle]
    · rw [ofQuanta_of_le (Nat.not_lt.mp hlt)]
      rfl
  rcases hx with rfl | rfl | ⟨m, rfl, hm⟩
  · rcases hy with rfl | ⟨k, rfl, hk⟩
    · rfl
    · exact hfinite _ k hk
  · rcases hy with rfl | ⟨k, rfl, hk⟩ <;> rfl
  · rcases hy with rfl | ⟨k, rfl, hk⟩
    · rfl
    · exact hfinite m k hk

theorem IsPositive.le_self (h : x.IsPositive) : x.le x = true := by
  rcases h with rfl | ⟨m, rfl, -⟩
  · rfl
  · simp [le]

theorem IsPositive.finite_of_le (h : x.IsPositive) {t : Magnitude}
    (hle : x.le (.finite false t) = true) :
    ∃ m, x = .finite false m ∧ 0 < m.quanta ∧ m.quanta ≤ t.quanta := by
  rcases h with rfl | ⟨m, rfl, hm⟩
  · cases hle
  · exact ⟨m, rfl, hm, by simpa [le, Magnitude.signed] using hle⟩

theorem IsOnSide.pixel_nonneg (h : x.IsOnSide false) : 0 ≤ x.pixel mode := by
  cases x with
  | nan | infinite => exact Int.le_refl 0
  | finite t m =>
    obtain rfl : t = false := by simpa [IsOnSide, isNegative] using h
    exact pixelOf_nonneg (by simp [Magnitude.signed])

theorem IsOnSide.pixel_nonpos (h : x.IsOnSide true) : x.pixel mode ≤ 0 := by
  cases x with
  | nan | infinite => exact Int.le_refl 0
  | finite t m =>
    obtain rfl : t = true := by simpa [IsOnSide, isNegative] using h
    exact pixelOf_nonpos (by simp [Magnitude.signed])

theorem pixel_of_quanta_eq_zero {m : Magnitude} (h : m.quanta = 0) :
    (finite s m).pixel mode = 0 := by
  have hzero : pixelOf mode (0 * quantaPerOne) = 0 := pixelOf_whole (by decide)
  rw [Int.zero_mul] at hzero
  cases s <;> simpa [pixel, Magnitude.signed, h] using hzero

theorem div_infinite (x : Double) (s : Bool) :
    (x / .infinite false) ≠ .infinite s ∧ ∀ mode, (x / .infinite false).pixel mode = 0 := by
  change Double.div _ _ ≠ _ ∧ ∀ mode, (Double.div _ _).pixel mode = 0
  cases x with
  | nan | infinite => exact ⟨nofun, fun _ => rfl⟩
  | finite t m => exact ⟨nofun, fun _ => pixel_of_quanta_eq_zero rfl⟩

def shareQuanta (length part whole : Nat) : Nat :=
  nearestQuanta (nearestQuanta (length * part) quantaPerOne * quantaPerOne) whole

theorem shareQuanta_mono (length : Nat) {part part' whole : Nat} (hwhole : 0 < whole)
    (h : part ≤ part') :
    nearestQuanta (length * part) quantaPerOne ≤ nearestQuanta (length * part') quantaPerOne ∧
      shareQuanta length part whole ≤ shareQuanta length part' whole := by
  have hproduct := nearestQuanta_mono quantaPerOne_pos quantaPerOne_pos
    (Nat.mul_le_mul_right quantaPerOne (Nat.mul_le_mul_left length h))
  exact ⟨hproduct,
    nearestQuanta_mono hwhole hwhole (Nat.mul_le_mul_right whole (Nat.mul_le_mul_right _ hproduct))⟩

/-- A product with a positive double over another one is out of range, or it has the quanta of a
share. -/
theorem mul_div_cases (s : Bool) (m part : Magnitude) {whole : Magnitude}
    (hwhole : 0 < whole.quanta) :
    (.finite s m * .finite false part / .finite false whole : Double) = .infinite s ∧
        (quantaLimit ≤ nearestQuanta (m.quanta * part.quanta) quantaPerOne ∨
          quantaLimit ≤ shareQuanta m.quanta part.quanta whole.quanta) ∨
      nearestQuanta (m.quanta * part.quanta) quantaPerOne < quantaLimit ∧
        ∃ k, (.finite s m * .finite false part / .finite false whole : Double) = .finite s k ∧
          k.quanta = shareQuanta m.quanta part.quanta whole.quanta := by
  have hproduct : (.finite s m * .finite false part : Double) =
      ofQuanta s (m.quanta * part.quanta) quantaPerOne := by
    change Double.mul _ _ = _
    simp [Double.mul]
  rw [hproduct]
  by_cases hlt : nearestQuanta (m.quanta * part.quanta) quantaPerOne < quantaLimit
  · obtain ⟨k, hk, hquanta⟩ := ofQuanta_of_lt (s := s) hlt
    have hquotient : (.finite s k / .finite false whole : Double) =
        ofQuanta s (k.quanta * quantaPerOne) whole.quanta := by
      change Double.div _ _ = _
      simp [Double.div, hwhole.ne']
    rw [hk, hquotient, hquanta]
    by_cases hlt' : shareQuanta m.quanta part.quanta whole.quanta < quantaLimit
    · exact .inr ⟨hlt, ofQuanta_of_lt hlt'⟩
    · exact .inl ⟨ofQuanta_of_le (Nat.not_lt.mp hlt'), .inr (Nat.not_lt.mp hlt')⟩
  · rw [ofQuanta_of_le (Nat.not_lt.mp hlt)]
    refine .inl ⟨?_, .inl (Nat.not_lt.mp hlt)⟩
    change Double.div _ _ = _
    simp [Double.div]

/-- The product is rounded, and so is the quotient. Together they add less than a quarter to a share
of a whole length that is not too large. -/
theorem shareQuanta_le_quarter {n part whole : Nat} (hn : n < 2 ^ (51 : Nat)) (hpart : part ≤ whole)
    (hwhole : 0 < whole) :
    4 * shareQuanta (n * quantaPerOne) part whole ≤ (4 * n + 1) * quantaPerOne := by
  obtain ⟨q, hone, -, hdouble⟩ := exists_quarter
  have hproduct : nearestQuanta (n * quantaPerOne * part) quantaPerOne ≤
      nearestQuanta (n * part) 1 :=
    nearestQuanta_mono quantaPerOne_pos Nat.one_pos (by rw [Nat.mul_one, Nat.mul_right_comm])
  have hrounded := nearestQuanta_le_relative (n * part)
  have hlength : n * part ≤ 2 ^ (51 : Nat) * whole := Nat.mul_le_mul hn.le hpart
  -- one part in 2⁵³ of a product below 2⁵¹ is less than a quarter
  have hshare : 4 * nearestQuanta (n * part) 1 ≤ (4 * n + 1) * whole := by
    have hmul : n * part ≤ n * whole := Nat.mul_le_mul_left n hpart
    rw [Nat.add_mul, Nat.mul_assoc]
    omega
  have hquotient : nearestQuanta (n * quantaPerOne * part) quantaPerOne * quantaPerOne ≤
      (4 * n + 1) * q * whole := by
    calc nearestQuanta (n * quantaPerOne * part) quantaPerOne * quantaPerOne
        ≤ nearestQuanta (n * part) 1 * quantaPerOne := Nat.mul_le_mul_right _ hproduct
      _ = 4 * nearestQuanta (n * part) 1 * q := by rw [hone]; ring
      _ ≤ (4 * n + 1) * whole * q := Nat.mul_le_mul_right q hshare
      _ = (4 * n + 1) * q * whole := Nat.mul_right_comm ..
  have hbound := hdouble (4 * n + 1) (by omega)
  have hle : shareQuanta (n * quantaPerOne) part whole ≤ nearestQuanta ((4 * n + 1) * q) 1 :=
    nearestQuanta_mono hwhole Nat.one_pos ((Nat.mul_one _).trans_le hquotient)
  rw [hbound.nearestQuanta_eq] at hle
  calc 4 * shareQuanta (n * quantaPerOne) part whole
      ≤ 4 * ((4 * n + 1) * q) := Nat.mul_le_mul_left 4 hle
    _ = (4 * n + 1) * quantaPerOne := by rw [hone, Nat.mul_left_comm]

theorem pixel_share_le {n : Nat} {m part whole : Magnitude} (hm : m.quanta = n * quantaPerOne)
    (hn : n < 2 ^ (51 : Nat)) (hpart : part.quanta ≤ whole.quanta) (hwhole : 0 < whole.quanta) :
    (.finite false m * .finite false part / .finite false whole : Double).pixel mode ≤ n := by
  rcases mul_div_cases false m part hwhole with ⟨heq, -⟩ | ⟨-, k, heq, hk⟩
  · rw [heq]
    exact Int.natCast_nonneg n
  · rw [heq]
    refine pixelOf_le_of_quarter hn ?_
    have hquarter := shareQuanta_le_quarter hn hpart hwhole
    rw [← hm, ← hk] at hquarter
    simp only [Magnitude.signed, Bool.false_eq_true, if_false]
    exact_mod_cast hquarter

/-- Whether the second one of two doubles on a side of zero is out of range if the first one is, and
otherwise has a pixel that is at least as far from zero. -/
structure Grows (s : Bool) (x y : Double) : Prop where
  infinite : x = .infinite s → y = .infinite s
  pixel : y ≠ .infinite s → ∀ mode, if s then y.pixel mode ≤ x.pixel mode
    else x.pixel mode ≤ y.pixel mode

theorem grows_of_le {m part part' whole : Magnitude} (hwhole : 0 < whole.quanta)
    (h : part.quanta ≤ part'.quanta) :
    Grows s (.finite s m * .finite false part / .finite false whole)
      (.finite s m * .finite false part' / .finite false whole) := by
  obtain ⟨hproduct, hshare⟩ := shareQuanta_mono m.quanta hwhole h
  rcases mul_div_cases s m part' hwhole with ⟨heq', -⟩ | ⟨hlt', k', heq', hk'⟩
  · rw [heq']
    exact ⟨fun _ => rfl, fun hne => absurd rfl hne⟩
  · have hfinite' := k'.isDouble.lt_quantaLimit
    rcases mul_div_cases s m part hwhole with ⟨-, hover⟩ | ⟨-, k, heq, hk⟩
    · rw [hk'] at hfinite'
      omega
    · rw [heq, heq']
      refine ⟨fun hinfinite => (nomatch hinfinite), fun _ mode => ?_⟩
      cases s with
      | false =>
        exact pixelOf_mono (by simp only [Magnitude.signed, Bool.false_eq_true, if_false]; omega)
      | true => exact pixelOf_mono (by simp only [Magnitude.signed, if_true]; omega)

end Double

end PanelLayout
