import PanelLayout.Proofs.Computation
import PanelLayout.Proofs.Double.Exact
import PanelLayout.TextScale

/-!
# Sizes of text

The natural size of text is divided by the ratio of the text factor to the height, which has been
rounded, and the quotient is rounded too. Both grow with the height and with the natural size. The
size is the exact one, cut down to a whole number, unless that is already whole and rounding puts
the quotient below.
-/

namespace PanelLayout

attribute [local instance (high)] instPowNat

namespace TextScale

section Quanta

variable {n h f e : Nat}

def sizeQuanta (n h f : Nat) : Nat :=
  nearestQuanta (n * quantaPerOne * quantaPerOne) (ratioQuanta f h)

theorem le_sizeQuanta (he : e < 2 ^ (53 : Nat)) (hpos : 0 < ratioQuanta f h)
    (hle : e * ratioQuanta f h ≤ n * quantaPerOne) :
    e * quantaPerOne ≤ sizeQuanta n h f := by
  have hmono : nearestQuanta (e * quantaPerOne) 1 ≤ sizeQuanta n h f := by
    refine nearestQuanta_mono Nat.one_pos hpos ?_
    rw [Nat.mul_one, Nat.mul_right_comm]
    exact Nat.mul_le_mul_right _ hle
  rwa [(isDoubleQuanta_mul_quantaPerOne he).nearestQuanta_eq] at hmono

theorem sizeQuanta_upper (hn : IsModerate n) (hh : IsModerate h) (hf : IsModerate f) :
    2 ^ (53 : Nat) * (sizeQuanta n h f * f) ≤ (2 ^ (53 : Nat) + 1) * (n * h * quantaPerOne) +
      sizeQuanta n h f * f := by
  obtain ⟨hleast, hmost⟩ := ratioQuanta_bounds hf hh
  have hpos := quantaPerOne_pos
  have hlarge : 2 ^ (53 : Nat) * ratioQuanta f h ≤ n * quantaPerOne * quantaPerOne := by
    calc 2 ^ (53 : Nat) * ratioQuanta f h ≤ 2 ^ (200 : Nat) * quantaPerOne := by omega
      _ ≤ quantaPerOne * quantaPerOne := Nat.mul_le_mul_right _ two_pow_le_quantaPerOne
      _ ≤ n * quantaPerOne * quantaPerOne := Nat.mul_le_mul_right _ (Nat.le_mul_of_pos_left _ hn.1)
  -- at worst the ratio is rounded down and the quotient up
  have hsize := Nat.mul_le_mul_right h (nearestQuanta_relative_div (by omega) hlarge).1
  have hratio := Nat.mul_le_mul_left (sizeQuanta n h f) (ratioQuanta_relative hf.1 hh).2
  rw [← sizeQuanta] at hsize
  refine Nat.le_of_mul_le_mul_right ?_ hpos
  linarith

theorem le_sizeQuanta_of_lt (hn : IsModerate n) (hh : IsModerate h) (hf : IsModerate f)
    (hlt : e * f < n * h) :
    e * quantaPerOne ≤ sizeQuanta n h f := by
  have hpos := quantaPerOne_pos
  have hbound := hn.mul_lt hh
  have hsmall : e ≤ e * f := Nat.le_mul_of_pos_right _ hf.1
  refine le_sizeQuanta (by omega) (ratioQuanta_pos hf hh) (Nat.le_of_mul_le_mul_right ?_ hh.1)
  have hratio := Nat.mul_le_mul_left e (ratioQuanta_relative hf.1 hh).1
  have hgap := Nat.mul_le_mul_right quantaPerOne (Nat.succ_le_of_lt hlt)
  have hless := Nat.mul_lt_mul_of_pos_right (hlt.trans hbound) hpos
  rw [Nat.succ_mul] at hgap
  linarith

theorem sizeQuanta_mono {n' h' : Nat} (hh : IsModerate h) (hh' : IsModerate h') (hf : IsModerate f)
    (hn : n ≤ n') (hle : h ≤ h') : sizeQuanta n h f ≤ sizeQuanta n' h' f := by
  have hratio : ratioQuanta f h' ≤ ratioQuanta f h :=
    nearestQuanta_mono hh'.1 hh.1 (Nat.mul_le_mul_left _ hle)
  refine nearestQuanta_mono (ratioQuanta_pos hf hh) (ratioQuanta_pos hf hh')
    (Nat.mul_le_mul ?_ hratio)
  exact Nat.mul_le_mul_right _ (Nat.mul_le_mul_right _ hn)

end Quanta

variable {n h f : Nat}

theorem exists_quotient (hn : IsModerate n) (hh : IsModerate h) (hf : IsModerate f) :
    ∃ m, (Double.ofInt n / Double.ofRatio f h : Double) = .finite false m ∧
    m.quanta = sizeQuanta n h f ∧
      (Number.int n).div (.double (.ofRatio f h)) = .ok (.double (.finite false m)) := by
  obtain ⟨a, ha, hnatural⟩ := Double.ofInt_natCast (a := n) hn.lt
  obtain ⟨b, hb, hratio⟩ := Double.ofRatio_natCast (a := f) hf.lt hh.1
  have hpos : 0 < b.quanta := hratio ▸ ratioQuanta_pos hf hh
  have hlt : nearestQuanta (a.quanta * quantaPerOne) b.quanta < quantaLimit := by
    refine isDoubleQuanta_large.nearestQuanta_lt hpos ?_
    rw [hnatural, hratio]
    calc n * quantaPerOne * quantaPerOne
        ≤ 2 ^ (26 : Nat) * quantaPerOne * (2 ^ (27 : Nat) * ratioQuanta f h) :=
          Nat.mul_le_mul (Nat.mul_le_mul_right _ hn.2.le) (ratioQuanta_bounds hf hh).1
      _ = 2 ^ (53 : Nat) * quantaPerOne * ratioQuanta f h := by ring
  obtain ⟨m, hm, hquanta⟩ := Double.ofQuanta_of_lt (s := false) hlt
  have hquotient : (Double.ofInt n / Double.ofRatio f h : Double) = .finite false m := by
    rw [ha, hb, Double.finite_div_finite a hpos, hm]
  refine ⟨m, hquotient, by rw [hquanta, hnatural, hratio, sizeQuanta], ?_⟩
  rw [← hquotient, hb, Number.div_finite hn.lt hpos]

def IsMissed (n h f : Nat) : Prop := (Double.ofInt n / Double.ofRatio f h).FallsShort (n * h) f

theorem textSize_eq (hn : IsModerate n) (hh : IsModerate h) (hf : IsModerate f) :
    (⟨.int h, .int f, true⟩ : TextScale).textSize (.int n) =
      .ok (.int (sizeQuanta n h f / quantaPerOne : Nat)) := by
  obtain ⟨m, -, hquanta, hdiv⟩ := exists_quotient hn hh hf
  have hheight : ¬(h : Int) ≤ 0 := by
    have := hh.1
    omega
  have hratio := Number.div_natCast (a := f) hf.lt hh.1
  have hscaled : (⟨.int h, .int f, true⟩ : TextScale).scaled (.int n) =
      .ok (sizeQuanta n h f / quantaPerOne : Nat) := by
    unfold scaled
    rw [Number.le_int, decide_eq_false hheight, if_neg Bool.false_ne_true, hratio, ok_bind,
      hdiv, ok_bind, Number.truncate_finite, hquanta]
  rw [textSize, if_pos rfl, hscaled]
  rfl

theorem IsMissed.ratio_lt (hn : IsModerate n) (hh : IsModerate h) (hf : IsModerate f)
    (hmissed : IsMissed n h f) :
    (f : ℚ) / h < (Double.ofRatio f h).exact := by
  obtain ⟨m, hm, hquanta, -⟩ := exists_quotient hn hh hf
  rw [IsMissed, hm, Double.fallsShort_finite_iff hf.1, hquanta] at hmissed
  obtain ⟨hdvd, hless⟩ := hmissed
  rw [Double.lt_exact_ofRatio_iff hf.lt hh.1]
  by_contra hge
  have hproduct := Nat.mul_le_mul_left (n * h / f) (Nat.not_lt.mp hge)
  rw [← Nat.mul_assoc, ← Nat.mul_assoc, Nat.div_mul_cancel hdvd, Nat.mul_right_comm n] at hproduct
  have hreach :=
    le_sizeQuanta ((Nat.div_le_self (n * h) f).trans_lt ((hn.mul_lt hh).trans (by decide)))
    (ratioQuanta_pos hf hh) (Nat.le_of_mul_le_mul_right hproduct hh.1)
  omega

/-- The size of text is the exact one, cut down to a whole number, except that it is one less where
the quotient is below a whole number that is exact. It is no smaller for larger text or a larger
height. -/
theorem textSize_natCast (hn : IsModerate n) (hh : IsModerate h) (hf : IsModerate f) :
    ∃ size : Nat, (⟨.int h, .int f, true⟩ : TextScale).textSize (.int n) = .ok (.int size) ∧
      (IsMissed n h f → size + 1 = n * h / f ∧ (f : ℚ) / h < (Double.ofRatio f h).exact) ∧
      (¬IsMissed n h f → size = n * h / f ∧ ∀ k, h = k * f → size = k * n) ∧
      ∀ n' h', IsModerate n' → IsModerate h' → n ≤ n' → h ≤ h' → ∃ size' : Nat, size ≤ size' ∧
        (⟨.int h', .int f, true⟩ : TextScale).textSize (.int n') = .ok (.int size') := by
  obtain ⟨m, hm, hquanta, -⟩ := exists_quotient hn hh hf
  have hupper := sizeQuanta_upper hn hh hf
  rw [← hquanta] at hupper
  obtain ⟨hshort, hexact⟩ := Double.cut_down hf.1 (hn.mul_lt hh) hupper fun e hlt =>
    hquanta ▸ le_sizeQuanta_of_lt hn hh hf hlt
  rw [← hm, ← IsMissed, hquanta] at hshort hexact
  refine ⟨_, textSize_eq hn hh hf, fun hmissed => ⟨hshort hmissed, hmissed.ratio_lt hn hh hf⟩, ?_,
    ?_⟩
  · intro hnot
    refine ⟨hexact hnot, ?_⟩
    rintro k rfl
    rw [hexact hnot, ← Nat.mul_assoc, Nat.mul_div_cancel _ hf.1, Nat.mul_comm]
  · intro n' h' hn' hh' hn_le hh_le
    exact ⟨_, Nat.div_le_div_right (sizeQuanta_mono hh hh' hf hn_le hh_le), textSize_eq hn' hh' hf⟩

/-- Text is twice as large in a container that is twice as high as the text factor. -/
theorem textSize_natCast_of_double_height : IsModerate 12 ∧ IsModerate 740 ∧ IsModerate 370 ∧
    (⟨.int 740, .int 370, true⟩ : TextScale).textSize (.int 12) = .ok (.int 24) := by
  have hn : IsModerate 12 := ⟨by decide, by decide⟩
  have hh : IsModerate 740 := ⟨by decide, by decide⟩
  have hf : IsModerate 370 := ⟨by decide, by decide⟩
  obtain ⟨size, hsize, -, hexact, -⟩ := textSize_natCast hn hh hf
  have hnot : ¬IsMissed 12 740 370 := by
    intro hmissed
    have hlt := hmissed.ratio_lt hn hh hf
    have heq : 370 * quantaPerOne = halfQuanta * 740 := by
      rw [quantaPerOne_eq]
      ring
    rw [Double.lt_exact_ofRatio_iff hf.lt hh.1, ratioQuanta_eq isDoubleQuanta_halfQuanta hh.1 heq,
      heq] at hlt
    exact Nat.lt_irrefl _ hlt
  rw [(hexact hnot).2 2 rfl] at hsize
  exact ⟨hn, hh, hf, hsize⟩

/-- The size of text is too small by one for small numbers, and also where the height is a multiple
of the usual factor. -/
theorem textSize_missed :
    (⟨.int 7, .int 9, true⟩ : TextScale).textSize (.int 9) = .ok (.int 6) ∧ 9 * 7 / 9 = 7 ∧
    (⟨.int 27750, .int 370, true⟩ : TextScale).textSize (.int 3) = .ok (.int 224) ∧
    27750 = 75 * 370 ∧ 224 < 75 * 3 := by
  have ⟨hsmall, hmultiple⟩ : sizeQuanta 9 7 9 / quantaPerOne = 6 ∧
      sizeQuanta 3 27750 370 / quantaPerOne = 224 := by
    decide +kernel
  have hnine : IsModerate 9 := ⟨by decide, by decide⟩
  have hsize := textSize_eq hnine (h := 7) ⟨by decide, by decide⟩ hnine
  have hsize' :=
    textSize_eq (n := 3) (h := 27750) (f := 370) ⟨by decide, by decide⟩ ⟨by decide, by decide⟩
    ⟨by decide, by decide⟩
  rw [hsmall] at hsize
  rw [hmultiple] at hsize'
  exact ⟨hsize, by decide, hsize', by decide, by decide⟩

end TextScale

end PanelLayout
