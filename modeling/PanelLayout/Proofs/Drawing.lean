import PanelLayout.Drawing
import PanelLayout.Proofs.Double.Pixels
import PanelLayout.Proofs.Document.Room

/-!
# Drawings of layout passes

Everything that a layout pass in range lists can be drawn. Only labels need arithmetic: the scale of
a text is a quotient of the text factor and the height of the root, and neither it nor the size of a
label leaves the range of doubles.
-/

namespace PanelLayout

attribute [local instance (high)] instPowNat

private theorem nearestQuanta_two_pow (k : Nat) : nearestQuanta (2 ^ k) 1 = 2 ^ k := by
  refine nearestQuanta_of_dvd (Nat.pow_dvd_pow 2 ?_)
  rw [droppedBits, Nat.log2_two_pow]
  omega

theorem Number.Fits.natAbs_mul_lt {n : Int} (h : (int n).Fits) :
    n.natAbs * quantaPerOne < quantaLimit := by
  by_contra hge
  have hle : quantaLimit * 1 ≤ n.natAbs * quantaPerOne * 1 := by omega
  have hmono := nearestQuanta_mono Nat.one_pos Nat.one_pos hle
  have hlimit : nearestQuanta quantaLimit 1 = quantaLimit := by
    obtain ⟨k, hk⟩ : ∃ k, quantaLimit = 2 ^ k := ⟨_, rfl⟩
    rw [hk]
    exact nearestQuanta_two_pow k
  have hlt := Number.fits_int_iff.mp h
  omega

private theorem quanta_of_isQuanta {x : Double} {n : Int} {unit : Nat} (h : x.IsQuanta (n * unit)) :
    ∃ s m, x = .finite s m ∧ m.quanta = n.natAbs * unit := by
  obtain ⟨s, m, rfl, hsigned⟩ := h
  have habs := congrArg Int.natAbs hsigned
  rw [Int.natAbs_mul, Int.natAbs_natCast] at habs
  exact ⟨s, m, rfl, by cases s <;> simpa [Magnitude.signed] using habs⟩

namespace TextScale

variable {scale : TextScale} {height : Int}

theorem ratio_eq_ok (hpos : 0 < height) (h : (Number.int height).Fits) :
    ∃ m, (Number.int 370).div (.int height) = .ok (.double (.finite false m)) ∧
    2 ^ (58 : Nat) ≤ m.quanta := by
  have hlimit : nearestQuanta ((370 : Int).natAbs * quantaPerOne) height.natAbs < quantaLimit := by
    have hfits : (Number.int 370).Fits := ⟨.ofInt 370, by decide +kernel⟩
    refine (nearestQuanta_mono (by omega) Nat.one_pos ?_).trans_lt (Number.fits_int_iff.mp hfits)
    exact Nat.mul_le_mul_left _ (by omega)
  obtain ⟨m, hm, hquanta⟩ := Double.ofQuanta_of_lt (s := false) hlimit
  refine ⟨m, ?_, ?_⟩
  · have hsign : (decide ((370 : Int) < 0) != decide (height < 0)) = false := by simp; omega
    have hne : height ≠ 0 := by omega
    simp only [Number.div, Number.value_int, if_neg hne, Double.ofRatio, hsign, hm]
    rfl
  · obtain ⟨bound, hbound, hle⟩ : ∃ bound, quantaLimit = bound * quantaPerOne ∧
        2 ^ (58 : Nat) * bound ≤ (370 : Int).natAbs * quantaPerOne :=
          ⟨2 ^ (1024 : Nat), by decide +kernel, by decide +kernel⟩
    have hheight := h.natAbs_mul_lt
    rw [hbound] at hheight
    have hlt : height.natAbs < bound := Nat.lt_of_mul_lt_mul_right hheight
    have hmul : 2 ^ (58 : Nat) * height.natAbs ≤ (370 : Int).natAbs * quantaPerOne * 1 := by
      rw [Nat.mul_one]
      exact (Nat.mul_le_mul_left _ hlt.le).trans hle
    have hmono := nearestQuanta_mono Nat.one_pos (by omega) hmul
    rwa [nearestQuanta_two_pow, ← hquanta] at hmono

theorem scaled_eq_ok (hheight : scale.rootHeight = .int height) (hfactor : scale.factor = .int 370)
    (h : (Number.int height).Fits) : ∃ n, scale.scaled (.int Drawing.labelSize) = .ok n := by
  unfold scaled
  rw [hheight, hfactor, Number.le_int]
  by_cases hempty : height ≤ 0
  · exact ⟨0, by simp [hempty]⟩
  · obtain ⟨m, hm, hlow⟩ := ratio_eq_ok (by omega) h
    obtain ⟨s, k, hk, hquanta⟩ :=
      quanta_of_isQuanta (Double.isQuanta_ofInt (n := Drawing.labelSize) (by decide))
    obtain ⟨e, he, hle⟩ : ∃ e, e ≤ 2045 ∧ Drawing.labelSize.natAbs * quantaPerOne * quantaPerOne ≤
        2 ^ (49 : Nat) * 2 ^ e * 2 ^ (58 : Nat) := ⟨2045, Nat.le_refl _, by decide +kernel⟩
    have hq : IsDoubleQuanta (2 ^ (49 : Nat) * 2 ^ e) := ⟨2 ^ (49 : Nat), e, by decide, he, rfl⟩
    have hfinite : nearestQuanta (k.quanta * quantaPerOne) m.quanta < quantaLimit := by
      refine hq.nearestQuanta_lt (by omega) ?_
      rw [hquanta]
      exact hle.trans (Nat.mul_le_mul_left _ hlow)
    obtain ⟨size, hsize, -⟩ := Double.ofQuanta_of_lt (s := s != false) hfinite
    have hdiv : (Number.int Drawing.labelSize).div (.double (.finite false m)) =
        .ok (.double (.finite (s != false) size)) := by
      have hlabel : (Number.int Drawing.labelSize).toDouble = .ok (.finite s k) := by
        change Number.rounded (Double.ofInt Drawing.labelSize) = _
        rw [hk]
        rfl
      have hquotient : (.finite s k / .finite false m : Double) = .finite (s != false) size := by
        rw [← hsize]
        change Double.div _ _ = _
        rw [Double.div, if_neg (by omega)]
      rw [Number.div_isPositive hlabel (.inr ⟨m, rfl, by omega⟩), hquotient]
    rw [if_neg (by simpa using hempty)]
    simp only [hm, ok_bind, hdiv]
    exact ⟨_, rfl⟩

end TextScale

namespace Drawing

open Document (InPlace)

variable {p : Placement} {container : Rectangle}

theorem label_eq_ok (hcontainer : container.InRange) (h : InPlace (.forRoot container {}) p) :
    ∃ ms, label p = .ok ms := by
  obtain ⟨_, _, _, height, rfl, -, hheight⟩ := hcontainer
  obtain ⟨⟨x, y, _, _, hrect, -, -⟩, hroot, hfactor⟩ := h
  have hsize : ∃ n, p.scale.wholeTextSize labelSize = .ok n := by
    unfold TextScale.wholeTextSize
    split
    · exact TextScale.scaled_eq_ok hroot hfactor hheight
    · exact ⟨labelSize, rfl⟩
  obtain ⟨n, hn⟩ := hsize
  unfold label
  split
  · simp only [hn, hrect, Rectangle.ofInts, ok_bind, Number.add_int]
    exact ⟨_, rfl⟩
  · exact ⟨[], rfl⟩

theorem shapes_eq_ok (hcontainer : container.InRange) (h : InPlace (.forRoot container {}) p) :
    ∃ ms, shapes p = .ok ms := by
  obtain ⟨ms, hms⟩ := label_eq_ok hcontainer h
  unfold shapes
  split
  · exact ⟨[], rfl⟩
  · simp only [hms, ok_bind]
    exact ⟨_, rfl⟩

/-- A layout pass in range can be drawn on a page of any size. -/
theorem ofPlacements_eq_ok (hcontainer : container.InRange) {ps : List Placement}
    (h : ∀ p ∈ ps, InPlace (.forRoot container {}) p) (width height : Number) :
    ∃ image, ofPlacements ps width height = .ok image := by
  have hshapes : ∃ ms, ps.mapM shapes = .ok ms := by
    induction ps with
    | nil => exact ⟨[], rfl⟩
    | cons p ps ih =>
      obtain ⟨ms, hms⟩ := shapes_eq_ok hcontainer (h p List.mem_cons_self)
      obtain ⟨mss, hmss⟩ := ih fun q hq => h q (List.mem_cons_of_mem p hq)
      rw [List.mapM_cons, hms, hmss]
      exact ⟨ms :: mss, rfl⟩
  obtain ⟨ms, hms⟩ := hshapes
  rw [ofPlacements, hms]
  exact ⟨_, rfl⟩

end Drawing

end PanelLayout
