import PanelLayout.Proofs.Computation
import PanelLayout.Proofs.Double.Exact
import PanelLayout.Rectangle

/-!
# Fitting

A rectangle of a given aspect ratio keeps the whole length of one axis of the rectangle it is fitted
into. Its extent along the other axis is computed from a rounded ratio. It is the exact one, cut
down to whole pixels, unless that is already whole and rounding puts the product below. In either
case it lies inside, with the free space shared out evenly.
-/

namespace PanelLayout

attribute [local instance (high)] instPowNat

namespace Rectangle

variable {length aspect other e : Nat}

/-- Quanta of the extent that goes with a length, before it is cut down. -/
def extentQuanta (length aspect other : Nat) : Nat :=
  nearestQuanta (ratioQuanta length aspect * other) 1

theorem extentQuanta_upper (hl : IsModerate length) (ha : IsModerate aspect) (other : Nat) :
    2 ^ (53 : Nat) * (extentQuanta length aspect other * aspect) ≤
      (2 ^ (53 : Nat) + 1) * (length * other * quantaPerOne) +
        extentQuanta length aspect other * aspect := by
  have hratio := Nat.mul_le_mul_right other (ratioQuanta_relative hl.1 ha).1
  have hproduct :=
    Nat.mul_le_mul_right aspect (nearestQuanta_le_relative (ratioQuanta length aspect * other))
  rw [← extentQuanta] at hproduct
  have hnonneg := Nat.zero_le (length * other * quantaPerOne)
  linarith

theorem le_extentQuanta (he : e < 2 ^ (53 : Nat))
    (hle : e * quantaPerOne ≤ ratioQuanta length aspect * other) :
    e * quantaPerOne ≤ extentQuanta length aspect other :=
  (isDoubleQuanta_mul_quantaPerOne he).le_nearestQuanta hle

theorem le_extentQuanta_of_lt (hl : IsModerate length) (ha : IsModerate aspect)
    (ho : IsModerate other) (hlt : e * aspect < length * other) :
    e * quantaPerOne ≤ extentQuanta length aspect other := by
  have hpos := quantaPerOne_pos
  have hbound := hl.mul_lt ho
  have hsmall : e ≤ e * aspect := Nat.le_mul_of_pos_right _ ha.1
  refine le_extentQuanta (by omega) (Nat.le_of_mul_le_mul_right ?_ ha.1)
  have hratio := Nat.mul_le_mul_right other (ratioQuanta_relative hl.1 ha).2
  have hgap := Nat.mul_le_mul_right quantaPerOne (Nat.succ_le_of_lt hlt)
  have hless := Nat.mul_lt_mul_of_pos_right hbound hpos
  rw [Nat.succ_mul] at hgap
  linarith

theorem exists_product (hl : IsModerate length) (ha : IsModerate aspect) (ho : IsModerate other) :
    ∃ m, (Double.ofRatio length aspect * Double.ofInt other : Double) = .finite false m ∧
      m.quanta = extentQuanta length aspect other ∧
      (Number.double (.ofRatio length aspect)).mul (.int other) =
        .ok (.double (.finite false m)) := by
  obtain ⟨a, hratio, hquanta⟩ := Double.ofRatio_natCast (a := length) hl.lt ha.1
  obtain ⟨b, hother, hwhole⟩ := Double.ofInt_natCast (a := other) ho.lt
  have hextent : nearestQuanta (a.quanta * b.quanta) quantaPerOne =
      extentQuanta length aspect other := by
    rw [hquanta, hwhole, ← Nat.mul_assoc, nearestQuanta_mul_self _ quantaPerOne_pos, extentQuanta]
  have hlt : nearestQuanta (a.quanta * b.quanta) quantaPerOne < quantaLimit := by
    rw [hextent]
    refine isDoubleQuanta_large.nearestQuanta_lt Nat.one_pos ?_
    rw [Nat.mul_one]
    calc ratioQuanta length aspect * other ≤ 2 ^ (27 : Nat) * quantaPerOne * 2 ^ (26 : Nat) :=
          Nat.mul_le_mul (ratioQuanta_bounds hl ha).2 ho.2.le
      _ = 2 ^ (53 : Nat) * quantaPerOne := by ring
  obtain ⟨m, hm, hmquanta⟩ := Double.ofQuanta_of_lt (s := false) hlt
  have hproduct : (Double.ofRatio length aspect * Double.ofInt other : Double) =
      .finite false m := by
    rw [hratio, hother, Double.finite_mul_finite, hm]
  exact ⟨m, hproduct, hmquanta.trans hextent, by rw [Number.mul_natCast _ ho.lt, hproduct]⟩

/-- Whether an extent is a whole number that rounding does not reach. -/
def IsMissed (length aspect other : Nat) : Prop :=
  (Double.ofRatio length aspect * Double.ofInt other).FallsShort (length * other) aspect

theorem IsMissed.ratio_lt (hl : IsModerate length) (ha : IsModerate aspect) (ho : IsModerate other)
    (hmissed : IsMissed length aspect other) :
    (Double.ofRatio length aspect).exact < (length : ℚ) / aspect := by
  obtain ⟨m, hm, hquanta, -⟩ := exists_product hl ha ho
  rw [IsMissed, hm, Double.fallsShort_finite_iff ha.1, hquanta] at hmissed
  obtain ⟨hdvd, hless⟩ := hmissed
  rw [Double.exact_ofRatio_lt_iff hl.lt ha.1]
  by_contra hge
  have hproduct := Nat.mul_le_mul_right other (Nat.not_lt.mp hge)
  rw [Nat.mul_right_comm, ← Nat.div_mul_cancel hdvd, Nat.mul_right_comm _ aspect,
    Nat.mul_right_comm _ aspect] at hproduct
  have hreach :=
    le_extentQuanta
      ((Nat.div_le_self (length * other) aspect).trans_lt ((hl.mul_lt ho).trans (by decide)))
    (Nat.le_of_mul_le_mul_right hproduct ha.1)
  omega

theorem not_isMissed_of_dvd (hl : IsModerate length) (ha : IsModerate aspect)
    (ho : IsModerate other) (hdvd : aspect ∣ length) :
    ¬IsMissed length aspect other := by
  intro hmissed
  have hlt := hmissed.ratio_lt hl ha ho
  rw [Double.exact_ofRatio_lt_iff hl.lt ha.1] at hlt
  obtain ⟨k, rfl⟩ := hdvd
  have hk : k ≤ aspect * k := Nat.le_mul_of_pos_left k ha.1
  have heq : aspect * k * quantaPerOne = k * quantaPerOne * aspect := by ring
  rw [ratioQuanta_eq (isDoubleQuanta_mul_quantaPerOne (hk.trans_lt hl.lt)) ha.1 heq, heq] at hlt
  exact Nat.lt_irrefl _ hlt

/-- Whether an extent is what goes with a length at an aspect ratio, as it is computed. -/
structure IsExtent (length aspect other extent : Nat) : Prop where
  missed : IsMissed length aspect other →
    extent + 1 = length * other / aspect ∧ (Double.ofRatio length aspect).exact <
      (length : ℚ) / aspect
  exact : ¬IsMissed length aspect other → extent = length * other / aspect

theorem exists_extent (hl : IsModerate length) (ha : IsModerate aspect) (ho : IsModerate other) :
    ∃ p extent, (Number.double (.ofRatio length aspect)).mul (.int other) = .ok p ∧
    p.truncate = .ok ((extent : Nat) : Int) ∧
      IsExtent length aspect other extent := by
  obtain ⟨m, hm, hquanta, hmul⟩ := exists_product hl ha ho
  have hupper := extentQuanta_upper hl ha other
  rw [← hquanta] at hupper
  obtain ⟨hshort, hexact⟩ := Double.cut_down ha.1 (hl.mul_lt ho) hupper fun e hlt =>
    hquanta ▸ le_extentQuanta_of_lt hl ha ho hlt
  rw [← hm, ← IsMissed] at hshort hexact
  exact ⟨_, _, hmul, Number.truncate_finite m, fun hmissed =>
    ⟨hshort hmissed, hmissed.ratio_lt hl ha ho⟩, hexact⟩

theorem IsExtent.le {extent bound : Nat} (h : IsExtent length aspect other extent)
    (hle : length * other ≤ bound * aspect) : extent ≤ bound := by
  have hquotient : length * other / aspect ≤ bound :=
    Nat.div_le_of_le_mul (hle.trans_eq (Nat.mul_comm bound aspect))
  by_cases hmissed : IsMissed length aspect other
  · have := (h.missed hmissed).1
    omega
  · rw [h.exact hmissed]
    exact hquotient

/-- Whether one part of an axis lies within another one, and what is left free before and behind it
differs by at most one. -/
structure IsCentred (start : Int) (extent : Nat) (start' : Int) (extent' : Nat) : Prop where
  before : start ≤ start'
  behind : start' + extent' ≤ start + extent
  balanced : |(start + extent - (start' + extent')) - (start' - start)| ≤ 1

theorem isCentred_self (start : Int) (extent : Nat) : IsCentred start extent start extent :=
  ⟨le_rfl, le_rfl, by simp⟩

theorem exists_centredStart (start : Int) {extent part : Nat} (h : part ≤ extent) :
    ∃ start', centredStart (.int start) (.int extent) part = .ok (.int start') ∧
      IsCentred start extent start' part := by
  refine ⟨start + (extent : Int) / 2 - (part : Int) / 2, rfl, ?_⟩
  constructor
  · omega
  · omega
  · rw [abs_le]
    omega

variable {width height aspectWidth aspectHeight : Nat}

/-- The length of the axis that limits a fitted rectangle is kept, and the other one is computed
from it. -/
theorem fitted_cases (x y : Int) (hw : IsModerate width) (hh : IsModerate height)
    (haw : IsModerate aspectWidth) (hah : IsModerate aspectHeight) :
    width * aspectHeight ≤ height * aspectWidth ∧
        (∃ start extent, (ofInts x y width height).fitted (.int aspectWidth) (.int aspectHeight) =
          .ok (ofInts x start width (extent : Nat)) ∧
          IsExtent width aspectWidth aspectHeight extent ∧ IsCentred y height start extent) ∨
      height * aspectWidth < width * aspectHeight ∧
        ∃ start extent, (ofInts x y width height).fitted (.int aspectWidth) (.int aspectHeight) =
          .ok (ofInts start y (extent : Nat) height) ∧
          IsExtent height aspectHeight aspectWidth extent ∧ IsCentred x width start extent := by
  have hdivWidth : (ofInts x y width height).width.div (.int aspectWidth) =
      .ok (.double (.ofRatio width aspectWidth)) :=
    Number.div_natCast hw.lt haw.1
  have hdivHeight : (ofInts x y width height).height.div (.int aspectHeight) =
      .ok (.double (.ofRatio height aspectHeight)) :=
    Number.div_natCast hh.lt hah.1
  have hpositive : ((Number.int aspectWidth).le (.int 0) || (Number.int aspectHeight).le (.int 0)) =
      false := by
    have := haw.1
    have := hah.1
    simp
    omega
  obtain ⟨a, ha, hquanta⟩ := Double.ofRatio_natCast (a := width) hw.lt haw.1
  obtain ⟨b, hb, hquanta'⟩ := Double.ofRatio_natCast (a := height) hh.lt hah.1
  have hle : (Number.double (.ofRatio width aspectWidth)).le
    (.double (.ofRatio height aspectHeight)) =
      decide (width * aspectHeight ≤ height * aspectWidth) := by
    rw [ha, hb]
    refine ((Double.isQuanta_finite a).le (Double.isQuanta_finite b)).trans
      (decide_eq_decide.mpr ?_)
    rw [Int.ofNat_le, hquanta, hquanta', ratioQuanta_le_iff hw haw hh.1 hah]
  unfold fitted
  rw [hpositive, if_neg Bool.false_ne_true, hdivWidth, ok_bind, hdivHeight, ok_bind, hle]
  rcases Nat.lt_or_ge (height * aspectWidth) (width * aspectHeight) with hlt | hge
  · obtain ⟨p, extent, hmul, htruncate, hextent⟩ := exists_extent hh hah haw
    obtain ⟨start, hstart, hcentred⟩ := exists_centredStart x (hextent.le hlt.le)
    refine .inr ⟨hlt, start, extent, ?_, hextent, hcentred⟩
    rw [decide_eq_false (Nat.not_le.mpr hlt), if_neg Bool.false_ne_true, hmul, ok_bind,
      htruncate, ok_bind]
    exact congrArg (· >>= _) hstart
  · obtain ⟨p, extent, hmul, htruncate, hextent⟩ := exists_extent hw haw hah
    obtain ⟨start, hstart, hcentred⟩ := exists_centredStart y (hextent.le hge)
    refine .inl ⟨hge, start, extent, ?_, hextent, hcentred⟩
    rw [decide_eq_true hge, if_pos rfl, hmul, ok_bind, htruncate, ok_bind]
    exact congrArg (· >>= _) hstart

/-- A fitted rectangle lies inside, keeps the length of the limiting axis and is centred along the
other one, where its extent is exact or missed by one. At its own aspect ratio a rectangle is kept,
unless the numbers of the ratio are other ones and the extent is missed. -/
theorem fitted_natCast (x y : Int) (hw : IsModerate width) (hh : IsModerate height)
    (haw : IsModerate aspectWidth) (hah : IsModerate aspectHeight) :
    ∃ (x' y' : Int) (w h : Nat),
      (ofInts x y width height).fitted (.int aspectWidth) (.int aspectHeight) =
        .ok (ofInts x' y' w h) ∧
      IsCentred x width x' w ∧ IsCentred y height y' h ∧
      (width * aspectHeight ≤ height * aspectWidth → w = width ∧
        IsExtent width aspectWidth aspectHeight h) ∧
      (height * aspectWidth < width * aspectHeight → h = height ∧
        IsExtent height aspectHeight aspectWidth w) ∧
      (aspectWidth = width ∧ aspectHeight = height ∨
          width * aspectHeight = height * aspectWidth ∧ ¬IsMissed width aspectWidth aspectHeight →
        x' = x ∧ y' = y ∧ w = width ∧ h = height) := by
  rcases fitted_cases x y hw hh haw hah with ⟨hle, start, extent, hfitted, hextent, hcentred⟩ |
      ⟨hlt, start, extent, hfitted, hextent, hcentred⟩
  · refine ⟨x, start, width, extent, hfitted, isCentred_self x width, hcentred, fun _ =>
      ⟨rfl, hextent⟩, fun _ => by omega, ?_⟩
    intro hown
    have hkept : extent = height := by
      rcases hown with ⟨rfl, rfl⟩ | ⟨hratio, hnot⟩
      · rw [hextent.exact (not_isMissed_of_dvd hw hw hh dvd_rfl), Nat.mul_div_cancel_left _ hw.1]
      · rw [hextent.exact hnot, hratio, Nat.mul_div_cancel _ haw.1]
    have hbefore := hcentred.before
    have hbehind := hcentred.behind
    exact ⟨rfl, by omega, rfl, hkept⟩
  · refine ⟨start, y, extent, height, hfitted, hcentred, isCentred_self y height, fun _ => by omega,
      fun _ => ⟨rfl, hextent⟩, ?_⟩
    rintro (⟨rfl, rfl⟩ | ⟨hratio, -⟩)
    · rw [Nat.mul_comm] at hlt
      omega
    · omega

/-- A square in a rectangle that is wider than high. -/
theorem fitted_natCast_square : IsModerate 400 ∧ IsModerate 300 ∧ IsModerate 1 ∧
    (ofInts 0 0 400 300).fitted (.int 1) (.int 1) = .ok (ofInts 50 0 300 300) := by
  have hw : IsModerate 400 := ⟨by decide, by decide⟩
  have hh : IsModerate 300 := ⟨by decide, by decide⟩
  have hone : IsModerate 1 := ⟨by decide, by decide⟩
  obtain ⟨x', y', w, h, hfitted, hx, hy, -, hlimited, -⟩ := fitted_natCast 0 0 hw hh hone hone
  obtain ⟨rfl, hextent⟩ := hlimited (by decide)
  have hw' := hextent.exact (not_isMissed_of_dvd hh hone hone (Nat.one_dvd 300))
  obtain rfl : w = 300 := hw'
  have hbefore := hy.before
  have hbehind := hy.behind
  have hbalanced := abs_le.mp hx.balanced
  obtain rfl : x' = 50 := by omega
  obtain rfl : y' = 0 := by omega
  exact ⟨hw, hh, hone, hfitted⟩

/-- At its own aspect ratio, a square may lose a row of pixels. -/
theorem fitted_missed :
    (ofInts 0 0 15 15).fitted (.int 11) (.int 11) = .ok (ofInts 0 0 15 14) ∧ 15 * 11 / 11 = 15 := by
  decide +kernel

end Rectangle

end PanelLayout
