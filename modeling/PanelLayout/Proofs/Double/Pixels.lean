import Mathlib.Tactic.Linarith
import Mathlib.Tactic.Ring
import PanelLayout.Pixel
import PanelLayout.Proofs.Computation
import PanelLayout.Proofs.Double.Rounding

/-!
# Pixels of doubles

Which pixel stands for a finite double, told by its quanta. A distance between two doubles and its
start are turned into pixels one by one: where their sum meets the pixel of the end, and how far it
can miss it.
-/

namespace PanelLayout

attribute [local instance (high)] instPowNat

def halfQuanta : Nat := 2 ^ (1073 : Nat)

theorem quantaPerOne_eq : quantaPerOne = 2 * halfQuanta := by decide +kernel

theorem exists_exponent : ∃ t, t = 1073 ∧ halfQuanta = 2 ^ t ∧ quantaPerOne = 2 ^ (t + 1) :=
  ⟨1073, rfl, by decide +kernel, by decide +kernel⟩

theorem isDoubleQuanta_halfQuanta : IsDoubleQuanta halfQuanta := by
  obtain ⟨t, ht, hhalf, -⟩ := exists_exponent
  rw [hhalf]
  exact isDoubleQuanta_two_pow (by omega)

/-- The pixel of a finite double, from its quanta. -/
def pixelOf (mode : Rounding) (n : Int) : Int :=
  match mode with
  | .truncate => n.tdiv quantaPerOne
  | .nearest => nearestSigned (n + halfQuanta) / quantaPerOne

namespace Double

theorem isQuanta_finite (m : Magnitude) : (Double.finite false m).IsQuanta m.quanta :=
  ⟨false, m, rfl, rfl⟩

theorem isQuanta_half : half.IsQuanta halfQuanta := by
  have hhalf : half = .finite false ⟨halfQuanta, isDoubleQuanta_halfQuanta⟩ := by decide +kernel
  have hfinite := isQuanta_finite ⟨halfQuanta, isDoubleQuanta_halfQuanta⟩
  dsimp only at hfinite
  rwa [← hhalf] at hfinite

private theorem nearestQuanta_add_half_lt {n : Int} (h : IsDoubleQuanta n.natAbs) :
    nearestQuanta (n + halfQuanta).natAbs 1 < quantaLimit := by
  obtain ⟨t, ht, hmax⟩ : ∃ t, t = 2045 ∧
      nearestQuanta ((2 ^ (53 : Nat) - 1) * 2 ^ t + halfQuanta) 1 < quantaLimit :=
    ⟨2045, rfl, by decide +kernel⟩
  obtain ⟨m, k, hm, hk, heq⟩ := h
  have hle : n.natAbs ≤ (2 ^ (53 : Nat) - 1) * 2 ^ t := by
    rw [heq]
    exact Nat.mul_le_mul (by omega) (Nat.pow_le_pow_right Nat.two_pos (by omega))
  exact (nearestQuanta_mono Nat.one_pos Nat.one_pos (by omega)).trans_lt hmax

theorem IsQuanta.roundTo? {x : Double} {n : Int} (hx : x.IsQuanta n) (mode : Rounding) :
    x.roundTo? mode = some (pixelOf mode n) := by
  cases mode with
  | truncate =>
    obtain ⟨s, m, rfl, rfl⟩ := hx
    cases s with
    | false =>
      change some ((m.quanta / quantaPerOne : Nat) : Int) =
        some ((m.quanta : Int).tdiv quantaPerOne)
      rw [Int.ofNat_tdiv]
    | true =>
      change some (-((m.quanta / quantaPerOne : Nat) : Int)) =
        some ((-(m.quanta : Int)).tdiv quantaPerOne)
      rw [Int.neg_tdiv, Int.ofNat_tdiv]
  | nearest =>
    obtain ⟨s, m, hsum, hm⟩ := hx.add isQuanta_half (nearestQuanta_add_half_lt hx.isDouble)
    simp only [Double.roundTo?, hsum, floor?, hm, pixelOf]

theorem IsQuanta.toPixel_eq_pure {x : Double} {n : Int} (hx : x.IsQuanta n) (mode : Rounding) :
    x.toPixel mode = pure (pixelOf mode n) := by
  unfold Double.toPixel
  rw [if_pos hx.isFinite, hx.roundTo?]

theorem IsQuanta.toPixel {x : Double} {n : Int} (hx : x.IsQuanta n) (mode : Rounding) :
    (x.toPixel mode).result = .ok (pixelOf mode n) := by
  rw [hx.toPixel_eq_pure]
  rfl

def pixel (mode : Rounding) : Double → Int
  | .finite s m => pixelOf mode (m.signed s)
  | _ => 0

theorem result_toPixel (x : Double) (mode : Rounding) :
    (x.toPixel mode).result = .ok (x.pixel mode) := by
  cases x with
  | nan => rfl
  | infinite s => rfl
  | finite s m => exact IsQuanta.toPixel ⟨s, m, rfl, rfl⟩ mode

end Double

theorem isDoubleQuanta_zero : IsDoubleQuanta (0 : Int).natAbs := ⟨0, 0, by decide, by decide, rfl⟩

theorem isDoubleQuanta_mul_quantaPerOne {n : Nat} (h : n < 2 ^ (53 : Nat)) :
    IsDoubleQuanta (n * quantaPerOne) := by
  obtain ⟨t, ht, -, hone⟩ := exists_exponent
  exact ⟨n, t + 1, h, by omega, by rw [hone]⟩

private theorem isDoubleQuanta_whole {k : Int} (h : k.natAbs < 2 ^ (53 : Nat)) :
    IsDoubleQuanta (k * quantaPerOne).natAbs := by
  rw [Int.natAbs_mul, Int.natAbs_natCast]
  exact isDoubleQuanta_mul_quantaPerOne h

private theorem isDoubleQuanta_mul_halfQuanta {n : Nat} (h : n < 2 ^ (53 : Nat)) :
    IsDoubleQuanta (n * halfQuanta) := by
  obtain ⟨t, ht, hhalf, -⟩ := exists_exponent
  exact ⟨n, t, h, by omega, by rw [hhalf]⟩

section Pixel

variable {mode : Rounding}

theorem quantaPerOne_cast : (quantaPerOne : Int) = 2 * halfQuanta := by
  rw [quantaPerOne_eq, Int.natCast_mul]
  rfl

theorem halfQuanta_pos : (0 : Int) < halfQuanta := by
  have hpos := quantaPerOne_pos
  rw [quantaPerOne_eq] at hpos
  omega

theorem quantaPerOne_cast_pos : (0 : Int) < quantaPerOne := Int.natCast_pos.mpr quantaPerOne_pos

theorem pixelOf_whole {k : Int} (h : k.natAbs ≤ 2 ^ (51 : Nat)) :
    pixelOf mode (k * quantaPerOne) = k := by
  have hpos := quantaPerOne_cast_pos
  cases mode with
  | truncate => exact Int.mul_tdiv_cancel k hpos.ne'
  | nearest =>
    have hhalves : k * quantaPerOne + halfQuanta = (2 * k + 1) * halfQuanta := by
      rw [quantaPerOne_cast]
      ring
    have hdouble : IsDoubleQuanta (k * quantaPerOne + halfQuanta).natAbs := by
      rw [hhalves, Int.natAbs_mul, Int.natAbs_natCast]
      exact isDoubleQuanta_mul_halfQuanta (by omega)
    have hlt : (halfQuanta : Int) < quantaPerOne := by
      have := halfQuanta_pos
      rw [quantaPerOne_cast]
      omega
    rw [pixelOf, nearestSigned_eq hdouble, Int.add_comm, Int.add_mul_ediv_right _ _ hpos.ne',
      Int.ediv_eq_zero_of_lt halfQuanta_pos.le hlt, Int.zero_add]

theorem pixelOf_mono {m n : Int} (h : m ≤ n) : pixelOf mode m ≤ pixelOf mode n := by
  cases mode with
  | truncate => exact Int.tdiv_le_tdiv quantaPerOne_cast_pos h
  | nearest => exact Int.ediv_le_ediv quantaPerOne_cast_pos (nearestSigned_mono (by omega))

theorem pixelOf_nonneg {n : Int} (h : 0 ≤ n) : 0 ≤ pixelOf mode n := by
  cases mode with
  | truncate => exact Int.tdiv_nonneg h quantaPerOne_cast_pos.le
  | nearest =>
    have hle :=
      le_nearestSigned isDoubleQuanta_zero (n := n + halfQuanta) (by have := halfQuanta_pos; omega)
    exact Int.ediv_nonneg hle quantaPerOne_cast_pos.le

theorem pixelOf_nonpos {n : Int} (h : n ≤ 0) : pixelOf mode n ≤ 0 := by
  have hle : pixelOf mode n ≤ pixelOf mode 0 := pixelOf_mono h
  have hzero : pixelOf mode (0 * quantaPerOne) = 0 := pixelOf_whole (by decide)
  rw [Int.zero_mul] at hzero
  omega

/-- A quarter of a whole number is a double, and two such quarters are a half. -/
theorem exists_quarter : ∃ q : Nat, quantaPerOne = 4 * q ∧ halfQuanta = 2 * q ∧
    ∀ n < 2 ^ (53 : Nat), IsDoubleQuanta (n * q) := by
  obtain ⟨t, ht, hhalf, hone⟩ := exists_exponent
  obtain ⟨l, rfl⟩ : ∃ l, t = l + 1 := ⟨t - 1, by omega⟩
  refine ⟨2 ^ l, ?_, ?_, fun n hn => ⟨n, l, hn, by omega, rfl⟩⟩
  · rw [hone, Nat.pow_succ, Nat.pow_succ]
    omega
  · rw [hhalf, Nat.pow_succ]
    omega

theorem pixelOf_le_of_quarter {n : Int} {k : Nat} (hk : k < 2 ^ (51 : Nat))
    (h : 4 * n ≤ ((4 * k + 1) * quantaPerOne : Nat)) : pixelOf mode n ≤ k := by
  obtain ⟨q, hone, hhalf, hdouble⟩ := exists_quarter
  have hpos := quantaPerOne_cast_pos
  have hle : n ≤ ((4 * k + 1) * q : Nat) := by
    rw [hone, Nat.mul_left_comm] at h
    omega
  have hnext : ((4 * k + 3) * q : Nat) < ((k : Int) + 1) * quantaPerOne := by
    have hmul : (4 * k + 3) * q < 4 * (k + 1) * q :=
      Nat.mul_lt_mul_of_pos_right (by omega) (by omega)
    have hone : (k + 1) * quantaPerOne = 4 * (k + 1) * q := by
      rw [hone]
      ring
    rw [← hone] at hmul
    exact_mod_cast hmul
  cases mode with
  | truncate =>
    refine Int.le_trans (pixelOf_mono hle) (Int.lt_add_one_iff.mp ?_)
    rw [pixelOf, Int.tdiv_eq_ediv_of_nonneg (Int.natCast_nonneg _)]
    apply Int.ediv_lt_of_lt_mul hpos
    refine lt_of_le_of_lt (Int.ofNat_le.mpr ?_) hnext
    exact Nat.mul_le_mul_right q (by omega)
  | nearest =>
    have hsum : n + halfQuanta ≤ ((4 * k + 3) * q : Nat) := by
      rw [hhalf, show 4 * k + 3 = 4 * k + 1 + 2 from rfl, Nat.add_mul]
      omega
    have hdouble := hdouble (4 * k + 3) (by omega)
    have hround := nearestSigned_le (by rwa [Int.natAbs_natCast]) hsum
    exact Int.lt_add_one_iff.mp (Int.ediv_lt_of_lt_mul hpos (hround.trans_lt hnext))

private theorem natAbs_le_of_mul_le {n : Int}
    (h : (n * quantaPerOne).natAbs ≤ 2 ^ (48 : Nat) * quantaPerOne) :
    n.natAbs ≤ 2 ^ (48 : Nat) := by
  rw [Int.natAbs_mul, Int.natAbs_natCast] at h
  exact Nat.le_of_mul_le_mul_right h quantaPerOne_pos

theorem Double.isQuanta_ofInt {n : Int} (h : n.natAbs ≤ 2 ^ (51 : Nat)) :
    (ofInt n).IsQuanta (n * quantaPerOne) := by
  have hdouble := isDoubleQuanta_whole (k := n) (by omega)
  have hquanta := isQuanta_ofQuanta (hdouble.nearestQuanta_lt Nat.one_pos (Nat.mul_one _).ge)
  have hsign : n * quantaPerOne < 0 ↔ n < 0 := by
    have hmul := Int.mul_lt_mul_right quantaPerOne_cast_pos (b := n) (c := 0)
    rwa [Int.zero_mul] at hmul
  rw [nearestSigned_eq hdouble, Int.natAbs_mul, Int.natAbs_natCast] at hquanta
  simp only [hsign] at hquanta
  rwa [ofInt]

/-- One half is added to the multiples of a power of two either exactly or without effect on the
whole part. -/
theorem nearestQuanta_add_div {m k t : Nat} (hdvd : 2 ^ k ∣ m) (hlt : m < 2 ^ (53 + k)) (hk : k < t)
    (ht : t < 53 + k) (hbound : 53 + k ≤ 2045) :
    nearestQuanta (m + 2 ^ t) 1 / 2 ^ (t + 1) = (m + 2 ^ t) / 2 ^ (t + 1) := by
  rcases Nat.lt_or_ge (m + 2 ^ t) (2 ^ (53 + k)) with hin | hout
  · have hkept : 2 ^ k ∣ m + 2 ^ t := dvd_add hdvd (pow_dvd_pow 2 hk.le)
    rw [nearestQuanta_of_dvd ((pow_dvd_pow 2 (droppedBits_le hin)).trans hkept)]
  · -- the sum passes a power of two, which is a whole number, by less than one half
    obtain ⟨c, hc⟩ : 2 ^ (t + 1) ∣ 2 ^ (53 + k) := pow_dvd_pow 2 (by omega)
    have hdropped : 2 ^ droppedBits (m + 2 ^ t) ≤ 2 ^ t := by
      refine Nat.pow_le_pow_right Nat.two_pos (Nat.le_trans (droppedBits_le (k := k + 1) ?_) hk)
      have hpow : 2 ^ t ≤ 2 ^ (53 + k) := Nat.pow_le_pow_right Nat.two_pos ht.le
      rw [← Nat.add_assoc, Nat.pow_succ]
      omega
    have hfrom := (isDoubleQuanta_two_pow hbound).le_nearestQuanta hout
    have herror := (nearestQuanta_error (m + 2 ^ t)).1
    have hpos := Nat.two_pow_pos t
    rw [Nat.pow_succ, Nat.mul_comm] at hc
    rw [Nat.pow_succ]
    rw [Nat.div_eq_of_lt_le (k := c) (by omega) (by rw [Nat.add_mul]; omega),
      Nat.div_eq_of_lt_le (k := c) (by omega) (by rw [Nat.add_mul]; omega)]

private theorem nearestSigned_add_half_div {n : Int} {k : Nat} (hn : 0 ≤ n)
    (hdvd : 2 ^ k ∣ n.natAbs) (hlt : n.natAbs < 2 ^ (53 + k)) (hk : k < 1073)
    (hhalf : 1073 < 53 + k) :
    nearestSigned (n + halfQuanta) / quantaPerOne = (n + halfQuanta) / quantaPerOne := by
  obtain ⟨t, ht, hpow, hone⟩ := exists_exponent
  lift n to Nat using hn
  have hdiv := nearestQuanta_add_div (t := t) hdvd hlt (by omega) (by omega) (by omega)
  rw [← hpow, ← hone] at hdiv
  rw [nearestSigned_of_nonneg (by omega)]
  exact_mod_cast hdiv

private theorem le_droppedBits_of_one_le {m : Nat} (hle : quantaPerOne ≤ m) :
    1073 < 53 + droppedBits m := by
  obtain ⟨t, ht, -, hone⟩ := exists_exponent
  obtain ⟨l, hl⟩ : ∃ l, t + 1 = 52 + l := ⟨t - 51, by omega⟩
  rw [hone, hl] at hle
  have := le_droppedBits hle
  omega

private theorem droppedBits_lt_of_le {m : Nat} (hbound : m ≤ 2 ^ (48 : Nat) * quantaPerOne) :
    droppedBits m < 1073 ∧ 2 ^ droppedBits m ∣ quantaPerOne := by
  obtain ⟨t, ht, -, hone⟩ := exists_exponent
  obtain ⟨l, hl⟩ : ∃ l, t = 3 + l := ⟨t - 3, by omega⟩
  have hle : droppedBits m ≤ l := by
    refine droppedBits_le (hbound.trans_lt ?_)
    rw [hone, ← Nat.pow_add]
    exact Nat.pow_lt_pow_right Nat.one_lt_two (by omega)
  refine ⟨by omega, ?_⟩
  rw [hone]
  exact pow_dvd_pow 2 (by omega)

private theorem pixelOf_add_of_whole {e n : Int} (hdouble : IsDoubleQuanta e.natAbs) (hn : 0 ≤ n)
    (hle : n * quantaPerOne ≤ e) (hbound : e.natAbs ≤ 2 ^ (48 : Nat) * quantaPerOne) :
    pixelOf mode (n * quantaPerOne) + pixelOf mode (nearestSigned (e - n * quantaPerOne)) =
      pixelOf mode e := by
  have hpos := quantaPerOne_cast_pos
  rcases hn.eq_or_lt with rfl | hn
  · rw [pixelOf_whole (by decide), Int.zero_mul, Int.sub_zero,
      nearestSigned_eq hdouble, Int.zero_add]
  · have hone_le : (quantaPerOne : Int) ≤ n * quantaPerOne := by
      have hmul := Int.mul_le_mul_of_nonneg_right (show (1 : Int) ≤ n by omega) hpos.le
      rwa [Int.one_mul] at hmul
    have hwhole := natAbs_le_of_mul_le (n := n) (by omega)
    have hlow := le_droppedBits_of_one_le (m := e.natAbs) (by omega)
    obtain ⟨hhigh, hunit⟩ := droppedBits_lt_of_le hbound
    have hdvd : 2 ^ droppedBits e.natAbs ∣ (e - n * quantaPerOne).natAbs :=
      Int.natCast_dvd.mp
        (Int.dvd_sub (Int.natCast_dvd.mpr hdouble.dvd)
          ((Int.natCast_dvd_natCast.mpr hunit).mul_left n))
    have hlt : (e - n * quantaPerOne).natAbs < 2 ^ (53 + droppedBits e.natAbs) :=
      (lt_two_pow_droppedBits e.natAbs).trans_le' (by omega)
    have hexact : nearestSigned (e - n * quantaPerOne) = e - n * quantaPerOne :=
      nearestSigned_eq (isDoubleQuanta_of_dvd hdvd hlt (by omega))
    rw [pixelOf_whole (hwhole.trans (by decide)), hexact]
    cases mode with
    | truncate =>
      have hsplit := Int.add_mul_ediv_right (e - n * quantaPerOne) n hpos.ne'
      rw [Int.sub_add_cancel] at hsplit
      rw [pixelOf, pixelOf, Int.tdiv_eq_ediv_of_nonneg (by omega),
        Int.tdiv_eq_ediv_of_nonneg (by omega), hsplit]
      omega
    | nearest =>
      have hsplit := Int.add_mul_ediv_right (e - n * quantaPerOne + halfQuanta) n hpos.ne'
      have hmoved : e - n * quantaPerOne + halfQuanta + n * quantaPerOne =
        e + halfQuanta := by omega
      rw [pixelOf, pixelOf, nearestSigned_add_half_div (by omega) hdvd hlt hhigh hlow,
        nearestSigned_add_half_div (by omega) hdouble.dvd (lt_two_pow_droppedBits _) hhigh hlow,
        ← hmoved, hsplit]
      omega

private theorem pixelOf_add_of_whole_end {m n : Int} (hm : m.natAbs ≤ 2 ^ (48 : Nat))
    (hn : n.natAbs ≤ 2 ^ (48 : Nat)) :
    pixelOf mode (n * quantaPerOne) +
      pixelOf mode (nearestSigned (m * quantaPerOne - n * quantaPerOne)) =
      pixelOf mode (m * quantaPerOne) := by
  rw [← Int.sub_mul, nearestSigned_eq (isDoubleQuanta_whole (by omega)), pixelOf_whole (by omega),
    pixelOf_whole (by omega), pixelOf_whole (by omega)]
  omega

/-- Counted from a whole number, a distance and its start meet the pixel of the end, if the start is
not negative or the end is a whole number too. -/
theorem pixelOf_add_of_dvd {e p : Int} (he : IsDoubleQuanta e.natAbs) (hle : p ≤ e)
    (hbe : e.natAbs ≤ 2 ^ (48 : Nat) * quantaPerOne)
    (hbp : p.natAbs ≤ 2 ^ (48 : Nat) * quantaPerOne) (hwhole : (quantaPerOne : Int) ∣ p)
    (hside : 0 ≤ p ∨ (quantaPerOne : Int) ∣ e) :
    pixelOf mode p + pixelOf mode (nearestSigned (e - p)) = pixelOf mode e := by
  obtain ⟨n, rfl⟩ := exists_eq_mul_left_of_dvd hwhole
  rcases hside with hnonneg | hend
  · exact pixelOf_add_of_whole he (Int.nonneg_of_mul_nonneg_left hnonneg quantaPerOne_cast_pos) hle
      hbe
  · obtain ⟨m, rfl⟩ := exists_eq_mul_left_of_dvd hend
    exact pixelOf_add_of_whole_end (natAbs_le_of_mul_le hbe) (natAbs_le_of_mul_le hbp)

private theorem nearestSigned_near {n : Int} (hn : n.natAbs < 2 ^ (50 : Nat) * quantaPerOne) :
    8 * nearestSigned n ≤ 8 * n + halfQuanta ∧ 8 * n ≤ 8 * nearestSigned n + halfQuanta := by
  obtain ⟨t, ht, hhalf, hone⟩ := exists_exponent
  obtain ⟨l, rfl⟩ : ∃ l, t = 2 + l := ⟨t - 2, by omega⟩
  have hdropped : droppedBits n.natAbs ≤ l := by
    refine droppedBits_le (hn.trans_le ?_)
    rw [hone, ← Nat.pow_add]
    exact Nat.pow_le_pow_right Nat.two_pos (by omega)
  have hpow := Nat.pow_le_pow_right Nat.two_pos hdropped
  have herror := nearestSigned_error n
  rw [Nat.pow_add] at hhalf
  zify at hpow hhalf
  omega

private theorem pixelOf_nearest_near {n : Int} (hn : n.natAbs ≤ 2 ^ (49 : Nat) * quantaPerOne) :
    8 * (pixelOf .nearest n * quantaPerOne) ≤ 8 * n + 9 * halfQuanta ∧
      8 * n < 8 * (pixelOf .nearest n * quantaPerOne) + 9 * halfQuanta := by
  have hpos := quantaPerOne_cast_pos
  have hnear :=
    nearestSigned_near (n := n + halfQuanta) (by rw [quantaPerOne_eq] at hn hpos ⊢; omega)
  have hfloor := Int.ediv_mul_le (nearestSigned (n + halfQuanta)) hpos.ne'
  have hnext := Int.lt_ediv_add_one_mul_self (nearestSigned (n + halfQuanta)) hpos
  rw [Int.add_mul, Int.one_mul] at hnext
  rw [quantaPerOne_cast] at hfloor hnext ⊢
  simp only [pixelOf, quantaPerOne_cast]
  omega

theorem nearestSigned_sub_bounds {e p : Int} (hle : p ≤ e)
    (he : e.natAbs ≤ 2 ^ (48 : Nat) * quantaPerOne)
    (hp : p.natAbs ≤ 2 ^ (48 : Nat) * quantaPerOne) :
    0 ≤ nearestSigned (e - p) ∧ (nearestSigned (e - p)).natAbs ≤ 2 ^ (49 : Nat) * quantaPerOne := by
  obtain ⟨t, ht, -, hone⟩ := exists_exponent
  rw [hone, ← Nat.pow_add] at he hp ⊢
  refine ⟨le_nearestSigned isDoubleQuanta_zero (by omega), nearestSigned_natAbs_le ?_ (by omega)⟩
  have hdouble : 2 ^ (48 + (t + 1) + 1) = 2 * 2 ^ (48 + (t + 1)) := Nat.pow_succ'
  rw [show 49 + (t + 1) = 48 + (t + 1) + 1 by omega, hdouble]
  omega

theorem Double.IsQuanta.sub_of_le {x y : Double} {e p : Int} (hx : x.IsQuanta e) (hy : y.IsQuanta p)
    (hle : p ≤ e) (he : e.natAbs ≤ 2 ^ (48 : Nat) * quantaPerOne)
    (hp : p.natAbs ≤ 2 ^ (48 : Nat) * quantaPerOne) :
    (x - y).IsQuanta (nearestSigned (e - p)) :=
  hx.sub hy
    ((isDoubleQuanta_mul_quantaPerOne (n := 2 ^ (49 : Nat)) (by decide)).nearestQuanta_lt
      Nat.one_pos (by omega))

private theorem nearest_add_error {e p : Int} (hle : p ≤ e)
    (he : e.natAbs ≤ 2 ^ (48 : Nat) * quantaPerOne)
    (hp : p.natAbs ≤ 2 ^ (48 : Nat) * quantaPerOne) :
    (pixelOf .nearest p + pixelOf .nearest (nearestSigned (e - p)) - pixelOf .nearest e).natAbs ≤
      1 := by
  have hstart := pixelOf_nearest_near (n := p) (by omega)
  have hend := pixelOf_nearest_near (n := e) (by omega)
  have hlength := pixelOf_nearest_near (nearestSigned_sub_bounds hle he hp).2
  have hrounded := nearestSigned_near (n := e - p) (by have := quantaPerOne_pos; omega)
  have hhalf := halfQuanta_pos
  rw [quantaPerOne_cast] at hstart hend hlength
  -- each pixel is at most five eighths away and the distance is rounded by at most one sixteenth,
  -- together less than two
  generalize pixelOf .nearest p = a at hstart ⊢
  generalize pixelOf .nearest e = c at hend ⊢
  generalize pixelOf .nearest (nearestSigned (e - p)) = b at hlength ⊢
  have hlow : -2 * (2 * (halfQuanta : Int)) < (a + b - c) * (2 * halfQuanta) := by
    rw [Int.sub_mul, Int.add_mul]
    omega
  have hhigh : (a + b - c) * (2 * halfQuanta) < 2 * (2 * (halfQuanta : Int)) := by
    rw [Int.sub_mul, Int.add_mul]
    omega
  have := Int.lt_of_mul_lt_mul_right hlow (by omega)
  have := Int.lt_of_mul_lt_mul_right hhigh (by omega)
  omega

private theorem tdiv_bounds_of_nonneg {n u : Int} (hu : 0 < u) (hn : 0 ≤ n) :
    0 ≤ n.tdiv u ∧ n.tdiv u * u ≤ n ∧ n < n.tdiv u * u + u := by
  have hnext := Int.lt_ediv_add_one_mul_self n hu
  rw [Int.add_mul, Int.one_mul] at hnext
  rw [Int.tdiv_eq_ediv_of_nonneg hn]
  exact ⟨Int.ediv_nonneg hn hu.le, Int.ediv_mul_le n hu.ne', hnext⟩

private theorem tdiv_bounds_of_nonpos {n u : Int} (hu : 0 < u) (hn : n ≤ 0) :
    n.tdiv u ≤ 0 ∧ n ≤ n.tdiv u * u ∧ n.tdiv u * u - u < n := by
  have hneg := tdiv_bounds_of_nonneg hu (show 0 ≤ -n by omega)
  rw [Int.neg_tdiv, Int.neg_mul] at hneg
  omega

/-- Cut down to whole numbers, two doubles lose less than two from their sum, and rounding the sum
does not restore them. -/
private theorem nearestQuanta_add_lt {m n : Nat} (hn : IsDoubleQuanta n)
    (hmn : droppedBits m ≤ droppedBits n) (hunit : 2 ^ droppedBits n ∣ quantaPerOne) :
    nearestQuanta (m + n) 1 < (m / quantaPerOne + n / quantaPerOne + 2) * quantaPerOne := by
  have hdropped : 2 ^ droppedBits (m + n) ≤ 2 * 2 ^ droppedBits n := by
    rw [← Nat.pow_succ']
    refine Nat.pow_le_pow_right Nat.two_pos (droppedBits_le ?_)
    have hpow : 2 ^ (53 + droppedBits m) ≤ 2 ^ (53 + droppedBits n) :=
      Nat.pow_le_pow_right Nat.two_pos (by omega)
    have := lt_two_pow_droppedBits m
    have := lt_two_pow_droppedBits n
    rw [Nat.succ_eq_add_one, ← Nat.add_assoc, Nat.pow_succ]
    omega
  -- up to its next whole number `n` lacks a digit that it keeps, and that is as much as the sum is
  -- rounded up
  have herror := (nearestQuanta_error (m + n)).1
  have hnextM := Nat.lt_mul_div_succ m quantaPerOne_pos
  have hnextN := Nat.lt_mul_div_succ n quantaPerOne_pos
  have hgap :=
    Nat.le_of_dvd (by omega) (Nat.dvd_sub (hunit.mul_right (n / quantaPerOne + 1)) hn.dvd)
  rw [Nat.add_mul, Nat.add_mul, Nat.mul_comm (m / _), Nat.mul_comm (n / _)]
  rw [Nat.mul_add, Nat.mul_one] at hnextM hgap
  omega

private theorem nearestSigned_sub_lt_across {e p : Int} (he : IsDoubleQuanta e.natAbs)
    (hp : IsDoubleQuanta p.natAbs) (hbe : e.natAbs ≤ 2 ^ (48 : Nat) * quantaPerOne)
    (hbp : p.natAbs ≤ 2 ^ (48 : Nat) * quantaPerOne) (hneg : p < 0) (hpos : 0 < e) :
    nearestSigned (e - p) < (e.tdiv quantaPerOne - p.tdiv quantaPerOne + 2) * quantaPerOne := by
  have hsum : (e - p).natAbs = e.natAbs + p.natAbs := by omega
  have hend : e.tdiv quantaPerOne = (e.natAbs / quantaPerOne : Nat) := by
    rw [Int.natCast_ediv, Int.natAbs_of_nonneg hpos.le, Int.tdiv_eq_ediv_of_nonneg hpos.le]
  have hstart : p.tdiv quantaPerOne = -(p.natAbs / quantaPerOne : Nat) := by
    rw [Int.natCast_ediv, Int.ofNat_natAbs_of_nonpos hneg.le,
      ← Int.tdiv_eq_ediv_of_nonneg (by omega), Int.neg_tdiv, Int.neg_neg]
  rw [nearestSigned_of_nonneg (by omega), hsum, hend, hstart, Int.sub_neg]
  rcases Nat.le_total (droppedBits p.natAbs) (droppedBits e.natAbs) with h | h
  · have hlt := nearestQuanta_add_lt he h (droppedBits_lt_of_le hbe).2
    rw [Nat.add_comm p.natAbs, Nat.add_comm (p.natAbs / _)] at hlt
    exact_mod_cast hlt
  · exact_mod_cast nearestQuanta_add_lt hp h (droppedBits_lt_of_le hbp).2

private theorem natAbs_tdiv_le {n : Int} (h : n.natAbs ≤ 2 ^ (48 : Nat) * quantaPerOne) :
    (n.tdiv quantaPerOne).natAbs ≤ 2 ^ (48 : Nat) := by
  rw [Int.natAbs_tdiv, Int.natAbs_natCast]
  exact Nat.div_le_of_le_mul (by rwa [Nat.mul_comm])

/-- Cutting down moves both ends of a distance towards zero, on one side of it by nearly the
same. -/
private theorem sub_tdiv_bounds {e p u : Int} (hu : 0 < u) (hle : p ≤ e) :
    (e.tdiv u - p.tdiv u - 1) * u ≤ e - p ∧
    (p < 0 ∧ 0 < e ∨ e - p ≤ (e.tdiv u - p.tdiv u + 1) * u) := by
  simp only [Int.sub_mul, Int.add_mul, Int.one_mul]
  rcases Int.lt_or_le p 0 with hneg | hneg
  · have hstart := tdiv_bounds_of_nonpos hu hneg.le
    rcases Int.lt_or_le 0 e with hpos | hpos
    · have hend := tdiv_bounds_of_nonneg hu hpos.le
      exact ⟨by omega, .inl ⟨hneg, hpos⟩⟩
    · have hend := tdiv_bounds_of_nonpos hu hpos
      exact ⟨by omega, .inr (by omega)⟩
  · have hstart := tdiv_bounds_of_nonneg hu hneg
    have hend := tdiv_bounds_of_nonneg hu (hneg.trans hle)
    exact ⟨by omega, .inr (by omega)⟩

private theorem truncate_add_error {e p : Int} (he : IsDoubleQuanta e.natAbs)
    (hp : IsDoubleQuanta p.natAbs) (hle : p ≤ e) (hbe : e.natAbs ≤ 2 ^ (48 : Nat) * quantaPerOne)
    (hbp : p.natAbs ≤ 2 ^ (48 : Nat) * quantaPerOne) :
    (pixelOf .truncate p + pixelOf .truncate (nearestSigned (e - p)) - pixelOf .truncate e).natAbs ≤
      1 := by
  have hpos := quantaPerOne_cast_pos
  have hdistance := (nearestSigned_sub_bounds hle hbe hbp).1
  have hend := natAbs_tdiv_le hbe
  have hstart := natAbs_tdiv_le hbp
  obtain ⟨hlow, hhigh⟩ := sub_tdiv_bounds hpos hle
  have hlow' := le_nearestSigned (isDoubleQuanta_whole (by omega)) hlow
  have hhigh' : nearestSigned (e - p) < (e.tdiv quantaPerOne - p.tdiv quantaPerOne + 2) *
      quantaPerOne := by
    rcases hhigh with ⟨hp0, he0⟩ | hhigh
    · exact nearestSigned_sub_lt_across he hp hbe hbp hp0 he0
    · refine (nearestSigned_le (isDoubleQuanta_whole (by omega)) hhigh).trans_lt ?_
      exact Int.mul_lt_mul_of_pos_right (by omega) hpos
  have := (Int.le_ediv_iff_mul_le hpos).mpr hlow'
  have := (Int.ediv_lt_iff_lt_mul hpos).mpr hhigh'
  simp only [pixelOf]
  rw [Int.tdiv_eq_ediv_of_nonneg hdistance]
  omega

/-- A distance between two doubles and its start miss the pixel of the end by at most one. -/
theorem pixelOf_add_error {e p : Int} (he : IsDoubleQuanta e.natAbs) (hp : IsDoubleQuanta p.natAbs)
    (hle : p ≤ e) (hbe : e.natAbs ≤ 2 ^ (48 : Nat) * quantaPerOne)
    (hbp : p.natAbs ≤ 2 ^ (48 : Nat) * quantaPerOne) :
    (pixelOf mode p + pixelOf mode (nearestSigned (e - p)) - pixelOf mode e).natAbs ≤ 1 := by
  cases mode with
  | truncate => exact truncate_add_error he hp hle hbe hbp
  | nearest => exact nearest_add_error hle hbe hbp

end Pixel

end PanelLayout
