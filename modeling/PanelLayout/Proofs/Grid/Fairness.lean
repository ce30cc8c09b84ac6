import PanelLayout.Proofs.Double.Sharing
import PanelLayout.Proofs.Grid.Alignment
import PanelLayout.Proofs.Grid.Operations

/-!
# Equal weights

Two tracks of the same weight start and end at boundaries that are rounded one by one. How far their
lengths are from what the weight stands for, and so from each other, follows from how far each
boundary can be from its exact place.
-/

namespace PanelLayout

attribute [local instance (high)] instPowNat

section Lengths

variable {n n' d t : Int}

/-- Whether a whole number is little more than one away from a quotient at most. -/
def IsNear (n d t : Int) : Prop :=
  2 ^ (30 : Nat) * (n * t) < 2 ^ (30 : Nat) * d + (2 ^ (30 : Nat) + 1) * t ∧
    2 ^ (30 : Nat) * d < 2 ^ (30 : Nat) * (n * t) + (2 ^ (30 : Nat) + 1) * t

private theorem sub_lt_of_mul_lt {k : Int} (ht : 0 < t) (h : n * t < n' * t + k * t) :
    n - n' < k := by
  rw [← Int.add_mul] at h
  have := Int.lt_of_mul_lt_mul_right h ht.le
  omega

theorem IsNear.abs_sub_le (ht : 0 < t) (hn : IsNear n d t) (hn' : IsNear n' d t) :
    |n - n'| ≤ 2 := by
  obtain ⟨hhigh, hlow⟩ := hn
  obtain ⟨hhigh', hlow'⟩ := hn'
  have hbelow : n - n' < 3 := sub_lt_of_mul_lt ht (by omega)
  have habove : n' - n < 3 := sub_lt_of_mul_lt ht (by omega)
  rw [abs_le]
  omega

theorem abs_sub_le_one (ht : 0 < t) (hn : n * t < d + t ∧ d < n * t + t)
    (hn' : n' * t < d + t ∧ d < n' * t + t) :
    |n - n'| ≤ 1 := by
  have hbelow : n - n' < 2 := sub_lt_of_mul_lt ht (by omega)
  have habove : n' - n < 2 := sub_lt_of_mul_lt ht (by omega)
  rw [abs_le]
  omega

/-- Where the quotient keeps clear of whole numbers, only its two whole neighbours are near. -/
theorem IsNear.bounds (ht : 0 < t) (hn : IsNear n d t)
    (hclear : ∀ i : Int, t ≤ 2 ^ (30 : Nat) * |d - i * t|) :
    d / t ≤ n ∧ n ≤ d / t + 1 := by
  obtain ⟨hhigh, hlow⟩ := hn
  have hdiv := Int.ediv_mul_add_emod d t
  have hmod := Int.emod_nonneg d ht.ne'
  have hlt := Int.emod_lt_of_pos d ht
  have hbelow := hclear (d / t)
  have habove := hclear (d / t + 1)
  rw [Int.add_mul, Int.one_mul, abs_of_nonpos (by omega)] at habove
  rw [abs_of_nonneg (by omega)] at hbelow
  have hless : d / t - n < 1 := sub_lt_of_mul_lt ht (by omega)
  have hmore : n - d / t < 2 := sub_lt_of_mul_lt ht (by omega)
  omega

end Lengths

/-- Rounded boundaries of a track are near what its weight stands for. The length is shared in parts
of `t`, of which `p` come before the track, `w` are its own, and `p'` come before the next one after
rounding. -/
theorem isNear_of_rounded {u p p' w t i j : Nat} (hu : u < 2 ^ (20 : Nat)) (hp : p ≤ t)
    (hp' : p' ≤ t) (hsum : p' = nearestQuanta (p + w) 1)
    (hi : nearestQuanta (u * p) 1 < (i + 1) * t ∧ 2 ^ (32 : Nat) * (i * t) <
      2 ^ (32 : Nat) * nearestQuanta (u * p) 1 + t)
    (hj : nearestQuanta (u * p') 1 < (j + 1) * t ∧ 2 ^ (32 : Nat) * (j * t) <
      2 ^ (32 : Nat) * nearestQuanta (u * p') 1 + t) :
    IsNear (max ((j : Int) - i) 0) (u * w) t := by
  have hproduct := nearestQuanta_le_relative (u * p)
  have hproduct' := nearestQuanta_le_relative (u * p')
  have hback := le_nearestQuanta_relative (u * p)
  have hback' := le_nearestQuanta_relative (u * p')
  have hmore : 2 ^ (53 : Nat) * (u * p') ≤ (2 ^ (53 : Nat) + 1) * (u * p + u * w) := by
    rw [← Nat.mul_add, Nat.mul_left_comm, Nat.mul_left_comm _ u, hsum]
    exact Nat.mul_le_mul_left u (nearestQuanta_le_relative _)
  have hless : 2 ^ (53 : Nat) * (u * p + u * w) ≤ 2 ^ (53 : Nat) * (u * p') + (u * p + u * w) := by
    rw [← Nat.mul_add, Nat.mul_left_comm, Nat.mul_left_comm _ u, ← Nat.mul_add, hsum]
    exact Nat.mul_le_mul_left u (le_nearestQuanta_relative _)
  have hle : u * p ≤ 2 ^ (20 : Nat) * t := Nat.mul_le_mul hu.le hp
  have hle' : u * p' ≤ 2 ^ (20 : Nat) * t := Nat.mul_le_mul hu.le hp'
  rw [Nat.add_mul, Nat.one_mul] at hi hj
  rw [IsNear]
  rcases Nat.le_total i j with hij | hji
  · rw [Int.max_eq_left (by omega), Int.sub_mul]
    omega
  · have hreach := Nat.mul_le_mul_right t hji
    rw [Int.max_eq_right (by omega), Int.zero_mul]
    omega

theorem nearestQuanta_add_of_dvd {p w t e : Nat} (hp : 2 ^ e ∣ p) (hw : 2 ^ e ∣ w)
    (ht : t ≤ 2 ^ (32 : Nat) * 2 ^ e) (hle : nearestQuanta (p + w) 1 ≤ t) :
    nearestQuanta (p + w) 1 = p + w := by
  have hrounded := le_nearestQuanta_relative (p + w)
  have hlt : p + w < 2 ^ (53 + e) := by
    have := Nat.two_pow_pos e
    rw [Nat.pow_add]
    omega
  exact nearestQuanta_of_dvd ((pow_dvd_pow 2 (droppedBits_le hlt)).trans (Nat.dvd_add hp hw))

theorem exact_of_dvd {u p t e pixel : Nat} (hu : u < 2 ^ (20 : Nat)) (hp : 2 ^ e ∣ p)
    (hdvd : 2 ^ e ∣ t) (ht : t ≤ 2 ^ (32 : Nat) * 2 ^ e) (hle : p ≤ t)
    (hpixel : nearestQuanta (u * p) 1 < (pixel + 1) * t ∧ 2 ^ (32 : Nat) * (pixel * t) <
      2 ^ (32 : Nat) * nearestQuanta (u * p) 1 + t) :
    pixel * t ≤ u * p ∧ u * p < (pixel + 1) * t := by
  have hpos := Nat.two_pow_pos e
  have hlt : u * p < 2 ^ (53 + e) := by
    calc u * p ≤ 2 ^ (20 : Nat) * (2 ^ (32 : Nat) * 2 ^ e) := Nat.mul_le_mul hu.le (hle.trans ht)
      _ < 2 ^ (53 + e) := by
        rw [Nat.pow_add]
        omega
  rw [nearestQuanta_of_dvd ((pow_dvd_pow 2 (droppedBits_le hlt)).trans (Dvd.dvd.mul_left hp u))]
    at hpixel
  refine ⟨?_, hpixel.1⟩
  -- both sides are multiples of the power of two, and they differ by less than one of it
  obtain ⟨part, rfl⟩ := hp
  obtain ⟨whole, rfl⟩ := hdvd
  rw [Nat.mul_left_comm pixel, Nat.mul_left_comm u] at hpixel ⊢
  have hclose := hpixel.2
  rw [Nat.mul_left_comm, Nat.mul_left_comm _ (2 ^ e), ← Nat.mul_add] at hclose
  have hless := Nat.lt_of_mul_lt_mul_left hclose
  have hwhole : whole ≤ 2 ^ (32 : Nat) :=
    Nat.le_of_mul_le_mul_left (by rwa [Nat.mul_comm (2 ^ e) (2 ^ (32 : Nat))]) hpos
  exact Nat.mul_le_mul_left _ (by omega)

theorem Double.IsQuanta.eq_quanta {x : Double} {n : Nat} (h : x.IsQuanta n) {m : Magnitude}
    (hx : x = .finite false m) :
    n = m.quanta := Int.ofNat.inj (h.unique ⟨false, m, hx, rfl⟩)

namespace GridAxis

variable {a : GridAxis} {count k : Nat} {usable : Int}

/-- Whether up to a million pixels are shared out among tracks whose weights add up to a double, and
the share of all tracks but the last one is not too large for a double either. -/
structure Apportions (a : GridAxis) (count : Nat) (usable : Int) : Prop where
  nonneg : 0 ≤ usable
  le : usable ≤ 1000000
  total : (a.weightTotal count).isFinite = true
  inRange : a.share count usable (count - 1) ≠ .ok (.double (.infinite false))

/-- Whether all weights are multiples of one power of two that makes up the total in at most `2³²`
steps. -/
def HasCoarseWeights (a : GridAxis) (count : Nat) : Prop :=
  ∃ e : Nat, (∀ track < count, ∃ c : Nat, (a.weight (.int track)).IsQuanta (c * 2 ^ e : Nat)) ∧
    ∃ c ≤ 2 ^ (32 : Nat), (a.weightTotal count).IsQuanta (c * 2 ^ e : Nat)

/-- Whether the exact length of a track is no closer to a whole number of pixels than by a part in
`2³⁰`. -/
def ClearsPixels (a : GridAxis) (count : Nat) (usable : Int) (track : Number) : Prop :=
  ∀ w t : Int, (a.weight track).IsQuanta w → (a.weightTotal count).IsQuanta t →
    ∀ pixel : Int, t ≤ 2 ^ (30 : Nat) * |usable * w - pixel * t|

namespace HasPositiveWeights

theorem exists_total (h : a.HasPositiveWeights) (hcount : 0 < count)
    (htotal : (a.weightTotal count).isFinite = true) :
    ∃ t, a.weightTotal count = .finite false t ∧ 0 < t.quanta := by
  rcases h.weightTotal_pos hcount with hinfinite | hfinite
  · rw [hinfinite] at htotal
    cases htotal
  · exact hfinite

theorem exists_part (h : a.HasPositiveWeights) {t : Magnitude}
    (ht : a.weightTotal count = .finite false t) (hk : k ≤ count) :
    ∃ part, a.weightTotal k = .finite false part ∧ part.quanta ≤ t.quanta := by
  rcases Nat.eq_zero_or_pos k with rfl | hpos
  · exact ⟨_, rfl, Nat.zero_le _⟩
  · have hle := h.weightTotal_le hpos hk
    rw [ht] at hle
    obtain ⟨part, hpart, -, hquanta⟩ := (h.weightTotal_pos hpos).finite_of_le hle
    exact ⟨part, hpart, hquanta⟩

theorem exists_weight (h : a.HasPositiveWeights) {part part' : Magnitude}
    (hpart : a.weightTotal k = .finite false part)
    (hpart' : a.weightTotal (k + 1) = .finite false part') :
    ∃ w, a.weight (.int k) = .finite false w ∧
    part'.quanta = nearestQuanta (part.quanta + w.quanta) 1 := by
  rw [weightTotal_succ, hpart] at hpart'
  rcases h.weight (.int k) with hinfinite | ⟨w, hw, hpos⟩
  · rw [hinfinite] at hpart'
    cases hpart'
  · rw [hw, Double.add_of_quanta_pos part hpos] at hpart'
    exact ⟨w, hw, Double.quanta_of_ofQuanta hpart'⟩

theorem boundary_bounds (h : a.HasPositiveWeights) {u : Nat} (happortions : a.Apportions count u)
    {t part : Magnitude} (ht : a.weightTotal count = .finite false t) (hpos : 0 < t.quanta)
    (hk : k ≤ count) (hpart : a.weightTotal k = .finite false part) (hle : part.quanta ≤ t.quanta)
    {p : Int} (hp : a.EndsAtPixel .truncate count u k p) :
    ∃ pixel : Nat, p = pixel ∧ nearestQuanta (u * part.quanta) 1 < (pixel + 1) * t.quanta ∧
      2 ^ (32 : Nat) * (pixel * t.quanta) < 2 ^ (32 : Nat) * nearestQuanta (u * part.quanta) 1 +
        t.quanta := by
  have hu : u < 2 ^ (20 : Nat) := by
    have := happortions.le
    omega
  rcases Nat.lt_or_eq_of_le hk with hlt | rfl
  · rcases Nat.eq_zero_or_pos k with rfl | hk
    · obtain ⟨-, rfl⟩ := Double.finite.inj hpart
      refine ⟨0, h.endsAtPixel_zero hlt hp, ?_⟩
      rw [Nat.mul_zero, nearestQuanta_zero]
      omega
    · have hcount : 0 < count := by omega
      obtain ⟨x, hx, rfl⟩ := (h.endsAtPixel_iff hlt).mp hp
      obtain ⟨z, hz, heq⟩ := (h.share_eq_ok_iff hcount hk).mp hx
      have hrange : x ≠ .infinite false := by
        rintro rfl
        obtain ⟨y, hy⟩ := h.exists_share hcount ⟨z, hz⟩ (count - 1)
        have hgrows := h.share_grows (by omega) (by omega) hx hy
        rw [decide_eq_false (by omega)] at hgrows
        rw [hgrows.infinite rfl] at hy
        exact happortions.inRange hy
      obtain ⟨m, hm, hquanta⟩ := Number.Fits.toDouble_int ⟨z, hz⟩
      obtain rfl := Except.ok.inj (hm.symm.trans hz)
      rw [Int.natAbs_natCast, (isDoubleQuanta_mul_quantaPerOne (by omega)).nearestQuanta_eq]
        at hquanta
      rw [Number.double.inj heq, decide_eq_false (by omega), hpart, ht] at hrange ⊢
      exact Double.exists_pixel_share hquanta hu hle hpos hrange
  · -- the last boundary is the length itself, and its product is hardly rounded
    obtain ⟨-, rfl⟩ := Double.finite.inj (hpart.symm.trans ht)
    refine ⟨u, hp.unique (endsAtPixel_all (Nat.le_refl _)), ?_⟩
    have hmore := nearestQuanta_le_relative (u * part.quanta)
    have hless := le_nearestQuanta_relative (u * part.quanta)
    have hbound : u * part.quanta ≤ 2 ^ (20 : Nat) * part.quanta := Nat.mul_le_mul_right _ hu.le
    rw [Nat.add_mul, Nat.one_mul]
    omega

/-- Sums of coarse weights are multiples of the same power of two: rounding does not change them. -/
theorem dvd_part (h : a.HasPositiveWeights) {t : Magnitude}
    (ht : a.weightTotal count = .finite false t) {e : Nat}
    (hdvd : ∀ track < count, ∃ c : Nat, (a.weight (.int track)).IsQuanta (c * 2 ^ e : Nat))
    (hle : t.quanta ≤ 2 ^ (32 : Nat) * 2 ^ e) (hk : k ≤ count) {part : Magnitude}
    (hpart : a.weightTotal k = .finite false part) : 2 ^ e ∣ part.quanta := by
  induction k generalizing part with
  | zero =>
    obtain ⟨-, rfl⟩ := Double.finite.inj hpart
    exact Nat.dvd_zero _
  | succ k ih =>
    obtain ⟨before, hbefore, -⟩ := h.exists_part ht (show k ≤ count by omega)
    obtain ⟨w, hw, hsum⟩ := h.exists_weight hbefore hpart
    obtain ⟨after, hafter, hbound⟩ := h.exists_part ht hk
    obtain ⟨-, rfl⟩ := Double.finite.inj (hafter.symm.trans hpart)
    obtain ⟨c, hc⟩ := hdvd k hk
    have hweight : 2 ^ e ∣ w.quanta := Dvd.intro_left c (hc.eq_quanta hw)
    rw [hsum] at hbound ⊢
    rw [nearestQuanta_add_of_dvd (ih (by omega) hbefore) hweight hle hbound]
    exact Nat.dvd_add (ih (by omega) hbefore) hweight

/-- The length of a track is near what its weight stands for, and less than a pixel from it if
weights are coarse. -/
theorem length_near (h : a.HasPositiveWeights) (happortions : a.Apportions count usable)
    (hk : k < count) {i j : Int} (hi : a.EndsAtPixel .truncate count usable k i)
    (hj : a.EndsAtPixel .truncate count usable (k + 1) j) :
    ∃ w t : Int, (a.weight (.int k)).IsQuanta w ∧ (a.weightTotal count).IsQuanta t ∧ 0 < t ∧
      IsNear (max (j - i) 0) (usable * w) t ∧
      (a.HasCoarseWeights count → max (j - i) 0 * t < usable * w + t ∧
        usable * w < max (j - i) 0 * t + t) := by
  obtain ⟨t, ht, hpos⟩ := h.exists_total (by omega) happortions.total
  obtain ⟨part, hpart, hle⟩ := h.exists_part ht hk.le
  obtain ⟨part', hpart', hle'⟩ := h.exists_part ht hk
  obtain ⟨w, hw, hsum⟩ := h.exists_weight hpart hpart'
  lift usable to Nat using happortions.nonneg
  have hu : usable < 2 ^ (20 : Nat) := by
    have := happortions.le
    omega
  obtain ⟨first, rfl, hfirst⟩ := h.boundary_bounds happortions ht hpos hk.le hpart hle hi
  obtain ⟨last, rfl, hlast⟩ := h.boundary_bounds happortions ht hpos hk hpart' hle' hj
  refine ⟨w.quanta, t.quanta, ⟨false, w, hw, rfl⟩, ⟨false, t, ht, rfl⟩, by omega,
    isNear_of_rounded hu hle hle' hsum hfirst hlast, fun ⟨e, hweights, c, hc, htotal⟩ => ?_⟩
  have hwhole := htotal.eq_quanta ht
  have hcoarse : t.quanta ≤ 2 ^ (32 : Nat) * 2 ^ e := hwhole ▸ Nat.mul_le_mul_right _ hc
  have hdvd : 2 ^ e ∣ t.quanta := hwhole ▸ Nat.dvd_mul_left _ c
  have hdvdpart := h.dvd_part ht hweights hcoarse hk.le hpart
  have hdvdpart' := h.dvd_part ht hweights hcoarse hk hpart'
  have hexact := exact_of_dvd hu hdvdpart hdvd hcoarse hle hfirst
  have hexact' := exact_of_dvd hu hdvdpart' hdvd hcoarse hle' hlast
  obtain ⟨d, hd⟩ := hweights k hk
  have hdvdweight : 2 ^ e ∣ w.quanta := Dvd.intro_left d (hd.eq_quanta hw)
  rw [hsum, nearestQuanta_add_of_dvd hdvdpart hdvdweight hcoarse (hsum ▸ hle'), Nat.mul_add]
    at hexact'
  rw [Nat.add_mul, Nat.one_mul] at hexact hexact'
  rcases Nat.le_total first last with hij | hji
  · rw [Int.max_eq_left (by omega), Int.sub_mul]
    omega
  · have hreach := Nat.mul_le_mul_right t.quanta hji
    rw [Int.max_eq_right (by omega), Int.zero_mul]
    omega

theorem span_fair (h : a.HasPositiveWeights) {start available margin i j x n y m : Int}
    (hcount : wholeTracks a.count = .ok count) (hi : a.has (.int i) = true)
    (hj : a.has (.int j) = true)
    (happortions : a.Apportions count (GridAxis.usable available margin count))
    (hweight : a.weight (.int i) = a.weight (.int j))
    (hp : (a.span .truncate (.int start) (.int available) margin (.int i)).result =
      .ok (.int x, .int n))
    (hq : (a.span .truncate (.int start) (.int available) margin (.int j)).result =
      .ok (.int y, .int m)) :
    |n - m| ≤ 2 ∧ (a.HasCoarseWeights count ∨
      a.ClearsPixels count (GridAxis.usable available margin count) (.int i) → |n - m| ≤ 1) := by
  obtain ⟨count', b, c, hcount', hb, hc, hpair⟩ := span_int_eq_ok_iff.mp hp
  obtain rfl := Except.ok.inj (hcount.symm.trans hcount')
  obtain ⟨count', b', c', hcount', hb', hc', hpair'⟩ := span_int_eq_ok_iff.mp hq
  obtain rfl := Except.ok.inj (hcount.symm.trans hcount')
  simp only [Prod.mk.injEq, Number.int.injEq] at hpair hpair'
  obtain ⟨hi0, hi⟩ := lt_of_has hcount hi
  obtain ⟨hj0, hj⟩ := lt_of_has hcount hj
  obtain ⟨w, t, hw, ht, hpos, hnear, hexact⟩ := h.length_near happortions hi hb hc
  obtain ⟨w', t', hw', ht', -, hnear', hexact'⟩ := h.length_near happortions hj hb' hc'
  rw [Int.toNat_of_nonneg hi0] at hw
  rw [Int.toNat_of_nonneg hj0, ← hweight] at hw'
  obtain rfl := hw.unique hw'
  obtain rfl := ht.unique ht'
  rw [hpair.2, hpair'.2]
  refine ⟨hnear.abs_sub_le hpos hnear', ?_⟩
  rintro (hcoarse | hclear)
  · exact abs_sub_le_one hpos (hexact hcoarse) (hexact' hcoarse)
  · have hbounds := hnear.bounds hpos (hclear w t hw ht)
    have hbounds' := hnear'.bounds hpos (hclear w t hw ht)
    rw [abs_le]
    omega

end HasPositiveWeights

theorem isQuanta_weight_unweighted (h : a.weights = []) (track : Number) :
    (a.weight track).IsQuanta (1 * quantaPerOne : Nat) := by
  have hweight : a.weight track = .ofInt 1 := by
    rw [weight, h, List.find?_nil, Option.map_none, Option.getD_none, Double.one]
  rw [hweight, Int.natCast_mul]
  exact Double.isQuanta_ofInt (by decide)

theorem isQuanta_weightTotal_unweighted (h : a.weights = []) {tracks : Nat}
    (htracks : tracks ≤ 2 ^ (32 : Nat)) :
    (a.weightTotal tracks).IsQuanta (tracks * quantaPerOne : Nat) := by
  induction tracks with
  | zero =>
    rw [Nat.zero_mul]
    exact Double.isQuanta_zero false
  | succ n ih =>
    have hdouble : IsDoubleQuanta ((n + 1) * quantaPerOne) :=
      isDoubleQuanta_mul_quantaPerOne (by omega)
    have hsum : ((n * quantaPerOne : Nat) : Int) + (1 * quantaPerOne : Nat) =
        ((n + 1) * quantaPerOne : Nat) := by
      rw [Nat.add_mul, Int.natCast_add]
    have hadd := (ih (by omega)).add (isQuanta_weight_unweighted h (.int n))
    rw [hsum, Int.natAbs_natCast, hdouble.nearestQuanta_eq,
      nearestSigned_eq (by rwa [Int.natAbs_natCast])] at hadd
    rw [weightTotal_succ]
    exact hadd hdouble.lt_quantaLimit

theorem hasCoarseWeights_unweighted (h : a.weights = []) (hcount : count ≤ 2 ^ (32 : Nat)) :
    a.HasCoarseWeights count := by
  obtain ⟨e, hone⟩ : ∃ e, quantaPerOne = 2 ^ e := ⟨1074, by decide +kernel⟩
  refine ⟨e, fun track _ => ⟨1, ?_⟩, count, hcount, ?_⟩
  · exact hone ▸ isQuanta_weight_unweighted h _
  · exact hone ▸ isQuanta_weightTotal_unweighted h hcount

end GridAxis

namespace Grid

open GridShape (resolveAt_eq_ok_iff inset_ofInts)

variable {α : Type}

/-- In a grid that operations lead to, two cells whose columns have the same weight are about as
wide as each other: their widths differ by at most two pixels where up to a million pixels are
shared out and no share is out of range. Where moreover all weights are multiples of one power of
two, or the exact width keeps clear of whole numbers, they differ by at most one. The same holds for
rows and heights. -/
theorem resolveAt_fair (operations : List (Operation α)) (registry : Variables)
    {x y w h column row column' row' : Int} {r s : Rectangle}
    (hr : ((reached operations).resolveAt registry .truncate (.ofInts column row)
      (.ofInts x y w h)).result = .ok r)
    (hs : ((reached operations).resolveAt registry .truncate (.ofInts column' row')
      (.ofInts x y w h)).result = .ok s) :
    ∃ left top width height left' top' width' height' areaX areaY areaWidth areaHeight marginX
      marginY columns rows,
      r = .ofInts left top width height ∧ s = .ofInts left' top' width' height' ∧
      ((reached operations).inset registry .truncate (.ofInts x y w h)).result =
        .ok (.ofInts areaX areaY areaWidth areaHeight, marginX, marginY) ∧
      GridAxis.wholeTracks (reached operations).columns = .ok columns ∧
      GridAxis.wholeTracks (reached operations).rows = .ok rows ∧
      ((reached operations).horizontal.Apportions columns
        (GridAxis.usable areaWidth marginX columns) →
        (reached operations).horizontal.weight (.int column) =
          (reached operations).horizontal.weight (.int column') →
        |width - width'| ≤ 2 ∧ ((reached operations).horizontal.HasCoarseWeights columns ∨
          (reached operations).horizontal.ClearsPixels columns
            (GridAxis.usable areaWidth marginX columns) (.int column) →
          |width - width'| ≤ 1)) ∧
      ((reached operations).vertical.Apportions rows (GridAxis.usable areaHeight marginY rows) →
        (reached operations).vertical.weight (.int row) =
          (reached operations).vertical.weight (.int row') →
        |height - height'| ≤ 2 ∧ ((reached operations).vertical.HasCoarseWeights rows ∨
          (reached operations).vertical.ClearsPixels rows
            (GridAxis.usable areaHeight marginY rows) (.int row) →
          |height - height'| ≤ 1)) := by
  have hweights := reached_hasPositiveWeights operations
  obtain ⟨hcolumn, hrow, area, marginX, marginY, p, q, hinset, hp, hq, rfl⟩ :=
    resolveAt_eq_ok_iff.mp hr
  obtain ⟨hcolumn', hrow', area', marginX', marginY', p', q', hinset', hp', hq', rfl⟩ :=
    resolveAt_eq_ok_iff.mp hs
  obtain ⟨rfl, rfl, rfl⟩ : area = area' ∧ marginX = marginX' ∧ marginY = marginY' := by
    simpa using hinset.symm.trans hinset'
  obtain ⟨areaX, areaY, areaWidth, areaHeight, rfl⟩ := inset_ofInts hinset
  obtain ⟨left, width, rfl, -⟩ := GridAxis.exists_of_span hp
  obtain ⟨left', width', rfl, -⟩ := GridAxis.exists_of_span hp'
  obtain ⟨top, height, rfl, -⟩ := GridAxis.exists_of_span hq
  obtain ⟨top', height', rfl, -⟩ := GridAxis.exists_of_span hq'
  obtain ⟨columns, -, -, hcolumns, -⟩ := GridAxis.span_int_eq_ok_iff.mp hp
  obtain ⟨rows, -, -, hrows, -⟩ := GridAxis.span_int_eq_ok_iff.mp hq
  refine ⟨left, top, width, height, left', top', width', height', areaX, areaY, areaWidth,
    areaHeight, marginX, marginY, columns, rows, rfl, rfl, hinset, hcolumns, hrows,
    fun happortions hweight => ?_, fun happortions hweight => ?_⟩
  · exact hweights.horizontal.span_fair hcolumns hcolumn hcolumn' happortions hweight hp hp'
  · exact hweights.vertical.span_fair hrows hrow hrow' happortions hweight hq hq'

/-- Of three columns without weights that share 100 pixels, the first one is 33 wide and the last
one 34. -/
theorem resolveAt_fair_thirds :
    let g : Grid Unit := reached [.change (.add () (.ofInts 2 0))]
    (g.resolveAt {} .truncate (.ofInts 0 0) (.ofInts 0 0 100 10)).result = .ok (.ofInts 0 0 33 10) ∧
      (g.resolveAt {} .truncate (.ofInts 2 0) (.ofInts 0 0 100 10)).result =
        .ok (.ofInts 66 0 34 10) ∧
      |(33 : Int) - 34| ≤ 1 := by
  intro g
  have hr : (g.resolveAt {} .truncate (.ofInts 0 0) (.ofInts 0 0 100 10)).result =
      .ok (.ofInts 0 0 33 10) :=
    toOption_eq_some_iff.mp (by decide +kernel)
  have hs : (g.resolveAt {} .truncate (.ofInts 2 0) (.ofInts 0 0 100 10)).result =
      .ok (.ofInts 66 0 34 10) :=
    toOption_eq_some_iff.mp (by decide +kernel)
  have hinset : (g.inset {} .truncate (.ofInts 0 0 100 10)).result =
      .ok (.ofInts 0 0 100 10, 0, 0) :=
    toOption_eq_some_iff.mp (by decide +kernel)
  obtain ⟨left, top, width, height, left', top', width', height', areaX, areaY, areaWidth,
    areaHeight, marginX, marginY, columns, rows, heq, heq', harea, hcolumns, -, hfair, -⟩ :=
      resolveAt_fair _ {} hr hs
  obtain ⟨⟨-, -, rfl, -⟩, rfl, -⟩ : (0 = areaX ∧ 0 = areaY ∧ 100 = areaWidth ∧ 10 = areaHeight) ∧
    0 = marginX ∧
      0 = marginY := by
    simpa [Rectangle.ofInts] using hinset.symm.trans harea
  obtain rfl : 3 = columns := Except.ok.inj hcolumns
  obtain ⟨-, -, rfl, -⟩ : 0 = left ∧ 0 = top ∧ 33 = width ∧ 10 = height := by
    simpa [Rectangle.ofInts] using heq
  obtain ⟨-, -, rfl, -⟩ : 66 = left' ∧ 0 = top' ∧ 34 = width' ∧ 10 = height' := by
    simpa [Rectangle.ofInts] using heq'
  have happortions : g.horizontal.Apportions 3 100 := by
    refine ⟨by decide, by decide, by decide +kernel, fun hshare => ?_⟩
    have hvalue := toOption_eq_some_iff.mpr hshare
    exact absurd hvalue (by decide +kernel)
  exact ⟨hr, hs,
    (hfair happortions rfl).2 (.inl (GridAxis.hasCoarseWeights_unweighted rfl (by decide)))⟩

/-- Two columns of the same weight, a tenth, share 86 pixels: the first one gets 42 and the second
one 44. -/
theorem resolveAt_unfair_tenths :
    let tenth : Json := .number (.double (.ofDecimal 1 (-1)))
    let g : Grid Unit := reached [.change (.add () (.ofInts 1 0)), .columnWeight (.int 0) tenth,
      .columnWeight (.int 1) tenth]
    (g.resolveAt {} .truncate (.ofInts 0 0) (.ofInts 0 0 86 10)).result = .ok (.ofInts 0 0 42 10) ∧
      (g.resolveAt {} .truncate (.ofInts 1 0) (.ofInts 0 0 86 10)).result =
        .ok (.ofInts 42 0 44 10) := by
  constructor
  · exact toOption_eq_some_iff.mp (by decide +kernel)
  · exact toOption_eq_some_iff.mp (by decide +kernel)

end Grid

end PanelLayout
