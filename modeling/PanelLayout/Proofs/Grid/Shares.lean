import PanelLayout.Proofs.Double.Order
import PanelLayout.Proofs.Grid.Span

/-!
# Shares of an axis

Weights that are accepted are positive. So the sums of the first weights grow with the number of
tracks, and the boundaries move away from the start of the axis one after another, until a share is
too large for a double. They stay between the start and the end of what is left for the tracks.
-/

namespace PanelLayout

theorem Number.div_isPositive {n : Number} {x w : Double} (hn : n.toDouble = .ok x)
    (hw : w.IsPositive) :
    n.div (.double w) = .ok (.double (x / w)) := by
  unfold Number.div
  split
  · rename_i hvalue
    cases hvalue
  · rw [hn, ok_bind]
    change (if w.equals (.zero false) = true then _ else _) = _
    rw [hw.equals_zero, if_neg Bool.false_ne_true]

namespace GridAxis

variable {a : GridAxis}

def HasPositiveWeights (a : GridAxis) : Prop := ∀ e ∈ a.weights, e.2.IsPositive

theorem checkWeight_eq_ok_iff {v : Json} {w : Double} :
    checkWeight v = .ok w ↔ v.toDouble = .ok w ∧ w.isFinite = true ∧ w.IsPositive := by
  have haccepted : (!w.isFinite || w.le (.zero false)) = false ↔ w.isFinite = true ∧
      w.IsPositive := by
    rcases w with _ | s | ⟨_ | _, m⟩ <;>
      simp [Double.isFinite, Double.IsPositive, Double.le, Double.zero, Magnitude.signed,
        Nat.pos_iff_ne_zero]
  unfold checkWeight
  simp only [bind_eq_ok_iff, mapError_eq_ok_iff]
  constructor
  · rintro ⟨x, hx, hw⟩
    split at hw
    · cases hw
    · rename_i hrefused
      obtain rfl := Except.ok.inj hw
      exact ⟨hx, haccepted.mp (Bool.not_eq_true _ ▸ hrefused)⟩
  · rintro ⟨hw, hweight⟩
    exact ⟨w, hw, by rw [haccepted.mpr hweight]; rfl⟩

theorem forall_setEntry {P : Double → Prop} {weights : List (Number × Double)}
    (h : ∀ e ∈ weights, P e.2) (track : Number) {w : Double} (hw : w.equals .one = false → P w) :
    ∀ e ∈ setEntry weights track w, P e.2 := by
  intro e he
  unfold setEntry at he
  split at he
  · exact h e (List.mem_filter.mp he).1
  · rename_i hone
    have hput := hw (Bool.not_eq_true _ ▸ hone)
    split at he
    · obtain ⟨e', he', rfl⟩ := List.mem_map.mp he
      split
      · exact hput
      · exact h e' he'
    · rcases List.mem_append.mp he with he | he
      · exact h e he
      · rw [List.mem_singleton.mp he]
        exact hput

/-- Whether a table holds nothing but positive finite weights other than one. -/
def HoldsWeights (a : GridAxis) : Prop :=
  ∀ e ∈ a.weights, e.2.IsPositive ∧ e.2.isFinite = true ∧ e.2.equals .one = false

theorem HoldsWeights.hasPositiveWeights (h : a.HoldsWeights) : a.HasPositiveWeights :=
  fun e he => (h e he).1

theorem HoldsWeights.setWeight (h : a.HoldsWeights) {track : Number} {v : Json} {b : GridAxis}
    (hb : a.setWeight track v = .ok b) : b.HoldsWeights := by
  obtain ⟨w, hw, hb⟩ := bind_eq_ok_iff.mp hb
  obtain rfl := Except.ok.inj hb
  obtain ⟨-, hfinite, hpositive⟩ := checkWeight_eq_ok_iff.mp hw
  exact forall_setEntry (P := fun w => w.IsPositive ∧ w.isFinite = true ∧
    w.equals .one = false) h track
    fun hone => ⟨hpositive, hfinite, hone⟩

namespace HasPositiveWeights

variable {count j k : Nat} {usable : Int} {x y : Double}

theorem weight (h : a.HasPositiveWeights) (track : Number) : (a.weight track).IsPositive := by
  unfold GridAxis.weight
  cases hfind : a.weights.find? (·.1.equals track) with
  | none =>
    rw [Option.map_none, Option.getD_none]
    exact Double.isPositive_one
  | some e => exact h e (List.mem_of_find?_eq_some hfind)

end HasPositiveWeights

def weightTotal (a : GridAxis) (tracks : Nat) : Double :=
  (List.range tracks).foldl (fun (sum : Double) (i : Nat) => sum + a.weight (.int i)) (.zero false)

theorem weightTotal_succ (a : GridAxis) (tracks : Nat) :
    a.weightTotal (tracks + 1) = a.weightTotal tracks + a.weight (.int tracks) := by
  rw [weightTotal, List.range_succ, List.foldl_append]
  rfl

theorem weightSum_of_pos {tracks : Nat} (h : 0 < tracks) :
    a.weightSum tracks = .double (a.weightTotal tracks) := by
  rw [weightSum, if_neg (by omega)]
  rfl

/-- What the first tracks of an axis take of a usable length, not yet rounded to a pixel. -/
def share (a : GridAxis) (count : Nat) (usable : Int) (tracks : Nat) :
    Except NumberError Number := do
  (← (Number.int usable).mul (a.weightSum tracks)).div (a.weightSum count)

namespace HasPositiveWeights

variable {count j k : Nat} {usable : Int} {x y : Double}

theorem weightTotal (h : a.HasPositiveWeights) (tracks : Nat) :
    (tracks = 0 ∧ a.weightTotal tracks = .zero false) ∨ (a.weightTotal tracks).IsPositive := by
  induction tracks with
  | zero => exact .inl ⟨rfl, rfl⟩
  | succ n ih =>
    right
    rw [weightTotal_succ]
    exact Double.IsPositive.add (ih.imp_left And.right) (h.weight (.int n))

theorem weightTotal_pos (h : a.HasPositiveWeights) {tracks : Nat} (hpos : 0 < tracks) :
    (a.weightTotal tracks).IsPositive :=
  (h.weightTotal tracks).resolve_left fun hzero => absurd hzero.1 hpos.ne'

theorem weightTotal_le (h : a.HasPositiveWeights) (hj : 0 < j) (hjk : j ≤ k) :
    (a.weightTotal j).le (a.weightTotal k) = true := by
  induction k, hjk using Nat.le_induction with
  | base => exact (h.weightTotal_pos hj).le_self
  | succ k hjk ih =>
    rw [weightTotal_succ]
    exact Double.le_trans ih
      (Double.IsPositive.le_add (.inr (h.weightTotal_pos (by omega))) (h.weight (.int k)))

theorem share_eq_ok_iff (h : a.HasPositiveWeights) (hcount : 0 < count) (hk : 0 < k) {n : Number} :
    a.share count usable k = .ok n ↔
      ∃ z, (Number.int usable).toDouble = .ok z ∧
      n = .double (z * a.weightTotal k / a.weightTotal count) := by
  have hdiv : ∀ z : Double, (Number.double z).div (a.weightSum count) =
      .ok (.double (z / a.weightTotal count)) := by
    intro z
    rw [weightSum_of_pos hcount]
    exact Number.div_isPositive rfl (h.weightTotal_pos hcount)
  have hmul : (Number.int usable).mul (a.weightSum k) =
      (Number.int usable).toDouble >>= fun z => .ok (.double (z * a.weightTotal k)) := by
    rw [weightSum_of_pos hk]
    rfl
  rw [share, hmul]
  cases (Number.int usable).toDouble with
  | error e => simp
  | ok z => simp [hdiv, eq_comm]

theorem share_zero (h : a.HasPositiveWeights) (hcount : 0 < count) (usable : Int) :
    ∃ m : Magnitude, a.share count usable 0 = .ok (.double (.finite false m)) ∧ m.quanta = 0 := by
  obtain ⟨z, hz, hquanta⟩ := Number.fits_zero.toDouble_int
  have hshare : a.share count usable 0 = .ok (.double (.finite false z / a.weightTotal count)) := by
    rw [share, weightSum, if_pos rfl, Number.mul_int, ok_bind, Int.mul_zero,
      weightSum_of_pos hcount]
    exact Number.div_isPositive hz (h.weightTotal_pos hcount)
  rw [hshare]
  rcases h.weightTotal_pos hcount with hall | ⟨t, hall, ht⟩
  · rw [hall]
    exact ⟨_, rfl, rfl⟩
  · have hz : z.quanta = 0 := by rwa [Int.natAbs_zero, Nat.zero_mul, nearestQuanta_zero] at hquanta
    have hdiv : (.finite false z / .finite false t : Double) = .ofQuanta false 0 t.quanta := by
      change Double.div _ _ = _
      simp [Double.div, ht.ne', hz]
    obtain ⟨m, hm, hquanta⟩ := Double.ofQuanta_of_lt (s := false) (n := 0) (d := t.quanta)
      (by rw [nearestQuanta_zero, ← hz]; exact z.isDouble.lt_quantaLimit)
    rw [hall, hdiv, hm]
    exact ⟨m, rfl, hquanta.trans (nearestQuanta_zero _)⟩

theorem share_isOnSide (h : a.HasPositiveWeights) (hcount : 0 < count) (hk : 0 < k ∨ 0 ≤ usable)
    (hx : a.share count usable k = .ok (.double x)) : x.IsOnSide (decide (usable < 0)) := by
  rcases Nat.eq_zero_or_pos k with rfl | hpos
  · obtain ⟨m, hm, -⟩ := h.share_zero hcount usable
    obtain rfl := Number.double.inj (Except.ok.inj (hm.symm.trans hx))
    rw [decide_eq_false (by omega)]
    exact .inr rfl
  · obtain ⟨z, hz, heq⟩ := (h.share_eq_ok_iff hcount hpos).mp hx
    obtain ⟨m, hm, -⟩ := Number.Fits.toDouble_int ⟨z, hz⟩
    obtain rfl := Except.ok.inj (hm.symm.trans hz)
    rw [Number.double.inj heq]
    exact Double.IsOnSide.div (Double.IsOnSide.mul (.inr rfl) (h.weightTotal_pos hpos))
      (h.weightTotal_pos hcount)

/-- With more tracks a share lies further from zero, until it is too large for a double. -/
theorem share_grows (h : a.HasPositiveWeights) (hjk : j ≤ k) (hk : k < count)
    (hx : a.share count usable j = .ok (.double x))
    (hy : a.share count usable k = .ok (.double y)) :
    Double.Grows (decide (usable < 0)) x y := by
  have hcount : 0 < count := by omega
  rcases Nat.eq_zero_or_pos j with rfl | hj
  · obtain ⟨m, hm, hzero⟩ := h.share_zero hcount usable
    obtain rfl := Number.double.inj (Except.ok.inj (hm.symm.trans hx))
    refine ⟨fun hinfinite => (nomatch hinfinite), fun _ mode => ?_⟩
    rw [Double.pixel_of_quanta_eq_zero hzero]
    rcases Nat.eq_zero_or_pos k with rfl | hpos
    · obtain rfl := Number.double.inj (Except.ok.inj (hm.symm.trans hy))
      rw [Double.pixel_of_quanta_eq_zero hzero]
      split <;> exact Int.le_refl 0
    · have hside := h.share_isOnSide hcount (.inl hpos) hy
      cases hs : decide (usable < 0) with
      | false => exact (hs ▸ hside).pixel_nonneg
      | true => exact (hs ▸ hside).pixel_nonpos
  · obtain ⟨z, hz, heq⟩ := (h.share_eq_ok_iff hcount hj).mp hx
    obtain ⟨z', hz', heq'⟩ := (h.share_eq_ok_iff hcount (by omega)).mp hy
    obtain rfl := Except.ok.inj (hz.symm.trans hz')
    obtain ⟨m, hm, -⟩ := Number.Fits.toDouble_int ⟨z, hz⟩
    obtain rfl := Except.ok.inj (hm.symm.trans hz)
    rw [Number.double.inj heq, Number.double.inj heq']
    rcases h.weightTotal_pos hcount with hall | ⟨t, hall, ht⟩
    · rw [hall]
      refine ⟨fun hinfinite => absurd hinfinite (Double.div_infinite _ _).1, fun _ mode => ?_⟩
      rw [(Double.div_infinite _ true).2, (Double.div_infinite _ true).2]
      split <;> exact Int.le_refl 0
    · have hlast := h.weightTotal_le (j := k) (by omega) hk.le
      rw [hall] at hlast ⊢
      obtain ⟨m', hm', -, -⟩ := (h.weightTotal_pos (by omega)).finite_of_le hlast
      have hle := h.weightTotal_le hj hjk
      rw [hm'] at hle ⊢
      obtain ⟨m'', hm'', -, hquanta⟩ := (h.weightTotal_pos hj).finite_of_le hle
      rw [hm'']
      exact Double.grows_of_le ht hquanta

theorem exists_share (h : a.HasPositiveWeights) (hcount : 0 < count) (hu : (Number.int usable).Fits)
    (tracks : Nat) :
    ∃ x, a.share count usable tracks = .ok (.double x) := by
  rcases Nat.eq_zero_or_pos tracks with rfl | hpos
  · obtain ⟨m, hm, -⟩ := h.share_zero hcount usable
    exact ⟨_, hm⟩
  · obtain ⟨z, hz⟩ := hu
    exact ⟨_, (h.share_eq_ok_iff hcount hpos).mpr ⟨z, hz, rfl⟩⟩

theorem endsAtPixel_iff (h : a.HasPositiveWeights) (hk : k < count) {mode : Rounding}
    {pixel : Int} :
    a.EndsAtPixel mode count usable k pixel ↔
      ∃ x, a.share count usable k = .ok (.double x) ∧ x.pixel mode = pixel := by
  have hboundary : a.EndsAtPixel mode count usable k pixel ↔
      ∃ n, a.share count usable k = .ok n ∧ (n.toPixel mode).result = .ok pixel := by
    unfold EndsAtPixel boundary
    rw [if_neg (by omega)]
    simp only [Report.result_bind_eq_ok_iff, Report.result_ofNumber_eq_ok_iff]
    simp [share]
  rw [hboundary]
  constructor
  · intro hpixel
    obtain ⟨n, hn, hpixel⟩ := hpixel
    obtain ⟨x, rfl⟩ : ∃ x, n = .double x := by
      rcases Nat.eq_zero_or_pos k with rfl | hpos
      · obtain ⟨m, hm, -⟩ := h.share_zero hk usable
        exact ⟨_, Except.ok.inj (hn.symm.trans hm)⟩
      · obtain ⟨z, -, heq⟩ := (h.share_eq_ok_iff (by omega) hpos).mp hn
        exact ⟨_, heq⟩
    rw [Number.result_toPixel rfl, Double.result_toPixel, Except.ok.injEq] at hpixel
    exact ⟨x, hn, hpixel⟩
  · intro hpixel
    obtain ⟨x, hx, hpixel⟩ := hpixel
    exact ⟨_, hx, by rw [Number.result_toPixel rfl, Double.result_toPixel, hpixel]⟩

theorem endsAtPixel_nonneg (h : a.HasPositiveWeights) {mode : Rounding} {pixel : Int}
    (hpixel : a.EndsAtPixel mode count usable k pixel) (hu : 0 ≤ usable) : 0 ≤ pixel := by
  by_cases hall : count ≤ k
  · rwa [hpixel.unique (endsAtPixel_all hall)]
  · obtain ⟨x, hx, rfl⟩ := (h.endsAtPixel_iff (by omega)).mp hpixel
    have hside := h.share_isOnSide (by omega) (.inr hu) hx
    rw [decide_eq_false (by omega)] at hside
    exact hside.pixel_nonneg

theorem endsAtPixel_nonpos (h : a.HasPositiveWeights) {mode : Rounding} {pixel : Int}
    (hpixel : a.EndsAtPixel mode count usable k pixel) (hu : usable < 0) (hk : 0 < k) :
    pixel ≤ 0 := by
  by_cases hall : count ≤ k
  · rw [hpixel.unique (endsAtPixel_all hall)]
    omega
  · obtain ⟨x, hx, rfl⟩ := (h.endsAtPixel_iff (by omega)).mp hpixel
    have hside := h.share_isOnSide (by omega) (.inl hk) hx
    rw [decide_eq_true hu] at hside
    exact hside.pixel_nonpos

theorem endsAtPixel_zero (h : a.HasPositiveWeights) (hcount : 0 < count) {mode : Rounding}
    {pixel : Int} (hpixel : a.EndsAtPixel mode count usable 0 pixel) : pixel = 0 := by
  obtain ⟨x, hx, rfl⟩ := (h.endsAtPixel_iff hcount).mp hpixel
  obtain ⟨m, hm, hzero⟩ := h.share_zero hcount usable
  obtain rfl := Number.double.inj (Except.ok.inj (hm.symm.trans hx))
  exact Double.pixel_of_quanta_eq_zero hzero

/-- No boundary lies behind the usable length, unless that is so large that whole pixels are no
longer exact. -/
theorem endsAtPixel_le (h : a.HasPositiveWeights) {mode : Rounding} {pixel : Int}
    (hpixel : a.EndsAtPixel mode count usable k pixel) (hu : 0 ≤ usable)
    (hlt : usable < 2 ^ (51 : Nat)) :
    pixel ≤ usable := by
  by_cases hall : count ≤ k
  · exact (hpixel.unique (endsAtPixel_all hall)).le
  · rcases Nat.eq_zero_or_pos k with rfl | hk
    · rwa [h.endsAtPixel_zero (by omega) hpixel]
    · obtain ⟨x, hx, rfl⟩ := (h.endsAtPixel_iff (by omega)).mp hpixel
      obtain ⟨z, hz, heq⟩ := (h.share_eq_ok_iff (by omega) hk).mp hx
      obtain ⟨m, hm, hquanta⟩ := Number.Fits.toDouble_int ⟨z, hz⟩
      obtain rfl := Except.ok.inj (hm.symm.trans hz)
      rw [Number.double.inj heq, decide_eq_false (by omega)]
      rcases h.weightTotal_pos (show 0 < count by omega) with hinfinite | ⟨t, htotal, ht⟩
      · rw [hinfinite, (Double.div_infinite _ true).2]
        exact hu
      · have hle := h.weightTotal_le hk (show k ≤ count by omega)
        rw [htotal] at hle ⊢
        obtain ⟨part, hpart, -, hpartle⟩ := (h.weightTotal_pos hk).finite_of_le hle
        rw [hpart]
        -- below 2⁵³ the length is a double itself, so that only the product and the quotient are
        -- rounded
        lift usable to Nat using hu
        rw [Int.natAbs_natCast, (isDoubleQuanta_mul_quantaPerOne (by omega)).nearestQuanta_eq]
          at hquanta
        exact Double.pixel_share_le hquanta (by exact_mod_cast hlt) hpartle ht

end HasPositiveWeights

end GridAxis

end PanelLayout
