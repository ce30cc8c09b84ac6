import Mathlib.Tactic.Ring
import PanelLayout.Grid.Basic
import PanelLayout.Proofs.Computation
import PanelLayout.Proofs.Number

/-!
# Tracks of an axis

Where a track of a grid lies in a stretch of whole pixels, told by the pixels of the boundaries
before and behind it.
-/

namespace PanelLayout

namespace GridAxis

variable {a : GridAxis} {mode : Rounding}

def gap (available : Number) (margin : Int) : Int :=
  if margin < 0 || available.lt (.int 1) then 0 else margin

theorem gap_nonneg (available : Number) (margin : Int) : 0 ≤ gap available margin := by
  unfold gap
  split
  · exact Int.le_refl 0
  · rename_i hcounted
    rw [Bool.or_eq_true, not_or, decide_eq_true_eq] at hcounted
    omega

theorem lt_of_has {track : Int} {count : Nat} (hcount : wholeTracks a.count = .ok count)
    (htrack : a.has (.int track) = true) : 0 ≤ track ∧ track.toNat < count := by
  unfold wholeTracks at hcount
  split at hcount
  · rename_i n hwhole
    obtain rfl := Except.ok.inj hcount
    rw [has, Bool.and_eq_true, (Number.isWhole_int track).lt hwhole, Number.le_int,
      decide_eq_true_eq, decide_eq_true_eq] at htrack
    omega
  · cases hcount

/-- What is left of a stretch for some tracks without the margins between them. -/
def usable (available margin : Int) (count : Nat) : Int :=
  available - gap (.int available) margin * (count - 1 : Nat)

def EndsAtPixel (a : GridAxis) (mode : Rounding) (count : Nat) (usable : Int) (tracks : Nat)
    (pixel : Int) : Prop :=
  (a.boundary mode count (.int usable) tracks).result = .ok (.int pixel)

theorem EndsAtPixel.unique {count tracks : Nat} {usable i j : Int}
    (hi : a.EndsAtPixel mode count usable tracks i)
    (hj : a.EndsAtPixel mode count usable tracks j) : i = j :=
  Number.int.inj (Except.ok.inj (hi.symm.trans hj))

theorem endsAtPixel_all {count tracks : Nat} {usable : Int} (h : count ≤ tracks) :
    a.EndsAtPixel mode count usable tracks usable := by
  rw [EndsAtPixel, boundary, if_pos h]
  rfl

theorem exists_endsAtPixel {count tracks : Nat} {usable : Int} {b : Number}
    (h : (a.boundary mode count (.int usable) tracks).result = .ok b) :
    ∃ pixel, b = .int pixel ∧ a.EndsAtPixel mode count usable tracks pixel := by
  have hb := h
  unfold boundary at hb
  split at hb
  · obtain rfl := Except.ok.inj hb
    exact ⟨usable, rfl, h⟩
  · obtain ⟨share, -, hb⟩ := Report.result_bind_eq_ok_iff.mp hb
    obtain ⟨pixel, -, hb⟩ := Report.result_bind_eq_ok_iff.mp hb
    obtain rfl := Except.ok.inj hb
    exact ⟨pixel, rfl, h⟩

private theorem edge_int (start boundary margin : Int) (tracks : Nat) :
    edge (.int start) (.int boundary) margin tracks =
      .ok (.int (start + boundary + margin * tracks)) := rfl

private theorem length_eq (start i j gap : Int) (track : Nat) :
    start + j + gap * (track + 1 : Nat) - (start + i + gap * track) - gap = j - i := by
  push_cast
  ring

/-- On whole pixels a track starts at the boundary and the margins before it, and it is as long as
the boundary behind it tells, if that lies further on. -/
theorem span_int_eq_ok_iff {start available margin track : Int} {p : Number × Number} :
    (a.span mode (.int start) (.int available) margin (.int track)).result = .ok p ↔
      ∃ count i j, wholeTracks a.count = .ok count ∧
        a.EndsAtPixel mode count (usable available margin count) track.toNat i ∧
        a.EndsAtPixel mode count (usable available margin count) (track.toNat + 1) j ∧
        p = (.int (start + i + gap (.int available) margin * track.toNat),
          .int (max (j - i) 0)) := by
  have hgap : (if (decide (margin < 0) || (Number.int available).lt (.int 1)) = true then 0
    else margin) =
      gap (.int available) margin := rfl
  unfold span
  simp only [hgap, Report.result_bind_eq_ok_iff, Report.result_ofNumber_eq_ok_iff,
    Report.result_liftM, wholeTracks_int, Number.sub_int, Except.ok.injEq]
  constructor
  · rintro ⟨count, hcount, _, rfl, _, rfl, b, hb, first, hfirst, b', hb', last, hlast,
      length, hlength, hp⟩
    obtain ⟨i, rfl, hi⟩ := exists_endsAtPixel hb
    obtain ⟨j, rfl, hj⟩ := exists_endsAtPixel hb'
    refine ⟨count, i, j, hcount, hi, hj, ?_⟩
    rw [edge_int, Except.ok.injEq] at hfirst hlast
    subst hfirst hlast
    simp only [Number.sub_int, ok_bind, Except.ok.injEq, length_eq] at hlength
    subst hlength
    rw [← Number.max_int]
    exact (Except.ok.inj hp).symm
  · rintro ⟨count, i, j, hcount, hi, hj, rfl⟩
    refine ⟨count, hcount, _, rfl, _, rfl, _, hi, _, rfl, _, hj, _, rfl, .int (j - i), ?_, ?_⟩
    · simp only [Number.sub_int, ok_bind, length_eq]
    · simp

theorem exists_of_span {start available margin track : Int} {p : Number × Number}
    (h : (a.span mode (.int start) (.int available) margin (.int track)).result = .ok p) :
    ∃ x n, p = (.int x, .int n) ∧ 0 ≤ n := by
  obtain ⟨count, i, j, -, -, -, rfl⟩ := span_int_eq_ok_iff.mp h
  exact ⟨_, _, rfl, Int.le_max_right (j - i) 0⟩

end GridAxis

end PanelLayout
