import Mathlib.Data.Int.ConditionallyCompleteOrder
import PanelLayout.Number
import PanelLayout.Proofs.Double.Rounding

/-!
# Order of numbers

How numbers that count as whole numbers compare, whether they are written as whole numbers or as
flags, what a double that equals one compares with, and why numbers that are equal compare alike
with all others.
-/

namespace PanelLayout

namespace Number

def IsWhole (a : Number) (n : Int) : Prop := a.value = .inl n

variable {a b : Number} {m n : Int}

theorem isWhole_int (n : Int) : (int n).IsWhole n := rfl

theorem IsWhole.unique (hm : a.IsWhole m) (hn : a.IsWhole n) : m = n :=
  Sum.inl.inj (hm.symm.trans hn)

theorem IsWhole.le (ha : a.IsWhole m) (hb : b.IsWhole n) : a.le b = decide (m ≤ n) := by
  unfold IsWhole at ha hb
  simp only [Number.le, ha, hb]

theorem IsWhole.lt (ha : a.IsWhole m) (hb : b.IsWhole n) : a.lt b = decide (m < n) := by
  rw [Number.lt, ha.le hb, hb.le ha]
  by_cases h : m < n
  · simp [h, Int.le_of_lt h]
  · simp [h, Int.not_lt.mp h]

theorem IsWhole.equals (ha : a.IsWhole m) (hb : b.IsWhole n) : a.equals b = decide (m = n) := by
  rw [Number.equals, ha.le hb, hb.le ha, ← Bool.decide_and]
  exact decide_eq_decide.mpr (by omega)

theorem IsWhole.succ (ha : a.IsWhole m) : a.succ = int (m + 1) := by
  unfold IsWhole at ha
  simp only [Number.succ, ha]

theorem IsWhole.max (ha : a.IsWhole m) (hb : b.IsWhole n) : (a.max b).IsWhole (Max.max m n) := by
  rw [Number.max, ha.lt hb]
  by_cases h : m < n
  · rwa [decide_eq_true h, if_pos rfl, Int.max_eq_right (by omega)]
  · rwa [decide_eq_false h, if_neg Bool.false_ne_true, Int.max_eq_left (by omega)]

private theorem quantaOf_le_quantaOf : quantaOf m ≤ quantaOf n ↔ m ≤ n := by
  have hpos : (0 : Int) < quantaPerOne := Int.natCast_pos.mpr quantaPerOne_pos
  simp only [quantaOf]
  exact Int.mul_le_mul_right hpos

/-- What equals a whole number compares with whole numbers as that number does, also if it is a
double. -/
theorem IsWhole.le_of_equals (ha : a.IsWhole m) (h : a.equals b = true) (n : Int) :
    b.le (int n) = decide (m ≤ n) ∧ (int n).le b = decide (n ≤ m) := by
  obtain ⟨hab, hba⟩ := Bool.and_eq_true_iff.mp h
  unfold IsWhole at ha
  cases hb : b.value with
  | inl k =>
    have hk : b.IsWhole k := hb
    have hkm : k = m := by
      rw [IsWhole.le ha hk, decide_eq_true_eq] at hab
      rw [hk.le ha, decide_eq_true_eq] at hba
      omega
    rw [hkm] at hk
    exact ⟨hk.le (isWhole_int n), (isWhole_int n).le hk⟩
  | inr x =>
    cases x with
    | nan => simp [Number.le, ha, hb] at hab
    | infinite s => simp_all [Number.le]
    | finite s x =>
      simp only [Number.le, ha, hb, decide_eq_true_eq] at hab hba
      have hx : x.signed s = quantaOf m := Int.le_antisymm hba hab
      simp only [Number.le, hb, value_int, hx, quantaOf_le_quantaOf, and_self]

theorem IsWhole.equals_of_equals (ha : a.IsWhole m) (h : a.equals b = true) (n : Int) :
    b.equals (int n) = decide (m = n) := by
  obtain ⟨hle, hge⟩ := ha.le_of_equals h n
  rw [Number.equals, hle, hge, ← Bool.decide_and]
  exact decide_eq_decide.mpr (by omega)

section Order

variable {c : Number}

/-- Where a number stands among all others, in quanta. What is not a number stands nowhere. -/
private def place? (a : Number) : Option (WithBot (WithTop Int)) :=
  match a.value with
  | .inl n => some (quantaOf n : WithTop Int)
  | .inr .nan => none
  | .inr (.infinite s) => if s then some ⊥ else some (⊤ : WithTop Int)
  | .inr (.finite s x) => some (x.signed s : WithTop Int)

private theorem le_iff_place :
    a.le b = true ↔ ∃ i j, a.place? = some i ∧ b.place? = some j ∧ i ≤ j := by
  unfold Number.le place?
  rcases a.value with m | (_ | (_ | _) | ⟨s, x⟩) <;>
    rcases b.value with n | (_ | (_ | _) | ⟨t, y⟩) <;>
    simp [Double.le, quantaOf_le_quantaOf]

theorem le_trans (hab : a.le b = true) (hbc : b.le c = true) : a.le c = true := by
  rw [le_iff_place] at *
  obtain ⟨i, j, hi, hj, hij⟩ := hab
  obtain ⟨j', k, hj', hk, hjk⟩ := hbc
  have hmiddle : j = j' := Option.some.inj (hj.symm.trans hj')
  exact ⟨i, k, hi, hk, hij.trans (hmiddle ▸ hjk)⟩

theorem equals_comm (a b : Number) : a.equals b = b.equals a := Bool.and_comm _ _

theorem equals_trans (hab : a.equals b = true) (hbc : b.equals c = true) : a.equals c = true := by
  simp only [Number.equals, Bool.and_eq_true] at *
  exact ⟨le_trans hab.1 hbc.1, le_trans hbc.2 hab.2⟩

theorem equals_congr (h : a.equals b = true) (c : Number) : c.equals a = c.equals b := by
  rw [Bool.eq_iff_iff]
  exact ⟨fun hca => equals_trans hca h, fun hcb => equals_trans hcb (equals_comm a b ▸ h)⟩

theorem equals_eq_false (hab : a.equals b = false) (hcb : c.equals b = true) :
    c.equals a = false := by
  rw [equals_comm, equals_congr hcb, hab]

theorem lt_of_equals (h : a.equals b = true) (c : Number) : a.lt c = b.lt c := by
  simp only [Number.equals, Bool.and_eq_true] at h
  have hle : a.le c = b.le c := by
    rw [Bool.eq_iff_iff]
    exact ⟨le_trans h.2, le_trans h.1⟩
  have hge : c.le a = c.le b := by
    rw [Bool.eq_iff_iff]
    exact ⟨fun hca => le_trans hca h.1, fun hcb => le_trans hcb h.2⟩
  rw [Number.lt, Number.lt, hle, hge]

end Order

end Number

end PanelLayout
