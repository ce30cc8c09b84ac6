/-!
# Binary64 numbers

A finite double is a whole number of *quanta*, multiples of the smallest positive double `2⁻¹⁰⁷⁴`.
Every operation computes its exact result on whole numbers and rounds it once, to the nearest double
and on a tie to the one whose last binary digit is even.
-/

namespace PanelLayout

attribute [local instance (high)] instPowNat

/-- Quanta in the number one. -/
def quantaPerOne : Nat := 2 ^ (1074 : Nat)

/-- Quanta in `2¹⁰²⁴`, which no finite double reaches. -/
def quantaLimit : Nat := 2 ^ (2098 : Nat)

/-- The whole numbers of quanta that fit into 53 binary digits and an exponent. -/
def IsDoubleQuanta (q : Nat) : Prop := ∃ m k : Nat, m < 2 ^ (53 : Nat) ∧ k ≤ 2045 ∧ q = m * 2 ^ k

/-- Whole quotient, rounded to the nearest, a half to the even neighbour. -/
def divHalfEven (num den : Nat) : Nat :=
  let q := num / den
  let twice := 2 * (num % den)
  if twice < den ∨ (twice = den ∧ q % 2 = 0) then q else q + 1

/-- Binary digits of a whole number beyond the 53 that a double keeps. -/
def droppedBits (q : Nat) : Nat := q.log2 - 52

/-- The double quanta nearest to `num / den` quanta, before the upper limit is looked at. -/
def nearestQuanta (num den : Nat) : Nat :=
  let k := droppedBits (num / den)
  divHalfEven num (den * 2 ^ k) * 2 ^ k

private theorem divHalfEven_le_succ (num den : Nat) : divHalfEven num den ≤ num / den + 1 := by
  simp only [divHalfEven]
  split <;> omega

private theorem le_divHalfEven (num den : Nat) : num / den ≤ divHalfEven num den := by
  simp only [divHalfEven]
  split <;> omega

private theorem div_pow_droppedBits_lt (q : Nat) : q / 2 ^ droppedBits q < 2 ^ (53 : Nat) := by
  rw [Nat.div_lt_iff_lt_mul (Nat.two_pow_pos _), ← Nat.pow_add]
  exact Nat.lt_of_lt_of_le Nat.lt_log2_self
    (Nat.pow_le_pow_right (by decide) (by simp only [droppedBits]; omega))

private theorem le_div_pow_droppedBits {q : Nat} (h : droppedBits q ≠ 0) :
    2 ^ (52 : Nat) ≤ q / 2 ^ droppedBits q := by
  have hq : q ≠ 0 := by rintro rfl; simp [droppedBits] at h
  rw [Nat.le_div_iff_mul_le (Nat.two_pow_pos _), ← Nat.pow_add]
  refine Nat.le_trans (Nat.pow_le_pow_right (by decide) ?_) (Nat.log2_self_le hq)
  simp only [droppedBits] at h ⊢
  omega

/-- Rounding lands on a double as long as it stays below the limit. -/
theorem isDoubleQuanta_nearestQuanta {num den : Nat} (h : nearestQuanta num den < quantaLimit) :
    IsDoubleQuanta (nearestQuanta num den) := by
  simp only [nearestQuanta] at h ⊢
  generalize hk : droppedBits (num / den) = k at h ⊢
  have hq : num / (den * 2 ^ k) = num / den / 2 ^ k := (Nat.div_div_eq_div_mul ..).symm
  have hup : divHalfEven num (den * 2 ^ k) ≤ 2 ^ (53 : Nat) := by
    have := divHalfEven_le_succ num (den * 2 ^ k)
    have := div_pow_droppedBits_lt (num / den)
    rw [hk] at this
    omega
  have hlow : k ≠ 0 → 2 ^ (52 : Nat) ≤ divHalfEven num (den * 2 ^ k) := by
    intro hne
    have := le_divHalfEven num (den * 2 ^ k)
    have := le_div_pow_droppedBits (q := num / den) (by omega)
    rw [hk] at this
    omega
  generalize divHalfEven num (den * 2 ^ k) = m at h hup hlow ⊢
  have hk' : k ≤ 2045 := by
    rcases Nat.eq_zero_or_pos k with rfl | hpos
    · decide
    · have hlt : 2 ^ (52 + k) < 2 ^ (2098 : Nat) := by
        rw [Nat.pow_add]
        exact Nat.lt_of_le_of_lt (Nat.mul_le_mul_right _ (hlow (by omega))) (by
          rwa [quantaLimit] at h)
      have := (Nat.pow_lt_pow_iff_right (a := 2) (by decide)).mp hlt
      omega
  rcases Nat.lt_or_eq_of_le hup with hm | rfl
  · exact ⟨m, k, hm, hk', rfl⟩
  · refine ⟨2 ^ (52 : Nat), k + 1, by decide, ?_, by rw [Nat.pow_succ]; omega⟩
    have hlt : 2 ^ (53 + k) < 2 ^ (2098 : Nat) := by rw [Nat.pow_add]; rwa [quantaLimit] at h
    have := (Nat.pow_lt_pow_iff_right (a := 2) (by decide)).mp hlt
    omega

/-- Absolute value of a finite double. -/
structure Magnitude where
  quanta : Nat
  isDouble : IsDoubleQuanta quanta
  deriving DecidableEq

/-- A binary64 number. -/
inductive Double where
  | nan
  | infinite (negative : Bool)
  | finite (negative : Bool) (magnitude : Magnitude)
  deriving DecidableEq

namespace Double

/-- The double nearest to `num / den` quanta, with the given sign; `den` is positive. -/
def ofQuanta (negative : Bool) (num den : Nat) : Double :=
  if h : nearestQuanta num den < quantaLimit then
    .finite negative ⟨nearestQuanta num den, isDoubleQuanta_nearestQuanta h⟩
  else .infinite negative

/-- The double nearest to a whole number. -/
def ofInt (n : Int) : Double := ofQuanta (n < 0) (n.natAbs * quantaPerOne) 1

/-- The double nearest to the quotient of two whole numbers, the second not zero. -/
def ofRatio (a b : Int) : Double :=
  ofQuanta (decide (a < 0) != decide (b < 0)) (a.natAbs * quantaPerOne) b.natAbs

/-- Zero of the given sign. -/
def zero (negative : Bool) : Double := .finite negative ⟨0, 0, 0, by decide, by decide, rfl⟩

instance : Inhabited Double := ⟨zero false⟩

def one : Double := ofInt 1

def isFinite : Double → Bool
  | .finite .. => true
  | _ => false

def isNan : Double → Bool
  | .nan => true
  | _ => false

/-- Whether the sign is negative, which also tells the two zeros apart. -/
def isNegative : Double → Bool
  | .nan => false
  | .infinite s => s
  | .finite s _ => s

end Double

/-- Whole quanta with their sign. -/
def Magnitude.signed (negative : Bool) (m : Magnitude) : Int :=
  if negative then -(m.quanta : Int) else m.quanta

namespace Double

def neg : Double → Double
  | .nan => .nan
  | .infinite s => .infinite !s
  | .finite s m => .finite (!s) m

def abs : Double → Double
  | .nan => .nan
  | .infinite _ => .infinite false
  | .finite _ m => .finite false m

/-- The sum; a sum of zero is negative only if both operands are. -/
def add : Double → Double → Double
  | .nan, _ | _, .nan => .nan
  | .infinite s, .infinite t => if s = t then .infinite s else .nan
  | .infinite s, .finite .. => .infinite s
  | .finite .., .infinite t => .infinite t
  | .finite s a, .finite t b =>
    let sum := a.signed s + b.signed t
    if sum = 0 then zero (s && t) else ofQuanta (sum < 0) sum.natAbs 1

def sub (x y : Double) : Double := add x y.neg

def mul : Double → Double → Double
  | .nan, _ | _, .nan => .nan
  | .infinite s, .infinite t => .infinite (s != t)
  | .infinite s, .finite t b => if b.quanta = 0 then .nan else .infinite (s != t)
  | .finite s a, .infinite t => if a.quanta = 0 then .nan else .infinite (s != t)
  | .finite s a, .finite t b => ofQuanta (s != t) (a.quanta * b.quanta) quantaPerOne

/-- The quotient. A number divided by zero is infinite, zero divided by zero is not a number. -/
def div : Double → Double → Double
  | .nan, _ | _, .nan => .nan
  | .infinite _, .infinite _ => .nan
  | .infinite s, .finite t _ => .infinite (s != t)
  | .finite s _, .infinite t => zero (s != t)
  | .finite s a, .finite t b =>
    if b.quanta = 0 then
      if a.quanta = 0 then .nan else .infinite (s != t)
    else ofQuanta (s != t) (a.quanta * quantaPerOne) b.quanta

instance : Neg Double := ⟨neg⟩
instance : Add Double := ⟨add⟩
instance : Sub Double := ⟨sub⟩
instance : Mul Double := ⟨mul⟩
instance : Div Double := ⟨div⟩

/-- Order by value; nothing compares with what is not a number. -/
def le : Double → Double → Bool
  | .nan, _ | _, .nan => false
  | .infinite s, .infinite t => s || !t
  | .infinite s, .finite .. => s
  | .finite .., .infinite t => !t
  | .finite s a, .finite t b => decide (a.signed s ≤ b.signed t)

def lt : Double → Double → Bool
  | .nan, _ | _, .nan => false
  | .infinite s, .infinite t => s && !t
  | .infinite s, .finite .. => s
  | .finite .., .infinite t => !t
  | .finite s a, .finite t b => decide (a.signed s < b.signed t)

/-- Equality by value: the two zeros are equal, and what is not a number differs from itself. -/
def equals (x y : Double) : Bool := x.le y && y.le x

/-- The whole part, rounded towards zero, of a finite double. -/
def truncate? : Double → Option Int
  | .finite s m =>
    some (if s then -((m.quanta / quantaPerOne : Nat) : Int) else (m.quanta / quantaPerOne : Nat))
  | _ => none

/-- The largest whole number not above a finite double. -/
def floor? : Double → Option Int
  | .finite s m => some (m.signed s / (quantaPerOne : Int))
  | _ => none

/-- The largest whole number not above the half of a finite double; zero keeps the sign. -/
def halfFloor : Double → Double
  | .finite s m =>
    let n := m.signed s / (2 * quantaPerOne : Int)
    if n = 0 then zero s else ofInt n
  | _ => .nan

end Double

end PanelLayout
