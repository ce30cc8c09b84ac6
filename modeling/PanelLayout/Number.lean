import PanelLayout.Decimal.Notation

/-!
# Numbers

A number is a whole number of any size or a double; a flag stands for one or zero and stays a flag
until something is computed with it. Sums, differences and products of whole numbers are exact; in
any other arithmetic a whole number is first rounded to the nearest double.
-/

namespace PanelLayout

/-- Why a number has no answer. -/
inductive NumberError where
  /-- A whole number is too large for a double, or a quotient of two of them is. -/
  | tooLarge
  | divisionByZero
  /-- An infinite double has no whole part. -/
  | infinite
  /-- What is not a number has no whole part. -/
  | nan
  /-- What is not a number comes neither before nor after a number. -/
  | unordered
  deriving DecidableEq, Repr

/-- A whole number, a double or a flag. -/
inductive Number where
  | int (n : Int)
  | double (x : Double)
  | flag (b : Bool)
  deriving DecidableEq

namespace Number

instance : Inhabited Number := ⟨.int 0⟩

/-- What a number counts as: a whole number or a double. -/
def value : Number → Int ⊕ Double
  | .int n => .inl n
  | .double x => .inr x
  | .flag b => .inl (if b then 1 else 0)

@[simp] theorem value_int (n : Int) : (int n).value = .inl n := rfl

@[simp] theorem value_double (x : Double) : (double x).value = .inr x := rfl

/-- What a whole number or a quotient was rounded to, unless it is out of range. -/
def rounded : Double → Except NumberError Double
  | .infinite _ => .error .tooLarge
  | x => .ok x

/-- The nearest double, unless it is out of range. -/
def toDouble (a : Number) : Except NumberError Double :=
  match a.value with
  | .inr x => .ok x
  | .inl n => rounded (Double.ofInt n)

def neg (a : Number) : Number :=
  match a.value with
  | .inl n => .int (-n)
  | .inr x => .double (-x)

def add (a b : Number) : Except NumberError Number :=
  match a.value, b.value with
  | .inl m, .inl n => .ok (.int (m + n))
  | _, _ => do return .double ((← a.toDouble) + (← b.toDouble))

def sub (a b : Number) : Except NumberError Number :=
  match a.value, b.value with
  | .inl m, .inl n => .ok (.int (m - n))
  | _, _ => do return .double ((← a.toDouble) - (← b.toDouble))

def mul (a b : Number) : Except NumberError Number :=
  match a.value, b.value with
  | .inl m, .inl n => .ok (.int (m * n))
  | _, _ => do return .double ((← a.toDouble) * (← b.toDouble))

/-- The quotient as a double. Two whole numbers are divided exactly and rounded once. -/
def div (a b : Number) : Except NumberError Number :=
  match a.value, b.value with
  | .inl m, .inl n =>
    if n = 0 then .error .divisionByZero else do return .double (← rounded (Double.ofRatio m n))
  | _, _ => do
    let x ← a.toDouble
    let y ← b.toDouble
    if y.equals (.zero false) then .error .divisionByZero else .ok (.double (x / y))

@[simp] theorem add_int (m n : Int) : (int m).add (int n) = .ok (int (m + n)) := rfl

@[simp] theorem sub_int (m n : Int) : (int m).sub (int n) = .ok (int (m - n)) := rfl

@[simp] theorem mul_int (m n : Int) : (int m).mul (int n) = .ok (int (m * n)) := rfl

/-- The largest whole number not above the half, of the same kind as the number. -/
def halfFloor (a : Number) : Number :=
  match a.value with
  | .inl n => .int (n / 2)
  | .inr x => .double x.halfFloor

/-- A whole number in quanta, as if it were a double of unlimited size. -/
def quantaOf (n : Int) : Int := n * quantaPerOne

/-- Order by exact value. -/
def le (a b : Number) : Bool :=
  match a.value, b.value with
  | .inl m, .inl n => decide (m ≤ n)
  | .inr x, .inr y => x.le y
  | .inl _, .inr .nan => false
  | .inl _, .inr (.infinite s) => !s
  | .inl m, .inr (.finite s y) => decide (quantaOf m ≤ y.signed s)
  | .inr .nan, .inl _ => false
  | .inr (.infinite s), .inl _ => s
  | .inr (.finite s x), .inl n => decide (x.signed s ≤ quantaOf n)

@[simp] theorem le_int (m n : Int) : (int m).le (int n) = decide (m ≤ n) := rfl

def lt (a b : Number) : Bool := a.le b && !b.le a

@[simp] theorem lt_int (m n : Int) : (int m).lt (int n) = decide (m < n) := by
  rw [Bool.eq_iff_iff]
  simp only [lt, le_int, Bool.and_eq_true, Bool.not_eq_true', decide_eq_true_eq,
    decide_eq_false_iff_not]
  omega

/-- Equality by exact value. -/
def equals (a b : Number) : Bool := a.le b && b.le a

@[simp] theorem equals_int (m n : Int) : (int m).equals (int n) = decide (m = n) := by
  rw [Bool.eq_iff_iff]
  simp only [equals, le_int, Bool.and_eq_true, decide_eq_true_eq]
  omega

/-- The next number after one. -/
def succ (a : Number) : Number :=
  match a.value with
  | .inl n => .int (n + 1)
  | .inr x => .double (x + .one)

/-- The number before one. -/
def pred (a : Number) : Number :=
  match a.value with
  | .inl n => .int (n - 1)
  | .inr x => .double (x - .one)

@[simp] theorem succ_int (n : Int) : (int n).succ = int (n + 1) := rfl

@[simp] theorem pred_int (n : Int) : (int n).pred = int (n - 1) := rfl

/-- The larger one of two numbers; the first one, unless it is below the second one. -/
def max (a b : Number) : Number := if a.lt b then b else a

@[simp] theorem max_int (m n : Int) : (int m).max (int n) = int (Max.max m n) := by
  by_cases h : m < n
  · rw [max, lt_int, decide_eq_true h, if_pos rfl, Int.max_eq_right (by omega)]
  · rw [max, lt_int, decide_eq_false h, if_neg Bool.false_ne_true, Int.max_eq_left (by omega)]

/-- The whole part, rounded towards zero. -/
def truncate (a : Number) : Except NumberError Int :=
  match a.value with
  | .inl n => .ok n
  | .inr .nan => .error .nan
  | .inr (.infinite _) => .error .infinite
  | .inr (.finite s m) =>
    .ok (if s then -((m.quanta / quantaPerOne : Nat) : Int) else (m.quanta / quantaPerOne : Nat))

/-- The number written so that it reads back as the same kind. -/
def text : Number → String
  | .int n => toString n
  | .double x => x.text
  | .flag b => if b then "True" else "False"

end Number

end PanelLayout
