import PanelLayout.Expression.Simplify
import PanelLayout.Proofs.Computation

/-!
# The rules of simplification

One rule rewrites an operation on simplified operands, and what some rules build is simplified once
more. Both are stated here as relations: the rules with their conditions, and simplification without
a bound on its depth. A simplification with enough levels gives a result exactly if the rules do,
and no two results.
-/

namespace PanelLayout

namespace Operator

def unit : Operator → Int
  | .add | .sub => 0
  | .mul | .div => 1

/-- The numbers that a rule looks for on the left of an operator. -/
def leftUnits : Operator → List Int
  | .add | .sub => [0]
  | .mul => [1, -1]
  | .div => []

def rightUnits : Operator → List Int
  | .add | .sub => [0]
  | .mul | .div => [1, -1]

/-- What a sum or a difference becomes when the sign of its right operand is taken away. -/
def opposite : Operator → Operator
  | .add => .sub
  | .sub => .add
  | op => op

end Operator

namespace Expression

def isNegation : Expression → Bool
  | .negation .. => true
  | _ => false

@[simp] theorem near_none (k : Int) : near none k = false := rfl

/-- Operands that are not two constants, and neither of which is close to a number that a rule looks
for. -/
structure IsPlain (op : Operator) (x y : Option Double) : Prop where
  not_both : x = none ∨ y = none
  left : ∀ k ∈ op.leftUnits, near x k = false
  right : ∀ k ∈ op.rightUnits, near y k = false

/-- The rules for an operation on simplified operands `l` and `r` whose values, if they are
constants, are `x` and `y`. -/
inductive Rule (op : Operator) (l r : Expression) : Option Double → Option Double → Step → Prop
  | fold (a b : Double) :
      Rule op l r (some a) (some b) (.done (.constant (.double (op.apply a b)) false))
  | dropRight {y : Option Double} (hy : near y op.unit = true) : Rule op l r none y (.done l)
  | dropLeft {x : Option Double} (hop : op = .add ∨ op = .mul) (hx : near x op.unit = true) :
      Rule op l r x none (.done r)
  | negateLeft {y : Option Double} (hop : op = .mul ∨ op = .div) (hone : near y 1 = false)
      (hy : near y (-1) = true) : Rule op l r none y (.again (.negation l false))
  | negateRight {x : Option Double}
      (h : op = .mul ∧ near x 1 = false ∧ near x (-1) = true ∨ op = .sub ∧ near x 0 = true) :
      Rule op l r x none (.again (.negation r false))
  | flip {x y : Option Double} {r' : Expression} {b : Bool} (hop : op = .add ∨ op = .sub)
      (hplain : IsPlain op x y) (hr : r = .negation r' b) :
      Rule op l r x y (.combine op.opposite l r')
  | keep {x y : Option Double} (hplain : IsPlain op x y)
      (hr : op = .add ∨ op = .sub → r.isNegation = false) :
      Rule op l r x y (.done (.operation op l r false))

section Reduce

variable {op : Operator} {l r : Expression} {x y : Option Double} {step : Step} {k : Int}

theorem exists_of_near (h : near x k = true) : ∃ a, x = some a := by
  cases x with
  | none => cases h
  | some a => exact ⟨a, rfl⟩

private theorem eq_none_of_near_left (hboth : x = none ∨ y = none) (h : near x k = true) :
    y = none := by
  obtain ⟨a, rfl⟩ := exists_of_near h
  simpa using hboth

private theorem eq_none_of_near_right (hboth : x = none ∨ y = none) (h : near y k = true) :
    x = none := by
  obtain ⟨a, rfl⟩ := exists_of_near h
  simpa using hboth

theorem rule_reduce (op : Operator) (l r : Expression) (x y : Option Double) :
    Rule op l r x y (reduce op l r x y) := by
  unfold reduce
  split
  · exact .fold _ _
  · rename_i hfold
    have hboth : x = none ∨ y = none := by
      cases x with
      | none => exact .inl rfl
      | some a =>
        cases y with
        | none => exact .inr rfl
        | some b => exact absurd rfl (hfold a b rfl)
    cases op with
    | add =>
      dsimp only
      split_ifs with hx hy
      · obtain rfl := eq_none_of_near_left hboth hx
        exact .dropLeft (.inl rfl) hx
      · obtain rfl := eq_none_of_near_right hboth hy
        exact .dropRight hy
      · have hplain : IsPlain .add x y :=
          ⟨hboth, by simpa [Operator.leftUnits] using hx, by simpa [Operator.rightUnits] using hy⟩
        split
        · exact .flip (.inl rfl) hplain rfl
        · exact .keep hplain fun _ => by cases r <;> simp_all [isNegation]
    | mul =>
      dsimp only
      split_ifs with hy hx hy' hx'
      · obtain rfl := eq_none_of_near_right hboth hy
        exact .dropRight hy
      · obtain rfl := eq_none_of_near_left hboth hx
        exact .dropLeft (.inr rfl) hx
      · obtain rfl := eq_none_of_near_right hboth hy'
        exact .negateLeft (.inl rfl) (by simpa using hy) hy'
      · obtain rfl := eq_none_of_near_left hboth hx'
        exact .negateRight (.inl ⟨rfl, by simpa using hx, hx'⟩)
      · have hplain : IsPlain .mul x y :=
          ⟨hboth, by simp [Operator.leftUnits, hx, hx'], by simp [Operator.rightUnits, hy, hy']⟩
        exact .keep hplain (by simp)
    | sub =>
      dsimp only
      split_ifs with hy hx
      · obtain rfl := eq_none_of_near_right hboth hy
        exact .dropRight hy
      · obtain rfl := eq_none_of_near_left hboth hx
        exact .negateRight (.inr ⟨rfl, hx⟩)
      · have hplain : IsPlain .sub x y :=
          ⟨hboth, by simpa [Operator.leftUnits] using hx, by simpa [Operator.rightUnits] using hy⟩
        split
        · exact .flip (.inr rfl) hplain rfl
        · exact .keep hplain fun _ => by cases r <;> simp_all [isNegation]
    | div =>
      dsimp only
      split_ifs with hy hy'
      · obtain rfl := eq_none_of_near_right hboth hy
        exact .dropRight hy
      · obtain rfl := eq_none_of_near_right hboth hy'
        exact .negateLeft (.inr rfl) (by simpa using hy) hy'
      · have hplain : IsPlain .div x y :=
          ⟨hboth, by simp [Operator.leftUnits], by simp [Operator.rightUnits, hy, hy']⟩
        exact .keep hplain (by simp)

/-- The rules exclude each other: each one says what is done. -/
theorem Rule.reduce_eq (h : Rule op l r x y step) : reduce op l r x y = step := by
  cases h with
  | fold a b => rfl
  | dropRight hy => cases op <;> simp_all [reduce, Operator.unit]
  | dropLeft hop hx => rcases hop with rfl | rfl <;> simp_all [reduce, Operator.unit]
  | negateLeft hop hone hy => rcases hop with rfl | rfl <;> simp_all [reduce]
  | negateRight h => rcases h with ⟨rfl, hone, hx⟩ | ⟨rfl, hx⟩ <;> simp_all [reduce]
  | flip hop hplain hr =>
    obtain ⟨hboth, hl, hr'⟩ := hplain
    rcases hop with rfl | rfl <;> rcases hboth with rfl | rfl <;>
      simp_all [reduce, Operator.leftUnits, Operator.rightUnits, Operator.opposite]
  | keep hplain hr =>
    obtain ⟨hboth, hl, hr'⟩ := hplain
    cases op <;> rcases hboth with rfl | rfl <;>
      cases r <;> simp_all [reduce, Operator.leftUnits, Operator.rightUnits, isNegation]

theorem rule_iff : Rule op l r x y step ↔ reduce op l r x y = step :=
  ⟨Rule.reduce_eq, fun h => h ▸ rule_reduce op l r x y⟩

end Reduce

inductive Simplifies : Binding → Expression → Expression → Prop
  | constant {binding : Binding} (n : Number) (b : Bool) :
      Simplifies binding (.constant n b) (.constant n b)
  | variable {binding : Binding} (v : Variable) (b : Bool) :
      Simplifies binding (.variable v b) ((binding v).getD (.variable v b))
  | negation {binding : Binding} {e s : Expression} {b : Bool} (h : Simplifies binding e s) :
      Simplifies binding (.negation e b) s.negate
  | done {binding : Binding} {op : Operator} {l r l' r' s : Expression}
    {x y : Option Double} {b : Bool}
      (hl : Simplifies binding l l') (hr : Simplifies binding r r') (hx : l'.constant? = .ok x)
        (hy : r'.constant? = .ok y)
      (hrule : Rule op l' r' x y (.done s)) : Simplifies binding (.operation op l r b) s
  | again {binding : Binding} {op : Operator} {l r l' r' e s : Expression} {x y : Option Double}
      {b : Bool} (hl : Simplifies binding l l') (hr : Simplifies binding r r')
      (hx : l'.constant? = .ok x) (hy : r'.constant? = .ok y) (hrule : Rule op l' r' x y (.again e))
      (h : Simplifies binding e s) : Simplifies binding (.operation op l r b) s
  | combine {binding : Binding} {op op' : Operator} {l r l' r' l'' r'' m s : Expression}
      {x y : Option Double} {b : Bool} (hl : Simplifies binding l l') (hr : Simplifies binding r r')
      (hx : l'.constant? = .ok x) (hy : r'.constant? = .ok y)
      (hrule : Rule op l' r' x y (.combine op' l'' r''))
      (hm : Simplifies (fun _ => none) (.operation op' l'' r'' false) m)
      (h : Simplifies binding m s) : Simplifies binding (.operation op l r b) s

variable {binding : Binding} {e s t : Expression} {n : Nat}

theorem simplifies_of_simplifyWithin (h : simplifyWithin n binding e = .ok s) :
    Simplifies binding e s := by
  induction n generalizing binding e s with
  | zero => cases h
  | succ n ih =>
    cases e with
    | constant v b =>
      obtain rfl := Except.ok.inj h
      exact .constant v b
    | «variable» v b =>
      obtain rfl := Except.ok.inj h
      exact .variable v b
    | negation e b =>
      obtain ⟨e', he, h⟩ := bind_eq_ok_iff.mp h
      obtain rfl := Except.ok.inj h
      exact .negation (ih he)
    | operation op l r b =>
      obtain ⟨l', hl, h⟩ := bind_eq_ok_iff.mp h
      obtain ⟨r', hr, h⟩ := bind_eq_ok_iff.mp h
      obtain ⟨x, hx, h⟩ := bind_eq_ok_iff.mp h
      obtain ⟨y, hy, h⟩ := bind_eq_ok_iff.mp h
      have hrule := rule_reduce op l' r' x y
      split at h
      · rename_i hstep
        obtain rfl := Except.ok.inj h
        exact .done (ih hl) (ih hr) hx hy (hstep ▸ hrule)
      · rename_i hstep
        exact .again (ih hl) (ih hr) hx hy (hstep ▸ hrule) (ih h)
      · rename_i hstep
        obtain ⟨m, hm, h⟩ := bind_eq_ok_iff.mp h
        exact .combine (ih hl) (ih hr) hx hy (hstep ▸ hrule) (ih hm) (ih h)

/-- What an operation comes to with enough levels for its operands and for what its rule builds. -/
theorem simplifyWithin_operation {op : Operator} {l r l' r' : Expression} {x y : Option Double}
    {b : Bool} (hl : simplifyWithin n binding l = .ok l') (hr : simplifyWithin n binding r = .ok r')
    (hx : l'.constant? = .ok x) (hy : r'.constant? = .ok y) :
    simplifyWithin (n + 1) binding (.operation op l r b) =
      match reduce op l' r' x y with
      | .done e => .ok e
      | .again e => simplifyWithin n binding e
      | .combine op l r =>
        simplifyWithin n (fun _ => none) (.operation op l r false) >>=
            simplifyWithin n binding := by
  rw [simplifyWithin, hl, ok_bind, hr, ok_bind, hx, ok_bind, hy, ok_bind]
  rfl

private theorem exists_depth_succ {p : Nat → Prop} (n : Nat) (h : ∀ m, n ≤ m → p (m + 1)) :
    ∃ n, ∀ m, n ≤ m → p m := by
  refine ⟨n + 1, fun m hm => ?_⟩
  obtain ⟨m, rfl⟩ := Nat.exists_eq_add_of_le' (Nat.le_of_add_left_le hm)
  exact h m (Nat.le_of_succ_le_succ hm)

theorem Simplifies.exists_depth (h : Simplifies binding e s) :
    ∃ n, ∀ m, n ≤ m → simplifyWithin m binding e = .ok s := by
  induction h with
  | constant v b => exact exists_depth_succ 0 fun m hm => rfl
  | «variable» v b => exact exists_depth_succ 0 fun m hm => rfl
  | negation h ih =>
    obtain ⟨n, ih⟩ := ih
    apply exists_depth_succ n
    intro m hm
    rw [simplifyWithin, ih m hm]
    rfl
  | done hl hr hx hy hrule ihl ihr =>
    obtain ⟨nl, ihl⟩ := ihl
    obtain ⟨nr, ihr⟩ := ihr
    apply exists_depth_succ (nl + nr)
    intro m hm
    rw [simplifyWithin_operation (ihl m (by omega)) (ihr m (by omega)) hx hy, hrule.reduce_eq]
  | again hl hr hx hy hrule h ihl ihr ih =>
    obtain ⟨nl, ihl⟩ := ihl
    obtain ⟨nr, ihr⟩ := ihr
    obtain ⟨n, ih⟩ := ih
    apply exists_depth_succ (nl + nr + n)
    intro m hm
    rw [simplifyWithin_operation (ihl m (by omega)) (ihr m (by omega)) hx hy, hrule.reduce_eq]
    exact ih m (by omega)
  | combine hl hr hx hy hrule hm h ihl ihr ihm ih =>
    obtain ⟨nl, ihl⟩ := ihl
    obtain ⟨nr, ihr⟩ := ihr
    obtain ⟨nm, ihm⟩ := ihm
    obtain ⟨n, ih⟩ := ih
    apply exists_depth_succ (nl + nr + nm + n)
    intro m hm
    rw [simplifyWithin_operation (ihl m (by omega)) (ihr m (by omega)) hx hy, hrule.reduce_eq]
    dsimp only
    rw [ihm m (by omega), ok_bind]
    exact ih m (by omega)

/-- Simplification gives a result with enough levels exactly if the rules give it. -/
theorem simplifies_iff : Simplifies binding e s ↔ ∃ n, simplifyWithin n binding e = .ok s := by
  constructor
  · intro h
    obtain ⟨n, hn⟩ := h.exists_depth
    exact ⟨n, hn n (Nat.le_refl n)⟩
  · intro h
    obtain ⟨n, hn⟩ := h
    exact simplifies_of_simplifyWithin hn

theorem Simplifies.unique (hs : Simplifies binding e s) (ht : Simplifies binding e t) : s = t := by
  obtain ⟨m, hm⟩ := hs.exists_depth
  obtain ⟨n, hn⟩ := ht.exists_depth
  exact Except.ok.inj ((hm (m + n) (by omega)).symm.trans (hn (m + n) (by omega)))

end Expression

end PanelLayout
