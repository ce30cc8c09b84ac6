import PanelLayout.Proofs.Expression.NormalForm
import PanelLayout.Proofs.Expression.SignedZero

/-!
# What the rules take operands for

A rule that looks for zero, one or minus one also takes a number that is close to it. The expression
with these numbers in their places is the one that simplification computes with; a simplified
expression has them in their places already.
-/

namespace PanelLayout

namespace Expression

variable {e s : Expression} {x : Option Double} {a : Double} {ks : List Int} {k : Int}
    {strict : Bool}

def closedValue? (e : Expression) : Option Double :=
  if e.references = [] then (e.plainDouble fun _ => .int 0).toOption else none

/-- An operand with the value `x`, or in its place the first number that a rule looks for and that
is close to `x`. -/
def snap (ks : List Int) (x : Option Double) (e : Expression) : Expression :=
  match ks.find? (near x) with
  | some k => .constant (.int k) false
  | none => e

/-- The expression with the numbers that the rules take its operands for. Only an operation with
variables has them replaced; one without is carried out as it is. -/
def snapped : Expression → Expression
  | .operation op l r b =>
    if l.references ++ r.references = [] then .operation op l r b
    else .operation op (snap op.leftUnits l.closedValue? l.snapped)
      (snap op.rightUnits r.closedValue? r.snapped) b
  | .negation e b => .negation e.snapped b
  | e => e

theorem snap_of_find? (h : ks.find? (near x) = some k) :
    snap ks x e = .constant (.int k) false := by
  rw [snap, h]

theorem snap_of_forall (h : ∀ k ∈ ks, near x k = false) : snap ks x e = e := by
  rw [snap, List.find?_eq_none.mpr fun k hk => by simp [h k hk]]

@[simp] theorem snap_none (ks : List Int) (e : Expression) : snap ks none e = e :=
  snap_of_forall fun _ _ => rfl

theorem snapped_of_references (h : e.references = []) : e.snapped = e := by
  induction e with
  | constant | «variable» => rfl
  | negation e b ih => rw [snapped, ih h]
  | operation op l r b ihl ihr => exact if_pos h

theorem closedValue?_eq_toOption (h : e.references = []) :
    e.closedValue? = (e.plainDouble fun _ => .int 0).toOption :=
  if_pos h

theorem closedValue?_of_references (h : e.references ≠ []) : e.closedValue? = none := if_neg h

theorem references_of_closedValue? (h : e.closedValue? = some a) : e.references = [] := by
  by_contra hopen
  rw [closedValue?_of_references hopen] at h
  cases h

theorem plainDouble_of_closedValue? (h : e.closedValue? = some a) (value : Variable → Number) :
    e.plainDouble value = .ok a := by
  have hclosed := references_of_closedValue? h
  rw [closedValue?_eq_toOption hclosed, toOption_eq_some_iff] at h
  rw [← h, plainDouble, plainDouble, plainValue_of_references hclosed]

theorem references_snap (h : e.references = [] ∨ x = none) :
    (snap ks x e).references = e.references := by
  rcases h with h | rfl
  · unfold snap
    split
    · rw [h]
      rfl
    · rfl
  · rw [snap_none]

@[simp] theorem references_snapped (e : Expression) : e.snapped.references = e.references := by
  induction e with
  | constant | «variable» => rfl
  | negation e b ih => exact ih
  | operation op l r b ihl ihr =>
    have hoperand : ∀ {e : Expression} (ks : List Int), e.snapped.references = e.references →
        (snap ks e.closedValue? e.snapped).references = e.references := by
      intro e ks ih
      by_cases h : e.references = []
      · rw [references_snap (.inl (ih.trans h)), ih]
      · rw [closedValue?_of_references h, snap_none, ih]
    rw [snapped]
    split
    · rfl
    · rw [references, hoperand _ ihl, hoperand _ ihr, references]

theorem toOption_of_constant? {n : Number} {c : Bool} (hx : (constant n c).constant? = .ok x) :
    n.toDouble.toOption = x := by
  rw [constant?] at hx
  split at hx
  · rename_i a ha
    obtain rfl := Except.ok.inj hx
    rw [ha]
    rfl
  · cases hx

theorem constant?_ne_none (n : Number) (c : Bool) : (constant n c).constant? ≠ .ok none := by
  rw [constant?]
  split <;> simp

theorem IsNormal.exists_constant (h : e.IsNormal strict) (hclosed : e.references = []) :
    ∃ n c, e = .constant n c := by
  induction h with
  | constant n c => exact ⟨n, c, rfl⟩
  | «variable» v c => cases hclosed
  | negation h hsign ih =>
    obtain ⟨n, c, rfl⟩ := ih hclosed
    cases hsign
  | operation hl hr hx hy hplain hsign ihl ihr =>
    obtain ⟨hcl, hcr⟩ := List.append_eq_nil_iff.mp hclosed
    obtain ⟨m, c, rfl⟩ := ihl hcl
    obtain ⟨n, c', rfl⟩ := ihr hcr
    rcases hplain.not_both with rfl | rfl
    · exact absurd hx (constant?_ne_none m c)
    · exact absurd hy (constant?_ne_none n c')

theorem SimplifiesTo.exists_constant (h : SimplifiesTo e s) (hclosed : e.references = [])
    (value : Variable → Number) :
    ∃ n c, s = .constant n c ∧ e.plainValue value = .ok n := by
  obtain ⟨d, hd⟩ := h.exists_depth
  have hfolds : Folds (e.plainValue value) (simplifyWithin (d + e.size) (fun _ => none) e) :=
    simplifyWithin_folds (Nat.le_add_left ..) (by simp [variableList, hclosed])
  rw [hd _ (Nat.le_add_right d e.size)] at hfolds
  generalize e.plainValue value = p at hfolds
  cases hfolds with
  | value n c => exact ⟨n, c, rfl, rfl⟩

theorem SimplifiesTo.closedValue? (h : SimplifiesTo e s) (hx : s.constant? = .ok x) :
    e.closedValue? = x := by
  by_cases hclosed : e.references = []
  · obtain ⟨n, c, rfl, hn⟩ := h.exists_constant hclosed fun _ => .int 0
    rw [closedValue?_eq_toOption hclosed, plainDouble, hn, ok_bind]
    exact toOption_of_constant? hx
  · rw [closedValue?_of_references hclosed]
    cases x with
    | none => rfl
    | some a =>
      obtain ⟨n, c, rfl, -⟩ := eq_constant_of_constant? hx
      exact absurd h.isSimpler.references.symm.eq_nil hclosed

theorem IsNormal.closedValue? (h : e.IsNormal strict) (hx : e.constant? = .ok x) :
    e.closedValue? = x := by
  by_cases hclosed : e.references = []
  · obtain ⟨n, c, rfl⟩ := h.exists_constant hclosed
    exact (closedValue?_eq_toOption hclosed).trans (toOption_of_constant? hx)
  · rw [closedValue?_of_references hclosed]
    cases x with
    | none => rfl
    | some a =>
      obtain ⟨n, c, rfl, -⟩ := eq_constant_of_constant? hx
      exact absurd rfl hclosed

/-- In a normal expression no number is close to one that a rule looks for. -/
theorem IsNormal.snapped_eq (h : e.IsNormal strict) : e.snapped = e := by
  induction h with
  | constant | «variable» => rfl
  | negation h hsign ih => rw [snapped, ih]
  | operation hl hr hx hy hplain hsign ihl ihr =>
    rw [snapped, hl.closedValue? hx, hr.closedValue? hy, ihl, ihr, snap_of_forall hplain.left,
      snap_of_forall hplain.right, ite_self]

end Expression

end PanelLayout
