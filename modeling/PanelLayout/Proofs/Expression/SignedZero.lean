import PanelLayout.Proofs.Double.Units
import PanelLayout.Proofs.Expression.Range

/-!
# Values up to the sign of zero

What an expression may give if each zero that is computed with a variable may come out with either
sign. This is more than its value only where something else than zero is divided by such a zero.
-/

namespace PanelLayout

namespace Expression

variable {value : Variable → Number} {op : Operator} {e l r : Expression}
    {x y z : Double} {b : Bool}

def plainDouble (value : Variable → Number) (e : Expression) : Except NumberError Double :=
  e.plainValue value >>= Number.toDouble

theorem plainDouble_constant (value : Variable → Number) (n : Number) (b : Bool) :
    (constant n b).plainDouble value = n.toDouble := rfl

theorem plainDouble_negation (h : (negation e b).plainDouble value = .ok x) :
    ∃ y, e.plainDouble value = .ok y ∧ x.Alike (-y) := by
  obtain ⟨m, hm, hx⟩ := bind_eq_ok_iff.mp h
  obtain ⟨n, hn, hneg⟩ := bind_eq_ok_iff.mp hm
  obtain rfl := Except.ok.inj hneg
  obtain ⟨y, hy, halike⟩ := Number.toDouble_neg hx
  exact ⟨y, by rw [plainDouble, hn, ok_bind, hy], halike⟩

theorem exists_plainDouble_negation (h : e.plainDouble value = .ok y) (b : Bool) :
    ∃ x, (negation e b).plainDouble value = .ok x ∧ x.Alike (-y) := by
  obtain ⟨n, hn, hy⟩ := bind_eq_ok_iff.mp h
  obtain ⟨x, hx⟩ := Number.Fits.neg ⟨y, hy⟩
  have hneg : (negation e b).plainDouble value = .ok x := by
    rw [plainDouble, plainValue, hn]
    exact hx
  obtain ⟨y', hy', halike⟩ := plainDouble_negation hneg
  obtain rfl := Except.ok.inj (h.symm.trans hy')
  exact ⟨x, hneg, halike⟩

theorem plainDouble_operation : (operation op l r b).plainDouble value = .ok z ↔
    ∃ x y, l.plainDouble value = .ok x ∧ r.plainDouble value = .ok y ∧ op.apply x y = z := by
  constructor
  · intro h
    obtain ⟨k, hk, hz⟩ := bind_eq_ok_iff.mp h
    obtain ⟨m, hm, hk⟩ := bind_eq_ok_iff.mp hk
    obtain ⟨n, hn, hk⟩ := bind_eq_ok_iff.mp hk
    obtain ⟨x, hx, hk⟩ := bind_eq_ok_iff.mp hk
    obtain ⟨y, hy, hk⟩ := bind_eq_ok_iff.mp hk
    obtain rfl := Except.ok.inj hk
    exact ⟨x, y, by rw [plainDouble, hm, ok_bind, hx], by rw [plainDouble, hn, ok_bind, hy],
      Except.ok.inj hz⟩
  · rintro ⟨x, y, hx, hy, rfl⟩
    obtain ⟨m, hm, hx⟩ := bind_eq_ok_iff.mp hx
    obtain ⟨n, hn, hy⟩ := bind_eq_ok_iff.mp hy
    rw [plainDouble, plainValue, hm, ok_bind, hn, ok_bind, hx, ok_bind, hy]
    rfl

theorem InRange.plainDouble (h : e.InRange) (hvalue : ∀ v ∈ e.variableList, (value v).Fits) :
    ∃ x, e.plainDouble value = .ok x := by
  obtain ⟨n, hn, x, hx⟩ := h.plainValue hvalue
  exact ⟨x, by rw [Expression.plainDouble, hn, ok_bind, hx]⟩

theorem plainValue_of_references (h : e.references = []) (value value' : Variable → Number) :
    e.plainValue value = e.plainValue value' := by
  induction e with
  | constant n b => rfl
  | «variable» v b => cases h
  | negation e b ih => rw [plainValue, plainValue, ih h]
  | operation op l r b ihl ihr =>
    obtain ⟨hl, hr⟩ := List.append_eq_nil_iff.mp h
    rw [plainValue, plainValue, ihl hl, ihr hr]

/-- Whether a zero that an expression gives has the sign that it has in the value: it is not
computed with a variable. -/
def isFirm : Expression → Bool
  | .variable .. => true
  | e => e.references.isEmpty

theorem isFirm_of_references (h : e.references = []) : e.isFirm = true := by
  cases e <;> simp_all [isFirm, references]

theorem isFirm_negation : (negation e b).isFirm = true ↔ e.references = [] := by
  simp [isFirm, references]

theorem not_isFirm_negation (h : e.references ≠ []) (b : Bool) : (negation e b).isFirm = false := by
  simpa [isFirm, references] using h

theorem not_isFirm_operation (op : Operator) (h : l.references ++ r.references ≠ []) (b : Bool) :
    (operation op l r b).isFirm = false := by
  simpa [isFirm, references] using h

/-- What an expression may give if each zero that is computed with a variable may have either
sign. -/
inductive MayGive (value : Variable → Number) : Expression → Double → Prop
  | firm {e : Expression} {x : Double} (hfirm : e.isFirm = true)
      (hx : e.plainDouble value = .ok x) : MayGive value e x
  | negation {e : Expression} {b : Bool} {x y : Double} (hopen : (negation e b).isFirm = false)
      (h : MayGive value e x) (hy : (-x).Alike y) : MayGive value (.negation e b) y
  | operation {op : Operator} {l r : Expression} {b : Bool} {x y z : Double}
      (hopen : (operation op l r b).isFirm = false) (hl : MayGive value l x)
      (hr : MayGive value r y) (hz : (op.apply x y).Alike z) : MayGive value (.operation op l r b) z

theorem mayGive_of_plainDouble (h : e.plainDouble value = .ok x) : MayGive value e x := by
  induction e generalizing x with
  | constant | «variable» => exact .firm rfl h
  | negation e b ih =>
    by_cases hfirm : (Expression.negation e b).isFirm = true
    · exact .firm hfirm h
    · obtain ⟨y, hy, halike⟩ := plainDouble_negation h
      exact .negation (by simpa using hfirm) (ih hy) halike.symm
  | operation op l r b ihl ihr =>
    by_cases hfirm : (Expression.operation op l r b).isFirm = true
    · exact .firm hfirm h
    · obtain ⟨x, y, hx, hy, rfl⟩ := plainDouble_operation.mp h
      exact .operation (by simpa using hfirm) (ihl hx) (ihr hy) (.refl _)

theorem MayGive.eq_of_isFirm (h : MayGive value e x) (hfirm : e.isFirm = true) :
    e.plainDouble value = .ok x := by
  cases h with
  | firm _ hx => exact hx
  | negation hopen | operation hopen => simp [hopen] at hfirm

/-- What a negation may give comes from what its operand may give, also if the negation is firm. -/
theorem mayGive_negation_inv (h : MayGive value (.negation e b) y) :
    ∃ x, MayGive value e x ∧ (-x).Alike y := by
  cases h with
  | firm hfirm hx =>
    obtain ⟨x, hx, halike⟩ := plainDouble_negation hx
    exact ⟨x, mayGive_of_plainDouble hx, halike.symm⟩
  | negation hopen h hy => exact ⟨_, h, hy⟩

theorem MayGive.neg (h : MayGive value e x) (b : Bool) :
    ∃ y, MayGive value (.negation e b) y ∧ y.Alike (-x) := by
  by_cases hfirm : (Expression.negation e b).isFirm = true
  · have hx := h.eq_of_isFirm (isFirm_of_references (isFirm_negation.mp hfirm))
    obtain ⟨y, hy, halike⟩ := exists_plainDouble_negation hx b
    exact ⟨y, mayGive_of_plainDouble hy, halike⟩
  · exact ⟨-x, .negation (by simpa using hfirm) h (.refl _), .refl _⟩

theorem mayGive_operation_inv (h : MayGive value (.operation op l r b) z) :
    ∃ x y, MayGive value l x ∧ MayGive value r y ∧ (op.apply x y).Alike z := by
  cases h with
  | firm hfirm hx =>
    obtain ⟨x, y, hl, hr, rfl⟩ := plainDouble_operation.mp hx
    exact ⟨x, y, mayGive_of_plainDouble hl, mayGive_of_plainDouble hr, .refl _⟩
  | operation hopen hl hr hz => exact ⟨_, _, hl, hr, hz⟩

/-- Whether no number other than zero is divided by a zero that is computed with a variable. -/
def AvoidsPoles (value : Variable → Number) : Expression → Prop
  | .constant .. | .variable .. => True
  | .negation e _ => e.AvoidsPoles value
  | .operation op l r _ => l.AvoidsPoles value ∧ r.AvoidsPoles value ∧
      (r.isFirm = true ∨ ∀ x y, l.plainDouble value = .ok x → r.plainDouble value = .ok y →
        ¬op.IsPole x y)

/-- Away from poles, what an expression may give is its value. -/
theorem MayGive.alike (h : MayGive value e z) (hpoles : e.AvoidsPoles value) :
    ∃ x, e.plainDouble value = .ok x ∧ x.Alike z := by
  induction h with
  | firm hfirm hx => exact ⟨_, hx, .refl _⟩
  | @negation e b x y hopen h hy ih =>
    obtain ⟨a, ha, hax⟩ := ih hpoles
    obtain ⟨z, hz, hza⟩ := exists_plainDouble_negation ha b
    exact ⟨z, hz, hza.trans (hax.neg.trans hy)⟩
  | operation hopen hl hr hz ihl ihr =>
    obtain ⟨hpl, hpr, hpole⟩ := hpoles
    obtain ⟨x, hx, hxa⟩ := ihl hpl
    obtain ⟨y, hy, hya⟩ := ihr hpr
    refine ⟨_, plainDouble_operation.mpr ⟨x, y, hx, hy, rfl⟩, ?_⟩
    apply Double.Alike.trans _ hz
    apply Operator.apply_alike hxa hya
    apply hpole.imp
    · intro hfirm
      exact Except.ok.inj (hy.symm.trans (hr.eq_of_isFirm hfirm))
    · exact fun hpole => hpole x y hx hy

theorem mayGive_negate_inv (hopen : e.references ≠ []) (h : MayGive value e.negate z) :
    ∃ x, MayGive value e x ∧ (-x).Alike z := by
  cases e with
  | constant n b => exact absurd rfl hopen
  | «variable» v b => exact mayGive_negation_inv h
  | negation e b =>
    exact ⟨-z, .negation (not_isFirm_negation hopen b) h (.refl _), .of_eq (Double.neg_neg z)⟩
  | operation op l r b =>
    cases op with
    | sub =>
      obtain ⟨y, x, hr, hl, hz⟩ := mayGive_operation_inv h
      exact ⟨x - y, .operation (not_isFirm_operation .sub hopen b) hl hr (.refl _),
        (Double.neg_sub x y).trans hz⟩
    | add | mul | div => exact mayGive_negation_inv h

end Expression

end PanelLayout
