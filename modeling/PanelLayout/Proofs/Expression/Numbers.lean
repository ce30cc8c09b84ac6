import PanelLayout.Proofs.Expression.Substitution

/-!
# Simplification with numbers

Numbers mention no variables, so putting them in is done at once: simplification ends, with no more
nodes than there were and with exactly the references that have no number.
-/

namespace PanelLayout

def Binding.ofNumbers (value? : Variable → Option Number) : Binding :=
  fun v => (value? v).map (.constant · false)

namespace Expression

variable {value? : Variable → Option Number} {e : Expression}

theorem bindsOnce_ofNumbers (value? : Variable → Option Number) (e : Expression) :
    e.BindsOnce (.ofNumbers value?) := by
  apply bindsOnce_of_isUnbound
  intro r _ t ht
  obtain ⟨m, -, rfl⟩ := Option.map_eq_some_iff.mp ht
  intro q hq
  cases hq

theorem size_substitute_ofNumbers (value? : Variable → Option Number) (e : Expression) :
    (e.substitute (.ofNumbers value?)).size = e.size := by
  induction e with
  | constant m b => rfl
  | «variable» v b =>
    rw [substitute, Binding.ofNumbers]
    cases value? v <;> rfl
  | negation e b ih => rw [substitute, size, ih, size]
  | operation op l r b ihl ihr => rw [substitute, size, ihl, ihr, size]

theorem references_substitute_ofNumbers (value? : Variable → Option Number) (e : Expression) :
    (e.substitute (.ofNumbers value?)).references = e.references.filter fun r =>
    (value? r.1).isNone := by
  induction e with
  | constant m b => rfl
  | «variable» v b =>
    rw [substitute, Binding.ofNumbers]
    cases h : value? v <;> simp [references, h]
  | negation e b ih => exact ih
  | operation op l r b ihl ihr =>
    rw [substitute, references, ihl, ihr, references, List.filter_append]

theorem InRange.substitute_ofNumbers (he : e.InRange) (hvalue : ∀ v m, value? v = some m → m.Fits) :
    (e.substitute (.ofNumbers value?)).InRange := by
  induction e with
  | constant m b => exact he
  | «variable» v b =>
    rw [substitute, Binding.ofNumbers]
    cases h : value? v with
    | none => exact he
    | some m =>
      intro k hk
      obtain rfl := List.mem_singleton.mp hk
      exact hvalue v k h
  | negation e b ih => exact ih he
  | operation op l r b ihl ihr =>
    rw [inRange_operation] at he
    rw [substitute, inRange_operation]
    exact ⟨ihl he.1, ihr he.2⟩

/-- Simplification with numbers ends, never grows an expression and loses no variable. It looks no
deeper than the expression has nodes, and what it gives has exactly the references that have no
number, each as often. -/
theorem simplify_ofNumbers (value? : Variable → Option Number) (he : e.InRange)
    (hvalue : ∀ v m, value? v = some m → m.Fits) :
    ∃ s, e.simplify (.ofNumbers value?) = .ok s ∧
      (∀ n, e.size ≤ n → simplifyWithin n (.ofNumbers value?) e = .ok s) ∧
      s.size ≤ e.size ∧ s.references.Perm (e.references.filter fun r => (value? r.1).isNone) := by
  have honce := bindsOnce_ofNumbers value? e
  have hrange := he.substitute_ofNumbers hvalue
  obtain ⟨s, hs⟩ := (simplify_ends (.inr honce)).exists_ok hrange
  have hsimplifies := simplifies_of_simplify hs
  have hsimpler := hsimplifies.isSimpler (.inr honce)
  refine ⟨s, hs, ?_, ?_, ?_⟩
  · intro n hn
    rw [← size_substitute_ofNumbers value?] at hn
    obtain ⟨t, ht⟩ := (simplifyWithin_ends hn (.inr honce)).exists_ok hrange
    rw [ht, hsimplifies.unique (simplifies_of_simplifyWithin ht)]
  · rw [← size_substitute_ofNumbers value? e]
    exact hsimpler.size_le
  · rw [← references_substitute_ofNumbers]
    exact hsimpler.references

/-- In `a * -1 - -b` with three for `b`, the sign is taken out of the product and counted into the
number. -/
theorem simplify_ofNumbers_signed_product :
    (∃ s, (operation .sub opposite (.negation (named "b") false) false).simplify
        (.ofNumbers fun v => if v.name = "b" then some (.int 3) else none) = .ok s ∧
      s.size ≤ 6 ∧ s.references.Perm [(⟨"a", .custom⟩, false)]) := by
  have hrange : (operation .sub opposite (.negation (named "b") false) false).InRange := by
    intro m hm
    obtain rfl := List.mem_singleton.mp hm
    exact ⟨.ofInt (-1), by decide +kernel⟩
  have hvalue : ∀ (v : Variable) (m : Number),
      (if v.name = "b" then some (Number.int 3) else none) = some m → m.Fits := by
    intro v m hm
    split at hm
    · obtain rfl := Option.some.inj hm
      exact ⟨.ofInt 3, by decide +kernel⟩
    · cases hm
  obtain ⟨s, hs, -, hsize, hreferences⟩ := simplify_ofNumbers _ hrange hvalue
  exact ⟨s, hs, hsize, hreferences⟩

end Expression

end PanelLayout
