import PanelLayout.Proofs.Expression.Evaluation

/-!
# Values of variables

An evaluation that succeeds had a number for every variable, and it is plain evaluation with these
numbers.
-/

namespace PanelLayout

namespace Context

/-- Whether there is a value for a variable. Half of a length can be too large to tell. -/
def has (c : Context) (v : Variable) : Except NumberError Bool := (c.value? v).map Option.isSome

variable {c : Context} {v : Variable}

theorem has_eq_false_iff : c.has v = .ok false ↔ c.value? v = .ok none := by
  unfold has
  cases c.value? v with
  | error n => simp [Except.map]
  | ok n? => cases n? <;> simp [Except.map]

theorem has_eq_true_iff : c.has v = .ok true ↔ ∃ n, c.value? v = .ok (some n) := by
  unfold has
  cases c.value? v with
  | error n => simp [Except.map]
  | ok n? => cases n? <;> simp [Except.map]

theorem exists_has_iff : (∃ b, c.has v = .ok b) ↔ ∃ n?, c.value? v = .ok n? := by
  unfold has
  cases c.value? v <;> simp [Except.map]

end Context

namespace Expression

variable {e : Expression} {c : Context}

private theorem isSome_bound_eq_has (c : Context) : (fun v => do
      return (← (do
        return (← c.value? v).map (.constant · false) :
        Except NumberError (Option Expression))).isSome) =
    c.has := by
  funext v
  unfold Context.has
  cases c.value? v with
  | error n => rfl
  | ok n? => cases n? <;> rfl

theorem evaluate_of_requireValues_error {error : EvaluationError}
    (h : e.requireValues c.has = .error error) :
    e.evaluate c = .error error := by
  rw [evaluate, evaluateWith, isSome_bound_eq_has, h, error_bind]

theorem exists_value_of_required (h : e.requireValues c.has = .ok ()) :
    ∃ value : Variable → Number, ∀ v ∈ e.variableList, c.value? v = .ok (some (value v)) := by
  have hvalue (v : Variable) : ∃ n, v ∈ e.variableList → c.value? v = .ok (some n) := by
    by_cases hv : v ∈ e.variableList
    · obtain ⟨n, hn⟩ := Context.has_eq_true_iff.mp (requireValues_eq_ok_iff.mp h v hv)
      exact ⟨n, fun _ => hn⟩
    · exact ⟨.int 0, fun h => absurd h hv⟩
  choose value hvalue using hvalue
  exact ⟨value, hvalue⟩

/-- In a context with a number for every variable, evaluation is plain evaluation. -/
theorem evaluate_of_value {value : Variable → Number}
    (h : ∀ v ∈ e.variableList, c.value? v = .ok (some (value v))) :
    e.evaluate c = (e.plainValue value >>= Number.toDouble).mapError .number :=
  evaluateWith_of_bound fun v hv => by rw [h v hv]; rfl

/-- The numbers of the variables and the value that plain evaluation computes from them. -/
structure ComputesTo (e : Expression) (c : Context) (value : Variable → Number)
    (x : Double) : Prop where
  bound : ∀ v ∈ e.variableList, c.value? v = .ok (some (value v))
  computed : (e.plainValue value >>= Number.toDouble) = .ok x

theorem ComputesTo.of_evaluate {x : Double} (h : e.evaluate c = .ok x) :
    ∃ value, e.ComputesTo c value x := by
  cases hrequired : e.requireValues c.has with
  | error error => cases (evaluate_of_requireValues_error hrequired).symm.trans h
  | ok =>
    obtain ⟨value, hvalue⟩ := exists_value_of_required hrequired
    exact ⟨value, hvalue, mapError_eq_ok_iff.mp ((evaluate_of_value hvalue).symm.trans h)⟩

end Expression

end PanelLayout
