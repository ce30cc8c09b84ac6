import PanelLayout.Expression.Given
import PanelLayout.Proofs.Computation

/-!
# Evaluation is plain evaluation

Where every variable has a number, each node of an expression folds to a constant before a rule of
simplification can apply to it. So evaluation only ever carries the operators out, from the operands
upwards.
-/

namespace PanelLayout

theorem Number.toDouble_error {n : Number} {e : NumberError} (h : n.toDouble = .error e) :
    e = .tooLarge := by
  unfold Number.toDouble at h
  split at h
  · cases h
  · rename_i k hk
    generalize Double.ofInt k = x at h
    cases x with
    | infinite => exact (Except.error.inj h).symm
    | nan | finite => cases h

namespace Expression

/-- The value of an expression, computed from its operands upwards by nothing but its signs and
operators. -/
def plainValue (value : Variable → Number) : Expression → Except NumberError Number
  | .constant n _ => .ok n
  | .variable v _ => .ok (value v)
  | .negation e _ => do return (← plainValue value e).neg
  | .operation op l r _ => do
    let l ← plainValue value l
    let r ← plainValue value r
    return .double (op.apply (← l.toDouble) (← r.toDouble))

theorem variableList_operation (op : Operator) (l r : Expression) (b : Bool) :
    (operation op l r b).variableList = l.variableList ++ r.variableList := List.map_append

/-- A simplification that ends where plain evaluation does: with the value as a constant, or at a
number that no double holds. -/
inductive Folds : Except NumberError Number → Except SimplifyError Expression → Prop
  | value (n : Number) (ends : Bool) : Folds (.ok n) (.ok (.constant n ends))
  | tooLarge : Folds (.error .tooLarge) (.error .tooLarge)

private theorem folds_negation {x : Except NumberError Number} {e : Except SimplifyError Expression}
    (h : Folds x e) :
    Folds (do return (← x).neg) (do return (← e).negate) := by
  cases h with
  | tooLarge => exact .tooLarge
  | value n ends => exact .value n.neg false

/-- Two constants are combined by the operator alone, before a rule is looked for. -/
private theorem folds_operation {op : Operator} {l r : Expression} {b : Bool}
    {x y : Except NumberError Number} {n : Nat} {binding : Binding}
    (hl : Folds x (simplifyWithin n binding l)) (hr : Folds y (simplifyWithin n binding r)) :
    Folds (do let a ← x; let b ← y; return .double (op.apply (← a.toDouble) (← b.toDouble)))
      (simplifyWithin (n + 1) binding (.operation op l r b)) := by
  rw [simplifyWithin]
  generalize simplifyWithin n binding l = l at hl
  generalize simplifyWithin n binding r = r at hr
  cases hl with
  | tooLarge => exact .tooLarge
  | value a _ =>
    cases hr with
    | tooLarge => exact .tooLarge
    | value b _ =>
      simp only [ok_bind, constant?]
      cases ha : a.toDouble with
      | error e =>
        obtain rfl := Number.toDouble_error ha
        exact .tooLarge
      | ok x =>
        cases hb : b.toDouble with
        | error e =>
          obtain rfl := Number.toDouble_error hb
          exact .tooLarge
        | ok y => exact .value (.double (op.apply x y)) false

/-- With a number for every variable, an expression folds to its plain value. -/
theorem simplifyWithin_folds {value : Variable → Number} {binding : Binding} {e : Expression}
    {n : Nat} (hsize : e.size ≤ n)
    (hbound : ∀ v ∈ e.variableList, binding v = some (.constant (value v) false)) :
    Folds (e.plainValue value) (simplifyWithin n binding e) := by
  -- every depth that is no less than the size will do, so both operands may use the same one
  induction e generalizing n with
  | constant a b =>
    obtain ⟨n, rfl⟩ := Nat.exists_eq_add_of_le' hsize
    exact .value a b
  | «variable» v b =>
    obtain ⟨n, rfl⟩ := Nat.exists_eq_add_of_le' hsize
    have hv := hbound v (List.mem_singleton.mpr rfl)
    rw [size, simplifyWithin, hv]
    exact .value (value v) false
  | negation e b ih =>
    obtain ⟨n, rfl⟩ := Nat.exists_eq_add_of_le' hsize
    exact folds_negation (ih (Nat.le_add_left e.size n) hbound)
  | operation op l r b ihl ihr =>
    obtain ⟨n, rfl⟩ := Nat.exists_eq_add_of_le' hsize
    rw [variableList_operation] at hbound
    have hl := @ihl (n + (l.size + r.size)) (by omega) fun v hv =>
      hbound v (List.mem_append_left _ hv)
    have hr := @ihr (n + (l.size + r.size)) (by omega) fun v hv =>
      hbound v (List.mem_append_right _ hv)
    exact folds_operation hl hr

def missingNames (hasValue : Variable → Except NumberError Bool) (rs : List (Variable × Bool)) :
    List String :=
  (rs.filter fun r => hasValue r.1 = .ok false).map referenceSource

private theorem filterMapM_missing_iff {rs : List (Variable × Bool)}
    {hasValue : Variable → Except NumberError Bool} {names : List String} :
    (rs.filterMapM fun (r : Variable × Bool) => do
      return if ← hasValue r.1 then none else some (referenceSource r)) = .ok names ↔
      (∀ r ∈ rs, ∃ b, hasValue r.1 = .ok b) ∧ names = missingNames hasValue rs := by
  induction rs generalizing names with
  | nil => simp [missingNames, eq_comm]
  | cons r rs ih =>
    rw [List.filterMapM_cons, List.forall_mem_cons, missingNames]
    cases hr : hasValue r.1 with
    | error n => simp
    | ok b =>
      cases b with
      | false =>
        rw [List.filter_cons_of_pos (by simpa using hr), List.map_cons]
        change (rs.filterMapM _ >>= fun rest => Except.ok (referenceSource r :: rest)) =
          Except.ok names ↔ _
        rw [bind_eq_ok_iff]
        constructor
        · rintro ⟨rest, hrest, h⟩
          obtain ⟨hlookup, rfl⟩ := ih.mp hrest
          exact ⟨⟨⟨false, rfl⟩, hlookup⟩, (Except.ok.inj h).symm⟩
        · rintro ⟨⟨-, hlookup⟩, rfl⟩
          exact ⟨_, ih.mpr ⟨hlookup, rfl⟩, rfl⟩
      | true =>
        rw [List.filter_cons_of_neg (by simp [hr])]
        exact ih.trans (and_congr_left' (by simp))

section RequireValues

variable {e : Expression} {hasValue : Variable → Except NumberError Bool}

theorem requireValues_of_lookups (h : ∀ v ∈ e.variableList, ∃ b, hasValue v = .ok b) :
    e.requireValues hasValue =
      if missingNames hasValue e.references = [] then .ok ()
      else .error (unresolved (missingNames hasValue e.references) e) := by
  have hmissing := filterMapM_missing_iff.mpr
    ⟨fun r hr => h r.1 (List.mem_map_of_mem hr), rfl (a := missingNames hasValue e.references)⟩
  rw [requireValues, hmissing, mapError_ok, ok_bind]
  cases missingNames hasValue e.references <;> rfl

/-- Where a variable cannot be looked up, the number that is too large is what is wrong. -/
theorem requireValues_of_lookup_error {v : Variable} {n : NumberError} (hv : v ∈ e.variableList)
    (h : hasValue v = .error n) : ∃ m, e.requireValues hasValue = .error (.number m) := by
  unfold requireValues
  generalize hmissing : (e.references.filterMapM fun (r : Variable × Bool) => do
    return if ← hasValue r.1 then none else some (referenceSource r)) = missing?
  cases missing? with
  | error m => exact ⟨m, rfl⟩
  | ok names =>
    obtain ⟨r, hr, rfl⟩ := List.mem_map.mp hv
    obtain ⟨b, hb⟩ := (filterMapM_missing_iff.mp hmissing).1 r hr
    cases h.symm.trans hb

theorem missingNames_eq_nil_iff (h : ∀ v ∈ e.variableList, ∃ b, hasValue v = .ok b) :
    missingNames hasValue e.references = [] ↔ ∀ v ∈ e.variableList, hasValue v = .ok true := by
  rw [missingNames, List.map_eq_nil_iff, List.filter_eq_nil_iff]
  constructor
  · intro hnone v hv
    obtain ⟨r, hr, rfl⟩ := List.mem_map.mp hv
    obtain ⟨b, hb⟩ := h r.1 hv
    cases b with
    | false => exact absurd hb (by simpa using hnone r hr)
    | true => exact hb
  · intro hall r hr
    simp [hall r.1 (List.mem_map_of_mem hr)]

theorem requireValues_of_hasValue (h : ∀ v ∈ e.variableList, hasValue v = .ok true) :
    e.requireValues hasValue = .ok () := by
  have hlookup : ∀ v ∈ e.variableList, ∃ b, hasValue v = .ok b := fun v hv => ⟨true, h v hv⟩
  rw [requireValues_of_lookups hlookup, if_pos ((missingNames_eq_nil_iff hlookup).mpr h)]

theorem requireValues_eq_ok_iff :
    e.requireValues hasValue = .ok () ↔ ∀ v ∈ e.variableList, hasValue v = .ok true := by
  constructor
  · intro h
    have hlookup : ∀ v ∈ e.variableList, ∃ b, hasValue v = .ok b := by
      intro v hv
      cases hb : hasValue v with
      | ok b => exact ⟨b, rfl⟩
      | error n =>
        obtain ⟨m, hm⟩ := requireValues_of_lookup_error hv hb
        cases h.symm.trans hm
    rw [requireValues_of_lookups hlookup] at h
    split_ifs at h with hnone
    exact (missingNames_eq_nil_iff hlookup).mp hnone
  · exact requireValues_of_hasValue

end RequireValues

theorem simplify_folds {e : Expression} {value : Variable → Number}
    {binding : Variable → Except NumberError (Option Expression)}
    (hbound : ∀ v ∈ e.variableList, binding v = .ok (some (.constant (value v) false))) :
    Folds (e.plainValue value) (e.simplify fun v => (binding v).toOption.join) :=
  simplifyWithin_folds (Nat.le_add_right ..) fun v hv => by rw [hbound v hv]; rfl

theorem evaluateWith_of_bound {e : Expression} {value : Variable → Number}
    {binding : Variable → Except NumberError (Option Expression)}
    (hbound : ∀ v ∈ e.variableList, binding v = .ok (some (.constant (value v) false))) :
    e.evaluateWith binding = (e.plainValue value >>= Number.toDouble).mapError .number := by
  rw [evaluateWith, requireValues_of_hasValue fun v hv => by rw [hbound v hv]; rfl, ok_bind]
  have hfolds := simplify_folds hbound
  generalize e.plainValue value = x at hfolds
  generalize e.simplify _ = s at hfolds
  cases hfolds with
  | tooLarge => rfl
  | value n _ => rfl

private theorem toDouble_ofNumber (n : Number) :
    (Json.ofNumber n).toDouble = n.toDouble.mapError .number := by
  cases n <;> rfl

private theorem negated_ofNumber (n : Number) :
    (Json.ofNumber n).negated = .ok (.ofNumber n.neg) := by
  cases n <;> rfl

theorem valueGiven_of_bound {e : Expression} {value : Variable → Number}
    {given : Variable → Except ConversionError Json}
    (hbound : ∀ v ∈ e.variableList, given v = .ok (.ofNumber (value v))) :
    e.valueGiven given = ((e.plainValue value).mapError .number).map Json.ofNumber := by
  induction e with
  | constant n b => rfl
  | «variable» v b => exact hbound v (List.mem_singleton.mpr rfl)
  | negation e b ih =>
    rw [valueGiven, ih hbound, plainValue]
    cases e.plainValue value with
    | error => rfl
    | ok n => exact negated_ofNumber n
  | operation op l r b ihl ihr =>
    rw [variableList_operation] at hbound
    rw [valueGiven, ihl fun v hv => hbound v (List.mem_append_left _ hv),
      ihr fun v hv => hbound v (List.mem_append_right _ hv), plainValue]
    generalize l.plainValue value = x
    generalize r.plainValue value = y
    cases x with
    | error => rfl
    | ok a =>
      cases y with
      | error => rfl
      | ok b =>
        simp only [mapError_ok, Except.map, ok_bind, toDouble_ofNumber]
        cases a.toDouble with
        | error => rfl
        | ok x => cases b.toDouble <;> rfl

theorem evaluateGiven_of_bound {e : Expression} {value : Variable → Number}
    {given? : Variable → Except NumberError (Option Json)}
    (hbound : ∀ v ∈ e.variableList, given? v = .ok (some (.ofNumber (value v)))) :
    e.evaluateGiven given? = (e.plainValue value >>= Number.toDouble).mapError fun n =>
    .conversion (.number n) := by
  rw [evaluateGiven, requireValues_of_hasValue fun v hv => by rw [hbound v hv]; rfl,
    mapError_ok, ok_bind]
  have hgiven : ∀ v ∈ e.variableList,
      (do return ((← (given? v).mapError .number).getD .null) : Except ConversionError Json) =
        .ok (.ofNumber (value v)) :=
    fun v hv => by rw [hbound v hv]; rfl
  simp only [valueGiven_of_bound hgiven]
  cases e.plainValue value with
  | error => rfl
  | ok n =>
    change ((Json.ofNumber n).toDouble).mapError _ = n.toDouble.mapError _
    rw [toDouble_ofNumber]
    cases n.toDouble <;> rfl

/-- Evaluation is plain evaluation. Where a binding, a context or a caller's values give a number
for every variable, the expression folds to its plain value, and evaluation gives the nearest double
of it. The only other end is a number that is too large for a double; nothing is ever reported as
missing. -/
theorem evaluate_eq_plainValue (e : Expression) (value : Variable → Number) :
    (∀ binding, (∀ v ∈ e.variableList, binding v = .ok (some (.constant (value v) false))) →
      Folds (e.plainValue value) (e.simplify fun v => (binding v).toOption.join) ∧
        e.evaluateWith binding = (e.plainValue value >>= Number.toDouble).mapError .number) ∧
    (∀ c : Context, (∀ v ∈ e.variableList, c.value? v = .ok (some (value v))) →
      e.evaluate c = (e.plainValue value >>= Number.toDouble).mapError .number) ∧
    ∀ given?, (∀ v ∈ e.variableList, given? v = .ok (some (.ofNumber (value v)))) →
      e.evaluateGiven given? = (e.plainValue value >>= Number.toDouble).mapError fun n =>
      .conversion (.number n) := by
  refine ⟨fun binding hbound => ⟨simplify_folds hbound, evaluateWith_of_bound hbound⟩,
    fun c hbound => ?_, fun given? hbound => evaluateGiven_of_bound hbound⟩
  exact evaluateWith_of_bound fun v hv => by rw [hbound v hv]; rfl

/-- A summand close to zero counts, although simplification alone would drop it. -/
theorem evaluate_tiny_plus_width :
    (Expression.operation .add (.constant (.double (.ofDecimal 1 (-10))) false)
      (.variable ⟨"width", .container⟩ false)
      false).evaluate ⟨.double (.zero false), .int 4, none, []⟩ = .ok (.ofDecimal 1 (-10)) := by
  refine ((evaluate_eq_plainValue _ fun _ => .double (.zero false)).2.1 _ ?_).trans ?_
  · intro v hv
    obtain rfl := List.mem_singleton.mp hv
    rfl
  · have hsum : Double.ofDecimal 1 (-10) + .zero false = .ofDecimal 1 (-10) := by decide +kernel
    exact congrArg Except.ok hsum

end Expression

end PanelLayout
