import PanelLayout.Proofs.Expression.Naming
import PanelLayout.Proofs.Expression.Range

/-!
# Scopes

What the variables of an expression refer to once it is read. The container and, where it is known,
the own size have a value for each of their names, so that an evaluation misses only custom
variables.
-/

namespace PanelLayout

def Variable.IsScoped (extended : Bool) (v : Variable) : Prop :=
  v.scope = .custom ∨ v.name ∈ builtinNames ∧ (v.scope = .own → extended = true)

theorem Names.isScoped {extended : Bool} {name : String} {v : Variable}
    (h : Names extended name v) :
    v.IsScoped extended := by
  cases h with
  | container builtin => exact .inr ⟨builtin, fun h => nomatch h⟩
  | own known builtin => exact .inr ⟨builtin, fun _ => known⟩
  | custom => exact .inl rfl

namespace Expression

variable {extended : Bool} {e : Expression} {registry : Variables}

def IsScoped (extended : Bool) (e : Expression) : Prop := ∀ v ∈ e.variableList, v.IsScoped extended

def Lacks (registry : Variables) (e : Expression) : Prop :=
  ∃ v ∈ e.variableList, v.scope = .custom ∧ registry.get? v.name = none

theorem variableList_markEnd (e : Expression) : e.markEnd.variableList = e.variableList := by
  cases e <;> rfl

theorem resolve_isScoped {s : Surface} (h : s.resolve extended = .ok e) : e.IsScoped extended := by
  induction s generalizing e with
  | number x =>
    obtain rfl := Except.ok.inj h
    intro v hv
    cases hv
  | name cs position =>
    rw [Surface.resolve] at h
    cases hname : resolveName extended (String.ofList cs) with
    | none =>
      rw [hname] at h
      cases h
    | some v =>
      rw [hname] at h
      obtain rfl := Except.ok.inj h
      intro w hw
      obtain rfl := List.mem_singleton.mp hw
      exact ((resolveName_eq_some_iff extended _ w).mp hname).isScoped
  | signed negative s ih =>
    cases negative with
    | false => exact ih h
    | true =>
      obtain ⟨operand, hoperand, h⟩ := bind_eq_ok_iff.mp h
      obtain rfl := Except.ok.inj h
      exact fun v hv => ih hoperand v hv
  | operation op l r ihl ihr =>
    obtain ⟨left, hleft, h⟩ := bind_eq_ok_iff.mp h
    obtain ⟨right, hright, h⟩ := bind_eq_ok_iff.mp h
    obtain rfl := Except.ok.inj h
    intro v hv
    rw [variableList_operation, List.mem_append] at hv
    rcases hv with hv | hv
    · exact ihl hleft v hv
    · exact ihr hright v hv
  | empty | call | callWith => cases h

theorem read_isScoped {rules : ReadingRules} {source : String} (h : read rules source = .ok e) :
    e.IsScoped rules.extended := by
  obtain ⟨s, e', hs, he⟩ := exists_surface_of_read h
  have hscoped := resolve_isScoped hs
  rcases he with rfl | rfl
  · exact hscoped
  · rwa [IsScoped, variableList_markEnd]

end Expression

theorem read_of_optionalExpression {rules : ReadingRules} {v : Json} {e? : Option Expression}
    (h : optionalExpression rules v = .ok e?) :
    ∀ e ∈ e?, ∃ source, Expression.read rules source = .ok e := by
  intro e he
  unfold optionalExpression at h
  split at h
  · obtain rfl := Except.ok.inj h
    cases he
  · rename_i source
    rw [mapError_eq_ok_iff] at h
    cases hread : Expression.read rules source with
    | error => simp [hread, Except.map] at h
    | ok e' =>
      rw [hread] at h
      obtain rfl := Except.ok.inj h
      obtain rfl := Option.some.inj he
      exact ⟨source, hread⟩
  · cases h

theorem optionalExpression_isScoped {rules : ReadingRules} {v : Json} {e? : Option Expression}
    (h : optionalExpression rules v = .ok e?) : ∀ e ∈ e?, e.IsScoped rules.extended := by
  intro e he
  obtain ⟨source, hsource⟩ := read_of_optionalExpression h e he
  exact Expression.read_isScoped hsource

namespace Context

variable {c : Context} {v : Variable}

private theorem some_ne_none {x : Except NumberError Number} :
    (do return some (← x)) ≠ (.ok none : Except NumberError _) := by
  cases x <;> simp

theorem containerValue?_ne_none {name : String} (h : name ∈ builtinNames) :
    c.containerValue? name ≠ .ok none := by
  simp only [builtinNames, List.mem_cons, List.not_mem_nil, or_false] at h
  rcases h with rfl | rfl | rfl | rfl
  · simp [containerValue?]
  · simp [containerValue?]
  · exact some_ne_none
  · exact some_ne_none

theorem ownValue?_ne_none {name : String} {width height : Number} (h : name ∈ builtinNames) :
    c.ownValue? name width height ≠ .ok none := by
  have hcentre : ∀ x : Except NumberError Number,
      (do return some (← half (← x))) ≠ (.ok none : Except NumberError _) := by
    intro x
    cases x with
    | error => simp
    | ok n => exact some_ne_none
  simp only [builtinNames, List.mem_cons, List.not_mem_nil, or_false] at h
  rcases h with rfl | rfl | rfl | rfl
  · simp [ownValue?]
  · simp [ownValue?]
  · exact hcentre _
  · exact hcentre _

theorem value?_ne_none (hscoped : v.IsScoped c.isExtended)
    (hcustom : v.scope = .custom → c.custom.lookup v.name ≠ none) :
    c.value? v ≠ .ok none := by
  obtain ⟨name, scope⟩ := v
  cases scope with
  | custom =>
    intro h
    exact hcustom rfl (Except.ok.inj h)
  | container =>
    obtain hcustom | ⟨hname, -⟩ := hscoped
    · cases hcustom
    · exact containerValue?_ne_none hname
  | own =>
    obtain hcustom | ⟨hname, hknown⟩ := hscoped
    · cases hcustom
    · obtain ⟨size, hsize⟩ := Option.isSome_iff_exists.mp (hknown rfl)
      have hvalue : c.value? ⟨name, .own⟩ = c.ownValue? name size.1 size.2 := by
        rw [value?, hsize]
      rw [hvalue]
      exact ownValue?_ne_none hname

end Context

namespace Expression

variable {e : Expression} {c : Context}

private theorem requireValues_error {hasValue : Variable → Except NumberError Bool}
    {error : EvaluationError} (h : ∀ v ∈ e.variableList, hasValue v ≠ .ok false)
    (herror : e.requireValues hasValue = .error error) :
    ∃ n, error = .number n := by
  have hnot : ¬∀ v ∈ e.variableList, hasValue v = .ok true :=
    fun hall => nomatch herror.symm.trans (requireValues_of_hasValue hall)
  simp only [not_forall] at hnot
  obtain ⟨v, hv, hnone⟩ := hnot
  cases hb : hasValue v with
  | ok b => cases b <;> simp_all
  | error n =>
    obtain ⟨m, hm⟩ := requireValues_of_lookup_error hv hb
    exact ⟨m, Except.error.inj (herror.symm.trans hm)⟩

/-- Where no variable is missing, only a number can keep an expression from having a value. -/
theorem evaluate_error (h : ∀ v ∈ e.variableList, c.value? v ≠ .ok none) {error : EvaluationError}
    (herror : e.evaluate c = .error error) : ∃ n, error = .number n := by
  cases hrequired : e.requireValues c.has with
  | error error' =>
    obtain rfl := Except.error.inj (herror.symm.trans (evaluate_of_requireValues_error hrequired))
    exact requireValues_error (fun v hv => mt Context.has_eq_false_iff.mp (h v hv)) hrequired
  | ok =>
    obtain ⟨value, hvalue⟩ := exists_value_of_required hrequired
    rw [evaluate_of_value hvalue] at herror
    generalize (e.plainValue value >>= Number.toDouble) = x at herror
    cases x with
    | error n => exact ⟨n, (Except.error.inj herror).symm⟩
    | ok x => cases herror

end Expression

namespace Variables

variable {registry : Variables} {e : Expression} {width height : Number}
    {own : Option (Number × Number)}

theorem lookup_context (registry : Variables) (width height : Number)
    (own : Option (Number × Number)) (name : String) :
    (registry.context width height own).custom.lookup name =
      (registry.get? name).map Number.double := by
  unfold context get?
  induction registry.entries with
  | nil => rfl
  | cons entry entries ih =>
    rw [List.map_cons, List.lookup_cons, List.lookup_cons]
    cases name == entry.1 with
    | true => rfl
    | false => exact ih

theorem not_lacks_of_evaluate {x : Double} (h : registry.evaluate e width height own = .ok x) :
    ¬e.Lacks registry := by
  rintro ⟨v, hv, hscope, hmissing⟩
  obtain ⟨value, hvalue⟩ := Expression.ComputesTo.of_evaluate (mapError_eq_ok_iff.mp h)
  have hbound := hvalue.bound v hv
  rw [Context.value?, hscope] at hbound
  have hlookup := Except.ok.inj hbound
  rw [lookup_context, hmissing] at hlookup
  cases hlookup

/-- An expression that lacks no variable is not said to have variables without a value, wherever it
is evaluated. -/
theorem evaluate_category_ne_unresolved (hscoped : e.IsScoped own.isSome)
    (hlacks : ¬e.Lacks registry) {error : LayoutError}
    (h : registry.evaluate e width height own = .error error) : error.category ≠ .unresolved := by
  have hvalue : ∀ v ∈ e.variableList, (registry.context width height own).value? v ≠ .ok none := by
    intro v hv
    have hknown : v.IsScoped (registry.context width height own).isExtended := hscoped v hv
    apply Context.value?_ne_none hknown
    intro hscope hlookup
    rw [lookup_context, Option.map_eq_none_iff] at hlookup
    exact hlacks ⟨v, hv, hscope, hlookup⟩
  unfold evaluate at h
  cases hx : e.evaluate (registry.context width height own) with
  | ok x =>
    rw [hx] at h
    cases h
  | error error' =>
    rw [hx] at h
    obtain rfl := Except.error.inj h
    obtain ⟨n, rfl⟩ := Expression.evaluate_error hvalue hx
    cases n <;> decide

end Variables

end PanelLayout
