import PanelLayout.Expression.Given
import PanelLayout.Proofs.Variables

/-!
# Relevance

An evaluation depends on nothing but the values of the variables that the expression mentions,
whether it succeeds or not. So what a caller does with other names, and the own size where none of
its lengths is mentioned, makes no difference.
-/

namespace PanelLayout

private theorem filterMapM_congr {ε α β : Type} {f g : α → Except ε (Option β)} {xs : List α}
    (h : ∀ x ∈ xs, f x = g x) :
    xs.filterMapM f = xs.filterMapM g := by
  induction xs with
  | nil => rfl
  | cons x xs ih =>
    rw [List.filterMapM_cons, List.filterMapM_cons, h x List.mem_cons_self,
      ih fun y hy => h y (List.mem_cons_of_mem x hy)]

namespace Expression

variable {e : Expression} {c d : Context}

theorem requireValues_congr {f g : Variable → Except NumberError Bool}
    (h : ∀ v ∈ e.variableList, f v = g v) :
    e.requireValues f = e.requireValues g := by
  unfold requireValues
  rw [filterMapM_congr]
  intro r hr
  rw [h r.1 (List.mem_map_of_mem hr)]

theorem evaluate_congr (h : ∀ v ∈ e.variableList, c.value? v = d.value? v) :
    e.evaluate c = e.evaluate d := by
  have hsame : e.requireValues c.has = e.requireValues d.has :=
    requireValues_congr fun v hv => by rw [Context.has, Context.has, h v hv]
  cases hrequired : e.requireValues c.has with
  | error error =>
    rw [evaluate_of_requireValues_error hrequired,
      evaluate_of_requireValues_error (hsame ▸ hrequired)]
  | ok =>
    -- each variable has a number, and both evaluations are plain ones with these
    obtain ⟨value, hvalue⟩ := exists_value_of_required hrequired
    rw [evaluate_of_value hvalue, evaluate_of_value fun v hv => h v hv ▸ hvalue v hv]

theorem valueGiven_congr {f g : Variable → Except ConversionError Json}
    (h : ∀ v ∈ e.variableList, f v = g v) :
    e.valueGiven f = e.valueGiven g := by
  induction e with
  | constant n b => rfl
  | «variable» v b => exact h v (List.mem_singleton.mpr rfl)
  | negation e b ih => rw [valueGiven, valueGiven, ih h]
  | operation op l r b ihl ihr =>
    rw [variableList_operation] at h
    rw [valueGiven, valueGiven, ihl fun v hv => h v (List.mem_append_left _ hv),
      ihr fun v hv => h v (List.mem_append_right _ hv)]

theorem evaluateGiven_congr {f g : Variable → Except NumberError (Option Json)}
    (h : ∀ v ∈ e.variableList, f v = g v) :
    e.evaluateGiven f = e.evaluateGiven g := by
  have hrequired : (e.requireValues fun v => do return (← f v).isSome) =
      e.requireValues fun v => do return (← g v).isSome :=
    requireValues_congr fun v hv => by rw [h v hv]
  have hvalue : (e.valueGiven fun v => do return ((← (f v).mapError .number).getD .null)) =
      e.valueGiven fun v => do return ((← (g v).mapError .number).getD .null) :=
    valueGiven_congr fun v hv => by rw [h v hv]
  simp only [evaluateGiven, hrequired, hvalue]

end Expression

namespace Variables

inductive Call where
  | define (name value : Json)
  | undefine (name : String)

def Call.name : Call → Json
  | .define name _ => name
  | .undefine name => .text name

/-- The registry after a call. A definition that is refused leaves it as it is. -/
def call (registry : Variables) : Call → Variables
  | .define name value => (registry.define name value).toOption.getD registry
  | .undefine name => registry.erase name

def afterCalls (registry : Variables) (calls : List Call) : Variables := calls.foldl call registry

variable {registry : Variables} {name : String}

theorem get?_call_of_ne {request : Call} (h : request.name ≠ .text name) :
    (registry.call request).get? name = registry.get? name := by
  cases request with
  | define key value =>
    rw [call]
    cases hdefine : registry.define key value with
    | error => rfl
    | ok registry' =>
      obtain ⟨other, x, rfl, -, -, rfl⟩ := define_eq_ok_iff.mp hdefine
      refine get?_set_of_ne ?_
      rintro rfl
      exact h rfl
  | undefine other =>
    refine get?_erase_of_ne ?_
    rintro rfl
    exact h rfl

theorem get?_afterCalls_of_ne {calls : List Call}
    (h : ∀ request ∈ calls, request.name ≠ .text name) :
    (registry.afterCalls calls).get? name = registry.get? name := by
  induction calls generalizing registry with
  | nil => rfl
  | cons request calls ih =>
    have hrest := @ih (registry.call request) fun other hother =>
      h other (List.mem_cons_of_mem request hother)
    exact hrest.trans (get?_call_of_ne (h request List.mem_cons_self))

end Variables

namespace Expression

theorem scope_ne_own {e : Expression} (h : e.usesOwnSize = false) {v : Variable}
    (hv : v ∈ e.variableList) :
    v.scope ≠ .own := by
  simpa using List.any_eq_false.mp h v hv

/-- Only the variables that an expression mentions matter. In two contexts that give the same for
each of them, a number or none, its evaluation ends in the same way, and so it does with given
values of any kind. Definitions and removals of other names change no evaluation, whether the own
size is known or not. Where nothing of the own size is mentioned, the own size makes no
difference. -/
theorem evaluate_only_mentioned (e : Expression) :
    (∀ c d : Context, (∀ v ∈ e.variableList, c.value? v = d.value? v) →
      e.evaluate c = e.evaluate d) ∧
    (∀ f g : Variable → Except NumberError (Option Json), (∀ v ∈ e.variableList, f v = g v) →
      e.evaluateGiven f = e.evaluateGiven g) ∧
    (∀ (registry : Variables) (calls : List Variables.Call),
      (∀ v ∈ e.variableList, v.scope = .custom → ∀ request ∈ calls, request.name ≠ .text v.name) →
      ∀ width height own,
        (registry.afterCalls calls).evaluate e width height own =
          registry.evaluate e width height own) ∧
    (e.usesOwnSize = false →
      ∀ (registry : Variables) (width height : Number) (own : Number × Number),
      registry.evaluate e width height (some own) = registry.evaluate e width height) := by
  refine ⟨fun c d => evaluate_congr, fun f g => evaluateGiven_congr, ?_, ?_⟩
  · intro registry calls hcalls width height own
    unfold Variables.evaluate
    rw [evaluate_congr]
    intro v hv
    exact Variables.value?_context_of_get?_eq (fun hscope =>
      Variables.get?_afterCalls_of_ne (hcalls v hv hscope))
      width height own
  · intro hown registry width height own
    unfold Variables.evaluate
    rw [evaluate_congr]
    intro v hv
    obtain ⟨name, scope⟩ := v
    cases scope with
    | container | custom => rfl
    | own => exact absurd rfl (scope_ne_own hown hv)

/-- Half a width and a zoom: neither the height, nor `Width` and `edge`, nor the own size
matters. -/
theorem evaluate_only_mentioned_zoom :
    ∃ e, read { extended := true } "width/2 + zoom" = .ok e ∧
      (∀ height : Number, e.evaluate ⟨.int 100, height, none, [("zoom", .int 3)]⟩ =
        e.evaluate ⟨.int 100, .int 80, none, [("zoom", .int 3)]⟩) ∧
      e.evaluateGiven
        (givenValue? ⟨.int 100, .int 80, none, []⟩ [("zoom", .text "3"), ("edge", .null)]) =
        e.evaluateGiven (givenValue? ⟨.int 100, .int 80, none, []⟩ [("zoom", .text "3")]) ∧
      ∀ registry : Variables,
        (registry.afterCalls [.define (.text "Width") (.number (.int 7)),
          .undefine "edge"]).evaluate e (.int 100) (.int 80) =
          registry.evaluate e (.int 100) (.int 80) ∧
        registry.evaluate e (.int 100) (.int 80) (some (.int 10, .int 10)) =
          registry.evaluate e (.int 100) (.int 80) := by
  have hread : read { extended := true } "width/2 + zoom" = .ok (.operation .add
      (.operation .div (.variable ⟨"width", .container⟩ false)
        (.constant (.double (.ofInt 2)) false) false)
      (.variable ⟨"zoom", .custom⟩ false) false) := by
    rw [← toOption_eq_some_iff]
    decide +kernel
  generalize he : operation .add _ _ _ = e at hread
  have hvariables : e.variableList = [⟨"width", .container⟩, ⟨"zoom", .custom⟩] := by
    rw [← he]
    rfl
  obtain ⟨hcontext, hgiven, hcalls, hown⟩ := evaluate_only_mentioned e
  refine ⟨e, hread, fun height => hcontext _ _ ?_, hgiven _ _ ?_, fun registry =>
    ⟨?_, hown ?_ _ _ _ _⟩⟩
  · simp [hvariables, Context.value?, Context.containerValue?]
  · rw [hvariables, List.forall_mem_cons, List.forall_mem_singleton]
    exact ⟨rfl, rfl⟩
  · exact hcalls registry _ (by simp [hvariables, Variables.Call.name]) _ _ _
  · rw [usesOwnSize, hvariables]
    rfl

end Expression

end PanelLayout
