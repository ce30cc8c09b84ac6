import PanelLayout.Proofs.Component.Lengths
import PanelLayout.Proofs.Expression.Scoping
import PanelLayout.Proofs.Grid.Alignment
import PanelLayout.Proofs.Grid.Failure
import PanelLayout.Proofs.Placement.Levels

/-!
# Variables without a value

Which expressions a layout pass evaluates is decided by the tree alone, and so is whether one of
them lacks a variable. A pass that ends well has met none of these, and without any of them no pass
tells of variables without a value.
-/

namespace PanelLayout

open Report (FailsOnly failsOnly_pure failsOnly_ofNumber)

namespace Component

def sizes (c : Component) : List Expression := [c.width, c.height].filterMap id

def positions (c : Component) : List Expression := [c.x, c.y].filterMap id

/-- The expressions that are evaluated for the rectangle of a component. In a cell there are
none. -/
def evaluated (c : Component) : List Expression :=
  if c.location.isSome then [] else c.sizes ++ c.positions

/-- Whether only positions refer to the own size, and all variables have names of their scopes. -/
structure IsScoped (c : Component) : Prop where
  sizes : ∀ e ∈ c.sizes, e.IsScoped false
  positions : ∀ e ∈ c.positions, e.IsScoped true

theorem mem_sizes {c : Component} {e : Expression} : e ∈ c.sizes ↔ e ∈ c.width ∨ e ∈ c.height := by
  simp [sizes, eq_comm]

theorem mem_positions {c : Component} {e : Expression} : e ∈ c.positions ↔ e ∈ c.x ∨ e ∈ c.y := by
  simp [positions, eq_comm]

end Component

def GridShape.IsScoped (g : GridShape) : Prop := ∀ e ∈ g.insets, e.IsScoped false

namespace Element

def hasVisibleCell (es : List Element) : Bool :=
  es.any fun e => e.component.visible && e.component.location.isSome

/-- The expressions that a layout pass evaluates for an element: those for its rectangle, and for a
panel the margins and frames of its grid if it has a visible child in a cell. -/
def evaluated : Element → List Expression
  | .leaf c => c.evaluated
  | .panel c body es => c.evaluated ++ if hasVisibleCell es then body.shape.insets else []

/-- Whether an expression that a layout pass evaluates for an element refers to a custom variable
that the element does not have. -/
def LacksVariable (e : Element) : Prop := ∃ ex ∈ e.evaluated, ex.Lacks e.component.registry

/-- Whether a layout pass comes from one element to another: to the element itself, and from a panel
to its visible children. -/
inductive Reaches : Element → Element → Prop
  | self (e : Element) : Reaches e e
  | child {c : Component} {body : PanelBody} {es : List Element} {e e' : Element} (he : e ∈ es)
    (hvisible : e.component.visible = true) (h : Reaches e e') : Reaches (.panel c body es) e'

/-- Whether the expressions of an element and of everything in it keep to their scopes. -/
inductive IsScoped : Element → Prop
  | leaf {c : Component} (h : c.IsScoped) : IsScoped (.leaf c)
  | panel {c : Component} {body : PanelBody} {es : List Element} (h : c.IsScoped)
      (hshape : body.shape.IsScoped) (hes : ∀ e ∈ es, IsScoped e) : IsScoped (.panel c body es)

end Element

variable {registry : Variables} {mode : Rounding} {container rect r : Rectangle}

section Values

/-! What ends well has met no missing variable. -/

theorem Component.length_not_lacks {c : Component} {e? : Option Expression}
    {default width height n : Number} {own : Option (Number × Number)}
    (h : c.length e? default width height own = .ok n) :
    ∀ e ∈ e?, ¬e.Lacks c.registry := by
  rintro e rfl
  obtain ⟨x, hx, -⟩ := bind_eq_ok_iff.mp h
  exact Variables.not_lacks_of_evaluate hx

theorem Component.renderRect_not_lacks {c : Component}
    (h : (c.renderRect container).result = .ok r) :
    ∀ e ∈ c.evaluated, ¬e.Lacks c.registry := by
  intro e he
  cases hlocation : c.location with
  | some l => simp [evaluated, hlocation] at he
  | none =>
    obtain ⟨given, x, y, width, height, hlengths, -⟩ := (renderRect_eq_ok_iff hlocation).mp h
    have hmem : (e ∈ c.width ∨ e ∈ c.height) ∨ e ∈ c.x ∨ e ∈ c.y := by
      simpa [evaluated, hlocation, mem_sizes, mem_positions] using he
    rcases hmem with (he | he) | he | he
    · exact length_not_lacks hlengths.givenWidth e he
    · exact length_not_lacks hlengths.givenHeight e he
    · exact length_not_lacks hlengths.valueX e he
    · exact length_not_lacks hlengths.valueY e he

theorem marginPixels_not_lacks {e? : Option Expression} {n : Int}
    (h : (marginPixels registry mode container e?).result = .ok n) :
    ∀ e ∈ e?, ¬e.Lacks registry := by
  rintro e rfl
  obtain ⟨x, hx, -⟩ := Report.result_bind_eq_ok_iff.mp h
  exact Variables.not_lacks_of_evaluate hx

theorem GridShape.resolveAt_not_lacks {g : GridShape} {l : Location}
    (h : (g.resolveAt registry mode l container).result = .ok r) :
    ∀ e ∈ g.insets, ¬e.Lacks registry := by
  intro e he
  obtain ⟨-, -, area, marginX, marginY, p, q, hinset, -⟩ := resolveAt_eq_ok_iff.mp h
  simp only [inset, Report.result_bind_eq_ok_iff] at hinset
  obtain ⟨_, hframeX, _, hframeY, _, -, _, hmarginX, _, hmarginY, -⟩ := hinset
  rcases mem_insets.mp he with (he | he) | he | he
  · exact marginPixels_not_lacks hframeX e he
  · exact marginPixels_not_lacks hframeY e he
  · exact marginPixels_not_lacks hmarginX e he
  · exact marginPixels_not_lacks hmarginY e he

namespace Element

variable {panel : Component} {shape : GridShape} {scale : TextScale} {depth : Nat} {e e' : Element}
    {es : List Element}
  {ps : List Placement}

theorem exists_renderRect_of_childRect (h : (e.childRect panel shape container).result = .ok rect) :
    (∃ inner, (e.component.renderRect inner).result = .ok rect) ∧
      (e.component.location.isSome → ∀ ex ∈ shape.insets, ¬ex.Lacks panel.registry) := by
  unfold childRect at h
  cases hlocation : e.component.location with
  | none =>
    rw [hlocation] at h
    exact ⟨⟨container, h⟩, fun h => nomatch h⟩
  | some l =>
    rw [hlocation] at h
    obtain ⟨cell, hcell, h⟩ := Report.result_bind_eq_ok_iff.mp h
    exact ⟨⟨cell, h⟩, fun _ => GridShape.resolveAt_not_lacks hcell⟩

theorem exists_place_of_mem (h : (placeIn panel shape scale depth container es).result = .ok ps)
    (he : e ∈ es) (hvisible : e.component.visible = true) : ∃ rect here,
      (e.childRect panel shape container).result = .ok rect ∧ (e.place scale depth rect).result =
        .ok here := by
  induction es generalizing ps with
  | nil => cases he
  | cons d es ih =>
    cases hd : d.component.visible with
    | false =>
      rw [placeIn_of_hidden hd] at h
      rcases List.mem_cons.mp he with rfl | he
      · simp [hd] at hvisible
      · exact ih h he
    | true =>
      obtain ⟨rect, here, later, hrect, hhere, hlater, -⟩ := (placeIn_of_visible hd).mp h
      rcases List.mem_cons.mp he with rfl | he
      · exact ⟨rect, here, hrect, hhere⟩
      · exact ih hlater he

/-- By induction on the way to the element, along which every rectangle was found. -/
theorem not_lacksVariable_of_place (hreach : Reaches e e') :
    ∀ {container inner rect scale depth ps}, (e.component.renderRect container).result = .ok inner →
      (e.place scale depth rect).result = .ok ps → ¬e'.LacksVariable := by
  induction hreach with
  | self e =>
    rintro container inner rect scale depth ps hrender hplace ⟨ex, hex, hlacks⟩
    have hown := Component.renderRect_not_lacks hrender
    cases e with
    | leaf c => exact hown ex hex hlacks
    | panel c body es =>
      obtain ⟨held, hheld, -⟩ := Report.result_bind_eq_ok_iff.mp hplace
      rcases List.mem_append.mp hex with hex | hex
      · exact hown ex hex hlacks
      · split at hex
        -- margins and frames were evaluated to find the cell of that child
        · rename_i hcell
          obtain ⟨child, hchild, hvisible⟩ := List.any_eq_true.mp hcell
          rw [Bool.and_eq_true] at hvisible
          obtain ⟨_, _, hrect, -⟩ := exists_place_of_mem hheld hchild hvisible.1
          exact (exists_renderRect_of_childRect hrect).2 hvisible.2 ex hex hlacks
        · cases hex
  | child he hvisible _ ih =>
    intro container inner rect scale depth ps _ hplace
    obtain ⟨held, hheld, -⟩ := Report.result_bind_eq_ok_iff.mp hplace
    obtain ⟨_, here, hrect, hhere⟩ := exists_place_of_mem hheld he hvisible
    obtain ⟨⟨_, hrender⟩, -⟩ := exists_renderRect_of_childRect hrect
    exact ih hrender hhere

theorem not_lacksVariable_of_layout {root : Element} (h : (root.layout container).result = .ok ps)
    (hreach : Reaches root e) : ¬e.LacksVariable := by
  obtain ⟨rect, hrect, hplace⟩ := Report.result_bind_eq_ok_iff.mp h
  exact not_lacksVariable_of_place hreach hrect hplace

end Element

end Values

section Failures

/-! What lacks no variable does not fail for one. -/

private theorem conversionError_ne_unresolved (e : ConversionError) : e.category ≠ .unresolved := by
  cases e with
  | number e => cases e <;> decide
  | _ => exact fun h => nomatch h

private theorem numberError_ne_unresolved (e : NumberError) : e.category ≠ .unresolved :=
  conversionError_ne_unresolved (.number e)

theorem Number.toPixel_failsOnly (n : Number) (mode : Rounding) :
    (n.toPixel mode).FailsOnly (· ≠ .unresolved) :=
  .bind (failsOnly_ofNumber numberError_ne_unresolved) fun _ => Double.toPixel_failsOnly

theorem Component.length_failsOnly {c : Component} {e? : Option Expression}
    {default width height : Number} {own : Option (Number × Number)}
    (hscoped : ∀ e ∈ e?, e.IsScoped own.isSome) (hlacks : ∀ e ∈ e?, ¬e.Lacks c.registry) :
    (liftM (c.length e? default width height own) : Report Number).FailsOnly (· ≠ .unresolved) := by
  intro error herror
  cases e? with
  | none => cases herror
  | some e =>
    cases hx : c.registry.evaluate e width height own with
    | ok x => simp [length, hx] at herror
    | error error' =>
      obtain rfl : error' = error := by simpa [length, hx] using herror
      exact Variables.evaluate_category_ne_unresolved (hscoped e rfl) (hlacks e rfl) hx

theorem Component.renderRect_failsOnly {c : Component} (hscoped : c.IsScoped)
    (hlacks : ∀ e ∈ c.evaluated, ¬e.Lacks c.registry) :
    (c.renderRect container).FailsOnly (· ≠ .unresolved) := by
  unfold renderRect
  cases hlocation : c.location with
  | some l => exact failsOnly_pure
  | none =>
    have hfree : c.evaluated = c.sizes ++ c.positions := by rw [evaluated, hlocation]; rfl
    rw [hfree] at hlacks
    have hsize : ∀ e? default, (∀ e ∈ e?, e ∈ c.sizes) →
        (liftM (c.length e? default container.width container.height none) : Report
          Number).FailsOnly (· ≠ .unresolved) :=
      fun e? default h => length_failsOnly (fun e he => hscoped.sizes e (h e he))
        fun e he => hlacks e (List.mem_append_left _ (h e he))
    have hposition : ∀ e? default own, (∀ e ∈ e?, e ∈ c.positions) →
        (liftM (c.length e? default container.width container.height (some own)) : Report
          Number).FailsOnly
          (· ≠ .unresolved) :=
      fun e? default own h => length_failsOnly (fun e he => hscoped.positions e (h e he))
        fun e he => hlacks e (List.mem_append_right _ (h e he))
    have hnumber :
        ∀ {α : Type} (x : Except NumberError α), (Report.ofNumber x).FailsOnly (· ≠ .unresolved) :=
      fun x => failsOnly_ofNumber numberError_ne_unresolved
    refine .bind (hsize _ _ fun e he => mem_sizes.mpr (.inl he)) fun w => ?_
    refine .bind (hsize _ _ fun e he => mem_sizes.mpr (.inr he)) fun h => ?_
    refine .bind (hposition _ _ _ fun e he => mem_positions.mpr (.inl he)) fun x => ?_
    refine .bind (hposition _ _ _ fun e he => mem_positions.mpr (.inr he)) fun y => ?_
    refine .bind (hnumber _) fun w => .bind (hnumber _) fun h => ?_
    refine .bind (x.toPixel_failsOnly _) fun left => .bind (hnumber _) fun left => ?_
    refine .bind (y.toPixel_failsOnly _) fun top => .bind (hnumber _) fun top => ?_
    exact .bind (w.toPixel_failsOnly _) fun width => .bind (h.toPixel_failsOnly _) fun height =>
      failsOnly_pure

namespace Element

variable {panel : Component} {shape : GridShape}

theorem IsScoped.component {e : Element} (h : e.IsScoped) : e.component.IsScoped := by
  cases h with
  | leaf h => exact h
  | panel h _ _ => exact h

theorem component_evaluated {e : Element} : ∀ ex ∈ e.component.evaluated, ex ∈ e.evaluated := by
  intro ex hex
  cases e with
  | leaf c => exact hex
  | panel c body es => exact List.mem_append_left _ hex

theorem childRect_failsOnly {e : Element} (hscoped : e.IsScoped) (hlacks : ¬e.LacksVariable)
    (hshape : shape.IsScoped)
    (hinsets : e.component.location.isSome → ∀ ex ∈ shape.insets, ¬ex.Lacks panel.registry) :
    (e.childRect panel shape container).FailsOnly (· ≠ .unresolved) := by
  have hrender : ∀ inner, (e.component.renderRect inner).FailsOnly (· ≠ .unresolved) := by
    intro inner
    apply Component.renderRect_failsOnly hscoped.component
    exact fun ex hex h => hlacks ⟨ex, component_evaluated ex hex, h⟩
  unfold childRect
  split
  · exact hrender container
  · rename_i l hlocation
    refine .bind ?_ fun cell => hrender cell
    refine GridShape.resolveAt_failsOnly_of conversionError_ne_unresolved (.inr (by decide)) ?_
    intro ex hex width height error herror
    have hfull : ¬ex.Lacks panel.registry := hinsets (by rw [hlocation]; rfl) ex hex
    have hknown : ex.IsScoped (none : Option (Number × Number)).isSome := hshape ex hex
    exact Variables.evaluate_category_ne_unresolved hknown hfull herror

mutual
theorem place_failsOnly {scale : TextScale} {depth : Nat} {rect : Rectangle} {e : Element}
    (hscoped : e.IsScoped) (hlacks : ∀ e', Reaches e e' → ¬e'.LacksVariable) :
    (e.place scale depth rect).FailsOnly (· ≠ .unresolved) := by
  cases hscoped with
  | leaf h => exact failsOnly_pure
  | @panel c body es h hshape hes =>
    unfold place
    refine .bind ?_ fun _ => failsOnly_pure
    apply placeIn_failsOnly hshape hes
    · intro e he hvisible e' hreach
      exact hlacks e' (.child he hvisible hreach)
    · intro hcell ex hex hmissing
      refine hlacks _ (.self _) ⟨ex, ?_, hmissing⟩
      rw [evaluated, if_pos hcell]
      exact List.mem_append_right _ hex

theorem placeIn_failsOnly {panel : Component} {shape : GridShape} {scale : TextScale} {depth : Nat}
    {container : Rectangle} {es : List Element} (hshape : shape.IsScoped)
    (hscoped : ∀ e ∈ es, e.IsScoped)
    (hlacks : ∀ e ∈ es, e.component.visible = true → ∀ e', Reaches e e' → ¬e'.LacksVariable)
    (hinsets : hasVisibleCell es = true → ∀ ex ∈ shape.insets, ¬ex.Lacks panel.registry) :
    (placeIn panel shape scale depth container es).FailsOnly (· ≠ .unresolved) := by
  cases es with
  | nil =>
    unfold placeIn
    exact failsOnly_pure
  | cons e es =>
    have hlater : (placeIn panel shape scale depth container es).FailsOnly (· ≠ .unresolved) := by
      apply placeIn_failsOnly hshape
      · exact fun d hd => hscoped d (List.mem_cons_of_mem e hd)
      · exact fun d hd => hlacks d (List.mem_cons_of_mem e hd)
      · intro hcell
        apply hinsets
        rw [hasVisibleCell, List.any_cons, ← hasVisibleCell, hcell, Bool.or_true]
    cases hvisible : e.component.visible with
    | false =>
      rw [placeIn_of_hidden hvisible]
      exact hlater
    | true =>
      have hreach := hlacks e List.mem_cons_self hvisible
      have he := hscoped e List.mem_cons_self
      unfold placeIn
      rw [hvisible]
      refine .bind ?_ fun rect => .bind (place_failsOnly he hreach) fun here =>
        .bind hlater fun later => failsOnly_pure
      refine childRect_failsOnly he (hreach e (.self e)) hshape fun hlocation => hinsets ?_
      rw [hasVisibleCell, List.any_cons, hvisible, hlocation]
      rfl
end

/-- Where no element lacks a variable, no layout pass tells of variables without a value. -/
theorem layout_failsOnly {root : Element} (hscoped : root.IsScoped)
    (hlacks : ∀ e, Reaches root e → ¬e.LacksVariable) :
    (root.layout container).FailsOnly (· ≠ .unresolved) := by
  refine .bind ?_ fun rect => place_failsOnly hscoped hlacks
  apply Component.renderRect_failsOnly hscoped.component
  exact fun ex hex h => hlacks root (.self root) ⟨ex, component_evaluated ex hex, h⟩

end Element

end Failures

end PanelLayout
