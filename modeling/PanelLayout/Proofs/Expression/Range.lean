import PanelLayout.Grid.Axis
import PanelLayout.Proofs.Blame
import PanelLayout.Proofs.Double.Range
import PanelLayout.Proofs.Expression.Exactness
import PanelLayout.Proofs.Expression.Values

/-!
# Evaluation in range

Numbers that are written in an expression have a nearest double. Where those of a context have one
too, evaluation ends with a double or names the variables without a value; it never meets a number
that is too large.
-/

namespace PanelLayout

open Number (Fits)

namespace Expression

variable {e : Expression}

def InRange (e : Expression) : Prop := ∀ n ∈ e.constants, Fits n

theorem InRange.inRange_eq (h : e.InRange) : e.inRange = .ok () := by
  unfold InRange at h
  unfold inRange
  generalize e.constants = ns at h
  induction ns with
  | nil => rfl
  | cons n ns ih =>
    obtain ⟨x, hx⟩ := h n List.mem_cons_self
    have htail := ih fun m hm => h m (List.mem_cons_of_mem n hm)
    rw [List.forM, hx]
    exact htail

theorem InRange.markEnd (h : e.InRange) : e.markEnd.InRange := by
  cases e <;> exact h

theorem resolve_inRange {extended : Bool} {s : Surface} (h : s.resolve extended = .ok e) :
    e.InRange := by
  induction s generalizing e with
  | number x =>
    obtain rfl := Except.ok.inj h
    intro n hn
    rw [List.mem_singleton.mp hn]
    exact Number.fits_double x
  | name cs position =>
    rw [Surface.resolve] at h
    split at h
    · obtain rfl := Except.ok.inj h
      intro n hn
      cases hn
    · cases h
  | signed negative s ih =>
    cases negative with
    | false => exact ih h
    | true =>
      obtain ⟨operand, hoperand, h⟩ := bind_eq_ok_iff.mp h
      obtain rfl := Except.ok.inj h
      exact fun n hn => ih hoperand n hn
  | operation op l r ihl ihr =>
    obtain ⟨left, hleft, h⟩ := bind_eq_ok_iff.mp h
    obtain ⟨right, hright, h⟩ := bind_eq_ok_iff.mp h
    obtain rfl := Except.ok.inj h
    intro n hn
    rcases List.mem_append.mp hn with hn | hn
    · exact ihl hleft n hn
    · exact ihr hright n hn
  | empty | call | callWith => cases h

theorem exists_surface_of_read {rules : ReadingRules} {source : String}
    (h : read rules source = .ok e) :
    ∃ s e', Surface.resolve rules.extended s = .ok e' ∧ (e = e' ∨ e = e'.markEnd) := by
  unfold read at h
  obtain ⟨ts, -, h⟩ := bind_eq_ok_iff.mp (mapError_eq_ok_iff.mp h)
  obtain ⟨e', he', h⟩ := bind_eq_ok_iff.mp h
  obtain ⟨-, s, -, -, hs⟩ := ofTokens_eq_ok_iff_form.mp he'
  refine ⟨s, e', hs, ?_⟩
  obtain rfl := Except.ok.inj h
  split
  · exact .inr rfl
  · exact .inl rfl

theorem read_inRange {rules : ReadingRules} {source : String} (h : read rules source = .ok e) :
    e.InRange := by
  obtain ⟨s, e', hs, rfl | rfl⟩ := exists_surface_of_read h
  · exact resolve_inRange hs
  · exact (resolve_inRange hs).markEnd

end Expression

theorem optionalExpression_yields (rules : ReadingRules) (v : Json) :
    Yields (fun e? => ∀ e ∈ e?, Expression.InRange e) (optionalExpression rules v) := by
  unfold optionalExpression
  split
  · intro e he
    cases he
  · rename_i s
    cases h : Expression.read rules s with
    | error e => exact trivial
    | ok e =>
      intro e' he'
      obtain rfl := Option.some.inj he'
      exact Expression.read_inRange h
  · exact trivial

/-- Whether a size of the component itself and its difference to that of the container have nearest
doubles. -/
def Number.FitsWithin (size own : Number) : Prop :=
  own.Fits ∧ ∃ rest, size.sub own = .ok rest ∧ rest.Fits

structure Context.InRange (c : Context) : Prop where
  width : c.width.Fits
  height : c.height.Fits
  own : ∀ size ∈ c.own, c.width.FitsWithin size.1 ∧ c.height.FitsWithin size.2
  custom : ∀ entry ∈ c.custom, entry.2.Fits

namespace Context

variable {c : Context}

private theorem half_fits {n : Number} (h : n.Fits) : ∃ m, half n = .ok m ∧ m.Fits := by
  obtain ⟨x, hx⟩ := h.half
  exact ⟨.double x, hx, Number.fits_double x⟩

theorem InRange.containerValue? (h : c.InRange) (name : String) :
    ∃ n?, c.containerValue? name = .ok n? ∧ ∀ n ∈ n?, n.Fits := by
  obtain ⟨x, hx, hxfits⟩ := half_fits h.width
  obtain ⟨y, hy, hyfits⟩ := half_fits h.height
  unfold Context.containerValue?
  split
  · exact ⟨_, rfl, by simpa using h.width⟩
  · exact ⟨_, rfl, by simpa using h.height⟩
  · exact ⟨some x, by rw [hx]; rfl, by simpa using hxfits⟩
  · exact ⟨some y, by rw [hy]; rfl, by simpa using hyfits⟩
  · exact ⟨none, rfl, by simp⟩

private theorem ownCentre_fits {size own : Number} (h : size.FitsWithin own) :
    ∃ m, (size.sub own >>= half) = .ok m ∧ m.Fits := by
  obtain ⟨-, rest, hrest, hfits⟩ := h
  rw [hrest]
  exact half_fits hfits

theorem InRange.ownValue? {size : Number × Number} (hx : c.width.FitsWithin size.1)
    (hy : c.height.FitsWithin size.2) (name : String) :
    ∃ n?, c.ownValue? name size.1 size.2 = .ok n? ∧ ∀ n ∈ n?, n.Fits := by
  obtain ⟨x, hcentreX, hxfits⟩ := ownCentre_fits hx
  obtain ⟨y, hcentreY, hyfits⟩ := ownCentre_fits hy
  unfold Context.ownValue?
  split
  · exact ⟨_, rfl, by simpa using hx.1⟩
  · exact ⟨_, rfl, by simpa using hy.1⟩
  · refine ⟨some x, ?_, by simpa using hxfits⟩
    rw [← bind_assoc, hcentreX]
    rfl
  · refine ⟨some y, ?_, by simpa using hyfits⟩
    rw [← bind_assoc, hcentreY]
    rfl
  · exact ⟨none, rfl, by simp⟩

theorem InRange.value? (h : c.InRange) (v : Variable) :
    ∃ n?, c.value? v = .ok n? ∧ ∀ n ∈ n?, n.Fits := by
  unfold Context.value?
  split
  · exact h.containerValue? v.name
  · rename_i width height _ hown
    obtain ⟨hx, hy⟩ := h.own (width, height) hown
    exact InRange.ownValue? hx hy v.name
  · exact ⟨none, rfl, by simp⟩
  · refine ⟨_, rfl, fun n hn => ?_⟩
    obtain ⟨entry, hentry, rfl⟩ : ∃ entry ∈ c.custom, entry.2 = n := by
      obtain ⟨l, r, hsplit, -⟩ := List.lookup_eq_some_iff.mp hn
      exact ⟨(v.name, n), by simp [hsplit], rfl⟩
    exact h.custom entry hentry

end Context

namespace Expression

variable {e : Expression} {c : Context}

theorem InRange.plainValue (h : e.InRange) {value : Variable → Number}
    (hvalue : ∀ v ∈ e.variableList, (value v).Fits) :
    ∃ n, e.plainValue value = .ok n ∧ n.Fits := by
  induction e with
  | constant n b => exact ⟨n, rfl, h n (List.mem_singleton.mpr rfl)⟩
  | «variable» v b => exact ⟨value v, rfl, hvalue v (List.mem_singleton.mpr rfl)⟩
  | negation e b ih =>
    obtain ⟨n, hn, hfits⟩ := ih h hvalue
    refine ⟨n.neg, ?_, hfits.neg⟩
    rw [Expression.plainValue, hn]
    rfl
  | operation op l r b ihl ihr =>
    rw [variableList_operation] at hvalue
    obtain ⟨m, hm, x, hx⟩ := ihl (fun n hn => h n (List.mem_append_left _ hn))
      fun v hv => hvalue v (List.mem_append_left _ hv)
    obtain ⟨n, hn, y, hy⟩ := ihr (fun n hn => h n (List.mem_append_right _ hn))
      fun v hv => hvalue v (List.mem_append_right _ hv)
    refine ⟨.double (op.apply x y), ?_, Number.fits_double _⟩
    rw [Expression.plainValue, hm, hn]
    simp only [ok_bind, hx, hy]
    rfl

theorem InRange.requireValues (he : e.InRange) {hasValue : Variable → Except NumberError Bool}
    (h : ∀ v, ∃ b, hasValue v = .ok b) :
    e.requireValues hasValue = .ok () ∨ ∃ names, e.requireValues hasValue =
      .error (.unresolved names e) := by
  rw [requireValues_of_lookups fun v _ => h v]
  split
  · exact .inl rfl
  · exact .inr ⟨_, by rw [unresolved, he.inRange_eq]⟩

/-- In range, evaluation ends with a double or with variables that have no value. -/
theorem InRange.evaluate (he : e.InRange) (hc : c.InRange) :
    (∃ x, e.evaluate c = .ok x) ∨ ∃ names, e.evaluate c = .error (.unresolved names e) := by
  have htotal : ∀ v, ∃ b, c.has v = .ok b := by
    intro v
    obtain ⟨n?, hn, -⟩ := hc.value? v
    exact ⟨_, by rw [Context.has, hn]; rfl⟩
  rcases he.requireValues htotal with hall | ⟨names, hmissing⟩
  · left
    obtain ⟨value, hvalue⟩ := exists_value_of_required hall
    have hfits : ∀ v ∈ e.variableList, Fits (value v) := by
      intro v hv
      obtain ⟨n?, hn, hfits⟩ := hc.value? v
      exact hfits (value v) (Except.ok.inj (hn.symm.trans (hvalue v hv)))
    obtain ⟨n, hplain, x, hx⟩ := he.plainValue hfits
    exact ⟨x, by rw [evaluate_of_value hvalue, hplain, ok_bind, hx, mapError_ok]⟩
  · exact .inr ⟨names, evaluate_of_requireValues_error hmissing⟩

end Expression

namespace Variables

variable {vs : Variables} {width height : Number}

theorem context_inRange (hw : width.Fits) (hh : height.Fits) {own : Option (Number × Number)}
    (hown : ∀ size ∈ own, width.FitsWithin size.1 ∧ height.FitsWithin size.2) :
    (vs.context width height own).InRange := by
  refine ⟨hw, hh, hown, fun entry hentry => ?_⟩
  obtain ⟨e, -, rfl⟩ := List.mem_map.mp hentry
  exact Number.fits_double e.2

theorem evaluate_yields {e : Expression} (he : e.InRange) {own : Option (Number × Number)}
    (hc : (vs.context width height own).InRange) :
    Yields (fun _ => True) (vs.evaluate e width height own) := by
  unfold Variables.evaluate
  rcases he.evaluate hc with ⟨x, hx⟩ | ⟨names, hnames⟩
  · rw [hx]
    exact trivial
  · rw [hnames]
    exact trivial

end Variables

end PanelLayout
