import PanelLayout.Proofs.Component.Lengths
import PanelLayout.Proofs.Expression.Values

/-!
# Own sizes in positions

A position may refer to the size of its component. What it gets is the size as its expression gives
it, before an end coordinate is counted from the position. Along one axis an end coordinate excludes
such references, so there they mean the size of the component; across the axes nothing excludes
them.
-/

namespace PanelLayout

def ownWidth : Variable := ⟨"width", .own⟩

def ownHeight : Variable := ⟨"height", .own⟩

theorem Expression.usesOwnSize_of_mem {e : Expression} {v : Variable} (hv : v ∈ e.variableList)
    (hown : v.scope = .own) :
    e.usesOwnSize = true := by
  refine List.any_eq_true.mpr ⟨v, hv, ?_⟩
  rw [hown]
  rfl

theorem checkAxis_eq_ok_iff {axis : Axis} {position size : Option Expression} :
    checkAxis axis position size = .ok () ↔
      ∀ p, position = some p → p.usesOwnSize = true → size.any (·.ends) = false := by
  cases position with
  | none => simp [checkAxis]
  | some p =>
    cases size with
    | none => simp [checkAxis]
    | some s => cases hs : s.ends <;> cases hp : p.usesOwnSize <;> simp [checkAxis, hs, hp]

namespace Component

/-- Components as they come about: they start without expressions, and their sizes and positions are
set by values that were accepted. Everything else about them may change at any time. -/
inductive Configured : Component → Prop
  | new (name : Json) (visible : Bool) (registry : Variables) (settings : Settings)
      (location : Option Location) : Configured { name, visible, registry, settings, location }
  | sized {c c' : Component} {width height : Json} :
      Configured c → c.setSize width height = .ok c' → Configured c'
  | positioned {c c' : Component} {x y : Json} :
      Configured c → c.setPosition x y = .ok c' → Configured c'
  | changed {c : Component} (name : Json) (visible : Bool) (registry : Variables)
      (settings : Settings) (location : Option Location) :
      Configured c → Configured { c with name, visible, registry, settings, location }

/-- No axis has both an end coordinate and a position that uses the own size. -/
theorem Configured.checked {c : Component} (h : c.Configured) :
    checkAxis .horizontal c.x c.width = .ok () ∧ checkAxis .vertical c.y c.height = .ok () := by
  induction h with
  | new => exact ⟨rfl, rfl⟩
  | sized _ hset =>
    simp only [setSize, bind_eq_ok_iff] at hset
    obtain ⟨width, -, height, -, ⟨⟩, hx, ⟨⟩, hy, hc⟩ := hset
    obtain rfl := Except.ok.inj hc
    exact ⟨hx, hy⟩
  | positioned _ hset =>
    simp only [setPosition, bind_eq_ok_iff] at hset
    obtain ⟨x, -, y, -, ⟨⟩, hx, ⟨⟩, hy, hc⟩ := hset
    obtain rfl := Except.ok.inj hc
    exact ⟨hx, hy⟩
  | changed _ _ _ _ _ _ ih => exact ih

theorem Configured.withGeometry {c c' : Component} (h : c.Configured) {x y width height : Json}
    (hc : c.withGeometry x y width height = .ok c') : c'.Configured := by
  obtain ⟨sized, hsized, hc⟩ := bind_eq_ok_iff.mp hc
  exact (h.sized hsized).positioned hc

theorem lengthFrom_of_plain {size : Option Expression} (h : size.any (·.ends) = false)
    {n position rest : Number} (hrest : lengthFrom size n position = .ok rest) : n = rest := by
  rw [lengthFrom, h, if_neg Bool.false_ne_true] at hrest
  exact Except.ok.inj hrest

/-- A position of a component is computed by plain evaluation from the numbers in its context. -/
theorem computesTo_of_length {c : Component} {e : Expression} {default width height n : Number}
    {own : Option (Number × Number)} (h : c.length (some e) default width height own = .ok n) :
    ∃ value x, n = .double x ∧ e.ComputesTo (c.registry.context width height own) value x := by
  obtain ⟨x, hx, hn⟩ := bind_eq_ok_iff.mp h
  obtain ⟨value, hvalue⟩ := Expression.ComputesTo.of_evaluate (mapError_eq_ok_iff.mp hx)
  exact ⟨value, x, (Except.ok.inj hn).symm, hvalue⟩

/-- What the own sizes mean. The rectangle of a free component is rounded from its lengths. The
position on each axis is computed by plain evaluation in the context of the container, where the own
size along the axis is the very size that is rounded. The own size across the axis is what the
expression for that size gives: the size itself, unless it is an end coordinate. -/
theorem renderRect_own_size {c : Component} (hc : c.Configured) (hfree : c.location = none)
    {container r : Rectangle} (hr : (c.renderRect container).result = .ok r) :
    ∃ given x y width height, c.HasLengths container given x y width height ∧
      IsRounded c.settings.freeRounding container x y width height r ∧
      (∀ e, c.x = some e → ∃ value position, x = .double position ∧
        e.ComputesTo (c.registry.context container.width container.height (some given))
          value position ∧
        (ownWidth ∈ e.variableList → value ownWidth = width) ∧
        (ownHeight ∈ e.variableList → value ownHeight = given.2 ∧
          (c.height.any (·.ends) = false → value ownHeight = height))) ∧
      ∀ e, c.y = some e → ∃ value position, y = .double position ∧
        e.ComputesTo (c.registry.context container.width container.height (some given))
          value position ∧
        (ownHeight ∈ e.variableList → value ownHeight = height) ∧
        (ownWidth ∈ e.variableList → value ownWidth = given.1 ∧
          (c.width.any (·.ends) = false → value ownWidth = width)) := by
  obtain ⟨hcheckX, hcheckY⟩ := hc.checked
  obtain ⟨given, x, y, width, height, hlengths, hrounded⟩ := (renderRect_eq_ok_iff hfree).mp hr
  have hwidth {e : Expression} {value : Variable → Number} {position : Double}
      (hvalue : e.ComputesTo (c.registry.context container.width container.height (some given))
        value position)
      (hmem : ownWidth ∈ e.variableList) : value ownWidth = given.1 :=
    Option.some.inj (Except.ok.inj ((hvalue.bound _ hmem).symm.trans rfl))
  have hheight {e : Expression} {value : Variable → Number} {position : Double}
      (hvalue : e.ComputesTo (c.registry.context container.width container.height (some given))
        value position)
      (hmem : ownHeight ∈ e.variableList) : value ownHeight = given.2 :=
    Option.some.inj (Except.ok.inj ((hvalue.bound _ hmem).symm.trans rfl))
  refine ⟨given, x, y, width, height, hlengths, hrounded, fun e he => ?_, fun e he => ?_⟩
  · have hlength := hlengths.valueX
    rw [he] at hlength
    obtain ⟨value, position, hx, hvalue⟩ := computesTo_of_length hlength
    refine ⟨value, position, hx, hvalue, fun hmem => ?_, fun hmem =>
      ⟨hheight hvalue hmem, fun hplain => ?_⟩⟩
    · have hplain := checkAxis_eq_ok_iff.mp hcheckX e he (Expression.usesOwnSize_of_mem hmem rfl)
      exact (hwidth hvalue hmem).trans (lengthFrom_of_plain hplain hlengths.restWidth)
    · exact (hheight hvalue hmem).trans (lengthFrom_of_plain hplain hlengths.restHeight)
  · have hlength := hlengths.valueY
    rw [he] at hlength
    obtain ⟨value, position, hy, hvalue⟩ := computesTo_of_length hlength
    refine ⟨value, position, hy, hvalue, fun hmem => ?_, fun hmem =>
      ⟨hwidth hvalue hmem, fun hplain => ?_⟩⟩
    · have hplain := checkAxis_eq_ok_iff.mp hcheckY e he (Expression.usesOwnSize_of_mem hmem rfl)
      exact (hheight hvalue hmem).trans (lengthFrom_of_plain hplain hlengths.restHeight)
    · exact (hwidth hvalue hmem).trans (lengthFrom_of_plain hplain hlengths.restWidth)

/-- Aligned to the right edge by its own width, a component a quarter as wide as its container
starts at three quarters. -/
theorem renderRect_own_size_aligned_right :
    ∃ c e value position,
      ({} : Component).withGeometry (.text "width-WIDTH") (.text "HEIGHT") (.text "width/4")
        (.text "20") = .ok c ∧
      (c.renderRect (.ofInts 0 0 100 100)).result = .ok (.ofInts 75 20 25 20) ∧
      c.length c.width (.int 100) (.int 100) (.int 100) none = .ok (.double (.ofInt 25)) ∧
      c.length c.height (.int 100) (.int 100) (.int 100) none = .ok (.double (.ofInt 20)) ∧
      c.x = some e ∧ ownWidth ∈ e.variableList ∧
      e.ComputesTo
        (c.registry.context (.int 100) (.int 100) (some (.double (.ofInt 25), .double (.ofInt 20))))
        value position ∧
      value ownWidth = .double (.ofInt 25) := by
  have h : (({} : Component).withGeometry (.text "width-WIDTH") (.text "HEIGHT") (.text "width/4")
      (.text "20")).toOption.map (fun c => (c.location.isSome || c.width.any (·.ends), c.x,
        (c.renderRect (.ofInts 0 0 100 100)).result.toOption,
        [(c.length c.width (.int 100) (.int 100) (.int 100) none).toOption,
          (c.length c.height (.int 100) (.int 100) (.int 100) none).toOption])) =
      some (false,
        some (.operation .sub (.variable ⟨"width", .container⟩ false) (.variable ownWidth false)
          false),
        some (.ofInts 75 20 25 20), [some (.double (.ofInt 25)), some (.double (.ofInt 20))]) := by
    decide +kernel
  obtain ⟨c, hc, hcr⟩ := Option.map_eq_some_iff.mp h
  simp only [Prod.mk.injEq, List.cons.injEq, toOption_eq_some_iff] at hc hcr
  obtain ⟨hkind, hx, hr, hwidth, hheight, -⟩ := hcr
  obtain ⟨hfree, hplain⟩ := Bool.or_eq_false_iff.mp hkind
  rw [Option.isSome_eq_false_iff, Option.isNone_iff_eq_none] at hfree
  have hconfigured : c.Configured := (Configured.new .null true {} {} none).withGeometry hc
  obtain ⟨given, x, y, width, height, hlengths, -, hown, -⟩ :=
    renderRect_own_size hconfigured hfree hr
  obtain ⟨given, given'⟩ := given
  obtain rfl := Except.ok.inj (hwidth.symm.trans hlengths.givenWidth)
  obtain rfl := Except.ok.inj (hheight.symm.trans hlengths.givenHeight)
  obtain rfl := lengthFrom_of_plain hplain hlengths.restWidth
  obtain ⟨value, position, -, hvalue, hown, -⟩ := hown _ hx
  have hmem : ownWidth ∈ (Expression.operation .sub (.variable ⟨"width", .container⟩ false)
      (.variable ownWidth false) false).variableList := by decide
  exact ⟨c, _, value, position, hc, hr, hwidth, hheight, hx, hmem, hvalue, hown hmem⟩

/-- Across the axes an end coordinate is taken for the height: this component is put at its lower
end, ten pixels further than it is high. -/
theorem renderRect_height_in_x :
    ∃ c, ({} : Component).withGeometry (.text "HEIGHT") (.text "10") .null (.text "?height") =
      .ok c ∧ c.x = some (.variable ownHeight false) ∧
      (c.renderRect (.ofInts 0 0 100 100)).result = .ok (.ofInts 100 10 100 90) := by
  have h : (({} : Component).withGeometry (.text "HEIGHT") (.text "10") .null
    (.text "?height")).toOption.map
      (fun c => (c.x, (c.renderRect (.ofInts 0 0 100 100)).result.toOption)) =
      some (some (.variable ownHeight false), some (.ofInts 100 10 100 90)) := by decide +kernel
  obtain ⟨c, hc, hcr⟩ := Option.map_eq_some_iff.mp h
  simp only [Prod.mk.injEq, toOption_eq_some_iff] at hc hcr
  exact ⟨c, hc, hcr.1, hcr.2⟩

end Component

end PanelLayout
