import PanelLayout.Proofs.Component.OwnSize
import PanelLayout.Proofs.Expression.EndMark
import PanelLayout.Proofs.Expression.Scoping

/-!
# Configuring a component

A component is built, and then its sizes and positions are replaced in any order, each time two of
them at once. A request is run store by store, so that what it stored before it failed would stay.
It never is: what can fail comes first, and a request that is refused leaves the component as it
was. What is stored was read under the rules of its place and checked against what is stored for the
other two.
-/

namespace PanelLayout

def Json.ofText? : Option String → Json
  | none => .null
  | some s => .text s

section Reading

variable {rules : ReadingRules} {v : Json} {text : Option String} {e? : Option Expression}

theorem usesOwnSize_of_optionalExpression (hplain : rules.extended = false)
    (h : optionalExpression rules v = .ok e?) :
    e?.any (·.usesOwnSize) = false := by
  rw [Option.any_eq_false]
  intro e he
  rw [Bool.eq_false_iff]
  intro hown
  obtain ⟨w, hw, hscope⟩ := List.any_eq_true.mp hown
  rcases optionalExpression_isScoped h e he w hw with hcustom | ⟨-, hknown⟩
  · rw [hcustom] at hscope
    cases hscope
  · have hextended := hknown (eq_of_beq hscope)
    rw [hplain] at hextended
    cases hextended

theorem ends_of_optionalExpression (hplain : rules.preface = false)
    (h : optionalExpression rules v = .ok e?) :
    e?.any (·.ends) = false := by
  rw [Option.any_eq_false]
  intro e he
  obtain ⟨source, hsource⟩ := read_of_optionalExpression h e he
  rw [Expression.ends_of_read hsource, Expression.markerLength?, hplain]
  simp

theorem optionalExpression_ofText?_error {error : LayoutError}
    (h : optionalExpression rules (.ofText? text) = .error error) : ∃ e, error = .parse e := by
  cases text with
  | none => cases h
  | some source =>
    change ((Expression.read rules source).map some).mapError LayoutError.parse = _ at h
    cases hread : Expression.read rules source with
    | ok e =>
      rw [hread] at h
      cases h
    | error e =>
      rw [hread] at h
      exact ⟨e, (Except.error.inj h).symm⟩

theorem checkAxis_error {axis : Axis} {position size : Option Expression} {error : LayoutError}
    (h : checkAxis axis position size = .error error) :
    ∃ p ∈ position, ∃ s ∈ size, s.ends = true ∧ p.usesOwnSize = true ∧
    error = .circular axis p s := by
  cases position with
  | none => cases h
  | some p =>
    cases size with
    | none => cases h
    | some s =>
      rw [checkAxis] at h
      split_ifs at h with hboth
      obtain ⟨hends, hown⟩ := Bool.and_eq_true_iff.mp hboth
      exact ⟨p, rfl, s, rfl, hends, hown, (Except.error.inj h).symm⟩

end Reading

namespace Component

/-- A call that replaces both sizes or both positions, and a change of the settings, which hold the
marker. -/
inductive Request where
  | sizes (width height : Option String)
  | positions (x y : Option String)
  | adopt (settings : Settings)

def Request.run : Request → ExceptT LayoutError (StateM Component) Unit
  | .sizes width height => do
    let marker := (← get).settings.marker
    let rules : ReadingRules := { preface := true, marker := String.singleton marker }
    let width ← optionalExpression rules (.ofText? width)
    let height ← optionalExpression rules (.ofText? height)
    checkAxis .horizontal (← get).x width
    checkAxis .vertical (← get).y height
    modify fun c => { c with width }
    modify fun c => { c with height }
  | .positions x y => do
    let x ← optionalExpression { extended := true } (.ofText? x)
    let y ← optionalExpression { extended := true } (.ofText? y)
    checkAxis .horizontal x (← get).width
    checkAxis .vertical y (← get).height
    modify fun c => { c with x }
    modify fun c => { c with y }
  | .adopt settings => modify fun c => { c with settings }

/-- How a request on a component ends, and the component then. -/
def request (c : Component) (r : Request) : Except LayoutError Unit × Component := r.run.run.run c

def afterRequests (c : Component) (requests : List Request) : Component :=
  requests.foldl (fun c r => (c.request r).2) c

def changedBy (c : Component) : Request → Except LayoutError Component
  | .sizes width height => c.setSize (.ofText? width) (.ofText? height)
  | .positions x y => c.setPosition (.ofText? x) (.ofText? y)
  | .adopt settings => .ok { c with settings }

def takeOver (c : Component) : Except LayoutError Component → Except LayoutError Unit × Component
  | .ok c' => (.ok (), c')
  | .error error => (.error error, c)

section Running

variable {α : Type} (c : Component)

theorem run_get_bind (f : Component → ExceptT LayoutError (StateM Component) Unit) :
    (get >>= f).run.run c = (f c).run.run c := rfl

theorem run_liftM_bind (x : Except LayoutError α)
    (f : α → ExceptT LayoutError (StateM Component) Unit) :
    ((liftM x : ExceptT LayoutError (StateM Component) α) >>= f).run.run c =
      (match x with
      | .ok a => (f a).run.run c
      | .error error => (.error error, c) : Except LayoutError Unit × Component) := by
  cases x <;> rfl

theorem run_modify_bind (update : Component → Component)
    (f : Unit → ExceptT LayoutError (StateM Component) Unit) :
    (modify update >>= f).run.run c = (f ()).run.run (update c) := rfl

theorem run_modify (update : Component → Component) :
    (modify update : ExceptT LayoutError (StateM Component) Unit).run.run c = (.ok (), update c) :=
  rfl

theorem takeOver_pure (c' : Component) : c.takeOver (pure c') = (.ok (), c') := rfl

theorem takeOver_bind (x : Except LayoutError α) (f : α → Except LayoutError Component) :
    c.takeOver (x >>= f) =
      match x with
      | .ok a => c.takeOver (f a)
      | .error error => (.error error, c) := by
  cases x <;> rfl

end Running

/-- A request stores nothing before it has passed all its checks. -/
theorem request_eq (c : Component) (r : Request) : c.request r = c.takeOver (c.changedBy r) := by
  cases r with
  | adopt settings => rfl
  | sizes width height =>
    simp -implicitDefEqProofs only [request, Request.run, changedBy, setSize, run_get_bind,
      run_liftM_bind, run_modify_bind, run_modify, takeOver_bind, takeOver_pure]
  | positions x y =>
    simp -implicitDefEqProofs only [request, Request.run, changedBy, setPosition, run_get_bind,
      run_liftM_bind, run_modify_bind, run_modify, takeOver_bind, takeOver_pure]

/-- What holds of the expressions of a component. Positions carry no mark and sizes use no own size.
On an axis whose size is an end coordinate the position does not use the own size either. -/
structure IsConsistent (c : Component) : Prop where
  horizontal : c.width.any (·.ends) = true → c.x.any (·.usesOwnSize) = false
  vertical : c.height.any (·.ends) = true → c.y.any (·.usesOwnSize) = false
  width : c.width.any (·.usesOwnSize) = false
  height : c.height.any (·.usesOwnSize) = false
  x : c.x.any (·.ends) = false
  y : c.y.any (·.ends) = false

theorem usesOwnSize_of_checkAxis {axis : Axis} {position size : Option Expression}
    (h : checkAxis axis position size = .ok ()) (hends : size.any (·.ends) = true) :
    position.any (·.usesOwnSize) = false := by
  rw [Option.any_eq_false]
  intro p hp
  rw [Bool.eq_false_iff]
  intro hown
  have hplain := checkAxis_eq_ok_iff.mp h p hp hown
  rw [hends] at hplain
  cases hplain

variable {c c' : Component} {r : Request} {error : LayoutError}

theorem Configured.isConsistent (h : c.Configured) : c.IsConsistent := by
  have hplain : (c.width.any (·.usesOwnSize) = false ∧ c.height.any (·.usesOwnSize) = false) ∧
      c.x.any (·.ends) = false ∧ c.y.any (·.ends) = false := by
    induction h with
    | new => exact ⟨⟨rfl, rfl⟩, rfl, rfl⟩
    | sized _ hset ih =>
      simp only [setSize, bind_eq_ok_iff] at hset
      obtain ⟨width, hwidth, height, hheight, ⟨⟩, -, ⟨⟩, -, hc⟩ := hset
      obtain rfl := Except.ok.inj hc
      exact ⟨⟨usesOwnSize_of_optionalExpression rfl hwidth,
        usesOwnSize_of_optionalExpression rfl hheight⟩, ih.2⟩
    | positioned _ hset ih =>
      simp only [setPosition, bind_eq_ok_iff] at hset
      obtain ⟨x, hx, y, hy, ⟨⟩, -, ⟨⟩, -, hc⟩ := hset
      obtain rfl := Except.ok.inj hc
      exact ⟨ih.1, ends_of_optionalExpression rfl hx, ends_of_optionalExpression rfl hy⟩
    | changed _ _ _ _ _ _ ih => exact ih
  obtain ⟨hx, hy⟩ := h.checked
  obtain ⟨⟨hwidth, hheight⟩, hplainX, hplainY⟩ := hplain
  exact ⟨usesOwnSize_of_checkAxis hx, usesOwnSize_of_checkAxis hy, hwidth, hheight,
    hplainX, hplainY⟩

theorem Configured.changedBy (h : c.Configured) (hr : c.changedBy r = .ok c') : c'.Configured := by
  cases r with
  | sizes => exact h.sized hr
  | positions => exact h.positioned hr
  | adopt settings =>
    obtain rfl := Except.ok.inj hr
    exact h.changed c.name c.visible c.registry settings c.location

theorem Configured.request (h : c.Configured) (r : Request) : (c.request r).2.Configured := by
  rw [request_eq]
  cases hr : c.changedBy r with
  | ok c' => exact h.changedBy hr
  | error error => exact h

theorem Configured.afterRequests (h : c.Configured) (requests : List Request) :
    (c.afterRequests requests).Configured := by
  induction requests generalizing c with
  | nil => exact h
  | cons r requests ih => exact ih (h.request r)

/-- A text that writes no expression and an end coordinate against the own size are the only reasons
to refuse. -/
theorem changedBy_error (h : c.changedBy r = .error error) :
    (∃ e, error = .parse e) ∨ ∃ axis p s, error = .circular axis p s ∧ s.ends = true ∧
    p.usesOwnSize = true := by
  have hcheck : ∀ {axis : Axis} {position size : Option Expression}, checkAxis axis position size =
    .error error →
      ∃ axis p s, error = .circular axis p s ∧ s.ends = true ∧ p.usesOwnSize = true := by
    intro axis position size h
    obtain ⟨p, -, s, -, hends, hown, rfl⟩ := checkAxis_error h
    exact ⟨axis, p, s, rfl, hends, hown⟩
  cases r with
  | adopt settings => cases h
  | sizes width height =>
    simp only [Component.changedBy, setSize, bind_eq_error_iff] at h
    obtain hwidth | ⟨w, -, hheight | ⟨h', -, hx | ⟨⟨⟩, -, hy | ⟨⟨⟩, -, hnone⟩⟩⟩⟩ := h
    · exact .inl (optionalExpression_ofText?_error hwidth)
    · exact .inl (optionalExpression_ofText?_error hheight)
    · exact .inr (hcheck hx)
    · exact .inr (hcheck hy)
    · cases hnone
  | positions x y =>
    simp only [Component.changedBy, setPosition, bind_eq_error_iff] at h
    obtain hx | ⟨w, -, hy | ⟨h', -, hhorizontal | ⟨⟨⟩, -, hvertical | ⟨⟨⟩, -, hnone⟩⟩⟩⟩ := h
    · exact .inl (optionalExpression_ofText?_error hx)
    · exact .inl (optionalExpression_ofText?_error hy)
    · exact .inr (hcheck hhorizontal)
    · exact .inr (hcheck hvertical)
    · cases hnone

/-- What configuring a component comes to. Its expressions are consistent from the start and after
every request, and a request that is refused, for a text that writes no expression or for an end
coordinate against the own size, leaves all of them as they were. -/
theorem consistent_afterRequests {c : Component} {name : Json} {visible : Bool}
    {registry : Variables} {settings : Settings} {location : Option Location}
    {x y width height : Option String}
    (hbuilt : ({ name, visible, registry, settings, location } : Component).withGeometry
      (.ofText? x) (.ofText? y) (.ofText? width) (.ofText? height) = .ok c)
    (requests : List Request) :
    (c.afterRequests requests).IsConsistent ∧
      ∀ r error c', (c.afterRequests requests).request r = (.error error, c') →
        c' = c.afterRequests requests ∧
          ((∃ e, error = .parse e) ∨
            ∃ axis p s, error = .circular axis p s ∧ s.ends = true ∧ p.usesOwnSize = true) := by
  have hnew : c.Configured :=
    (Configured.new name visible registry settings location).withGeometry hbuilt
  refine ⟨(hnew.afterRequests requests).isConsistent, ?_⟩
  intro r error c' hrefused
  rw [request_eq] at hrefused
  cases hr : (c.afterRequests requests).changedBy r with
  | ok c'' =>
    rw [hr] at hrefused
    cases hrefused
  | error error' =>
    rw [hr] at hrefused
    obtain ⟨herror, hkept⟩ := Prod.mk.inj hrefused
    obtain rfl := Except.error.inj herror
    exact ⟨hkept.symm, changedBy_error hr⟩

/-- A component that is centred and a hundred pixels wide cannot be given its right edge instead. It
can be given its lower edge, by another marker, and then cannot be centred between above and
below. -/
theorem consistent_afterRequests_of_edges :
    ∃ c c' e, ({} : Component).withGeometry (.text "CENTERX") .null (.text "100") .null = .ok c ∧
      c' = c.afterRequests [.sizes (some "?width") none, .adopt { marker := '!' },
        .sizes (some "100") (some "!height")] ∧
      c'.height = some (.variable ⟨"height", .container⟩ true) ∧ c'.y.any (·.usesOwnSize) = false ∧
      c'.request (.positions none (some "CENTERY")) = (.error e, c') ∧ e.category = .value := by
  let requests : List Request :=
    [.sizes (some "?width") none, .adopt { marker := '!' }, .sizes (some "100") (some "!height")]
  let centred : Request := .positions none (some "CENTERY")
  have h : (({} : Component).withGeometry (.text "CENTERX") .null (.text "100") .null).toOption.map
      (fun c => ((c.afterRequests requests).height,
        match ((c.afterRequests requests).request centred).1 with
        | .ok _ => none
        | .error e => some e.category)) =
      some (some (.variable ⟨"height", .container⟩ true), some .value) := by decide +kernel
  obtain ⟨c, hc, h⟩ := Option.map_eq_some_iff.mp h
  obtain ⟨hheight, hcategory⟩ := Prod.mk.inj h
  have hbuilt : ({} : Component).withGeometry (.ofText? (some "CENTERX")) (.ofText? none)
    (.ofText? (some "100"))
      (.ofText? none) = .ok c := toOption_eq_some_iff.mp hc
  obtain ⟨hconsistent, hrefused⟩ := consistent_afterRequests hbuilt requests
  have hplain : (c.afterRequests requests).y.any (·.usesOwnSize) = false := by
    apply hconsistent.vertical
    rw [hheight]
    rfl
  cases hresult : (c.afterRequests requests).request centred with
  | mk result c' =>
    rw [hresult] at hcategory
    cases result with
    | ok => cases hcategory
    | error e =>
      obtain ⟨rfl, -⟩ := hrefused centred e c' hresult
      exact ⟨c, _, e, hbuilt, rfl, hheight, hplain, hresult, Option.some.inj hcategory⟩

end Component

end PanelLayout
