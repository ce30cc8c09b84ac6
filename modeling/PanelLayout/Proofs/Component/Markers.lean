import PanelLayout.Proofs.Component.Configuration
import PanelLayout.Proofs.Expression.Marker
import PanelLayout.Proofs.Expression.Rendering

/-!
# End coordinates that are written and read again

A component reads its sizes with the marker of its settings, but what was read keeps only that it is
an end coordinate, and is written with a question mark whatever the marker was. So the written form
of an end coordinate is read again where the question mark is the marker; with any other marker it
starts with a character that no word starts with.
-/

namespace PanelLayout

namespace Expression

variable {extended : Bool} {rules : ReadingRules} {source : String} {cs : List Char}
    {e : Expression}

/-- What an end coordinate is read from is what is written behind the marker. -/
theorem exists_writes_of_ends (h : read rules source = .ok e) (hends : e.ends = true) :
    ∃ cs f, Writes rules.limits rules.extended cs f ∧ e = f.markEnd := by
  obtain ⟨f, hwrites, he⟩ := read_eq_ok_iff_writes.mp h
  rw [if_pos ((ends_of_read h).symm.trans hends)] at he
  exact ⟨_, f, hwrites, he.symm⟩

theorem Writes.source_markEnd (h : Writes limits extended cs e) :
    e.markEnd.source.toList = '?' :: e.sourceChars := by
  rw [Expression.source, String.toList_ofList]
  exact sourceChars_marked h.ends_eq_false true

/-- What a text writes is written again as a text that writes an expression of its shape. -/
theorem Writes.written_again (h : Writes {} extended cs e)
    (hfinite : ∀ x, .double x ∈ e.constants → x.isFinite = true)
    (hopen : OpensWithin openLimit (['?'] ++ e.sourceChars)) :
    ∃ f, Writes {} extended e.sourceChars f ∧ SameShape e f := by
  obtain ⟨ts, d, hscan, hsentence, hlimits⟩ := h
  obtain ⟨f, n, hn, hrenders⟩ := exists_renders hsentence hscan.names hfinite
  rw [hrenders.chars] at hopen ⊢
  have hnests : NestsWithin openLimit e.sourceWords :=
    nestsWithin_of_opensWithin hrenders.plain (by decide) hopen
  have hwhole : (String.ofList (written e.sourceWords)).toList.drop 0 = written e.sourceWords :=
    String.toList_ofList
  obtain ⟨us, hus, hwords⟩ := hrenders.sum.tokenize_written hrenders.plain hwhole
  have hagain := (tokenize_eq_ok_iff.mp hus).1
  rw [hwhole] at hagain
  exact ⟨f, ⟨us, n, hagain, hwords.symm ▸ hrenders.sum, rfl, hwords.symm ▸ hnests,
    Nat.le_trans hn hlimits.depth⟩, hrenders.sameShape⟩

theorem Writes.read_source_markEnd (h : Writes {} extended cs e)
    (hfinite : ∀ x, .double x ∈ e.constants → x.isFinite = true)
    (hopen : OpensWithin openLimit e.markEnd.source.toList) :
    ∃ f, read { extended, preface := true, marker := String.singleton '?' } e.markEnd.source =
      .ok f.markEnd ∧ SameShape e f := by
  rw [h.source_markEnd] at hopen
  obtain ⟨f, hwrites, hsame⟩ := h.written_again hfinite hopen
  have hlength : markerLength? { extended, preface := true, marker := String.singleton '?' }
      e.markEnd.source = some 1 := by
    rw [markerLength?_singleton (String.toList_singleton '?'), h.source_markEnd]
    rfl
  refine ⟨f, read_eq_ok_iff_writes.mpr ⟨f, ?_, ?_⟩, hsame⟩
  · rw [hlength, h.source_markEnd]
    exact hwrites
  · rw [hlength]
    rfl

theorem read_eq_error_of_question {m : Char} (hm : m ≠ '?') (hsource : source.toList = '?' :: cs) :
    read { extended, preface := true, marker := String.singleton m } source =
      .error ⟨⟨.unexpectedCharacter '?', 0⟩, source⟩ := by
  have hplain : markerLength? { extended, preface := true, marker := String.singleton m } source =
      none := by
    rw [markerLength?_singleton (String.toList_singleton m), hsource, if_neg]
    exact fun h => hm (Option.some.inj h).symm
  have hscan : tokenize source 0 = .error ⟨.unexpectedCharacter '?', 0⟩ := by
    rw [tokenize, hsource]
    rfl
  rw [read, hplain]
  simp only [Option.getD_none, hscan]
  rfl

end Expression

namespace Component

variable {c c' d d' : Component} {axis : Axis} {across width height : Json} {source : String}
    {e f : Expression}

def size (c : Component) : Axis → Option Expression
  | .horizontal => c.width
  | .vertical => c.height

def position (c : Component) : Axis → Option Expression
  | .horizontal => c.x
  | .vertical => c.y

def withSize (c : Component) (axis : Axis) (size : Option Expression) : Component :=
  match axis with
  | .horizontal => { c with width := size }
  | .vertical => { c with height := size }

/-- Replaces both sizes, given as the one along an axis and the one across it. -/
def setSizeAlong (c : Component) (axis : Axis) (along across : Json) :
    Except LayoutError Component :=
  match axis with
  | .horizontal => c.setSize along across
  | .vertical => c.setSize across along

def sizeRules (c : Component) : ReadingRules :=
  { preface := true, marker := String.singleton c.settings.marker }

theorem read_of_setSize (h : c.setSize width height = .ok c') (he : c'.size axis = some e) :
    (∃ source, Expression.read c.sizeRules source = .ok e) ∧
      (e.ends = true → (c'.position axis).any (·.usesOwnSize) = false) := by
  simp only [setSize, bind_eq_ok_iff] at h
  obtain ⟨width, hwidth, height, hheight, ⟨⟩, hx, ⟨⟩, hy, hc⟩ := h
  obtain rfl := Except.ok.inj hc
  cases axis with
  | horizontal =>
    obtain rfl : width = some e := he
    exact ⟨read_of_optionalExpression hwidth e rfl, usesOwnSize_of_checkAxis hx⟩
  | vertical =>
    obtain rfl : height = some e := he
    exact ⟨read_of_optionalExpression hheight e rfl, usesOwnSize_of_checkAxis hy⟩

theorem checkAxis_of_usesOwnSize {axis : Axis} {position size : Option Expression}
    (h : position.any (·.usesOwnSize) = false) : checkAxis axis position size = .ok () := by
  rw [checkAxis_eq_ok_iff]
  rintro p rfl hown
  rw [Option.any_some, hown] at h
  cases h

theorem setSizeAlong_of_read (hacross : d.setSizeAlong axis .null across = .ok d')
    (hread : Expression.read d.sizeRules source = .ok f)
    (hposition : (d.position axis).any (·.usesOwnSize) = false) :
    d.setSizeAlong axis (.text source) across = .ok (d'.withSize axis (some f)) := by
  have htext : optionalExpression d.sizeRules (.text source) = .ok (some f) := by
    rw [optionalExpression, hread]
    rfl
  cases axis with
  | horizontal =>
    simp only [setSizeAlong, setSize, bind_eq_ok_iff] at hacross ⊢
    obtain ⟨width, -, height, hheight, ⟨⟩, -, ⟨⟩, hy, hd⟩ := hacross
    obtain rfl := Except.ok.inj hd
    exact ⟨some f, htext, height, hheight, ⟨⟩, checkAxis_of_usesOwnSize hposition, ⟨⟩, hy, rfl⟩
  | vertical =>
    simp only [setSizeAlong, setSize, bind_eq_ok_iff] at hacross ⊢
    obtain ⟨width, hwidth, height, -, ⟨⟩, hx, ⟨⟩, -, hd⟩ := hacross
    obtain rfl := Except.ok.inj hd
    exact ⟨width, hwidth, some f, htext, ⟨⟩, hx, ⟨⟩, checkAxis_of_usesOwnSize hposition, rfl⟩

theorem setSizeAlong_of_read_error (hacross : d.setSizeAlong axis .null across = .ok d')
    {error : ParseError} (hread : Expression.read d.sizeRules source = .error error) :
    d.setSizeAlong axis (.text source) across = .error (.parse error) := by
  have htext : optionalExpression d.sizeRules (.text source) = .error (.parse error) := by
    rw [optionalExpression, hread]
    rfl
  cases axis with
  | horizontal => exact bind_eq_error_iff.mpr (.inl htext)
  | vertical =>
    simp only [setSizeAlong, setSize, bind_eq_ok_iff] at hacross
    obtain ⟨width, hwidth, -⟩ := hacross
    exact bind_eq_error_iff.mpr (.inr ⟨width, hwidth, bind_eq_error_iff.mpr (.inl htext)⟩)

/-- What becomes of an end coordinate that a component has stored when a component with the same
marker is given its written form, beside any size across that this component accepts. With the
question mark as the marker it is stored as an end coordinate of the same shape, unless the position
uses the own size, which that of the first component does not. With every other marker it is refused
at its first character. -/
theorem setSize_source (hset : c.setSize width height = .ok c') (he : c'.size axis = some e)
    (hends : e.ends = true) (hmarker : d.settings.marker = c.settings.marker)
    (hacross : d.setSizeAlong axis .null across = .ok d') :
    (c'.position axis).any (·.usesOwnSize) = false ∧
      (c.settings.marker = '?' → (∀ x, .double x ∈ e.constants → x.isFinite = true) →
        Expression.OpensWithin openLimit e.source.toList →
        (d.position axis).any (·.usesOwnSize) = false →
        ∃ f, d.setSizeAlong axis (.text e.source) across = .ok (d'.withSize axis (some f)) ∧
        f.ends = true ∧
          Expression.SameShape e f) ∧
      (c.settings.marker ≠ '?' → d.setSizeAlong axis (.text e.source) across =
        .error (.parse ⟨⟨.unexpectedCharacter '?', 0⟩, e.source⟩)) := by
  obtain ⟨⟨text, hread⟩, hposition⟩ := read_of_setSize hset he
  obtain ⟨cs, f, hwrites, rfl⟩ := Expression.exists_writes_of_ends hread hends
  refine ⟨hposition hends, fun hquestion hfinite hopen hplain => ?_, fun hother => ?_⟩
  · rw [show f.markEnd.constants = f.constants from Expression.constants_marked f true] at hfinite
    obtain ⟨g, hg, hsame⟩ := hwrites.read_source_markEnd hfinite hopen
    rw [← hquestion, ← hmarker] at hg
    exact ⟨g.markEnd, setSizeAlong_of_read hacross hg hplain, Expression.ends_markEnd g,
      hsame.marked true⟩
  · rw [← hmarker] at hother
    exact setSizeAlong_of_read_error hacross
      (Expression.read_eq_error_of_question hother hwrites.source_markEnd)

/-- A right edge ten pixels from the end of the container is one again when its written form is set
beside a height. -/
theorem setSize_source_right_edge :
    ∃ c' d' e f, ({} : Component).setSize (.text "?width - 10") .null = .ok c' ∧ c'.width = some e ∧
    e.ends = true ∧
      e.source = "?width-10" ∧ ({} : Component).setSize .null (.text "20") = .ok d' ∧
      ({} : Component).setSize (.text "?width-10") (.text "20") = .ok { d' with width := some f } ∧
      f.ends = true ∧ Expression.SameShape e f := by
  let edge : Expression :=
    .operation .sub (.variable ⟨"width", .container⟩ false)
      (.constant (.double (.ofInt 10)) false) true
  have h : (({} : Component).setSize (.text "?width - 10") .null).toOption.map
      (fun c => (c.width, (({} : Component).setSize .null (.text "20")).toOption.isSome)) =
          some (some edge, true) := by
    decide +kernel
  obtain ⟨c', hc, h⟩ := Option.map_eq_some_iff.mp h
  obtain ⟨hedge, hd⟩ := Prod.mk.inj h
  obtain ⟨d', hd⟩ := Option.isSome_iff_exists.mp hd
  rw [toOption_eq_some_iff] at hc hd
  have hsize : c'.size .horizontal = some edge := hedge
  have hacross : ({} : Component).setSizeAlong .horizontal .null (.text "20") = .ok d' := hd
  have hsource : edge.source = "?width-10" := by decide +kernel
  have hfinite : ∀ x, .double x ∈ edge.constants → x.isFinite = true := by
    intro x hx
    rw [Number.double.inj (List.mem_singleton.mp hx)]
    decide +kernel
  have hopen : Expression.OpensWithin openLimit edge.source.toList := by
    intro before hbefore
    have hcount : edge.source.toList.count '(' = 0 := by rw [hsource]; decide
    have := hbefore.sublist.count_le '('
    omega
  obtain ⟨-, hagain, -⟩ := setSize_source hc hsize rfl rfl hacross
  obtain ⟨f, hf, hends, hsame⟩ := hagain rfl hfinite hopen rfl
  rw [hsource] at hf
  exact ⟨c', d', edge, f, hc, hedge, rfl, hsource, hd, hf, hends, hsame⟩

/-- With an exclamation mark as the marker a right edge is stored as an end coordinate, and its
written form is refused by the component that stores it. -/
theorem setSize_source_exclamation_mark :
    ∃ settings c e, Settings.set {} "preface_marker" (.text "!") = .ok settings ∧
      ({ settings } : Component).setSize (.text "!width") .null = .ok c ∧ c.width = some e ∧
      e.ends = true ∧ e.source = "?width" ∧ e.constants = [] ∧ e.source.toList.count '(' = 0 ∧
      c.setSize (.text e.source) .null =
        .error (.parse ⟨⟨.unexpectedCharacter '?', 0⟩, "?width"⟩) := by
  let edge : Expression := .variable ⟨"width", .container⟩ true
  let stored : Component := { settings := { marker := '!' }, width := some edge }
  have hset : Settings.set {} "preface_marker" (.text "!") = .ok { marker := '!' } := by
    rw [Settings.set, show markerOfJson? (.text "!") = some '!' by decide +kernel]
  have hstored : ({ settings := { marker := '!' } } : Component).setSize (.text "!width") .null =
      .ok stored := by
    have h : optionalExpression { preface := true, marker := String.singleton '!' }
        (.text "!width") = .ok (some edge) := by
      rw [← toOption_eq_some_iff]
      decide +kernel
    rw [setSize, h]
    rfl
  have hsource : edge.source = "?width" := by decide +kernel
  have hread : Expression.read stored.sizeRules "?width" =
      .error ⟨⟨.unexpectedCharacter '?', 0⟩, "?width"⟩ :=
    Expression.read_eq_error_of_question (by decide) rfl
  have hacross : stored.setSizeAlong .horizontal .null .null = .ok { stored with width := none } :=
    rfl
  refine ⟨_, stored, edge, hset, hstored, rfl, rfl, hsource, rfl, by rw [hsource]; decide, ?_⟩
  rw [hsource]
  exact setSizeAlong_of_read_error hacross hread

end Component

end PanelLayout
