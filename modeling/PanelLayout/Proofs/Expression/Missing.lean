import PanelLayout.Proofs.Expression.EndMark
import PanelLayout.Proofs.Expression.Scoping

/-!
# Missing variables

An evaluation fails for missing variables exactly if one of them has no value, also where it cannot
influence the result. The report names each of them once, in order and as it is written. Where an
end coordinate is a single variable, its mark is taken for a part of the name.
-/

namespace PanelLayout

def Lexeme.name? : Lexeme → Option String
  | .name cs => some (String.ofList cs)
  | _ => none

theorem Sentence.source_variableList {extended : Bool} {p : Phrase} {ws : List Lexeme}
    {e : Expression} {d : Nat} (h : Sentence extended p ws e d) :
    e.variableList.map Variable.source = ws.filterMap Lexeme.name? := by
  induction h with
  | sum _ ih | product _ ih => exact ih
  | plus _ ih | minus _ ih => exact ih
  | addition _ _ _ ihl ihr | multiplication _ _ _ ihl ihr =>
    rw [Expression.variableList_operation, List.map_append, List.filterMap_append]
    exact congrArg₂ _ ihl ihr
  | number cs => rfl
  | name hname => exact congrArg (· :: []) hname.source_eq
  | group _ ih =>
    rw [ih, List.filterMap_cons_none rfl, List.filterMap_append]
    exact (List.append_nil _).symm

namespace Context

variable {c : Context} {v : Variable}

/-- Whether a context has no value for a variable: for one of the own size where that is not known,
and for one that the caller did not give. -/
def Lacks (c : Context) (v : Variable) : Prop :=
  match v.scope with
  | .container => False
  | .own => c.own = none
  | .custom => c.custom.lookup v.name = none

theorem value?_eq_none_iff (hv : v.IsScoped true) : c.value? v = .ok none ↔ c.Lacks v := by
  obtain ⟨name, scope⟩ := v
  cases scope with
  | custom => exact ⟨Except.ok.inj, congrArg Except.ok⟩
  | container =>
    have hname : name ∈ builtinNames := (hv.resolve_left (nomatch ·)).1
    exact iff_of_false (containerValue?_ne_none hname) id
  | own =>
    have hname : name ∈ builtinNames := (hv.resolve_left (nomatch ·)).1
    cases hown : c.own with
    | none => simp [Lacks, value?, hown]
    | some size =>
      have hvalue : c.value? ⟨name, .own⟩ = c.ownValue? name size.1 size.2 := by rw [value?, hown]
      rw [hvalue]
      exact iff_of_false (ownValue?_ne_none hname) (by simp [Lacks, hown])

end Context

namespace Expression

variable {e e' : Expression} {c : Context} {names : List String} {rules : ReadingRules}
    {source : String}

theorem mem_sortedNames {name : String} : name ∈ sortedNames names ↔ name ∈ names := by
  simp [sortedNames]

private theorem pairwise_lt_eraseDups (names : List String) (h : names.Pairwise (· ≤ ·)) :
    names.eraseDups.Pairwise (· < ·) := by
  match names, h with
  | [], _ => exact .nil
  | name :: names, h =>
    obtain ⟨hfirst, hrest⟩ := List.pairwise_cons.mp h
    rw [List.eraseDups_cons, List.pairwise_cons]
    constructor
    · intro other hother
      obtain ⟨hmem, hne⟩ := List.mem_filter.mp (List.mem_eraseDups.mp hother)
      have hne : name ≠ other := by
        rintro rfl
        simp at hne
      exact lt_of_le_of_ne (hfirst other hmem) hne
    · exact pairwise_lt_eraseDups _ (hrest.filter _)
termination_by names.length
decreasing_by exact Nat.lt_succ_of_le (List.length_filter_le _ _)

theorem sortedNames_pairwise (names : List String) : (sortedNames names).Pairwise (· < ·) :=
  pairwise_lt_eraseDups _ (List.pairwise_mergeSort' (· ≤ ·) names)

theorem evaluate_eq_unresolved_iff :
    e.evaluate c = .error (.unresolved names e') ↔
    e.requireValues c.has = .error (.unresolved names e') := by
  cases hrequired : e.requireValues c.has with
  | error error =>
    rw [evaluate_of_requireValues_error hrequired, Except.error.injEq, Except.error.injEq]
  | ok =>
    obtain ⟨value, hvalue⟩ := exists_value_of_required hrequired
    rw [evaluate_of_value hvalue]
    cases e.plainValue value >>= Number.toDouble <;> simp

theorem InRange.requireValues_eq_unresolved_iff (he : e.InRange)
    {hasValue : Variable → Except NumberError Bool} :
    e.requireValues hasValue = .error (.unresolved names e') ↔
      (∀ v ∈ e.variableList, ∃ b, hasValue v = .ok b) ∧ missingNames hasValue e.references ≠ [] ∧
        names = sortedNames (missingNames hasValue e.references) ∧ e' = e := by
  by_cases hlookup : ∀ v ∈ e.variableList, ∃ b, hasValue v = .ok b
  · rw [requireValues_of_lookups hlookup, unresolved, he.inRange_eq]
    split_ifs with hnone
    · simp [hnone]
    · rw [Except.error.injEq, EvaluationError.unresolved.injEq]
      exact ⟨fun h => ⟨hlookup, hnone, h.1.symm, h.2.symm⟩, fun h => ⟨h.2.2.1.symm, h.2.2.2.symm⟩⟩
  · refine iff_of_false ?_ fun h => hlookup h.1
    simp only [not_forall] at hlookup
    obtain ⟨v, hv, hnone⟩ := hlookup
    cases hb : hasValue v with
    | ok b => exact absurd ⟨b, hb⟩ hnone
    | error n =>
      obtain ⟨m, hm⟩ := requireValues_of_lookup_error hv hb
      simp [hm]

theorem referenceSource_unmarked (v : Variable) : referenceSource (v, false) = v.source := by
  simp [referenceSource, Expression.source, sourceChars, markText]

theorem referenceSource_marked (v : Variable) : referenceSource (v, true) = "?" ++ v.source := by
  apply String.toList_injective
  simp [referenceSource, Expression.source, sourceChars, markText]

/-- Only an end coordinate that is a single variable is referred to with the mark. -/
theorem referenceSource_of_read (hread : read rules source = .ok e)
    (hlone : ∀ v, e ≠ .variable v true) {r : Variable × Bool} (hr : r ∈ e.references) :
    referenceSource r = r.1.source := by
  obtain ⟨ts, f, d, -, hf, rfl⟩ := exists_sentence_of_read hread
  have hmem : r ∈ f.references := by
    split_ifs at hr hlone
    · cases f with
      | «variable» v b => exact absurd rfl (hlone v)
      | constant | negation | operation => exact hr
    · exact hr
  obtain ⟨v, b⟩ := r
  obtain rfl : b = false := hf.isUnmarked.of_mem_references hmem
  exact referenceSource_unmarked v

theorem mem_missingNames_iff {hasValue : Variable → Except NumberError Bool} {name : String} :
    name ∈ missingNames hasValue e.references ↔
      ∃ r ∈ e.references, hasValue r.1 = .ok false ∧ referenceSource r = name := by
  simp [missingNames, and_assoc]

theorem missingNames_ne_nil_iff {hasValue : Variable → Except NumberError Bool} :
    missingNames hasValue e.references ≠ [] ↔ ∃ v ∈ e.variableList, hasValue v = .ok false := by
  constructor
  · intro hne
    obtain ⟨name, hname⟩ := List.exists_mem_of_ne_nil _ hne
    obtain ⟨r, hr, hfalse, -⟩ := mem_missingNames_iff.mp hname
    exact ⟨r.1, List.mem_map_of_mem hr, hfalse⟩
  · rintro ⟨v, hv, hfalse⟩
    obtain ⟨r, hr, rfl⟩ := List.mem_map.mp hv
    exact List.ne_nil_of_mem (mem_missingNames_iff.mpr ⟨r, hr, hfalse, rfl⟩)

theorem has_eq_false_iff_of_read (hread : read rules source = .ok e) {v : Variable}
    (hv : v ∈ e.variableList) :
    c.has v = .ok false ↔ c.Lacks v := by
  have hscoped : v.IsScoped true := (read_isScoped hread v hv).imp_right fun h =>
    ⟨h.1, fun _ => rfl⟩
  exact Context.has_eq_false_iff.trans (Context.value?_eq_none_iff hscoped)

theorem variableList_of_read (hread : read rules source = .ok e) :
    ∃ ts, tokenize source ((markerLength? rules source).getD 0) = .ok ts ∧
      e.variableList.map Variable.source = (words ts).filterMap Lexeme.name? := by
  obtain ⟨ts, f, d, hts, hf, rfl⟩ := exists_sentence_of_read hread
  refine ⟨ts, hts, ?_⟩
  rw [← hf.source_variableList]
  split_ifs
  · rw [variableList_markEnd]
  · rfl

theorem evaluate_eq_unresolved_iff_of_read (hread : read rules source = .ok e) :
    e.evaluate c = .error (.unresolved names e') ↔
      (∀ v ∈ e.variableList, ∃ n?, c.value? v = .ok n?) ∧ (∃ v ∈ e.variableList, c.Lacks v) ∧
        names = sortedNames (missingNames c.has e.references) ∧ e' = e := by
  have hmissing : missingNames c.has e.references ≠ [] ↔ ∃ v ∈ e.variableList, c.Lacks v :=
    missingNames_ne_nil_iff.trans (exists_congr fun v =>
      and_congr_right (has_eq_false_iff_of_read hread))
  rw [evaluate_eq_unresolved_iff, (read_inRange hread).requireValues_eq_unresolved_iff, hmissing]
  simp only [Context.exists_has_iff]

theorem mem_missingNames_of_read (hread : read rules source = .ok e)
    (hlone : ∀ v, e ≠ .variable v true) {name : String} :
    name ∈ missingNames c.has e.references ↔ ∃ v ∈ e.variableList, c.Lacks v ∧ v.source = name := by
  rw [mem_missingNames_iff]
  constructor
  · rintro ⟨r, hr, hfalse, rfl⟩
    have hv := List.mem_map_of_mem (f := Prod.fst) hr
    exact ⟨r.1, hv, (has_eq_false_iff_of_read hread hv).mp hfalse,
      (referenceSource_of_read hread hlone hr).symm⟩
  · rintro ⟨v, hv, hlack, rfl⟩
    obtain ⟨r, hr, rfl⟩ := List.mem_map.mp hv
    exact ⟨r, hr, (has_eq_false_iff_of_read hread hv).mpr hlack,
      referenceSource_of_read hread hlone hr⟩

/-- Which variables an evaluation reports as missing. The variables of what was read are the names
in its text, in the same order. Their evaluation in any context reports missing variables exactly if
one of them has no value there, unless the middle of a length that they refer to is too large for a
double. The report is about the expression itself, and gives the names of the variables without a
value in order, each once and as it is written. In an end coordinate that is a single variable the
mark stands before the name. -/
theorem evaluate_missing (hread : read rules source = .ok e) (c : Context) :
    (∃ ts, tokenize source ((markerLength? rules source).getD 0) = .ok ts ∧
      e.variableList.map Variable.source = (words ts).filterMap Lexeme.name?) ∧
    ((∃ names e', e.evaluate c = .error (.unresolved names e')) ↔
      (∃ v ∈ e.variableList, c.Lacks v) ∧ ∀ v ∈ e.variableList, ∃ n?, c.value? v = .ok n?) ∧
    ∀ names e', e.evaluate c = .error (.unresolved names e') → e' = e ∧ names.Pairwise (· < ·) ∧
      ((∀ v, e ≠ .variable v true) →
        ∀ name, name ∈ names ↔ ∃ v ∈ e.variableList, c.Lacks v ∧ v.source = name) ∧
      ∀ v, e = .variable v true → names = ["?" ++ v.source] := by
  refine ⟨variableList_of_read hread, ?_, ?_⟩
  · constructor
    · rintro ⟨names, e', h⟩
      obtain ⟨hlookup, hsome, -⟩ := (evaluate_eq_unresolved_iff_of_read hread).mp h
      exact ⟨hsome, hlookup⟩
    · rintro ⟨hsome, hlookup⟩
      exact ⟨_, e, (evaluate_eq_unresolved_iff_of_read hread).mpr ⟨hlookup, hsome, rfl, rfl⟩⟩
  · intro names e' h
    obtain ⟨-, hsome, rfl, rfl⟩ := (evaluate_eq_unresolved_iff_of_read hread).mp h
    refine ⟨rfl, sortedNames_pairwise _, ?_, ?_⟩
    · intro hlone name
      rw [mem_sortedNames, mem_missingNames_of_read hread hlone]
    · rintro v rfl
      obtain ⟨w, hw, hlack⟩ := hsome
      obtain rfl := List.mem_singleton.mp hw
      have hfalse := (has_eq_false_iff_of_read hread hw).mpr hlack
      have hnames : missingNames c.has [(w, true)] = ["?" ++ w.source] := by
        rw [← referenceSource_marked]
        simp [missingNames, hfalse]
      rw [references, hnames]
      simp [sortedNames, List.eraseDups_cons]

/-- A factor of zero does not excuse a missing variable, and without an own size its width is
missing as well. -/
theorem evaluate_missing_irrelevant :
    ∃ e names, read { extended := true } "0*zoom + WIDTH - edge*zoom" = .ok e ∧
      e.evaluate ⟨.int 100, .int 80, none, []⟩ = .error (.unresolved names e) ∧
      names.Pairwise (· < ·) ∧ ∀ name, name ∈ names ↔ name ∈ ["WIDTH", "edge", "zoom"] := by
  have hread : read { extended := true } "0*zoom + WIDTH - edge*zoom" = .ok
      (.operation .sub
        (.operation .add
          (.operation .mul (.constant (.double (.ofInt 0)) false) (named "zoom") false)
        (.variable ⟨"width", .own⟩ false) false)
            (.operation .mul (named "edge") (named "zoom") false) false) := by
    rw [← toOption_eq_some_iff]
    decide +kernel
  generalize he : operation .sub _ _ _ = e at hread
  have hvariables : e.variableList =
      [⟨"zoom", .custom⟩, ⟨"width", .own⟩, ⟨"edge", .custom⟩, ⟨"zoom", .custom⟩] := by
    rw [← he]
    rfl
  have hlone : ∀ v, e ≠ .variable v true := by
    rw [← he]
    simp
  obtain ⟨-, hraised, hnames⟩ := evaluate_missing hread ⟨.int 100, .int 80, none, []⟩
  have hmissing : ∃ v ∈ e.variableList, Context.Lacks ⟨.int 100, .int 80, none, []⟩ v :=
    ⟨⟨"width", .own⟩, by simp [hvariables], rfl⟩
  obtain ⟨names, e', h⟩ := hraised.mpr ⟨hmissing, by simp [hvariables, Context.value?]⟩
  obtain ⟨rfl, hsorted, hmem, -⟩ := hnames names e' h
  refine ⟨e', names, hread, h, hsorted, fun name => ?_⟩
  have hwidth : upperCase "width" = "WIDTH" := by decide +kernel
  rw [hmem hlone, hvariables]
  simp [Context.Lacks, Variable.source, hwidth, eq_comm, or_comm, or_left_comm]

/-- In an end coordinate that is a single variable, the mark is reported as a part of the name. -/
theorem evaluate_names_mark :
    ∃ e names, read { preface := true } "?edge" = .ok e ∧
    e.variableList.map Variable.source = ["edge"] ∧
      e.evaluate ⟨.int 100, .int 100, none, []⟩ = .error (.unresolved names e) ∧
      names = ["?edge"] := by
  refine ⟨.variable ⟨"edge", .custom⟩ true, _, ?_, rfl, by rfl, ?_⟩
  · rw [← toOption_eq_some_iff]
    decide +kernel
  · decide +kernel

end Expression

end PanelLayout
