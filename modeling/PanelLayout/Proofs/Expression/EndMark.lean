import PanelLayout.Proofs.Expression.Exactness
import PanelLayout.Proofs.Expression.Numbers

/-!
# The mark of an end coordinate

Only the outermost node of what is read can carry the mark. Simplification builds its nodes without
marks, so the mark stays on a constant and on a variable for which nothing is put in, and is lost on
every other expression.
-/

namespace PanelLayout

namespace Expression

variable {binding : Binding} {op : Operator} {e f l r s : Expression}
    {x y : Option Double} {step : Step}
  {rules : ReadingRules} {source : String}

theorem exists_sentence_of_read (h : read rules source = .ok e) :
    ∃ ts f d, tokenize source ((markerLength? rules source).getD 0) = .ok ts ∧
      Sentence rules.extended .sum (words ts) f d ∧
      e = if (markerLength? rules source).isSome then f.markEnd else f := by
  obtain ⟨ts, f, hts, hf, he⟩ := read_eq_ok_iff.mp h
  obtain ⟨d, hsentence, -⟩ := ofTokens_eq_ok_iff_sentence.mp hf
  exact ⟨ts, f, d, hts, hsentence, he.symm⟩

theorem ends_markEnd (e : Expression) : e.markEnd.ends = true := by
  cases e <;> rfl

theorem ends_of_read (h : read rules source = .ok e) :
    e.ends = (markerLength? rules source).isSome := by
  obtain ⟨ts, f, d, -, hf, rfl⟩ := exists_sentence_of_read h
  split_ifs with hmarker
  · rw [ends_markEnd, hmarker]
  · rw [hf.isUnmarked.ends_eq_false]
    simpa using hmarker

theorem IsUnmarked.negate (h : e.IsUnmarked) : e.negate.IsUnmarked := by
  cases e with
  | constant n b => rfl
  | «variable» v b => exact ⟨rfl, h⟩
  | negation e b => exact h.2
  | operation op l r b =>
    cases op with
    | sub => exact ⟨rfl, h.2.2, h.2.1⟩
    | add | mul | div => exact ⟨rfl, h⟩

theorem Rule.isUnmarked (h : Rule op l r x y step) (hl : l.IsUnmarked) (hr : r.IsUnmarked) :
    step.expression.IsUnmarked := by
  cases h with
  | fold => rfl
  | dropRight => exact hl
  | dropLeft => exact hr
  | negateLeft => exact ⟨rfl, hl⟩
  | negateRight => exact ⟨rfl, hr⟩
  | flip hop hplain hneg =>
    subst hneg
    exact ⟨rfl, hl, hr.2⟩
  | keep => exact ⟨rfl, hl, hr⟩

theorem Simplifies.isUnmarked (h : Simplifies binding e s) (he : e.IsUnmarked)
    (hbound : ∀ v, ∀ t ∈ binding v, t.IsUnmarked) : s.IsUnmarked := by
  induction h with
  | constant n b => exact he
  | @«variable» binding v b =>
    cases hv : binding v with
    | none => exact he
    | some t => exact hbound v t hv
  | negation h ih => exact (ih he.2 hbound).negate
  | done hl hr hx hy hrule ihl ihr => exact hrule.isUnmarked (ihl he.2.1 hbound) (ihr he.2.2 hbound)
  | again hl hr hx hy hrule h ihl ihr ih =>
    exact ih (hrule.isUnmarked (ihl he.2.1 hbound) (ihr he.2.2 hbound)) hbound
  | combine hl hr hx hy hrule hm h ihl ihr ihm ih =>
    have hstep := hrule.isUnmarked (ihl he.2.1 hbound) (ihr he.2.2 hbound)
    exact ih (ihm hstep fun v t ht => nomatch ht) hbound

/-- Whether simplification leaves the outermost node as it is: it does with constants, and with
variables for which nothing is put in. -/
def staysOutermost (binding : Binding) : Expression → Bool
  | .constant .. => true
  | .variable v _ => (binding v).isNone
  | .negation .. | .operation .. => false

theorem staysOutermost_markEnd (binding : Binding) (e : Expression) :
    e.markEnd.staysOutermost binding = e.staysOutermost binding := by
  cases e <;> rfl

theorem Simplifies.eq_of_staysOutermost (h : Simplifies binding e s)
    (hstays : e.staysOutermost binding = true) :
    s = e := by
  cases h with
  | constant => rfl
  | «variable» v b => rw [Option.isNone_iff_eq_none.mp hstays, Option.getD_none]
  | negation | done | again | combine => cases hstays

/-- The mark of a node that does not stay makes no difference. -/
theorem Simplifies.of_markEnd (h : Simplifies binding f.markEnd s)
    (hgoes : f.staysOutermost binding = false) :
    Simplifies binding f s := by
  cases f with
  | constant n b => cases hgoes
  | «variable» v b =>
    obtain ⟨t, ht⟩ := Option.isSome_iff_exists.mp (Option.isNone_eq_false_iff.mp hgoes)
    have hs := h.unique (.variable v true)
    have hv : Simplifies binding (.variable v b) ((binding v).getD (.variable v b)) := .variable v b
    rw [ht, Option.getD_some] at hs hv
    rwa [hs]
  | negation e b =>
    cases h with
    | negation h => exact .negation h
  | operation op l r b =>
    cases h with
    | done hl hr hx hy hrule => exact .done hl hr hx hy hrule
    | again hl hr hx hy hrule h => exact .again hl hr hx hy hrule h
    | combine hl hr hx hy hrule hm h => exact .combine hl hr hx hy hrule hm h

/-- What simplification makes of what was read is an end coordinate exactly if that was one and its
outermost node stays. -/
theorem ends_of_simplifies (hread : read rules source = .ok e) (h : Simplifies binding e s)
    (hbound : ∀ v, ∀ t ∈ binding v, t.IsUnmarked) :
    s.ends = (e.ends && e.staysOutermost binding) := by
  obtain ⟨ts, f, d, -, hsentence, rfl⟩ := exists_sentence_of_read hread
  have hf := hsentence.isUnmarked
  split_ifs at h ⊢
  · rw [ends_markEnd, Bool.true_and, staysOutermost_markEnd]
    cases hstays : f.staysOutermost binding with
    | true =>
      rw [← staysOutermost_markEnd] at hstays
      rw [h.eq_of_staysOutermost hstays, ends_markEnd]
    | false => exact ((h.of_markEnd hstays).isUnmarked hf hbound).ends_eq_false
  · rw [hf.ends_eq_false, Bool.false_and]
    exact (h.isUnmarked hf hbound).ends_eq_false

/-- What becomes of the mark when an expression that was read is simplified with numbers in place of
variables. The expression carries the mark exactly if its text starts with the marker. Its
simplification carries it exactly if the expression does and is a constant, or a variable without a
number; on every other one the mark is lost. The only other end is a number that is too large for a
double. -/
theorem ends_simplify (hread : read rules source = .ok e) (value? : Variable → Option Number) :
    e.ends = (markerLength? rules source).isSome ∧
      ((∃ s, e.simplify (.ofNumbers value?) = .ok s ∧
          s.ends = (e.ends && e.staysOutermost (.ofNumbers value?))) ∨
        e.simplify (.ofNumbers value?) = .error .tooLarge ∧
        ¬(e.substitute (.ofNumbers value?)).InRange) := by
  refine ⟨ends_of_read hread, ?_⟩
  have hunmarked : ∀ v, ∀ t ∈ Binding.ofNumbers value? v, t.IsUnmarked := by
    intro v t ht
    obtain ⟨n, -, rfl⟩ := Option.map_eq_some_iff.mp ht
    rfl
  have hends := simplify_ends (.inr (bindsOnce_ofNumbers value? e))
  cases hs : e.simplify (.ofNumbers value?) with
  | ok s => exact .inl ⟨s, rfl, ends_of_simplifies hread (simplifies_of_simplify hs) hunmarked⟩
  | error error =>
    rw [hs] at hends
    cases error with
    | tooLarge => exact .inr ⟨rfl, hends⟩
    | endless => cases hends

/-- An end coordinate that is a single variable stays one while the variable has no number. -/
theorem ends_simplify_without_number :
    ∃ e s, read { preface := true } "?edge" = .ok e ∧ e.ends = true ∧
      e.simplify (.ofNumbers fun v => if v.name = "scroll" then some (.int 3) else none) = .ok s ∧
      s.ends = true := by
  have hread : read { preface := true } "?edge" = .ok (.variable ⟨"edge", .custom⟩ true) := by
    rw [← toOption_eq_some_iff]
    decide +kernel
  have hmark := ends_simplify hread fun v => if v.name = "scroll" then some (.int 3) else none
  obtain ⟨-, ⟨s, hs, hends⟩ | ⟨htooLarge, -⟩⟩ := hmark
  · exact ⟨_, s, hread, rfl, hs, hends.trans rfl⟩
  · cases htooLarge

/-- The right edge of a container less ten pixels is an end coordinate. No rule applies to it, and
nothing is put in, but its simplification is a length. -/
theorem simplify_loses_mark :
    ∃ e s, read { preface := true } "?width-10" = .ok e ∧ e.ends = true ∧
      e.simplify (.ofNumbers fun _ => none) = .ok s ∧ s.ends = false := by
  have h : (read { preface := true } "?width-10").toOption.bind (fun e =>
      (e.simplify (.ofNumbers fun _ => none)).toOption.map fun s => (e.ends, s.ends)) =
          some (true, false) := by
    decide +kernel
  obtain ⟨e, he, h⟩ := Option.bind_eq_some_iff.mp h
  obtain ⟨s, hs, h⟩ := Option.map_eq_some_iff.mp h
  obtain ⟨hmarked, hplain⟩ := Prod.mk.inj h
  exact ⟨e, s, toOption_eq_some_iff.mp he, hmarked, toOption_eq_some_iff.mp hs, hplain⟩

end Expression

end PanelLayout
