import PanelLayout.Proofs.Expression.EndMark
import PanelLayout.Proofs.Expression.Scanning
import PanelLayout.Proofs.Expression.Scoping

/-!
# The registry

What a registry has for a name after a definition or a removal, and which names it lets a caller
define. The registry and the reader each have their own rules for names; both admit the same custom
ones.
-/

namespace PanelLayout

namespace Variables

variable {registry registry' : Variables} {name other : String} {x : Double}

private theorem lookup_cons_of_ne {key : String} (h : other ≠ key) (y : Double)
    (entries : List (String × Double)) :
    ((key, y) :: entries).lookup other = entries.lookup other := by
  rw [List.lookup_cons, beq_eq_false_iff_ne.mpr h]

private theorem lookup_replace_self (entries : List (String × Double)) :
    (entries.map fun e => if e.1 == name then (name, x) else e).lookup name =
      (entries.lookup name).map fun _ => x := by
  induction entries with
  | nil => rfl
  | cons entry entries ih =>
    obtain ⟨key, y⟩ := entry
    rw [List.map_cons]
    by_cases hkey : key = name
    · subst hkey
      rw [if_pos (beq_self_eq_true key), List.lookup_cons_self, List.lookup_cons_self]
      rfl
    · rw [if_neg (by simpa using hkey), lookup_cons_of_ne (Ne.symm hkey),
        lookup_cons_of_ne (Ne.symm hkey), ih]

private theorem lookup_replace_of_ne (h : other ≠ name) (entries : List (String × Double)) :
    (entries.map fun e => if e.1 == name then (name, x) else e).lookup other =
      entries.lookup other := by
  induction entries with
  | nil => rfl
  | cons entry entries ih =>
    obtain ⟨key, y⟩ := entry
    rw [List.map_cons]
    by_cases hkey : key = name
    · subst hkey
      rw [if_pos (beq_self_eq_true key), lookup_cons_of_ne h, lookup_cons_of_ne h, ih]
    · rw [if_neg (by simpa using hkey), List.lookup_cons, List.lookup_cons, ih]

theorem get?_set_self (registry : Variables) (name : String) (x : Double) :
    (registry.set name x).get? name = some x := by
  unfold set
  split_ifs with hdefined
  · obtain ⟨y, hy⟩ := Option.isSome_iff_exists.mp hdefined
    rw [get?] at hy
    rw [get?, lookup_replace_self, hy]
    rfl
  · rw [Option.not_isSome_iff_eq_none, get?] at hdefined
    rw [get?, List.lookup_append, hdefined, List.lookup_cons_self]
    rfl

theorem get?_set_of_ne (h : other ≠ name) :
    (registry.set name x).get? other = registry.get? other := by
  unfold set
  split_ifs
  · rw [get?, lookup_replace_of_ne h, get?]
  · rw [get?, List.lookup_append, lookup_cons_of_ne h, List.lookup_nil, Option.or_none, get?]

theorem get?_erase_of_ne (h : other ≠ name) :
    (registry.erase name).get? other = registry.get? other := by
  unfold erase get?
  induction registry.entries with
  | nil => rfl
  | cons entry entries ih =>
    obtain ⟨key, y⟩ := entry
    by_cases hkey : key = name
    · subst hkey
      rw [List.filter_cons_of_neg (by simp), lookup_cons_of_ne h, ih]
    · rw [List.filter_cons_of_pos (by simpa using hkey), List.lookup_cons, List.lookup_cons, ih]

theorem value?_context_of_get?_eq {v : Variable}
    (h : v.scope = .custom → registry'.get? v.name = registry.get? v.name) (width height : Number)
    (own : Option (Number × Number)) :
    (registry'.context width height own).value? v =
      (registry.context width height own).value? v := by
  obtain ⟨name, scope⟩ := v
  cases scope with
  | container => rfl
  | own => cases own <;> rfl
  | custom =>
    change Except.ok _ = Except.ok _
    rw [lookup_context, lookup_context, h rfl]

theorem evaluate_variable (h : registry.get? name = some x) (b : Bool) (width height : Number)
    (own : Option (Number × Number)) :
    registry.evaluate (.variable ⟨name, .custom⟩ b) width height own = .ok x := by
  have hvalue : ∀ v ∈ (Expression.variable ⟨name, .custom⟩ b).variableList,
      (registry.context width height own).value? v = .ok (some (.double x)) := by
    intro v hv
    obtain rfl := List.mem_singleton.mp hv
    change Except.ok _ = Except.ok _
    rw [lookup_context, h]
    rfl
  rw [evaluate, Expression.evaluate_of_value hvalue]
  rfl

structure Definable (name : String) : Prop where
  form : isName name = true
  unreserved : isReserved name = false
  lower : name ∉ builtinNames
  upper : name ∉ builtinNames.map upperCase

theorem checkName_text_eq_ok_iff {accepted : String} :
    checkName (.text name) = .ok accepted ↔ Definable name ∧ accepted = name := by
  have hbuiltin : (builtinNames.contains name.toLower &&
    (name == name.toLower || name == name.toUpper)) = true ↔
      name ∈ builtinNames ∨ name ∈ builtinNames.map upperCase := by
    rw [Bool.and_or_distrib_left, Bool.or_eq_true, mem_lower_iff, mem_upper_iff]
  unfold checkName
  constructor
  · intro h
    dsimp only at h
    split_ifs at h with hform hname
    obtain rfl := Except.ok.inj h
    rw [hbuiltin, not_or] at hname
    simp only [Bool.or_eq_true, Bool.not_eq_true', not_or, Bool.not_eq_false, Bool.not_eq_true]
      at hform
    exact ⟨⟨hform.1, hform.2, hname.1, hname.2⟩, rfl⟩
  · rintro ⟨⟨hform, hunreserved, hlower, hupper⟩, rfl⟩
    dsimp only
    rw [if_neg (by simp [hform, hunreserved]), if_neg]
    rw [hbuiltin, not_or]
    exact ⟨hlower, hupper⟩

theorem define_eq_ok_iff {key value : Json} :
    registry.define key value = .ok registry' ↔
      ∃ name x, key = .text name ∧ Definable name ∧ value.toDouble = .ok x ∧
      registry' = registry.set name x := by
  simp only [define, bind_eq_ok_iff, mapError_eq_ok_iff, pure_eq_ok, Except.ok.injEq]
  constructor
  · rintro ⟨name, hname, x, hx, rfl⟩
    cases key with
    | text s =>
      obtain ⟨hs, rfl⟩ := checkName_text_eq_ok_iff.mp hname
      exact ⟨name, x, rfl, hs, hx, rfl⟩
    | null | bool | number | array | object => cases hname
  · rintro ⟨name, x, rfl, hname, hx, rfl⟩
    exact ⟨name, checkName_text_eq_ok_iff.mpr ⟨hname, rfl⟩, x, hx, rfl⟩

end Variables

namespace Sentence

variable {extended : Bool} {p : Phrase} {ws : List Lexeme} {v : Variable} {b : Bool} {d : Nat}

theorem exists_name_of_variable (h : Sentence extended p ws (.variable v b) d) :
    ∃ cs, .name cs ∈ ws ∧ Names extended (String.ofList cs) v := by
  generalize he : Expression.variable v b = e at h
  induction h with
  | sum _ ih | product _ ih => exact ih he
  | plus _ ih =>
    obtain ⟨cs, hcs, hname⟩ := ih he
    exact ⟨cs, List.mem_cons_of_mem _ hcs, hname⟩
  | group _ ih =>
    obtain ⟨cs, hcs, hname⟩ := ih he
    exact ⟨cs, List.mem_cons_of_mem _ (List.mem_append_left _ hcs), hname⟩
  | name hname =>
    cases he
    exact ⟨_, List.mem_singleton.mpr rfl, hname⟩
  | addition | multiplication | minus | number => cases he

end Sentence

namespace Variables

open Expression (read)

variable {registry registry' : Variables} {name : String} {x : Double}

/-- A name that may be defined is a sentence of its own. -/
theorem Definable.read_eq (h : Definable name) (extended : Bool) :
    read { extended } name = .ok (.variable ⟨name, .custom⟩ false) := by
  have hsentence : Sentence extended .sum [.name name.toList]
      (.variable ⟨name, .custom⟩ false) 1 := by
    refine .sum (.product (.name ?_))
    rw [String.ofList_toList]
    exact .custom h.lower h.upper
  have hplain : (Lexeme.name name.toList).IsPlain := by
    rw [isPlain_name_iff, String.ofList_toList]
    exact ⟨h.form, h.unreserved⟩
  have hsource : name.toList.drop 0 = written [.name name.toList] := by simp [Lexeme.text]
  obtain ⟨ts, hts, hwords⟩ := hsentence.tokenize_written (by simpa using hplain) hsource
  have hopen : NestsWithin openLimit (words ts) := nestsWithin_of_count (by simp [hwords])
  rw [Expression.read_of_tokenize hts,
    Expression.ofTokens_eq_ok_iff_sentence.mpr ⟨_, hwords ▸ hsentence, rfl, hopen, by decide⟩]
  rfl

theorem definable_of_read {rules : ReadingRules} {ends : Bool}
    (h : read rules name = .ok (.variable ⟨name, .custom⟩ ends)) :
    Definable name := by
  obtain ⟨ts, f, d, hts, hsentence, he⟩ := Expression.exists_sentence_of_read h
  obtain ⟨b, rfl⟩ : ∃ b, f = .variable ⟨name, .custom⟩ b := by
    split_ifs at he
    · cases f with
      | «variable» v b =>
        obtain ⟨rfl, -⟩ := Expression.variable.inj he
        exact ⟨b, rfl⟩
      | constant | negation | operation => cases he
    · exact ⟨ends, he.symm⟩
  obtain ⟨cs, hcs, hname⟩ := hsentence.exists_name_of_variable
  obtain ⟨hform, hunreserved⟩ := isPlain_name_iff.mp (tokenize_names hts _ hcs rfl)
  generalize String.ofList cs = word at hname hform hunreserved
  cases hname with
  | custom hlower hupper => exact ⟨hform, hunreserved, hlower, hupper⟩

/-- The names that can be defined are the custom names of the language: a name is accepted exactly
if it is read as a custom variable of that name, with the names of the own size known. A defined
name then evaluates to its value in each container, and every other variable keeps its value. -/
theorem define_iff_read (registry : Variables) (name : String) (x : Double) :
    ((∃ registry', registry.define (.text name) (.number (.double x)) = .ok registry') ↔
      ∃ ends, read { extended := true } name = .ok (.variable ⟨name, .custom⟩ ends)) ∧
    ∀ registry', registry.define (.text name) (.number (.double x)) = .ok registry' →
      (∀ extended, ∃ e, read { extended } name = .ok e ∧
        ∀ width height own, registry'.evaluate e width height own = .ok x) ∧
      ∀ v, v ≠ ⟨name, .custom⟩ →
        ∀ width height own, (registry'.context width height own).value? v =
          (registry.context width height own).value? v := by
  have hdefine (registry' : Variables) : registry.define (.text name) (.number (.double x)) =
    .ok registry' ↔
      Definable name ∧ registry' = registry.set name x := by
    rw [define_eq_ok_iff]
    constructor
    · rintro ⟨_, _, hkey, hname, hx, rfl⟩
      obtain rfl := Json.text.inj hkey
      obtain rfl := Except.ok.inj hx
      exact ⟨hname, rfl⟩
    · rintro ⟨hname, rfl⟩
      exact ⟨name, x, rfl, hname, rfl, rfl⟩
  simp only [hdefine]
  refine ⟨⟨?_, ?_⟩, ?_⟩
  · rintro ⟨_, hname, -⟩
    exact ⟨false, hname.read_eq true⟩
  · rintro ⟨ends, hread⟩
    exact ⟨_, definable_of_read hread, rfl⟩
  · rintro _ ⟨hname, rfl⟩
    refine ⟨fun extended => ⟨_, hname.read_eq extended, fun width height own => ?_⟩,
      fun v hv width height own => ?_⟩
    · exact evaluate_variable (get?_set_self registry name x) false width height own
    · refine value?_context_of_get?_eq (fun hscope => get?_set_of_ne ?_) width height own
      rintro rfl
      exact hv (by rw [← hscope])

/-- A built-in name in mixed case is a name like any other. -/
theorem define_iff_read_mixed_case :
    ∃ registry e, define {} (.text "Width") (.number (.double (.ofInt 3))) = .ok registry ∧
    read {} "Width" = .ok e ∧
      registry.evaluate e (.int 100) (.int 80) = .ok (.ofInt 3) ∧
      (registry.context (.int 100) (.int 80)).value? ⟨"width", .container⟩ =
        (context {} (.int 100) (.int 80)).value? ⟨"width", .container⟩ := by
  have hread : read { extended := true } "Width" = .ok (.variable ⟨"Width", .custom⟩ false) := by
    rw [← toOption_eq_some_iff]
    decide +kernel
  obtain ⟨haccepted, hvalues⟩ := define_iff_read {} "Width" (.ofInt 3)
  obtain ⟨registry, hdefine⟩ := haccepted.mpr ⟨false, hread⟩
  obtain ⟨hown, hothers⟩ := hvalues registry hdefine
  obtain ⟨e, hplain, hvalue⟩ := hown false
  exact ⟨registry, e, hdefine, hplain, hvalue _ _ _, hothers _ (by decide) _ _ _⟩

end Variables

end PanelLayout
