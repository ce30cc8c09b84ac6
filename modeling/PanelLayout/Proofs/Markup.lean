import Mathlib
import PanelLayout.Markup

/-!
# Marks of elements

A written tree has an angle bracket for each tag of an element and for each declaration, and no
others: what texts and attribute values hold is escaped, and moving lines to the right neither makes
a bracket nor parts one from its name. So the elements of a kind can be counted in the written form.
-/

namespace PanelLayout

def occurrences (word : List Char) : List Char → Nat
  | [] => 0
  | c :: cs => (if word <+: c :: cs then 1 else 0) + occurrences word cs

section Occurrences

variable {word p a b : List Char} {c d : Char}

theorem prefix_append_cons_iff (hc : c ∉ word) : word <+: a ++ c :: b ↔ word <+: a := by
  induction a generalizing word with
  | nil =>
    cases word with
    | nil => simp
    | cons d word =>
      rw [List.mem_cons, not_or] at hc
      simp [List.cons_prefix_cons, Ne.symm hc.1]
  | cons d a ih =>
    cases word with
    | nil => simp
    | cons e word =>
      rw [List.mem_cons, not_or] at hc
      simp [List.cons_prefix_cons, ih hc.2]

/-- What a character that is not in a word parts is counted apart. -/
theorem occurrences_append_cons (hc : c ∉ word) (hword : word ≠ []) :
    occurrences word (a ++ c :: b) = occurrences word a + occurrences word b := by
  induction a with
  | nil =>
    have hhead : ¬word <+: c :: b := by
      intro h
      exact hword (List.prefix_nil.mp ((prefix_append_cons_iff (a := []) hc).mp h))
    simp [occurrences, hhead]
  | cons d a ih =>
    have hhead := prefix_append_cons_iff (a := d :: a) (b := b) hc
    simp only [List.cons_append] at hhead ⊢
    simp only [occurrences, hhead, ih]
    omega

theorem occurrences_of_notMem (h : c ∉ a) : occurrences (c :: p) a = 0 := by
  induction a with
  | nil => rfl
  | cons d a ih =>
    rw [List.mem_cons, not_or] at h
    simp [occurrences, List.cons_prefix_cons, h.1, ih h.2]

theorem occurrences_cons_of_notMem (h : c ∉ a) :
    occurrences (c :: p) (c :: a) = if p <+: a then 1 else 0 := by
  simp [occurrences, List.cons_prefix_cons, occurrences_of_notMem h]

theorem occurrences_cons_of_ne (h : c ≠ d) :
    occurrences (c :: p) (d :: a) = occurrences (c :: p) a := by
  simp [occurrences, List.cons_prefix_cons, h]

theorem occurrences_singleton (c : Char) (a : List Char) : occurrences [c] a = a.count c := by
  induction a with
  | nil => rfl
  | cons d a ih =>
    by_cases h : c = d
    · subst h
      simp [occurrences, ih, Nat.add_comm]
    · rw [occurrences_cons_of_ne h, ih, List.count_cons_of_ne (Ne.symm h)]

end Occurrences

namespace Markup

section Lines

variable {p cs : List Char} {c : Char} {ls : List (List Char)}

def AreClosed : List (List Char) → Prop
  | [] => True
  | line :: rest => (rest = [] ∨ ∃ body c, line = body ++ [c] ∧ isLineEnd c = true) ∧ AreClosed rest

theorem areClosed_lines (cs : List Char) : AreClosed (lines cs) := by
  fun_induction lines cs with
  | case1 => trivial
  | case2 cs ih => exact ⟨.inr ⟨['\r'], '\n', rfl, by decide⟩, ih⟩
  | case3 c cs _ hc ih => exact ⟨.inr ⟨[], c, rfl, hc⟩, ih⟩
  | case4 c cs _ _ hnil ih => exact ⟨.inl rfl, trivial⟩
  | case5 c cs _ _ line rest hcons ih =>
    rw [hcons] at ih
    obtain ⟨hrest | ⟨body, d, rfl, hd⟩, hclosed⟩ := ih
    · exact ⟨.inl hrest, hclosed⟩
    · exact ⟨.inr ⟨c :: body, d, rfl, hd⟩, hclosed⟩

theorem flatten_lines (cs : List Char) : (lines cs).flatten = cs := by
  fun_induction lines cs with
  | case1 => rfl
  | case2 cs ih => simp [ih]
  | case3 c cs _ _ ih => simp [ih]
  | case4 c cs _ _ hnil ih =>
    rw [hnil] at ih
    simpa using ih
  | case5 c cs _ _ line rest hcons ih =>
    rw [hcons] at ih
    simpa using ih

def moved (line : List Char) : List Char := if line.all isBlank then line else ' ' :: ' ' :: line

theorem indent_eq (cs : List Char) : indent cs = (lines cs).flatMap moved := rfl

theorem occurrences_moved_append (hc : c ≠ ' ') (line rest : List Char) :
    occurrences (c :: p) (moved line ++ rest) = occurrences (c :: p) (line ++ rest) := by
  unfold moved
  split
  · rfl
  · rw [List.cons_append, List.cons_append, occurrences_cons_of_ne hc, occurrences_cons_of_ne hc]

theorem occurrences_flatMap_moved (hc : c ≠ ' ') (hends : ∀ d ∈ c :: p, isLineEnd d = false)
    (h : AreClosed ls) :
    occurrences (c :: p) (ls.flatMap moved) = occurrences (c :: p) ls.flatten := by
  induction ls with
  | nil => rfl
  | cons line rest ih =>
    rw [List.flatMap_cons, List.flatten_cons, occurrences_moved_append hc]
    obtain ⟨rfl | ⟨body, d, rfl, hd⟩, hrest⟩ := h
    · rfl
    · have hnot : d ∉ c :: p := by
        intro hmem
        rw [hends d hmem] at hd
        cases hd
      have hparts : ∀ tail, occurrences (c :: p) (body ++ [d] ++ tail) =
          occurrences (c :: p) body + occurrences (c :: p) tail := by
        intro tail
        rw [List.append_assoc, List.singleton_append,
          occurrences_append_cons hnot (List.cons_ne_nil c p)]
      rw [hparts, hparts, ih hrest]

theorem occurrences_indent (hc : c ≠ ' ') (hends : ∀ d ∈ c :: p, isLineEnd d = false)
    (cs : List Char) :
    occurrences (c :: p) (indent cs) = occurrences (c :: p) cs := by
  rw [indent_eq, occurrences_flatMap_moved hc hends (areClosed_lines cs), flatten_lines]

end Lines

section Brackets

variable {c : Char} {cs : List Char}

theorem bracket_notMem_escapeText (c : Char) : '<' ∉ escapeText c := by
  unfold escapeText
  split
  · decide
  · decide
  · decide
  · rename_i hlt _
    simpa using Ne.symm hlt

theorem bracket_notMem_escapeValue (c : Char) : '<' ∉ escapeValue c := by
  unfold escapeValue
  split
  · decide
  · decide
  · exact bracket_notMem_escapeText c

theorem bracket_notMem_text (s : String) : '<' ∉ s.toList.flatMap escapeText := by
  intro hmem
  obtain ⟨c, -, hc⟩ := List.mem_flatMap.mp hmem
  exact bracket_notMem_escapeText c hc

theorem bracket_notMem_attributeName (h : '<' ∉ cs) : '<' ∉ attributeName cs := by
  fun_induction attributeName cs with
  | case1 cs ih => simp_all
  | case2 cs _ ih => simp_all
  | case3 c cs _ _ ih => simp_all
  | case4 => exact h

theorem bracket_notMem_attributeChars {a : String × String} (h : '<' ∉ a.1.toList) :
    '<' ∉ attributeChars a := by
  simp [attributeChars, bracket_notMem_attributeName h, bracket_notMem_escapeValue]

theorem bracket_notMem_openingChars {name : String} {attributes : List (String × String)}
    (hname : '<' ∉ name.toList) (h : ∀ a ∈ attributes, '<' ∉ a.1.toList) :
    '<' ∉ openingChars name attributes := by
  simp only [openingChars, List.mem_append, List.mem_flatMap, not_or, not_exists, not_and]
  exact ⟨hname, fun a ha => bracket_notMem_attributeChars (h a ha)⟩

theorem prefix_openingChars_iff {p : List Char} (name : String)
    (attributes : List (String × String)) {closing : Char} (rest : List Char) (hblank : ' ' ∉ p)
    (hclosing : closing ∉ p) :
    p <+: openingChars name attributes ++ closing :: rest ↔ p <+: name.toList := by
  unfold openingChars
  cases attributes with
  | nil => rw [List.flatMap_nil, List.append_nil, prefix_append_cons_iff hclosing]
  | cons a attributes =>
    rw [List.flatMap_cons, attributeChars, List.append_assoc]
    exact prefix_append_cons_iff hblank

end Brackets

section Elements

mutual
/-- The elements of a tree, each before those in it. -/
def elements : Markup → List Markup
  | .text _ => []
  | .element name attributes children isRoot =>
    .element name attributes children isRoot :: elementsIn children

def elementsIn : List Markup → List Markup
  | [] => []
  | m :: ms => elements m ++ elementsIn ms
end

def name : Markup → String
  | .text _ => ""
  | .element name _ _ _ => name

def isRoot : Markup → Bool
  | .text _ => false
  | .element _ _ _ isRoot => isRoot

def hasChildren : Markup → Bool
  | .element _ _ (_ :: _) _ => true
  | _ => false

def IsPlain : Markup → Prop
  | .text _ => True
  | .element name attributes _ _ => '<' ∉ name.toList ∧ ∀ a ∈ attributes, '<' ∉ a.1.toList

/-- How often a word stands right behind a bracket that an element is written with: once in its
opening tag if the name starts with it, and the empty word also in its closing tag and in the
declaration. -/
def marks (p : List Char) (e : Markup) : Nat :=
  (if p <+: e.name.toList then 1 else 0) + if p = []
    then e.hasChildren.toNat + e.isRoot.toNat else 0

variable {p : List Char} {name : String} {attributes : List (String × String)}
    {children ms ns : List Markup} {isRoot : Bool}

theorem isPlain_element_iff : (element name attributes children isRoot).IsPlain ↔
    ∀ s ∈ name :: attributes.map Prod.fst, '<' ∉ s.toList := by
  simp [IsPlain]

theorem elementsIn_append (ms ns : List Markup) :
    elementsIn (ms ++ ns) = elementsIn ms ++ elementsIn ns := by
  induction ms with
  | nil => rfl
  | cons m ms ih => rw [List.cons_append, elementsIn, ih, elementsIn, List.append_assoc]

theorem marks_childless : marks p (.element name attributes [] isRoot) =
    (if p <+: name.toList then 1 else 0) + if p = [] then isRoot.toNat else 0 := by
  simp only [marks, hasChildren, Markup.isRoot, Bool.toNat_false, Nat.zero_add]
  rfl

theorem marks_parent (child : Markup) (children : List Markup) :
    marks p (.element name attributes (child :: children) isRoot) =
    (if p <+: name.toList then 1 else 0) + if p = [] then 1 + isRoot.toNat else 0 := rfl

end Elements

section Written

variable {p : List Char}

theorem isLineEnd_of_isAlpha {c : Char} (h : c.isAlpha = true) : isLineEnd c = false := by
  have hrange : 65 ≤ c.toNat ∧ c.toNat ≤ 122 := by
    simp [Char.isAlpha, Char.isUpper, Char.isLower, UInt32.le_iff_toNat_le] at h
    omega
  simp only [isLineEnd, List.mem_cons, List.not_mem_nil, or_false, decide_eq_false_iff_not]
  omega

theorem notMem_of_isAlpha (hp : ∀ c ∈ p, c.isAlpha = true) {c : Char} (hc : c.isAlpha = false) :
    c ∉ p := by
  intro hmem
  rw [hp c hmem] at hc
  cases hc

theorem occurrences_newline (hp : ∀ c ∈ p, c.isAlpha = true) (a b : List Char) :
    occurrences ('<' :: p) (a ++ '\n' :: b) =
      occurrences ('<' :: p) a + occurrences ('<' :: p) b := by
  refine occurrences_append_cons ?_ (List.cons_ne_nil '<' p)
  rw [List.mem_cons, not_or]
  exact ⟨by decide, notMem_of_isAlpha hp (by decide)⟩

/-- Behind a bracket that is not followed by a letter stands the empty word only. -/
theorem occurrences_cons_cons (hp : ∀ c ∈ p, c.isAlpha = true) {c : Char} {rest : List Char}
    (hc : c.isAlpha = false) (h : '<' ∉ c :: rest) :
    occurrences ('<' :: p) ('<' :: c :: rest) = if p = [] then 1 else 0 := by
  rw [occurrences_cons_of_notMem h]
  cases p with
  | nil => simp
  | cons d p =>
    have hne : d ≠ c := by
      rintro rfl
      exact notMem_of_isAlpha hp hc List.mem_cons_self
    simp [List.cons_prefix_cons, hne]

theorem occurrences_declaration (hp : ∀ c ∈ p, c.isAlpha = true) (isRoot : Bool)
    (rest : List Char) :
    occurrences ('<' :: p) (declaration isRoot ++ rest) =
      (if p = [] then isRoot.toNat else 0) + occurrences ('<' :: p) rest := by
  cases isRoot with
  | false => simp [declaration]
  | true =>
    have hparts : declaration true =
      '<' :: '?' :: "xml version=\"1.0\" encoding=\"utf-8\"?>".toList ++ ['\n'] := rfl
    rw [hparts, List.append_assoc, List.singleton_append, occurrences_newline hp,
      occurrences_cons_cons hp (by decide) (by decide), Bool.toNat_true]

theorem occurrences_opening (hp : ∀ c ∈ p, c.isAlpha = true) {name : String}
    {attributes : List (String × String)} (hname : '<' ∉ name.toList)
    (hattributes : ∀ a ∈ attributes, '<' ∉ a.1.toList) {closing : Char} {rest : List Char}
    (hclosing : closing.isAlpha = false) (hrest : '<' ∉ closing :: rest) :
    occurrences ('<' :: p) ('<' :: (openingChars name attributes ++ closing :: rest)) =
      if p <+: name.toList then 1 else 0 := by
  have hbracket : '<' ∉ openingChars name attributes ++ closing :: rest := by
    rw [List.mem_append, not_or]
    exact ⟨bracket_notMem_openingChars hname hattributes, hrest⟩
  have hstarts :=
    prefix_openingChars_iff name attributes rest (notMem_of_isAlpha hp (by decide))
      (notMem_of_isAlpha hp hclosing)
  rw [occurrences_cons_of_notMem hbracket]
  simp only [hstarts]

theorem occurrences_closing (hp : ∀ c ∈ p, c.isAlpha = true) {name : String}
    (hname : '<' ∉ name.toList) :
    occurrences ('<' :: p) ('<' :: '/' :: (name.toList ++ ['>'])) = if p = [] then 1 else 0 :=
  occurrences_cons_cons hp (by decide) (by simp [hname])

theorem occurrences_indent_chars (hp : ∀ c ∈ p, c.isAlpha = true) (cs : List Char) :
    occurrences ('<' :: p) (indent cs) = occurrences ('<' :: p) cs := by
  refine occurrences_indent (by decide) (fun c hc => ?_) cs
  rcases List.mem_cons.mp hc with rfl | hmem
  · decide
  · exact isLineEnd_of_isAlpha (hp c hmem)

theorem chars_parent (name : String) (attributes : List (String × String)) (child : Markup)
    (children : List Markup) (isRoot : Bool) :
    chars (.element name attributes (child :: children) isRoot) =
      declaration isRoot ++ ('<' :: (openingChars name attributes ++ ['>']) ++ '\n' ::
        (indent (chars child) ++
          (childrenChars children ++ '\n' :: '<' :: '/' :: (name.toList ++ ['>'])))) := by
  rw [chars]
  simp only [List.append_assoc, List.cons_append, List.nil_append]

mutual
/-- A bracket and a word are found in the written form of a tree as often as its elements are marked
so. -/
theorem occurrences_chars (hp : ∀ c ∈ p, c.isAlpha = true) {m : Markup}
    (h : ∀ e ∈ m.elements, e.IsPlain) :
    occurrences ('<' :: p) m.chars = (m.elements.map (marks p)).sum := by
  cases m with
  | text s =>
    rw [chars, occurrences_of_notMem (bracket_notMem_text s), elements, List.map_nil, List.sum_nil]
  | element name attributes children isRoot =>
    rw [elements] at h
    obtain ⟨⟨hname, hattributes⟩, hchildren⟩ := List.forall_mem_cons.mp h
    cases children with
    | nil =>
      rw [chars, List.append_assoc, List.cons_append, occurrences_declaration hp,
        occurrences_opening hp hname hattributes (by decide) (by decide), elements, elementsIn,
        List.map_singleton, List.sum_singleton, marks_childless, Nat.add_comm]
    | cons child children =>
      rw [elementsIn] at hchildren
      obtain ⟨hchild, hrest⟩ := List.forall_mem_append.mp hchildren
      rw [elements, List.map_cons, List.sum_cons, marks_parent, elementsIn, List.map_append,
        List.sum_append, chars_parent, occurrences_declaration hp, occurrences_newline hp,
        occurrences_opening hp hname hattributes (by decide) (by decide),
        occurrences_childrenChars hp hrest, occurrences_indent_chars hp,
        occurrences_chars hp hchild, occurrences_closing hp hname]
      split <;> omega

theorem occurrences_childrenChars (hp : ∀ c ∈ p, c.isAlpha = true) {ms : List Markup}
    (h : ∀ e ∈ elementsIn ms, e.IsPlain) (before behind : List Char) :
    occurrences ('<' :: p) (before ++ (childrenChars ms ++ '\n' :: behind)) =
      occurrences ('<' :: p) before + ((elementsIn ms).map (marks p)).sum +
        occurrences ('<' :: p) behind := by
  cases ms with
  | nil =>
    rw [childrenChars, List.nil_append, occurrences_newline hp, elementsIn, List.map_nil,
      List.sum_nil, Nat.add_zero]
  | cons m ms =>
    rw [elementsIn] at h
    obtain ⟨hfirst, hrest⟩ := List.forall_mem_append.mp h
    rw [childrenChars, List.cons_append, List.cons_append, List.append_assoc,
      occurrences_newline hp, occurrences_childrenChars hp hrest, occurrences_indent_chars hp,
      occurrences_chars hp hfirst, elementsIn, List.map_append, List.sum_append]
    omega
end

theorem sum_marks_nil (es : List Markup) : (es.map (marks [])).sum =
    es.countP (!·.hasChildren) + 2 * es.countP (·.hasChildren) + es.countP (·.isRoot) := by
  induction es with
  | nil => rfl
  | cons e es ih =>
    have hone : marks [] e = 1 + (e.hasChildren.toNat + e.isRoot.toNat) := by simp [marks]
    rw [List.map_cons, List.sum_cons, ih, hone, List.countP_cons, List.countP_cons,
      List.countP_cons]
    cases e.hasChildren <;> cases e.isRoot <;> simp <;> omega

theorem sum_marks_of_ne_nil (hne : p ≠ []) (es : List Markup) :
    (es.map (marks p)).sum = (es.map name).countP (p <+: ·.toList) := by
  induction es with
  | nil => rfl
  | cons e es ih => simp [marks, hne, ih, List.countP_cons, Nat.add_comm]

/-- Brackets in the written form: one for an element without children, two for one with children,
and one for a root. -/
theorem count_bracket {m : Markup} (h : ∀ e ∈ m.elements, e.IsPlain) : m.render.toList.count '<' =
    m.elements.countP (!·.hasChildren) + 2 * m.elements.countP (·.hasChildren) +
      m.elements.countP (·.isRoot) := by
  rw [render, String.toList_ofList, ← occurrences_singleton, occurrences_chars (by simp) h,
    sum_marks_nil]

theorem occurrences_bracket {m : Markup} (h : ∀ e ∈ m.elements, e.IsPlain)
    (hp : ∀ c ∈ p, c.isAlpha = true) (hne : p ≠ []) :
    occurrences ('<' :: p) m.render.toList = (m.elements.map name).countP (p <+: ·.toList) := by
  rw [render, String.toList_ofList, occurrences_chars hp h, sum_marks_of_ne_nil hne]

end Written

end Markup

end PanelLayout
