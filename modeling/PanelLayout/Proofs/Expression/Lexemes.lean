import Mathlib.Tactic.Common
import PanelLayout.Expression.Token
import PanelLayout.Settings

/-!
# The word at the head of a text

What kind of word a text starts with is told by its characters alone. The word is the beginning of
the text, and it is found again in front of every text that does not continue it. No word starts
with a blank or with what may be a marker.
-/

namespace PanelLayout

section Characters

variable {c : Char}

theorem isDecimalDigit_iff :
    isDecimalDigit c = true ↔ ∃ z ∈ digitZeros, z ≤ c.toNat ∧ c.toNat ≤ z + 9 := by
  simp [isDecimalDigit, digitValue?]

theorem isDecimalDigit_of_isDigit (h : c.isDigit = true) : isDecimalDigit c = true := by
  obtain ⟨hlow, hhigh⟩ := Char.isDigit_iff_toNat.mp h
  exact isDecimalDigit_iff.mpr ⟨0x30, List.mem_cons_self, hlow, hhigh⟩

theorem isBlank_iff : isBlank c = true ↔ ∃ r ∈ blankRanges, r.1 ≤ c.toNat ∧ c.toNat ≤ r.2 := by
  simp [isBlank, inRanges]

private theorem toNat_of_isNameStart (h : isNameStart c = true) :
    65 ≤ c.toNat ∧ c.toNat ≤ 90 ∨ 97 ≤ c.toNat ∧ c.toNat ≤ 122 ∨ c.toNat = 95 := by
  unfold isNameStart Char.isAlpha Char.isUpper Char.isLower at h
  simp only [ge_iff_le, Bool.or_eq_true, Bool.and_eq_true, decide_eq_true_eq,
    UInt32.le_iff_toNat_le, beq_iff_eq] at h
  rcases h with (h | h) | rfl
  · exact .inl h
  · exact .inr (.inl h)
  · exact .inr (.inr rfl)

private theorem digitZero_eq_or_le : ∀ z ∈ digitZeros, z = 0x30 ∨ 0x660 ≤ z := by decide

private theorem isDecimalDigit_of_isNameStart (h : isNameStart c = true) :
    isDecimalDigit c = false := by
  have hc := toNat_of_isNameStart h
  rw [← Bool.not_eq_true, isDecimalDigit_iff]
  rintro ⟨z, hz, hlow, hhigh⟩
  have := digitZero_eq_or_le z hz
  omega

def startsWord (c : Char) : Bool :=
  isDecimalDigit c || isNameStart c || ['+', '-', '*', '/', '(', ')', '.'].contains c

private theorem digits_apart_from_blanks :
    ∀ z ∈ digitZeros, ∀ r ∈ blankRanges, r.2 < z ∨ z + 9 < r.1 := by decide

private theorem letters_apart_from_blanks : ∀ r ∈ blankRanges, r.2 < 65 ∨ 122 < r.1 := by decide

private theorem signs_apart_from_blanks :
    ['+', '-', '*', '/', '(', ')', '.'].all (fun c => !isBlank c) = true := by decide

theorem isBlank_of_startsWord (h : startsWord c = true) : isBlank c = false := by
  rw [startsWord, Bool.or_eq_true, Bool.or_eq_true, List.contains_iff_mem] at h
  rcases h with (hdigit | hname) | hsign
  · obtain ⟨z, hz, hlow, hhigh⟩ := isDecimalDigit_iff.mp hdigit
    rw [← Bool.not_eq_true, isBlank_iff]
    rintro ⟨r, hr, hfirst, hlast⟩
    have := digits_apart_from_blanks z hz r hr
    omega
  · have hc := toNat_of_isNameStart hname
    rw [← Bool.not_eq_true, isBlank_iff]
    rintro ⟨r, hr, hfirst, hlast⟩
    have := letters_apart_from_blanks r hr
    omega
  · simpa using List.all_eq_true.mp signs_apart_from_blanks c hsign

theorem startsWord_of_isMarker (h : isMarker c = true) : startsWord c = false := by
  rw [isMarker, Bool.not_eq_true', Bool.or_eq_false_iff, Bool.or_eq_false_iff] at h
  obtain ⟨⟨halphanumeric, hsign⟩, -⟩ := h
  rw [isAlphanumeric, Bool.or_eq_false_iff, Bool.or_eq_false_iff, Char.isAlphanum,
    Bool.or_eq_false_iff] at halphanumeric
  simp only [List.contains_eq_mem, List.mem_cons, List.not_mem_nil, or_false,
    decide_eq_false_iff_not, not_or] at hsign
  simp [startsWord, isNameStart, halphanumeric, hsign]

end Characters

private theorem takeWhile_append_of_head {p : Char → Bool} {cs rest : List Char}
    (h : ∀ c ∈ cs, p c = true) (hrest : ∀ c ∈ rest.head?, p c = false) :
    (cs ++ rest).takeWhile p = cs := by
  rw [List.takeWhile_append_of_pos h]
  cases rest with
  | nil => simp
  | cons c rest => rw [List.takeWhile_cons_of_neg (by simp [hrest c rfl]), List.append_nil]

private theorem dropWhile_append_of_head {p : Char → Bool} {cs rest : List Char}
    (h : ∀ c ∈ cs, p c = true) (hrest : ∀ c ∈ rest.head?, p c = false) :
    (cs ++ rest).dropWhile p = rest := by
  rw [List.dropWhile_append_of_pos h]
  cases rest with
  | nil => simp
  | cons c rest => rw [List.dropWhile_cons_of_neg (by simp [hrest c rfl])]

/-- A text that continues neither a number nor a name. -/
def Separates (cs : List Char) : Prop :=
  ∀ c ∈ cs.head?, isDecimalDigit c = false ∧ c ≠ '.' ∧ isNameChar c = false

theorem separates_nil : Separates [] := by simp [Separates]

namespace Lexeme

/-- Words by their characters, numbers in the digits of any script. -/
inductive IsWord : Lexeme → Prop
  | whole {cs : List Char} : cs ≠ [] → (∀ c ∈ cs, isDecimalDigit c = true) → IsWord (.number cs)
  | fraction {cs places : List Char} : cs ≠ [] ∨ places ≠ [] → (∀ c ∈ cs, isDecimalDigit c = true) →
      (∀ c ∈ places, isDecimalDigit c = true) → IsWord (.number (cs ++ '.' :: places))
  | name {c : Char} {cs : List Char} :
      isNameStart c = true → (∀ d ∈ cs, isNameChar d = true) → IsWord (.name (c :: cs))
  | operator (op : Operator) : IsWord (.operator op)
  | opening : IsWord .opening
  | closing : IsWord .closing

variable {w : Lexeme} {cs rest : List Char}

theorem IsWord.text_eq_cons (h : w.IsWord) : ∃ c cs, w.text = c :: cs ∧ startsWord c = true := by
  have hdigits {cs : List Char} (hne : cs ≠ []) (hcs : ∀ c ∈ cs, isDecimalDigit c = true) :
      ∃ c rest, cs = c :: rest ∧ startsWord c = true := by
    obtain ⟨c, rest, rfl⟩ := List.exists_cons_of_ne_nil hne
    exact ⟨c, rest, rfl, by simp [startsWord, hcs c List.mem_cons_self]⟩
  cases h with
  | whole hne hcs => exact hdigits hne hcs
  | @fraction cs places _ hcs _ =>
    cases cs with
    | nil => exact ⟨'.', places, rfl, rfl⟩
    | cons c cs =>
      obtain ⟨d, rest, hrest, hd⟩ := hdigits (List.cons_ne_nil c cs) hcs
      exact ⟨d, rest ++ '.' :: places, by rw [text, hrest, List.cons_append], hd⟩
  | @name c cs hc _ => exact ⟨c, cs, rfl, by simp [startsWord, hc]⟩
  | operator op => cases op <;> exact ⟨_, [], rfl, rfl⟩
  | opening | closing => exact ⟨_, [], rfl, rfl⟩

theorem IsWord.text_ne_nil (h : w.IsWord) : w.text ≠ [] := by
  obtain ⟨c, cs, htext, -⟩ := h.text_eq_cons
  rw [htext]
  exact List.cons_ne_nil c cs

private theorem IsWord.takeNumber_text (h : (Lexeme.number cs).IsWord) (hrest : Separates rest) :
    takeNumber (cs ++ rest) = cs := by
  have hdigit : ∀ c ∈ rest.head?, isDecimalDigit c = false := fun c hc => (hrest c hc).1
  cases h with
  | whole _ hcs =>
    rw [takeNumber, takeWhile_append_of_head hcs hdigit, dropWhile_append_of_head hcs hdigit]
    split
    · exact absurd rfl (hrest '.' (by simp)).2.1
    · rfl
  | @fraction whole places hne hwhole hplaces =>
    have hpoint : ∀ c ∈ ('.' :: (places ++ rest)).head?, isDecimalDigit c = false := by
      intro c hc
      obtain rfl : '.' = c := by simpa using hc
      decide
    rw [List.append_assoc, List.cons_append, takeNumber, takeWhile_append_of_head hwhole hpoint,
      dropWhile_append_of_head hwhole hpoint]
    simp only [takeWhile_append_of_head hplaces hdigit]
    rw [if_neg (by simpa [or_iff_not_imp_left] using hne)]

private theorem takeNumber_eq_nil {c : Char} (hdigit : isDecimalDigit c = false)
    (hpoint : c ≠ '.') :
    takeNumber (c :: cs) = [] := by
  rw [takeNumber, List.takeWhile_cons_of_neg (by simp [hdigit]),
    List.dropWhile_cons_of_neg (by simp [hdigit])]
  split
  · rename_i r hr
    exact absurd (List.cons.inj hr).1 hpoint
  · rfl

private theorem takeNumber_of_isNameStart {c : Char} (h : isNameStart c = true) :
    takeNumber (c :: cs) = [] := by
  refine takeNumber_eq_nil (isDecimalDigit_of_isNameStart h) ?_
  rintro rfl
  exact absurd h (by decide)

theorem IsWord.lexeme?_text (h : w.IsWord)
    (hrest : (w.isNumber || w.isName) = true → Separates rest) :
    lexeme? (w.text ++ rest) = some w := by
  have hnumber {cs : List Char} (hw : (Lexeme.number cs).IsWord) (hrest : Separates rest) :
      lexeme? (cs ++ rest) = some (.number cs) := by
    have htake := hw.takeNumber_text hrest
    obtain ⟨c, cs, rfl⟩ : ∃ c cs', cs = c :: cs' := List.exists_cons_of_ne_nil hw.text_ne_nil
    rw [List.cons_append] at htake ⊢
    rw [lexeme?, htake]
    rfl
  cases h with
  | whole hne hcs => exact hnumber (.whole hne hcs) (hrest rfl)
  | fraction hne hcs hplaces => exact hnumber (.fraction hne hcs hplaces) (hrest rfl)
  | @name c cs hc hcs =>
    have hstop : ∀ d ∈ rest.head?, isNameChar d = false := fun d hd => (hrest rfl d hd).2.2
    simp only [text, List.cons_append, lexeme?, takeNumber_of_isNameStart hc, hc,
      takeWhile_append_of_head hcs hstop]
    rfl
  | operator op =>
    cases op
    all_goals
      rw [text, List.singleton_append, lexeme?, takeNumber_eq_nil]
      · rfl
      · decide
      · decide
  | opening | closing =>
    rw [text, List.singleton_append, lexeme?, takeNumber_eq_nil]
    · rfl
    · decide
    · decide

theorem IsWord.eq_of_text {v : Lexeme} (hw : w.IsWord) (hv : v.IsWord) (h : w.text = v.text) :
    w = v := by
  have hread := hw.lexeme?_text fun _ => separates_nil
  rw [h, hv.lexeme?_text fun _ => separates_nil] at hread
  exact (Option.some.inj hread).symm

end Lexeme

theorem isWord_name {name : String} (h : isName name = true) :
    (Lexeme.name name.toList).IsWord := by
  unfold isName at h
  split at h
  · cases h
  · rename_i c cs hcs
    rw [Bool.and_eq_true, List.all_eq_true] at h
    rw [hcs]
    exact .name h.1 h.2

private theorem takeNumber_cases (cs : List Char) :
    takeNumber cs = [] ∨ (Lexeme.number (takeNumber cs)).IsWord ∧ takeNumber cs <+: cs := by
  have hdigits (cs : List Char) : ∀ c ∈ cs.takeWhile isDecimalDigit, isDecimalDigit c = true :=
    List.all_eq_true.mp List.all_takeWhile
  unfold takeNumber
  split
  · rename_i behind hbehind
    have hcs : cs.takeWhile isDecimalDigit ++ '.' :: behind = cs := by
      rw [← hbehind, List.takeWhile_append_dropWhile]
    dsimp only
    split_ifs with hempty
    · exact .inl rfl
    · refine .inr ⟨.fraction ?_ (hdigits cs) (hdigits behind), ?_⟩
      · simpa [or_iff_not_imp_left] using hempty
      · conv_rhs => rw [← hcs]
        exact (List.prefix_append_right_inj _).mpr
          (List.cons_prefix_cons.mpr ⟨rfl, List.takeWhile_prefix _⟩)
  · by_cases hempty : cs.takeWhile isDecimalDigit = []
    · exact .inl hempty
    · exact .inr ⟨.whole hempty (hdigits cs), List.takeWhile_prefix _⟩

private theorem symbol_of_operator? {c : Char} {op : Operator} (h : operator? c = some op) :
    op.symbol = c := by
  unfold operator? at h
  split at h <;> cases h <;> rfl

/-- What is read at the head of a text is a word, and the text starts with it. -/
theorem isWord_of_lexeme? {cs : List Char} {w : Lexeme} (h : lexeme? cs = some w) :
    w.IsWord ∧ w.text <+: cs := by
  cases cs with
  | nil => cases h
  | cons c rest =>
    rw [lexeme?] at h
    split at h
    · rename_i hnumber
      obtain rfl := Option.some.inj h
      exact (takeNumber_cases (c :: rest)).resolve_left (by simpa using hnumber)
    split at h
    · rename_i hname
      obtain rfl := Option.some.inj h
      exact ⟨.name hname (List.all_eq_true.mp List.all_takeWhile),
        List.cons_prefix_cons.mpr ⟨rfl, List.takeWhile_prefix _⟩⟩
    split at h
    · rename_i op hop
      obtain rfl := Option.some.inj h
      exact ⟨.operator op, List.cons_prefix_cons.mpr ⟨symbol_of_operator? hop, List.nil_prefix⟩⟩
    split_ifs at h with hopening hclosing
    · obtain rfl := Option.some.inj h
      exact ⟨.opening, List.cons_prefix_cons.mpr ⟨hopening.symm, List.nil_prefix⟩⟩
    · obtain rfl := Option.some.inj h
      exact ⟨.closing, List.cons_prefix_cons.mpr ⟨hclosing.symm, List.nil_prefix⟩⟩

end PanelLayout
