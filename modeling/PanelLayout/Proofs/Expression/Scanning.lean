import PanelLayout.Proofs.Expression.Lexing

/-!
# Scanning

Words that are written one behind the other, without blanks, are found again by the scanner as long
as they stand side by side as they do in a sentence. The other way round, what the scanner takes as
a name has the form of one.
-/

namespace PanelLayout

namespace Lexeme

/-- Words in plain spelling: numbers in ASCII digits that start with a digit, and names that are not
reserved. -/
inductive IsPlain : Lexeme → Prop
  | whole {cs : List Char} : cs ≠ [] → (∀ c ∈ cs, c.isDigit = true) → IsPlain (.number cs)
  | fraction {cs places : List Char} :
      cs ≠ [] → (∀ c ∈ cs, c.isDigit = true) → (∀ c ∈ places, c.isDigit = true) →
      IsPlain (.number (cs ++ '.' :: places))
  | name {c : Char} {cs : List Char} : isNameStart c = true → (∀ d ∈ cs, isNameChar d = true) →
      isReserved (String.ofList (c :: cs)) = false → IsPlain (.name (c :: cs))
  | operator (op : Operator) : IsPlain (.operator op)
  | opening : IsPlain .opening
  | closing : IsPlain .closing

theorem IsPlain.isWord {w : Lexeme} (h : w.IsPlain) : w.IsWord := by
  have hdigits {cs : List Char} (hcs : ∀ c ∈ cs, c.isDigit = true) :
      ∀ c ∈ cs, isDecimalDigit c = true :=
    fun c hc => isDecimalDigit_of_isDigit (hcs c hc)
  cases h with
  | whole hne hcs => exact .whole hne (hdigits hcs)
  | fraction hne hcs hplaces => exact .fraction (.inl hne) (hdigits hcs) (hdigits hplaces)
  | name hc hcs _ => exact .name hc hcs
  | operator op => exact .operator op
  | opening => exact .opening
  | closing => exact .closing

theorem IsPlain.text_eq_cons {w : Lexeme} (h : w.IsPlain) :
    ∃ c cs, w.text = c :: cs ∧ isBlank c = false ∧ c ≠ '?' := by
  obtain ⟨c, cs, htext, hc⟩ := h.isWord.text_eq_cons
  refine ⟨c, cs, htext, isBlank_of_startsWord hc, ?_⟩
  rintro rfl
  exact absurd hc (by decide)

theorem IsPlain.count_text {w : Lexeme} (h : w.IsPlain) :
    w.text.count '(' = [w].count .opening ∧ w.text.count ')' = [w].count .closing := by
  have hdigits {cs : List Char} {c : Char} (hcs : ∀ c ∈ cs, c.isDigit = true)
    (hc : c.isDigit = false) :
      cs.count c = 0 :=
    List.count_eq_zero.mpr fun hmem => by rw [hcs c hmem] at hc; cases hc
  cases h with
  | whole _ hcs => exact ⟨hdigits hcs rfl, hdigits hcs rfl⟩
  | fraction _ hcs hplaces =>
    constructor
    all_goals
      rw [text, List.count_append, hdigits hcs rfl, List.count_cons, hdigits hplaces rfl]
      rfl
  | @name c cs hc hcs _ =>
    have hchars : ∀ d ∈ c :: cs, isNameChar d = true := by
      intro d hd
      rcases List.mem_cons.mp hd with rfl | hd
      · simp only [isNameStart, isNameChar, Char.isAlphanum, Bool.or_eq_true] at hc ⊢
        tauto
      · exact hcs d hd
    constructor
    all_goals
      rw [text, List.count_eq_zero.mpr]
      · rfl
      · intro hmem
        exact absurd (hchars _ hmem) (by decide)
  | operator op => cases op <;> decide
  | opening | closing => decide

end Lexeme

theorem isPlain_name_iff {cs : List Char} :
    (Lexeme.name cs).IsPlain ↔ isName (String.ofList cs) = true ∧
    isReserved (String.ofList cs) = false := by
  rw [isName, String.toList_ofList]
  constructor
  · intro h
    cases h with
    | name hc hcs hreserved =>
      rw [Bool.and_eq_true, List.all_eq_true]
      exact ⟨⟨hc, hcs⟩, hreserved⟩
  · rintro ⟨hname, hreserved⟩
    cases cs with
    | nil => cases hname
    | cons c cs =>
      rw [Bool.and_eq_true, List.all_eq_true] at hname
      exact .name hname.1 hname.2 hreserved

def written (ws : List Lexeme) : List Char := ws.flatMap Lexeme.text

@[simp] theorem written_nil : written [] = [] := rfl

@[simp] theorem written_cons (w : Lexeme) (ws : List Lexeme) :
    written (w :: ws) = w.text ++ written ws := rfl

@[simp] theorem written_append (ws vs : List Lexeme) :
    written (ws ++ vs) = written ws ++ written vs :=
  List.flatMap_append

theorem count_written {ws : List Lexeme} (h : ∀ w ∈ ws, w.IsPlain) :
    (written ws).count '(' = ws.count .opening ∧ (written ws).count ')' = ws.count .closing := by
  induction ws with
  | nil => exact ⟨rfl, rfl⟩
  | cons w ws ih =>
    obtain ⟨hopening, hclosing⟩ := (h w List.mem_cons_self).count_text
    obtain ⟨ihopening, ihclosing⟩ := ih fun v hv => h v (List.mem_cons_of_mem w hv)
    rw [written_cons, ← List.singleton_append, List.count_append, List.count_append,
      List.count_append, List.count_append, hopening, hclosing, ihopening, ihclosing]
    exact ⟨rfl, rfl⟩

private theorem separates_written {w : Lexeme} {ws : List Lexeme}
    (hw : (w.isNumber || w.isName) = true)
    (hspaced : (w :: (ws ++ [.closing])).IsChain fun a b => a.mayPrecede b = true) :
    Separates (written ws) := by
  cases ws with
  | nil => simp [Separates]
  | cons v ws =>
    rw [List.cons_append, List.isChain_cons_cons] at hspaced
    have hends : w.endsOperand = true := by
      cases w <;> simp_all [Lexeme.isNumber, Lexeme.isName, Lexeme.endsOperand]
    have hv : v.startsOperand = false := by simpa [Lexeme.mayPrecede, hends] using hspaced.1
    intro c hc
    cases v with
    | number | name | opening => cases hv
    | operator op =>
      obtain rfl : op.symbol = c := Option.some.inj hc
      cases op <;> decide
    | closing =>
      obtain rfl : ')' = c := Option.some.inj hc
      decide

private theorem refusal?_of_mayPrecede {before w : Lexeme} (h : before.mayPrecede w = true)
    (hw : w.IsPlain) :
    refusal? before.isNumber w = none := by
  have hbefore (hstart : w.startsOperand = true) : before.isNumber = false := by
    cases before <;> simp_all [Lexeme.mayPrecede, Lexeme.endsOperand, Lexeme.isNumber]
  cases hw with
  | whole | fraction => rw [hbefore rfl]; rfl
  | name _ _ hreserved =>
    rw [hbefore rfl]
    simp only [refusal?, hreserved, Bool.false_eq_true, if_false]
  | operator | opening | closing => rfl

theorem scans_written {ws : List Lexeme} {before : Lexeme} {open_ position : Nat}
    (hspaced : (before :: (ws ++ [.closing])).IsChain fun a b => a.mayPrecede b = true)
    (hplain : ∀ w ∈ ws, w.IsPlain) (hopen : openCount? open_ ws = some 0) :
    ∃ ts, Scans before.isNumber open_ position (written ws) ts ∧ words ts = ws := by
  -- the word before stands for what the scanner remembers of it: whether it was a number
  induction ws generalizing before position open_ with
  | nil =>
    obtain rfl := Option.some.inj hopen
    exact ⟨[], .done _ _, rfl⟩
  | cons w ws ih =>
    have hw := hplain w List.mem_cons_self
    rw [List.cons_append, List.isChain_cons_cons] at hspaced
    rw [openCount?_cons, Option.bind_eq_some_iff] at hopen
    obtain ⟨inner, hinner, hrest⟩ := hopen
    have hlexeme := hw.isWord.lexeme?_text fun h => separates_written h hspaced.2
    have hrefusal := refusal?_of_mayPrecede hspaced.1 hw
    obtain ⟨ts, hscan, hwords⟩ := @ih w inner (position + w.text.length) hspaced.2
      (fun v hv => hplain v (List.mem_cons_of_mem w hv)) hrest
    exact ⟨⟨w, position⟩ :: ts, .word hlexeme hrefusal hinner hscan, by rw [words_cons, hwords]⟩

/-- The words of a sentence in plain spelling are found in the text that they write. -/
theorem Sentence.tokenize_written {extended : Bool} {ws : List Lexeme} {e : Expression}
    {d start : Nat} {source : String} (h : Sentence extended .sum ws e d)
    (hplain : ∀ w ∈ ws, w.IsPlain) (hsource : source.toList.drop start = written ws) :
    ∃ ts, tokenize source start = .ok ts ∧ words ts = ws := by
  have hopen : openCount? 0 ws = some 0 := by
    rw [← List.append_nil ws, h.openCount?_append]
    rfl
  obtain ⟨ts, hscan, hwords⟩ := @scans_written ws .opening 0 start h.wellSpaced hplain hopen
  refine ⟨ts, tokenize_eq_ok_iff.mpr ⟨hsource ▸ hscan, ?_⟩, hwords⟩
  obtain ⟨w, vs, hws, -⟩ := h.wellSpaced.starts
  rintro rfl
  cases hwords.trans hws

theorem Scans.names {afterNumber : Bool} {open_ position : Nat} {cs : List Char} {ts : List Token}
    (h : Scans afterNumber open_ position cs ts) : ∀ w ∈ words ts, w.isName = true → w.IsPlain := by
  induction h with
  | done => simp
  | blank _ _ ih => exact ih
  | word hw hrefusal _ _ ih =>
    intro v hv hname
    rcases List.mem_cons.mp hv with rfl | hv
    · cases (isWord_of_lexeme? hw).1 with
      | name hc hcs => exact .name hc hcs (isReserved_of_refusal? hrefusal)
      | whole | fraction | operator | opening | closing => cases hname
    · exact ih v hv hname

theorem tokenize_names {source : String} {start : Nat} {ts : List Token}
    (h : tokenize source start = .ok ts) :
    ∀ w ∈ words ts, w.isName = true → w.IsPlain :=
  (tokenize_eq_ok_iff.mp h).1.names

end PanelLayout
