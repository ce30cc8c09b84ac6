import PanelLayout.Expression.Source
import PanelLayout.Proofs.Double.Decimals
import PanelLayout.Proofs.Expression.Exactness
import PanelLayout.Proofs.Expression.Scanning

/-!
# Reading what was written

The written form of an expression that was read is read again as an expression of the same shape:
only the values of the constants may differ, since they are written with six places.
-/

namespace PanelLayout

attribute [local instance (high)] instPowNat

theorem Decimal.toDouble_eq_finite {negative s : Bool} {d : Decimal} {m : Magnitude}
    (h : d.toDouble negative = .finite s m) : s = negative := by
  unfold Decimal.toDouble at h
  split at h
  · exact (Double.finite.inj h).1.symm
  · dsimp only at h
    split at h
    · cases h
    · split at h
      · exact (Double.finite.inj h).1.symm
      · unfold Double.ofQuanta at h
        split at h
        · exact (Double.finite.inj h).1.symm
        · cases h

theorem Surface.exists_numberValue {cs : List Char} (h : (numberValue cs).isFinite = true) :
    ∃ m, numberValue cs = .finite false m := by
  cases hx : numberValue cs with
  | nan | infinite => rw [hx] at h; cases h
  | finite s m =>
    obtain rfl := Decimal.toDouble_eq_finite hx
    exact ⟨m, rfl⟩

theorem Sentence.ends_eq_false {extended : Bool} {p : Phrase} {ws : List Lexeme} {e : Expression}
    {d : Nat} (h : Sentence extended p ws e d) : e.ends = false := h.isUnmarked.ends_eq_false

namespace Expression

private theorem dropTrailing_concat (c d : Char) (cs : List Char) :
    dropTrailing c (cs ++ [d]) = if d == c then dropTrailing c cs else cs ++ [d] :=
  List.rdropWhile_concat _ _ _

private theorem dropTrailing_zeros (whole places : List Char) :
    ∃ kept n, places = kept ++ List.replicate n '0' ∧ dropTrailing '0' (whole ++ '.' :: places) =
      whole ++ '.' :: kept := by
  induction places using List.reverseRecOn with
  | nil => exact ⟨[], 0, rfl, dropTrailing_concat '0' '.' whole⟩
  | append_singleton places c ih =>
    rw [← List.cons_append, ← List.append_assoc, dropTrailing_concat]
    split
    · rename_i hc
      obtain rfl := eq_of_beq hc
      obtain ⟨kept, n, rfl, hkept⟩ := ih
      exact ⟨kept, n + 1, by rw [List.append_assoc, ← List.replicate_succ'], hkept⟩
    · exact ⟨places ++ [c], 0, by simp, by simp⟩

private theorem dropTrailing_point_digit (cs : List Char) {c : Char} (hc : c.isDigit = true) :
    dropTrailing '.' (cs ++ [c]) = cs ++ [c] := by
  have hne : (c == '.') = false := by
    rw [beq_eq_false_iff_ne]
    rintro rfl
    cases hc
  rw [dropTrailing_concat, hne, if_neg Bool.false_ne_true]

private theorem dropTrailing_point {whole places : List Char} (hne : whole ≠ [])
    (hwhole : ∀ c ∈ whole, c.isDigit = true) (hplaces : ∀ c ∈ places, c.isDigit = true) :
    dropTrailing '.' (whole ++ '.' :: places) = if places = [] then whole
      else whole ++ '.' :: places := by
  rcases List.eq_nil_or_concat places with rfl | ⟨places, c, rfl⟩
  · rcases List.eq_nil_or_concat whole with rfl | ⟨whole, c, rfl⟩
    · exact absurd rfl hne
    · rw [List.concat_eq_append] at hwhole ⊢
      rw [dropTrailing_concat, beq_self_eq_true, if_pos rfl, if_pos rfl,
        dropTrailing_point_digit _ (hwhole c (by simp))]
  · rw [List.concat_eq_append] at hplaces ⊢
    rw [← List.cons_append, ← List.append_assoc, dropTrailing_point_digit _ (hplaces c (by simp)),
      if_neg (by simp)]

theorem isDigit_padded {size n : Nat} : ∀ c ∈ Decimal.padded size n, c.isDigit = true := by
  intro c hc
  rcases List.mem_append.mp hc with hc | hc
  · obtain rfl := List.eq_of_mem_replicate hc
    rfl
  · exact Nat.isDigit_of_mem_toDigits (by decide) (by decide) hc

theorem isDigit_digitsText {n : Nat} : ∀ c ∈ Decimal.digitsText n, c.isDigit = true :=
  fun _ hc => Nat.isDigit_of_mem_toDigits (by decide) (by decide) hc

theorem constantSource_of_isClose {m : Magnitude}
    (h : (Double.finite false m).isClose (.zero false) = true) :
    constantSource (.double (.finite false m)) = ['0'] := by
  rw [constantSource, show (Number.double (.finite false m)).toDouble =
    .ok (.finite false m) from rfl]
  exact if_pos h

/-- A constant that is not close to zero is written as its whole part and its places, up to the last
one that is not zero. -/
theorem constantSource_eq {m : Magnitude}
    (h : (Double.finite false m).isClose (.zero false) = false) :
    ∃ kept n, Decimal.padded 6 (m.millionths % 10 ^ 6) = kept ++ List.replicate n '0' ∧
      constantSource (.double (.finite false m)) =
        if kept = [] then Decimal.digitsText (m.millionths / 10 ^ 6)
        else Decimal.digitsText (m.millionths / 10 ^ 6) ++ '.' :: kept := by
  have htext : ((Double.finite false m).fixedText 6).toList =
      Decimal.digitsText (m.millionths / 10 ^ 6) ++ '.' ::
        Decimal.padded 6 (m.millionths % 10 ^ 6) := by
    rw [Double.fixedText, Double.signed, String.toList_ofList, if_neg Bool.false_ne_true,
      if_neg (by decide)]
    rfl
  obtain ⟨kept, n, hplaces, hkept⟩ :=
    dropTrailing_zeros (Decimal.digitsText (m.millionths / 10 ^ 6))
    (Decimal.padded 6 (m.millionths % 10 ^ 6))
  refine ⟨kept, n, hplaces, ?_⟩
  rw [constantSource, show (Number.double (.finite false m)).toDouble =
    .ok (.finite false m) from rfl]
  dsimp only
  rw [if_neg (by simp [h]), htext, hkept]
  exact dropTrailing_point Nat.toDigits_ne_nil isDigit_digitsText
    fun c hc => isDigit_padded c (hplaces ▸ List.mem_append_left _ hc)

theorem isPlain_constantSource (m : Magnitude) :
    (Lexeme.number (constantSource (.double (.finite false m)))).IsPlain := by
  by_cases hzero : (Double.finite false m).isClose (.zero false) = true
  · rw [constantSource_of_isClose hzero]
    exact .whole (List.cons_ne_nil _ _) (List.forall_mem_singleton.mpr rfl)
  · obtain ⟨kept, n, hplaces, hsource⟩ := constantSource_eq (Bool.not_eq_true _ ▸ hzero)
    rw [hsource]
    split
    · exact .whole Nat.toDigits_ne_nil isDigit_digitsText
    · exact .fraction Nat.toDigits_ne_nil isDigit_digitsText
        fun c hc => isDigit_padded c (hplaces ▸ List.mem_append_left _ hc)

/-- Expressions that differ at most in the values of their constants. -/
inductive SameShape : Expression → Expression → Prop
  | constant (a b : Number) (ends : Bool) : SameShape (.constant a ends) (.constant b ends)
  | variable (v : Variable) (ends : Bool) : SameShape (.variable v ends) (.variable v ends)
  | negation {a b : Expression} (ends : Bool) :
      SameShape a b → SameShape (.negation a ends) (.negation b ends)
  | operation {a b c d : Expression} (op : Operator) (ends : Bool) : SameShape a b → SameShape c d →
      SameShape (.operation op a c ends) (.operation op b d ends)

/-- Words in parentheses, where these are needed. -/
def grouped (needed : Bool) (ws : List Lexeme) : List Lexeme :=
  if needed then .opening :: (ws ++ [.closing]) else ws

def sourceWords : Expression → List Lexeme
  | .constant v _ => [.number (constantSource v)]
  | .variable v _ => [.name v.source.toList]
  | .negation e _ => .operator .sub :: grouped (!e.isAtom) e.sourceWords
  | .operation op l r _ =>
    grouped l.isOperation l.sourceWords ++ .operator op :: grouped (!r.isAtom) r.sourceWords

/-- `Renders extended e f d`: the written form of `e` is a sentence of `f`, with `d` signs,
operators and operands on its longest way inwards. Without parentheses it is a factor, unless `e` is
an operation. -/
structure Renders (extended : Bool) (e f : Expression) (d : Nat) : Prop where
  sameShape : SameShape e f
  chars : e.sourceChars = written e.sourceWords
  plain : ∀ w ∈ e.sourceWords, w.IsPlain
  sum : Sentence extended .sum e.sourceWords f d
  factor : e.isOperation = false → Sentence extended .factor e.sourceWords f d

namespace Renders

variable {extended needed : Bool} {e f : Expression} {d : Nat}

theorem ofFactor (hsame : SameShape e f) (hchars : e.sourceChars = written e.sourceWords)
    (hplain : ∀ w ∈ e.sourceWords, w.IsPlain) (h : Sentence extended .factor e.sourceWords f d) :
    Renders extended e f d :=
  ⟨hsame, hchars, hplain, .sum (.product h), fun _ => h⟩

theorem grouped_factor (h : Renders extended e f d)
    (hneeded : needed = false → e.isOperation = false) :
    Sentence extended .factor (grouped needed e.sourceWords) f d := by
  cases needed with
  | true => exact .group h.sum
  | false => exact h.factor (hneeded rfl)

theorem grouped_chars (h : Renders extended e f d) (needed : Bool) :
    parenthesized needed e.sourceChars = written (grouped needed e.sourceWords) := by
  cases needed with
  | true => simp [parenthesized, grouped, h.chars, Lexeme.text]
  | false => exact h.chars

theorem grouped_plain (h : Renders extended e f d) (needed : Bool) :
    ∀ w ∈ grouped needed e.sourceWords, w.IsPlain := by
  cases needed with
  | true =>
    intro w hw
    simp only [grouped, if_true, List.mem_cons, List.mem_append, List.not_mem_nil, or_false] at hw
    rcases hw with rfl | hw | rfl
    · exact .opening
    · exact h.plain w hw
    · exact .closing
  | false => exact h.plain

end Renders

private theorem isOperation_of_isAtom {e : Expression} (h : (!e.isAtom) = false) :
    e.isOperation = false := by
  cases e with
  | constant | «variable» => rfl
  | negation | operation => cases h

private theorem renders_operation {extended : Bool} {l r a b : Expression} {m n : Nat}
    (op : Operator) (hl : Renders extended l a m) (hr : Renders extended r b n) :
    Renders extended (.operation op l r false) (.operation op a b false) (max m n + 1) where
  sameShape := .operation op false hl.sameShape hr.sameShape
  chars := by
    rw [sourceChars, sourceWords, hl.grouped_chars, hr.grouped_chars, written_append, written_cons]
    rfl
  plain := by
    intro w hw
    rcases List.mem_append.mp hw with hw | hw
    · exact hl.grouped_plain _ w hw
    · rcases List.mem_cons.mp hw with rfl | hw
      · exact .operator op
      · exact hr.grouped_plain _ w hw
  sum := by
    have hleft := hl.grouped_factor id
    have hright := hr.grouped_factor isOperation_of_isAtom
    cases op with
    | add | sub => exact .addition rfl (.sum (.product hleft)) (.product hright)
    | mul | div => exact .sum (.multiplication rfl (.product hleft) hright)
  factor := nofun

private theorem renders_negation {extended : Bool} {e f : Expression} {d : Nat}
    (h : Renders extended e f d) :
    Renders extended (.negation e false) (.negation f false) (d + 1) := by
  refine .ofFactor (.negation false h.sameShape) ?_ ?_
    (.minus (h.grouped_factor isOperation_of_isAtom))
  · rw [sourceChars, sourceWords, h.grouped_chars, written_cons]
    rfl
  · intro w hw
    rcases List.mem_cons.mp hw with rfl | hw
    · exact .operator .sub
    · exact h.grouped_plain _ w hw

/-- The expression of a sentence is rendered as a sentence of its shape, and no deeper than it was
written. -/
theorem exists_renders {extended : Bool} {p : Phrase} {ws : List Lexeme} {e : Expression} {d : Nat}
    (h : Sentence extended p ws e d) (hnames : ∀ w ∈ ws, w.isName = true → w.IsPlain)
    (hfinite : ∀ x, .double x ∈ e.constants → x.isFinite = true) :
    ∃ f n, n ≤ d ∧ Renders extended e f n := by
  -- by how the expression was written: plus signs and parentheses leave no trace in it
  induction h with
  | sum _ ih | product _ ih => exact ih hnames hfinite
  | addition _ _ _ ihl ihr | multiplication _ _ _ ihl ihr =>
    obtain ⟨a, m, hm, hl⟩ := ihl (fun w hw => hnames w (List.mem_append_left _ hw))
      fun x hx => hfinite x (List.mem_append_left _ hx)
    obtain ⟨b, n, hn, hr⟩ :=
      ihr (fun w hw => hnames w (List.mem_append_right _ (List.mem_cons_of_mem _ hw)))
      fun x hx => hfinite x (List.mem_append_right _ hx)
    exact ⟨_, _, by omega, renders_operation _ hl hr⟩
  | plus _ ih =>
    obtain ⟨f, n, hn, h⟩ := ih (fun w hw => hnames w (List.mem_cons_of_mem _ hw)) hfinite
    exact ⟨f, n, by omega, h⟩
  | minus _ ih =>
    obtain ⟨f, n, hn, h⟩ := ih (fun w hw => hnames w (List.mem_cons_of_mem _ hw)) hfinite
    exact ⟨_, _, by omega, renders_negation h⟩
  | number cs =>
    obtain ⟨m, hm⟩ := Surface.exists_numberValue (hfinite _ List.mem_cons_self)
    have hplain := isPlain_constantSource m
    rw [← hm] at hplain
    refine ⟨_, 1, Nat.le_refl 1,
      .ofFactor (.constant _ _ false) (by simp [sourceChars, sourceWords, markText, Lexeme.text])
      ?_ (.number _)⟩
    intro w hw
    obtain rfl := List.mem_singleton.mp hw
    exact hplain
  | @name cs v hv =>
    have hsource : v.source.toList = cs := by rw [hv.source_eq, String.toList_ofList]
    have hwords : (Expression.variable v false).sourceWords = [.name cs] := by
      rw [sourceWords, hsource]
    refine ⟨_, 1, Nat.le_refl 1, .ofFactor (.variable v false) ?_ ?_ (hwords ▸ .name hv)⟩
    · simp [sourceChars, hwords, hsource, markText, Lexeme.text]
    · rw [hwords]
      intro w hw
      obtain rfl := List.mem_singleton.mp hw
      exact hnames _ hw rfl
  | group _ ih =>
    exact ih (fun w hw => hnames w (List.mem_cons_of_mem _ (List.mem_append_left _ hw))) hfinite

def OpensWithin (limit : Nat) (text : List Char) : Prop :=
  ∀ before, before <+: text → before.count '(' ≤ before.count ')' + limit

theorem nestsWithin_of_opensWithin {limit : Nat} {ws : List Lexeme} {marker : List Char}
    (hplain : ∀ w ∈ ws, w.IsPlain) (hmarker : marker.count '(' = 0 ∧ marker.count ')' = 0)
    (h : OpensWithin limit (marker ++ written ws)) :
    NestsWithin limit ws := by
  rintro before ⟨after, rfl⟩
  have hcount := count_written fun w hw => hplain w (List.mem_append_left after hw)
  have := h (marker ++ written before) ⟨written after, by rw [List.append_assoc, ← written_append]⟩
  rw [List.count_append, List.count_append, hmarker.1, hmarker.2, hcount.1, hcount.2] at this
  omega

def marked (e : Expression) (ends : Bool) : Expression := if ends then e.markEnd else e

theorem SameShape.marked {e f : Expression} (h : SameShape e f) (ends : Bool) :
    SameShape (e.marked ends) (f.marked ends) := by
  cases ends with
  | false => exact h
  | true =>
    cases h with
    | constant a b => exact .constant a b true
    | «variable» v => exact .variable v true
    | negation _ h => exact .negation true h
    | operation op _ hl hr => exact .operation op true hl hr

theorem constants_marked (e : Expression) (ends : Bool) :
    (e.marked ends).constants = e.constants := by
  cases ends with
  | false => rfl
  | true => cases e <;> rfl

theorem sourceChars_marked {e : Expression} (h : e.ends = false) (ends : Bool) :
    (e.marked ends).sourceChars = markText ends ++ e.sourceChars := by
  cases ends with
  | false => rfl
  | true =>
    cases e with
    | constant _ b | «variable» _ b | negation _ b | operation _ _ _ b =>
      obtain rfl : b = false := h
      rfl

def startsMarked (preface : Bool) (text : List Char) : Bool := preface && text.head? == some '?'

theorem markerLength?_question (limits : NestingLimits) (extended preface : Bool)
    (source : String) :
    markerLength? { extended, preface, limits } source =
      if startsMarked preface source.toList then some 1 else none := by
  have hprefix : ['?'].isPrefixOf source.toList = (source.toList.head? == some '?') := by
    cases source.toList with
    | nil => rfl
    | cons c cs => simp [List.isPrefixOf, eq_comm]
  have hmarker : "?".toList = ['?'] ∧ "?".length = 1 := by decide
  rw [startsMarked, ← hprefix, markerLength?]
  simp only [hmarker]

theorem read_eq_ok_iff_startsMarked {limits : NestingLimits} {extended preface : Bool}
    {source : String} {e : Expression} :
    read { extended, preface, limits } source = .ok e ↔
      ∃ ts f, tokenize source (startsMarked preface source.toList).toNat = .ok ts ∧
        ofTokens limits extended source.length (startsMarked preface source.toList).toNat ts =
          .ok f ∧
        f.marked (startsMarked preface source.toList) = e := by
  rw [read_eq_ok_iff, markerLength?_question]
  cases startsMarked preface source.toList <;> rfl

private theorem startsMarked_written {extended preface : Bool} {source : List Char}
    {e f : Expression} {n : Nat} (h : Renders extended e f n) :
    startsMarked preface (markText (startsMarked preface source) ++ written e.sourceWords) =
      startsMarked preface source := by
  cases hm : startsMarked preface source with
  | true =>
    obtain ⟨rfl, -⟩ := Bool.and_eq_true_iff.mp hm
    rfl
  | false =>
    obtain ⟨w, ws, hws, -⟩ := h.sum.wellSpaced.starts
    have hplain := h.plain
    rw [hws] at hplain ⊢
    obtain ⟨c, cs, htext, -, hc⟩ := (hplain w List.mem_cons_self).text_eq_cons
    rw [written_cons, htext]
    simp [startsMarked, markText, hc]

private theorem count_markText (ends : Bool) :
    (markText ends).count '(' = 0 ∧ (markText ends).count ')' = 0 := by
  cases ends <;> decide

/-- Rendering keeps the tree. What was read from any text, with finite constants, is written as a
text that is read under the same rules as an expression of the same shape, mark included. It is
never too deep for the walk over its tree; only the parentheses that are open at once can be too
many, or the parser has no room left for reading the text. -/
theorem read_source (limits : NestingLimits) (extended preface : Bool) (source : String)
    (e : Expression) (hread : read { extended, preface, limits } source = .ok e)
    (hfinite : ∀ x, .double x ∈ e.constants → x.isFinite = true)
    (hopen : OpensWithin limits.openings e.source.toList)
    (hroom : ∀ ts, tokenize e.source ((markerLength? { extended, preface } e.source).getD 0) =
      .ok ts → limits.exhausts (words ts) = false) :
    ∃ f, read { extended, preface, limits } e.source = .ok f ∧ SameShape e f := by
  obtain ⟨ts, a, hts, ha, rfl⟩ := read_eq_ok_iff_startsMarked.mp hread
  obtain ⟨d, hsentence, hlimits⟩ := ofTokens_eq_ok_iff_sentence.mp ha
  rw [constants_marked] at hfinite
  obtain ⟨f, n, hn, h⟩ := exists_renders hsentence (tokenize_names hts) hfinite
  generalize hends : startsMarked preface source.toList = ends at hopen hroom ⊢
  have htext : (a.marked ends).source.toList = markText ends ++ written a.sourceWords := by
    rw [Expression.source, String.toList_ofList,
      sourceChars_marked hsentence.ends_eq_false, h.chars]
  have hmark : startsMarked preface (a.marked ends).source.toList = ends := by
    rw [htext, ← hends, startsMarked_written h]
  have hlength : (markerLength? { extended, preface } (a.marked ends).source).getD 0 =
      ends.toNat := by
    rw [markerLength?_question, hmark]
    cases ends <;> rfl
  have hdrop : (a.marked ends).source.toList.drop ends.toNat = written a.sourceWords := by
    rw [htext]
    cases ends <;> rfl
  rw [htext] at hopen
  have hnests := nestsWithin_of_opensWithin h.plain (count_markText ends) hopen
  obtain ⟨us, hus, hwords⟩ := h.sum.tokenize_written h.plain hdrop
  rw [hlength] at hroom
  have hsum : Sentence extended .sum (words us) f n := hwords.symm ▸ h.sum
  have hkeeps : KeepsLimits limits (words us) n :=
    ⟨hroom us hus, hwords.symm ▸ hnests, Nat.le_trans hn hlimits.depth⟩
  refine ⟨f.marked ends, read_eq_ok_iff_startsMarked.mpr ⟨us, f, ?_, ?_, by rw [hmark]⟩,
    h.sameShape.marked ends⟩
  · rw [hmark]
    exact hus
  · exact ofTokens_eq_ok_iff_sentence.mpr ⟨n, hsum, hkeeps⟩

/-- Blanks are lost, and the parentheses around operands are new. -/
theorem read_source_end_coordinate :
    ∃ e f, read { preface := true } "? a - 2 * -b" = .ok e ∧
    read { preface := true } e.source = .ok f ∧
      SameShape e f := by
  have ha : Names false "a" ⟨"a", .custom⟩ := .custom (by decide) (by decide +kernel)
  have hb : Names false "b" ⟨"b", .custom⟩ := .custom (by decide) (by decide +kernel)
  obtain ⟨e, h, hconstants, hcount⟩ :
      ∃ e, Sentence false .sum [.name ['a'], .operator .sub, .number ['2'], .operator .mul,
        .operator .sub, .name ['b']] e 4 ∧
        e.constants = [.double (Surface.numberValue ['2'])] ∧
        e.markEnd.source.toList.count '(' ≤ openLimit :=
    ⟨_, .addition rfl (.sum (.product (.name ha)))
      (.multiplication rfl (.product (.number ['2'])) (.minus (.name hb))), rfl, by decide +kernel⟩
  obtain ⟨ts, hts, hwords⟩ : ∃ ts, tokenize "? a - 2 * -b" 1 = .ok ts ∧
      words ts = [.name ['a'], .operator .sub, .number ['2'], .operator .mul, .operator .sub,
        .name ['b']] := ⟨_, rfl, rfl⟩
  have hread : read { preface := true } "? a - 2 * -b" = .ok e.markEnd := by
    have hopen : NestsWithin openLimit (words ts) := nestsWithin_of_count (by rw [hwords]; decide)
    rw [← hwords] at h
    exact read_eq_ok_iff_startsMarked.mpr
      ⟨ts, e, hts, ofTokens_eq_ok_iff_sentence.mpr ⟨_, h, rfl, hopen, by decide⟩, rfl⟩
  obtain ⟨f, hf, hsame⟩ := read_source {} false true _ _ hread
    (fun x hx => by
      rw [show e.markEnd.constants = e.constants from constants_marked e true, hconstants] at hx
      rw [Number.double.inj (List.mem_singleton.mp hx)]
      decide +kernel)
    (fun before hbefore => by
      have := hbefore.sublist.count_le '('
      dsimp only
      omega)
    (fun _ _ => rfl)
  exact ⟨e.markEnd, f, hread, hf, hsame⟩

end Expression

end PanelLayout
