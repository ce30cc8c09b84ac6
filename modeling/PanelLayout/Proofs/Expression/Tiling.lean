import PanelLayout.Proofs.Expression.Lexing

/-!
# Words in their text

Scanning loses nothing. The words of a text stand in it one behind the other, and all that lies
between them is blank. Its parentheses are matched, and a number keeps its distance from names and
other numbers. So nothing but the words counts: written with single blanks between them, they are
found again.
-/

namespace PanelLayout

def Token.stop (t : Token) : Nat := t.position + t.lexeme.text.length

/-- How the words of a text lie in it from a position on. -/
structure Tiles (source : String) (start : Nat) (ts : List Token) : Prop where
  increasing : (ts.map Token.position).Pairwise (· < ·)
  apart : ts.Pairwise fun t u => t.stop ≤ u.position
  start_le : ∀ t ∈ ts, start ≤ t.position
  /-- A word is what stands at its position. -/
  written : ∀ t ∈ ts, (source.toList.drop t.position).take t.lexeme.text.length = t.lexeme.text
  /-- What belongs to no word is blank. -/
  blank : ∀ i c, start ≤ i → source.toList[i]? = some c →
    (∀ t ∈ ts, ¬(t.position ≤ i ∧ i < t.stop)) → isBlank c = true
  /-- No parenthesis is closed before it is opened. -/
  nested : ∀ before, before <+: words ts → before.count .closing ≤ before.count .opening
  balanced : (words ts).count .closing = (words ts).count .opening
  unreserved : ∀ t ∈ ts, isReserved (String.ofList t.lexeme.text) = false
  /-- Between a number and a name or a number behind it lies more than nothing. -/
  spaced : ts.Pairwise fun t u =>
    t.lexeme.isNumber = true → (u.lexeme.isNumber || u.lexeme.isName) = true → t.stop < u.position

def joined (ts : List Token) : String :=
  " ".intercalate (ts.map fun t => String.ofList t.lexeme.text)

theorem count_of_openCount? {k m : Nat} {ws : List Lexeme} (h : openCount? k ws = some m) :
    ws.count .closing + m = ws.count .opening + k := by
  induction ws generalizing k with
  | nil =>
    obtain rfl := Option.some.inj h
    rfl
  | cons w ws ih =>
    rw [← List.singleton_append, List.count_append, List.count_append]
    cases w with
    | opening =>
      have := @ih (k + 1) h
      simp
      omega
    | closing =>
      cases k with
      | zero => cases h
      | succ k =>
        have := @ih k h
        simp
        omega
    | number | name | operator =>
      have := @ih k (by cases k <;> exact h)
      simpa using this

/-- On the way through words that can be nested, no more parentheses are closed than are open. -/
theorem count_prefix_of_openCount? {k m : Nat} {before ws : List Lexeme}
    (h : openCount? k ws = some m) (hbefore : before <+: ws) :
    before.count .closing ≤ before.count .opening + k := by
  obtain ⟨rest, rfl⟩ := hbefore
  rw [openCount?_append, Option.bind_eq_some_iff] at h
  obtain ⟨inner, hinner, -⟩ := h
  have := count_of_openCount? hinner
  omega

private theorem isName_of_mem_reservedWords : ∀ name ∈ reservedWords, isName name = true := by
  decide

theorem Lexeme.IsWord.isReserved_text {w : Lexeme} (h : w.IsWord) (hname : w.isName = false) :
    isReserved (String.ofList w.text) = false := by
  rw [Bool.eq_false_iff]
  intro hreserved
  have hword := isWord_name (isName_of_mem_reservedWords _ (List.contains_iff_mem.mp hreserved))
  rw [String.toList_ofList] at hword
  rw [h.eq_of_text hword rfl] at hname
  cases hname

namespace Scans

variable {afterNumber : Bool} {open_ position : Nat} {cs : List Char} {ts : List Token}

theorem isWord (h : Scans afterNumber open_ position cs ts) : ∀ t ∈ ts, t.lexeme.IsWord := by
  induction h with
  | done => simp
  | blank _ _ ih => exact ih
  | word hw _ _ _ ih => exact List.forall_mem_cons.mpr ⟨(isWord_of_lexeme? hw).1, ih⟩

theorem position_le (h : Scans afterNumber open_ position cs ts) :
    ∀ t ∈ ts, position ≤ t.position := by
  induction h with
  | done => simp
  | blank _ _ ih => exact fun t ht => Nat.le_of_succ_le (ih t ht)
  | word _ _ _ _ ih =>
    exact List.forall_mem_cons.mpr ⟨Nat.le_refl _, fun t ht => Nat.le_of_add_right_le (ih t ht)⟩

theorem apart (h : Scans afterNumber open_ position cs ts) :
    ts.Pairwise fun t u => t.stop ≤ u.position := by
  induction h with
  | done => exact .nil
  | blank _ _ ih => exact ih
  | word _ _ _ h ih => exact .cons h.position_le ih

theorem text_prefix (h : Scans afterNumber open_ position cs ts) :
    ∀ t ∈ ts, t.lexeme.text <+: cs.drop (t.position - position) := by
  induction h with
  | done => simp
  | @blank afterNumber open_ position c cs ts _ h ih =>
    intro t ht
    have hle := h.position_le t ht
    rw [show t.position - position = t.position - (position + 1) + 1 by omega, List.drop_succ_cons]
    exact ih t ht
  | @word afterNumber open_ inner position w cs ts _ _ _ h ih =>
    refine List.forall_mem_cons.mpr ⟨?_, fun t ht => ?_⟩
    · rw [Nat.sub_self]
      exact List.prefix_append w.text cs
    · have hle := h.position_le t ht
      rw [show t.position - position = w.text.length + (t.position - (position + w.text.length)) by
        omega, List.drop_length_add_append]
      exact ih t ht

theorem isBlank_outside (h : Scans afterNumber open_ position cs ts) {i : Nat} {c : Char}
    (hc : cs[i]? = some c)
    (houtside : ∀ t ∈ ts, ¬(t.position ≤ position + i ∧ position + i < t.stop)) :
    isBlank c = true := by
  induction h generalizing i with
  | done => cases hc
  | @blank afterNumber open_ position d cs ts hd _ ih =>
    cases i with
    | zero =>
      obtain rfl := Option.some.inj hc
      exact hd
    | succ i =>
      refine ih hc fun t ht => ?_
      rw [show position + 1 + i = position + (i + 1) by omega]
      exact houtside t ht
  | @word afterNumber open_ inner position w cs ts _ _ _ _ ih =>
    obtain ⟨hfirst, hrest⟩ := List.forall_mem_cons.mp houtside
    have hi : w.text.length ≤ i := by
      simp only [Token.stop] at hfirst
      omega
    rw [List.getElem?_append_right hi] at hc
    refine ih hc fun t ht => ?_
    rw [show position + w.text.length + (i - w.text.length) = position + i by omega]
    exact hrest t ht

theorem openCount?_words (h : Scans afterNumber open_ position cs ts) :
    openCount? open_ (words ts) = some 0 := by
  induction h with
  | done => rfl
  | blank _ _ ih => exact ih
  | word _ _ hopen _ ih => rw [words_cons, openCount?_cons, hopen, Option.bind_some, ih]

theorem unreserved (h : Scans afterNumber open_ position cs ts) :
    ∀ t ∈ ts, isReserved (String.ofList t.lexeme.text) = false := by
  induction h with
  | done => simp
  | blank _ _ ih => exact ih
  | @word afterNumber open_ inner position w cs ts hw hrefusal _ _ ih =>
    refine List.forall_mem_cons.mpr ⟨?_, ih⟩
    cases w with
    | name => exact isReserved_of_refusal? hrefusal
    | number | operator | opening | closing => exact (isWord_of_lexeme? hw).1.isReserved_text rfl

theorem lt_of_afterNumber (h : Scans afterNumber open_ position cs ts)
    (hafter : afterNumber = true) :
    ∀ t ∈ ts, (t.lexeme.isNumber || t.lexeme.isName) = true → position < t.position := by
  cases h with
  | done => simp
  | blank _ h => exact fun t ht _ => h.position_le t ht
  | @word _ _ inner _ w cs ts hw hrefusal _ h =>
    subst hafter
    refine List.forall_mem_cons.mpr ⟨fun hkind => ?_, fun t ht _ => ?_⟩
    · cases w with
      | number | name => cases hrefusal
      | operator | opening | closing => cases hkind
    · have hlength := List.length_pos_iff.mpr (isWord_of_lexeme? hw).1.text_ne_nil
      have := h.position_le t ht
      omega

theorem spaced (h : Scans afterNumber open_ position cs ts) :
    ts.Pairwise fun t u =>
      t.lexeme.isNumber = true → (u.lexeme.isNumber || u.lexeme.isName) = true →
      t.stop < u.position := by
  induction h with
  | done => exact .nil
  | blank _ _ ih => exact ih
  | word _ _ _ h ih =>
    exact .cons (fun u hu hnumber hkind => h.lt_of_afterNumber hnumber u hu hkind) ih

private theorem separates_blank (cs : List Char) : Separates (' ' :: cs) := by
  intro c hc
  obtain rfl : ' ' = c := Option.some.inj hc
  decide

theorem intercalate (h : Scans afterNumber open_ position cs ts) (start : Nat) :
    ∃ us, Scans false open_ start ([' '].intercalate ((words ts).map Lexeme.text)) us ∧
    words us = words ts := by
  induction h generalizing start with
  | done => exact ⟨[], .done false start, rfl⟩
  | blank _ _ ih => exact ih start
  | @word afterNumber open_ inner position w cs ts hw hrefusal hopen _ ih =>
    have hword := (isWord_of_lexeme? hw).1
    have hrefusal' : refusal? false w = none := by
      cases w with
      | name => simp [refusal?, isReserved_of_refusal? hrefusal]
      | number | operator | opening | closing => rfl
    -- a blank follows each word but the last one, which leaves no parenthesis open
    cases ts with
    | nil =>
      obtain ⟨us, hus, hwords⟩ := ih (start + w.text.length)
      have hinner := hus.openCount?_words
      rw [hwords] at hinner
      obtain rfl := Option.some.inj hinner
      have hscan := Scans.word (hword.lexeme?_text fun _ => separates_nil) hrefusal' hopen
        (.done w.isNumber (start + w.text.length))
      exact ⟨[⟨w, start⟩], by simpa using hscan, rfl⟩
    | cons t ts =>
      obtain ⟨us, hus, hwords⟩ := ih (start + w.text.length + 1)
      have hscan :=
        Scans.word (hword.lexeme?_text fun _ => separates_blank _) hrefusal' hopen
          (.blank (by decide) hus)
      refine ⟨⟨w, start⟩ :: us, ?_, congrArg (w :: ·) hwords⟩
      simpa [List.intercalate_cons_cons] using hscan

end Scans

/-- Scanning loses nothing. The positions of the words grow and no two words overlap, each word is
what stands at its position, and all the rest of the text from the start on is blank. At no place
more parentheses have been closed than opened, and at the end all are closed. No word is reserved,
and no number has a name or a number right behind it. The words with single blanks between them are
scanned as the same words. -/
theorem tokenize_tiles {source : String} {start : Nat} {ts : List Token}
    (h : tokenize source start = .ok ts) :
    Tiles source start ts ∧ ∃ us, tokenize (joined ts) = .ok us ∧ words us = words ts := by
  obtain ⟨hscan, hne⟩ := tokenize_eq_ok_iff.mp h
  have hopen := hscan.openCount?_words
  constructor
  · constructor
    case increasing =>
      rw [List.pairwise_map]
      refine hscan.apart.imp_of_mem fun ht _ hle => Nat.lt_of_lt_of_le ?_ hle
      exact Nat.lt_add_of_pos_right (List.length_pos_iff.mpr (hscan.isWord _ ht).text_ne_nil)
    case apart => exact hscan.apart
    case start_le => exact hscan.position_le
    case written =>
      intro t ht
      have hprefix := hscan.text_prefix t ht
      rw [List.drop_drop, Nat.add_sub_cancel' (hscan.position_le t ht)] at hprefix
      exact (List.prefix_iff_eq_take.mp hprefix).symm
    case blank =>
      intro i c hi hc houtside
      obtain ⟨k, rfl⟩ := Nat.exists_eq_add_of_le hi
      exact hscan.isBlank_outside (by rwa [List.getElem?_drop]) houtside
    case nested => exact fun before hbefore => count_prefix_of_openCount? hopen hbefore
    case balanced => exact count_of_openCount? hopen
    case unreserved => exact hscan.unreserved
    case spaced => exact hscan.spaced
  · obtain ⟨us, hus, hwords⟩ := hscan.intercalate 0
    have htext : (joined ts).toList = [' '].intercalate ((words ts).map Lexeme.text) := by
      rw [joined, String.toList_intercalate, words, List.map_map, List.map_map]
      simp [Function.comp_def]
    refine ⟨us, tokenize_eq_ok_iff.mpr ⟨by rwa [htext, List.drop_zero], ?_⟩, hwords⟩
    rintro rfl
    exact hne (List.map_eq_nil_iff.mp hwords.symm)

/-- A number can start in the middle of a name, with a point or in the digits of another script. -/
theorem tokenize_tiles_from_second : ∃ ts, tokenize "x2 + (.5 - ٣)" 1 = .ok ts ∧
    words ts = [.number ['2'], .operator .add, .opening, .number ['.', '5'], .operator .sub,
      .number ['٣'], .closing] ∧
    Tiles "x2 + (.5 - ٣)" 1 ts ∧ ∃ us, tokenize (joined ts) = .ok us ∧ words us = words ts := by
  obtain ⟨ts, hts, hwords⟩ : ∃ ts, tokenize "x2 + (.5 - ٣)" 1 = .ok ts ∧ words ts =
      [.number ['2'], .operator .add, .opening, .number ['.', '5'], .operator .sub,
        .number ['٣'], .closing] :=
    ⟨_, rfl, rfl⟩
  exact ⟨ts, hts, hwords, tokenize_tiles hts⟩

end PanelLayout
