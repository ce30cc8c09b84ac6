import PanelLayout.Proofs.Computation
import PanelLayout.Proofs.Expression.Lexemes
import PanelLayout.Proofs.Expression.Sentence

/-!
# Scanning as a relation

A text that is scanned without a fault, said without the bound on its words and without the places
of its open parentheses: what the scanner remembers is whether a number stands right before, and how
many parentheses are open.
-/

namespace PanelLayout

/-- `Scans afterNumber open_ position cs ts`: the text `cs` starts at a position, where a number may
stand right before it and some parentheses are open, and its words are `ts`. -/
inductive Scans : Bool → Nat → Nat → List Char → List Token → Prop
  | done (afterNumber : Bool) (position : Nat) : Scans afterNumber 0 position [] []
  | blank {afterNumber : Bool} {open_ position : Nat} {c : Char} {cs : List Char}
    {ts : List Token} :
      isBlank c = true → Scans false open_ (position + 1) cs ts →
        Scans afterNumber open_ position (c :: cs) ts
  | word {afterNumber : Bool} {open_ inner position : Nat} {w : Lexeme} {cs : List Char}
      {ts : List Token} :
      lexeme? (w.text ++ cs) = some w → refusal? afterNumber w = none →
      openCount? open_ [w] = some inner → Scans w.isNumber inner (position + w.text.length) cs ts →
      Scans afterNumber open_ position (w.text ++ cs) (⟨w, position⟩ :: ts)

theorem openCount?_append (k : Nat) (ws vs : List Lexeme) :
    openCount? k (ws ++ vs) = (openCount? k ws).bind fun inner => openCount? inner vs := by
  induction ws generalizing k with
  | nil => rfl
  | cons w ws ih =>
    cases w with
    | opening => exact ih (k + 1)
    | closing =>
      cases k with
      | zero => rfl
      | succ k => exact ih k
    | number | name | operator => cases k <;> exact ih _

theorem openCount?_cons (k : Nat) (w : Lexeme) (ws : List Lexeme) :
    openCount? k (w :: ws) = (openCount? k [w]).bind fun inner => openCount? inner ws :=
  openCount?_append k [w] ws

theorem isReserved_of_refusal? {afterNumber : Bool} {cs : List Char}
    (h : refusal? afterNumber (.name cs) = none) :
    isReserved (String.ofList cs) = false := by
  cases afterNumber with
  | true => cases h
  | false => simpa [refusal?] using h

private theorem openCount?_of_openAfter {open_ inner : List Nat} {t : Token}
    (h : openAfter open_ t = .ok inner) :
    openCount? open_.length [t.lexeme] = some inner.length := by
  obtain ⟨w, position⟩ := t
  cases w with
  | opening =>
    obtain rfl := Except.ok.inj h
    rfl
  | closing =>
    cases open_ with
    | nil => cases h
    | cons p rest =>
      obtain rfl := Except.ok.inj h
      rfl
  | number | name | operator =>
    cases open_
    all_goals
      obtain rfl := Except.ok.inj h
      rfl

private theorem exists_openAfter {open_ : List Nat} {k : Nat} {t : Token}
    (h : openCount? open_.length [t.lexeme] = some k) :
    ∃ inner, openAfter open_ t = .ok inner ∧ inner.length = k := by
  obtain ⟨w, position⟩ := t
  cases w with
  | opening => exact ⟨position :: open_, rfl, Option.some.inj h⟩
  | closing =>
    cases open_ with
    | nil => cases h
    | cons p rest => exact ⟨rest, rfl, Option.some.inj h⟩
  | number | name | operator => cases open_ <;> exact ⟨_, rfl, Option.some.inj h⟩

theorem scans_of_scan {n position : Nat} {afterNumber : Bool} {open_ : List Nat} {cs : List Char}
    {ts : List Token} (h : scan n afterNumber open_ position cs = .ok ts) :
    Scans afterNumber open_.length position cs ts := by
  induction n generalizing afterNumber open_ position cs ts with
  | zero => cases h
  | succ n ih =>
    unfold scan at h
    split at h
    · split at h
      · cases h
      · obtain rfl := Except.ok.inj h
        exact .done afterNumber position
    split at h
    · rename_i hblank
      exact .blank hblank (ih h)
    split at h
    · cases h
    rename_i w hw
    split at h
    · cases h
    rename_i hrefusal
    obtain ⟨inner, hinner, h⟩ := bind_eq_ok_iff.mp h
    obtain ⟨us, hus, h⟩ := bind_eq_ok_iff.mp h
    obtain rfl := Except.ok.inj h
    obtain ⟨rest, hrest⟩ := (isWord_of_lexeme? hw).2
    rw [← hrest] at hw hus ⊢
    rw [List.drop_left] at hus
    exact .word hw hrefusal (openCount?_of_openAfter hinner) (ih hus)

/-- Where a text is related to some words, the scanner finds them with any bound that exceeds the
length of the text. -/
theorem Scans.scan_eq {open_ position : Nat} {afterNumber : Bool} {cs : List Char} {ts : List Token}
    (h : Scans afterNumber open_ position cs ts) {n : Nat} (hn : cs.length < n) {places : List Nat}
    (hplaces : places.length = open_) : scan n afterNumber places position cs = .ok ts := by
  induction h generalizing n places with
  | done =>
    obtain ⟨n, rfl⟩ := Nat.exists_eq_add_of_le' (Nat.one_le_of_lt hn)
    obtain rfl := List.eq_nil_of_length_eq_zero hplaces
    rfl
  | blank hblank _ ih =>
    obtain ⟨n, rfl⟩ := Nat.exists_eq_add_of_le' (Nat.one_le_of_lt hn)
    rw [scan, if_pos hblank]
    exact ih (by simpa using hn) hplaces
  | @word afterNumber open_ inner position w cs ts hw hrefusal hopen _ ih =>
    obtain ⟨n, rfl⟩ := Nat.exists_eq_add_of_le' (Nat.one_le_of_lt hn)
    obtain ⟨places', hafter, hlength⟩ :=
      @exists_openAfter places inner ⟨w, position⟩ (by rw [hplaces, hopen])
    obtain ⟨c, rest, htext, hstart⟩ := (isWord_of_lexeme? hw).1.text_eq_cons
    have htail := @ih n (by simp [htext] at hn; omega) places' hlength
    have hdrop : (w.text ++ cs).drop w.text.length = cs := List.drop_left
    rw [htext, List.cons_append] at hw hdrop ⊢
    rw [scan, if_neg (by simp [isBlank_of_startsWord hstart]), hw]
    simp only [hrefusal, hafter, ok_bind]
    rw [htext, hdrop, ← htext, htail]
    rfl

theorem tokenize_eq_ok_iff {source : String} {start : Nat} {ts : List Token} :
    tokenize source start = .ok ts ↔
    Scans false 0 start (source.toList.drop start) ts ∧ ts ≠ [] := by
  have hlength : (source.toList.drop start).length < source.toList.length + 1 := by
    rw [List.length_drop]
    omega
  constructor
  · intro h
    obtain ⟨us, hus, h⟩ := bind_eq_ok_iff.mp h
    split at h
    · cases h
    · rename_i hne
      obtain rfl := Except.ok.inj h
      exact ⟨scans_of_scan hus, by simpa using hne⟩
  · rintro ⟨h, hne⟩
    rw [tokenize, h.scan_eq hlength rfl]
    simp [hne]

end PanelLayout
