import PanelLayout.Proofs.Expression.Lexing

/-!
# Where words are refused

A text is cut into words from its start on, whatever is wrong with them, up to the first character
that starts none. Where its scan fails, the fault points at one of these words, of the kind that the
fault speaks of, or at that character.
-/

namespace PanelLayout

/-- `HasWord position cs t`: the word `t` is one of those that the text `cs`, which starts at a
position, is cut into. -/
inductive HasWord : Nat → List Char → Token → Prop
  | here {position : Nat} {w : Lexeme} {cs : List Char} :
      lexeme? cs = some w → HasWord position cs ⟨w, position⟩
  | behindBlank {position : Nat} {c : Char} {cs : List Char} {t : Token} :
      isBlank c = true → HasWord (position + 1) cs t → HasWord position (c :: cs) t
  | behindWord {position : Nat} {w : Lexeme} {cs : List Char} {t : Token} : lexeme? cs = some w →
      HasWord (position + w.text.length) (cs.drop w.text.length) t → HasWord position cs t

theorem not_isBlank_of_lexeme? {c : Char} {cs : List Char} {w : Lexeme}
    (h : lexeme? (c :: cs) = some w) :
    isBlank c = false := by
  obtain ⟨hword, hprefix⟩ := isWord_of_lexeme? h
  obtain ⟨d, ds, htext, hd⟩ := hword.text_eq_cons
  rw [htext, List.cons_prefix_cons] at hprefix
  exact hprefix.1 ▸ isBlank_of_startsWord hd

theorem HasWord.bounds {position : Nat} {cs : List Char} {t : Token} (h : HasWord position cs t) :
    position ≤ t.position ∧ t.position < position + cs.length := by
  induction h with
  | @here position w cs hw =>
    obtain ⟨hword, hprefix⟩ := isWord_of_lexeme? hw
    have hpos := List.length_pos_iff.mpr hword.text_ne_nil
    have hle := hprefix.length_le
    constructor
    · exact Nat.le_refl position
    · dsimp only
      omega
  | behindBlank _ _ ih =>
    rw [List.length_cons]
    omega
  | behindWord hw _ ih =>
    have hle := (isWord_of_lexeme? hw).2.length_le
    rw [List.length_drop] at ih
    omega

/-- Where the scan of a text succeeds, it finds the words that the text is cut into. -/
theorem Scans.hasWord_iff {afterNumber : Bool} {open_ position : Nat} {cs : List Char}
    {ts : List Token} (h : Scans afterNumber open_ position cs ts) {t : Token} :
    HasWord position cs t ↔ t ∈ ts := by
  induction h with
  | done =>
    constructor
    · intro ht
      have hbounds := ht.bounds
      rw [List.length_nil] at hbounds
      omega
    · intro ht
      cases ht
  | @blank afterNumber open_ position c cs ts hblank _ ih =>
    constructor
    · intro ht
      cases ht with
      | here hw => rw [not_isBlank_of_lexeme? hw] at hblank; cases hblank
      | behindBlank _ ht => exact ih.mp ht
      | behindWord hw _ => rw [not_isBlank_of_lexeme? hw] at hblank; cases hblank
    · intro ht
      exact .behindBlank hblank (ih.mpr ht)
  | @word afterNumber open_ inner position w cs ts hw _ _ _ ih =>
    constructor
    · intro ht
      generalize htext : w.text ++ cs = text at hw ht
      cases ht with
      | here hw' =>
        obtain rfl := Option.some.inj (hw.symm.trans hw')
        exact List.mem_cons_self
      | @behindBlank _ c cs' _ hblank _ => rw [not_isBlank_of_lexeme? hw] at hblank; cases hblank
      | behindWord hw' ht =>
        obtain rfl := Option.some.inj (hw.symm.trans hw')
        rw [← htext, List.drop_left] at ht
        exact List.mem_cons_of_mem _ (ih.mp ht)
    · intro ht
      rcases List.mem_cons.mp ht with rfl | ht
      · exact .here hw
      · exact .behindWord hw (by rw [List.drop_left]; exact ih.mpr ht)

theorem hasWord_iff_mem {source : String} {start : Nat} {ts : List Token}
    (h : tokenize source start = .ok ts) {t : Token} :
    HasWord start (source.toList.drop start) t ↔ t ∈ ts :=
  (tokenize_eq_ok_iff.mp h).1.hasWord_iff

def Fault.Concerns : Fault → Lexeme → Prop
  | .adjacentNumber, w => w.isNumber = true ∨ w.isName = true
  | .reservedWord name, w | .ownSize name, w => w = .name name.toList
  | .unbalancedClosing, w => w = .closing
  | .unclosed, w | .emptyParentheses, w => w = .opening
  | .called, w => w.startsOperand = true
  | .misformed, _ => True
  | .unexpectedCharacter _, _ | .empty, _ | .tooDeep, _ => False

/-- `PointsInto position cs f`: a fault points at a word of a text that starts at a position, or at
a character of it that starts none. -/
inductive PointsInto (position : Nat) (cs : List Char) : FaultAt → Prop
  | word {fault : Fault} {t : Token} : HasWord position cs t → fault.Concerns t.lexeme →
      PointsInto position cs ⟨fault, t.position⟩
  | character {c : Char} {i : Nat} :
      cs[i]? = some c → PointsInto position cs ⟨.unexpectedCharacter c, position + i⟩

namespace PointsInto

variable {position : Nat} {cs : List Char} {f : FaultAt}

theorem behindBlank {c : Char} (h : PointsInto (position + 1) cs f) (hblank : isBlank c = true) :
    PointsInto position (c :: cs) f := by
  cases h with
  | word ht hconcerns => exact .word (.behindBlank hblank ht) hconcerns
  | @character d i hd =>
    rw [show position + 1 + i = position + (i + 1) by omega]
    exact .character hd

theorem behindWord {w : Lexeme} (hw : lexeme? cs = some w)
    (h : PointsInto (position + w.text.length) (cs.drop w.text.length) f) :
    PointsInto position cs f := by
  cases h with
  | word ht hconcerns => exact .word (.behindWord hw ht) hconcerns
  | @character d i hd =>
    rw [List.getElem?_drop] at hd
    rw [Nat.add_assoc]
    exact .character hd

end PointsInto

theorem refusal?_concerns {afterNumber : Bool} {w : Lexeme} {fault : Fault}
    (h : refusal? afterNumber w = some fault) :
    fault.Concerns w := by
  cases w with
  | number cs =>
    cases afterNumber with
    | true =>
      obtain rfl := Option.some.inj h
      exact .inl rfl
    | false => cases h
  | name cs =>
    cases afterNumber with
    | true =>
      obtain rfl := Option.some.inj h
      exact .inr rfl
    | false =>
      rw [refusal?, if_neg Bool.false_ne_true] at h
      split_ifs at h
      obtain rfl := Option.some.inj h
      rw [Fault.Concerns, String.toList_ofList]
  | operator | opening | closing => cases h

/-- A scan that fails with enough bound points into the text, unless a parenthesis that was open
before stays open. -/
theorem pointsInto_of_scan {n position : Nat} {afterNumber : Bool} {open_ : List Nat}
    {cs : List Char} {f : FaultAt} (hn : cs.length < n)
    (h : scan n afterNumber open_ position cs = .error f) :
    (f.fault = .unclosed ∧ f.position ∈ open_) ∨ PointsInto position cs f := by
  induction n generalizing afterNumber open_ position cs with
  | zero => omega
  | succ n ih =>
    unfold scan at h
    split at h
    · split at h
      · obtain rfl := Except.error.inj h
        exact .inl ⟨rfl, List.mem_cons_self⟩
      · cases h
    split at h
    · rename_i hblank
      rw [List.length_cons] at hn
      exact (ih (by omega) h).imp_right fun hpoints => hpoints.behindBlank hblank
    split at h
    · obtain rfl := Except.error.inj h
      exact .inr (.character (i := 0) rfl)
    rename_i w hw
    split at h
    · rename_i hrefusal
      obtain rfl := Except.error.inj h
      exact .inr (.word (.here hw) (refusal?_concerns hrefusal))
    rcases bind_eq_error_iff.mp h with hopen | ⟨inner, hinner, h⟩
    · -- only a parenthesis that closes can have no partner
      unfold openAfter at hopen
      split at hopen
      · cases hopen
      · rename_i hclosing
        obtain rfl := Except.error.inj hopen
        exact .inr (.word (.here hw) hclosing)
      · cases hopen
      · cases hopen
    rcases bind_eq_error_iff.mp h with h | ⟨us, -, h⟩
    · rw [List.length_cons] at hn
      have hword := List.length_pos_iff.mpr (isWord_of_lexeme? hw).1.text_ne_nil
      rcases ih (by rw [List.length_drop, List.length_cons]; omega) h with ⟨hfault, hmem⟩ | hpoints
      · -- it was open before, or it is the word that was just read
        unfold openAfter at hinner
        split at hinner
        · rename_i hopening
          obtain rfl := Except.ok.inj hinner
          rcases List.mem_cons.mp hmem with hhere | hmem
          · obtain ⟨fault, place⟩ := f
            obtain rfl : fault = .unclosed := hfault
            obtain rfl : place = position := hhere
            exact .inr (.word (.here hw) hopening)
          · exact .inl ⟨hfault, hmem⟩
        · cases hinner
        · obtain rfl := Except.ok.inj hinner
          exact .inl ⟨hfault, List.mem_cons_of_mem _ hmem⟩
        · obtain rfl := Except.ok.inj hinner
          exact .inl ⟨hfault, hmem⟩
      · exact .inr (hpoints.behindWord hw)
    · cases h

theorem tokenize_eq_error {source : String} {start : Nat} {f : FaultAt}
    (h : tokenize source start = .error f) :
    PointsInto start (source.toList.drop start) f ∨ f = ⟨.empty, source.length⟩ := by
  rcases bind_eq_error_iff.mp h with h | ⟨ts, -, h⟩
  · have hn : (source.toList.drop start).length < source.toList.length + 1 := by
      rw [List.length_drop]
      omega
    rcases pointsInto_of_scan hn h with ⟨-, hmem⟩ | hpoints
    · cases hmem
    · exact .inl hpoints
  · split at h
    · exact .inr (Except.error.inj h).symm
    · cases h

end PanelLayout
