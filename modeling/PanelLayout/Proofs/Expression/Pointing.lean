import PanelLayout.Proofs.Expression.Columns
import PanelLayout.Proofs.Expression.Delimiting
import PanelLayout.Proofs.Expression.Exactness

/-!
# Where errors point

An expression that is refused is refused at a place in its text. Both passes over its words hand on
words of the text only, so that what they point at is one of them, and the names, calls and empty
parentheses of a form keep the words that they were read from.
-/

namespace PanelLayout

/-! ### The forms that the readers find -/

namespace Surface

variable {whole : List Token}

/-- Whether the names, calls and empty parentheses of a form stand at words that they can start
with. -/
def StandsIn (whole : List Token) : Surface → Prop
  | .number _ => True
  | .name cs position => StandsAt whole (· = .name cs) position
  | .signed _ e => e.StandsIn whole
  | .operation _ l r => l.StandsIn whole ∧ r.StandsIn whole
  | .empty position => StandsAt whole (· = .opening) position
  | .call _ position | .callWith _ _ position => StandsAt whole (·.startsOperand = true) position

def ReadsWithin (whole : List Token) : Except (List Token) (Surface × List Token) → Prop :=
  Settles (· <:+ whole) fun found => found.1.StandsIn whole ∧ found.2 <:+ whole

structure Readers (whole : List Token) (n : Nat) : Prop where
  sum {ts : List Token} : ts <:+ whole → ReadsWithin whole (readSum n ts)
  sumTail {l : Surface} {ts : List Token} : l.StandsIn whole → ts <:+ whole →
    ReadsWithin whole (readSumTail n l ts)
  product {ts : List Token} : ts <:+ whole → ReadsWithin whole (readProduct n ts)
  productTail {l : Surface} {ts : List Token} : l.StandsIn whole → ts <:+ whole →
    ReadsWithin whole (readProductTail n l ts)
  signed {ts : List Token} : ts <:+ whole → ReadsWithin whole (readSigned n ts)
  calls {callee : Surface} {position : Nat} {ts : List Token} : callee.StandsIn whole →
    StandsAt whole (·.startsOperand = true) position → ts <:+ whole →
    ReadsWithin whole (readCalls n callee position ts)
  atom {ts : List Token} : ts <:+ whole → ReadsWithin whole (readAtom n ts)

theorem suffix_of_leadingOperator? {accept : Operator → Bool} {ts rest : List Token} {op : Operator}
    (h : leadingOperator? accept ts = some (op, rest)) (hts : ts <:+ whole) : rest <:+ whole := by
  obtain ⟨-, position, rfl⟩ := leadingOperator?_eq_some h
  exact suffix_of_cons hts

theorem startsOperand_of_readAtom {n : Nat} {ts : List Token} {found : Surface × List Token}
    (h : readAtom n ts = .ok found) : ∃ t rest, ts = t :: rest ∧ t.lexeme.startsOperand = true := by
  cases n with
  | zero => cases h
  | succ n =>
    unfold readAtom at h
    split at h
    · exact ⟨_, _, rfl, rfl⟩
    · exact ⟨_, _, rfl, rfl⟩
    · exact ⟨_, _, rfl, rfl⟩
    · exact ⟨_, _, rfl, rfl⟩
    · exact ⟨_, _, rfl, rfl⟩
    · cases h

namespace Readers

variable {n : Nat} {ts : List Token}

private theorem sum_succ (ih : Readers whole n) (hts : ts <:+ whole) :
    ReadsWithin whole (readSum (n + 1) ts) := by
  rw [readSum]
  exact (ih.product hts).bind fun found hfound => ih.sumTail hfound.1 hfound.2

private theorem sumTail_succ {l : Surface} (ih : Readers whole n) (hl : l.StandsIn whole)
    (hts : ts <:+ whole) :
    ReadsWithin whole (readSumTail (n + 1) l ts) := by
  rw [readSumTail]
  split
  · rename_i hop
    exact (ih.product (suffix_of_leadingOperator? hop hts)).bind fun found hfound =>
      ih.sumTail ⟨hl, hfound.1⟩ hfound.2
  · exact ⟨hl, hts⟩

private theorem product_succ (ih : Readers whole n) (hts : ts <:+ whole) :
    ReadsWithin whole (readProduct (n + 1) ts) := by
  rw [readProduct]
  exact (ih.signed hts).bind fun found hfound => ih.productTail hfound.1 hfound.2

private theorem productTail_succ {l : Surface} (ih : Readers whole n) (hl : l.StandsIn whole)
    (hts : ts <:+ whole) :
    ReadsWithin whole (readProductTail (n + 1) l ts) := by
  rw [readProductTail]
  split
  · rename_i hop
    exact (ih.signed (suffix_of_leadingOperator? hop hts)).bind fun found hfound =>
      ih.productTail ⟨hl, hfound.1⟩ hfound.2
  · exact ⟨hl, hts⟩

private theorem signed_succ (ih : Readers whole n) (hts : ts <:+ whole) :
    ReadsWithin whole (readSigned (n + 1) ts) := by
  rw [readSigned]
  split
  · rename_i hop
    exact (ih.signed (suffix_of_leadingOperator? hop hts)).bind fun found hfound => hfound
  · have hatom := ih.atom hts
    cases hread : readAtom n ts with
    | error rest =>
      rw [hread] at hatom
      exact hatom
    | ok found =>
      -- a call stands where its callee starts
      rw [hread] at hatom
      obtain ⟨t, rest, rfl, ht⟩ := startsOperand_of_readAtom hread
      exact ih.calls hatom.1 (.head hts ht) hatom.2

private theorem calls_succ {callee : Surface} {position : Nat} (ih : Readers whole n)
    (hcallee : callee.StandsIn whole) (hposition : StandsAt whole (·.startsOperand = true) position)
    (hts : ts <:+ whole) :
    ReadsWithin whole (readCalls (n + 1) callee position ts) := by
  unfold readCalls
  split
  case h_1 => exact ih.calls hposition hposition (suffix_of_cons (suffix_of_cons hts))
  case h_4 => exact ⟨hcallee, hts⟩
  case h_2 | h_3 =>
    refine (ih.sum ?_).bind fun found hfound => ?_
    · first
      | exact suffix_of_cons (suffix_of_cons hts)
      | exact suffix_of_cons hts
    · dsimp only
      split
      · rename_i heq
        exact ih.calls hposition hposition (suffix_of_cons (heq ▸ hfound.2))
      · exact hfound.2

private theorem atom_succ (ih : Readers whole n) (hts : ts <:+ whole) :
    ReadsWithin whole (readAtom (n + 1) ts) := by
  unfold readAtom
  split
  · exact ⟨trivial, suffix_of_cons hts⟩
  · exact ⟨.head hts rfl, suffix_of_cons hts⟩
  · exact ⟨.head hts rfl, suffix_of_cons (suffix_of_cons hts)⟩
  · exact (ih.sum (suffix_of_cons (suffix_of_cons hts))).bind fun found hfound => hfound.2
  · refine (ih.sum (suffix_of_cons hts)).bind fun found hfound => ?_
    dsimp only
    split
    · rename_i heq
      exact ⟨hfound.1, suffix_of_cons (heq ▸ hfound.2)⟩
    · exact hfound.2
  · exact hts

end Readers

/-- Within each depth of recursion the readers keep to the words. -/
theorem readers (whole : List Token) (n : Nat) : Readers whole n := by
  induction n with
  | zero =>
    constructor
    case sum => intro _ hts; exact hts
    case sumTail => intro _ _ _ hts; exact hts
    case product => intro _ hts; exact hts
    case productTail => intro _ _ _ hts; exact hts
    case signed => intro _ hts; exact hts
    case calls => intro _ _ _ _ _ hts; exact hts
    case atom => intro _ hts; exact hts
  | succ n ih =>
    exact ⟨ih.sum_succ, ih.sumTail_succ, ih.product_succ, ih.productTail_succ, ih.signed_succ,
      ih.calls_succ, ih.atom_succ⟩

theorem ofTokens_standsIn (ts : List Token) : Settles (· <:+ ts) (StandsIn ts) (ofTokens ts) := by
  have hread := (readers ts (6 * ts.length + 6)).sum (List.suffix_refl ts)
  unfold ofTokens
  split
  · rename_i heq
    rwa [heq] at hread
  · rename_i heq
    rw [heq] at hread
    exact hread.1
  · rename_i heq
    rw [heq] at hread
    exact hread.2

theorem StandsIn.resolve (extended : Bool) {s : Surface} (h : s.StandsIn whole) :
    Settles (fun f => StandsAt whole f.fault.Concerns f.position) (fun _ => True)
      (s.resolve extended) := by
  induction s with
  | number x => trivial
  | name cs position =>
    rw [Surface.resolve]
    split
    · trivial
    · obtain ⟨t, ht, hname, hposition⟩ := h
      exact ⟨t, ht, by rw [Fault.Concerns, String.toList_ofList, hname], hposition⟩
  | signed negative e ih =>
    cases negative with
    | false => exact ih h
    | true => exact (ih h).bind fun _ _ => trivial
  | operation op l r ihl ihr => exact (ihl h.1).bind fun _ _ => (ihr h.2).bind fun _ _ => trivial
  | empty position => exact h
  | call callee position => exact h
  | callWith callee argument position => exact h

end Surface

/-! ### The error -/

theorem wordAt_of_excessOpening? {limit depth position : Nat} {ts : List Token}
    (h : excessOpening? limit depth ts = some position) : WordAt ts position := by
  induction ts generalizing depth with
  | nil => cases h
  | cons t ts ih =>
    have hlater {depth : Nat} (h : excessOpening? limit depth ts = some position) :
        WordAt (t :: ts) position := by
      obtain ⟨u, hu, -, hposition⟩ := ih h
      exact ⟨u, List.mem_cons_of_mem t hu, trivial, hposition⟩
    obtain ⟨w, place⟩ := t
    cases w with
    | opening =>
      rw [excessOpening?] at h
      split at h
      · exact ⟨_, List.mem_cons_self, trivial, Option.some.inj h⟩
      · exact hlater h
    | closing => exact hlater h
    | number | name | operator => exact hlater h

namespace Surface

/-- A line that has no form is refused at a word of it, as one that starts at its first column
has. -/
theorem ofLine_standsIn {limit : Nat} {ts : List Token} (hstart : WordAt ts 0) :
    Settles (fun f => f.fault = .misformed ∧ WordAt ts f.position) (StandsIn ts)
      (ofLine limit ts) := by
  have hform := ofTokens_standsIn ts
  unfold ofLine
  split
  · rename_i hexcess
    exact ⟨rfl, wordAt_of_excessOpening? hexcess⟩
  · split
    · rename_i heq
      rw [heq] at hform
      exact hform
    · rename_i rest heq
      rw [heq] at hform
      refine ⟨rfl, ?_⟩
      rcases Misplaced.reported_columnOf_offset hform with hzero | hword
      · exact hzero.symm ▸ hstart
      · exact hword

end Surface

namespace Expression

variable {limits : NestingLimits} {extended : Bool} {size start : Nat}
    {ts : List Token} {f : FaultAt}

theorem StandsAt.located {kind : Lexeme → Prop} (h : StandsAt (line ts) kind f.position)
    (hsize : ∀ t ∈ ts, t.position ≤ size) : StandsAt ts kind (located ts size f).position := by
  obtain ⟨t, ht, hkind, hposition⟩ := h.sourcePosition
  refine ⟨t, ht, hkind, ?_⟩
  have hle := hsize t ht
  rw [hposition] at hle
  exact hposition.trans (Nat.min_eq_left hle).symm

theorem ofTokens_eq_error (hne : ts ≠ []) (hsize : ∀ t ∈ ts, t.position ≤ size)
    (h : ofTokens limits extended size start ts = .error f) :
    f = ⟨.tooDeep, start⟩ ∨ StandsAt ts f.fault.Concerns f.position := by
  have hline : Settles _ _ (Surface.ofLine limits.openings (line ts)) :=
    Surface.ofLine_standsIn (wordAt_line_zero hne)
  unfold ofTokens at h
  split at h
  · exact .inl (Except.error.inj h).symm
  · rcases bind_eq_error_iff.mp h with hrefused | ⟨s, hs, h⟩
    · obtain ⟨g, hg, rfl⟩ := mapError_eq_error_iff.mp hrefused
      rw [hg] at hline
      obtain ⟨hfault, hword⟩ := hline
      refine .inr ?_
      obtain ⟨t, ht, -, hposition⟩ := StandsAt.located hword hsize
      exact ⟨t, ht, by rw [located, hfault]; trivial, hposition⟩
    · rw [mapError_eq_ok_iff.mp hs] at hline
      split at h
      · exact .inl (Except.error.inj h).symm
      · obtain ⟨g, hg, rfl⟩ := mapError_eq_error_iff.mp h
        have hresolve := Surface.StandsIn.resolve extended hline
        rw [hg] at hresolve
        exact .inr (StandsAt.located hresolve hsize)

theorem markerLength?_getD_le (rules : ReadingRules) (source : String) :
    (markerLength? rules source).getD 0 ≤ source.length := by
  unfold markerLength?
  split
  · rename_i hmarker
    have hprefix := List.isPrefixOf_iff_prefix.mp (Bool.and_eq_true_iff.mp hmarker).2
    rw [Option.getD_some, ← String.length_toList, ← String.length_toList]
    exact hprefix.length_le
  · exact Nat.zero_le _

/-- A text that gives no expression has no word behind the marker, is too deep as a whole, or is
refused for a word or a character of it. -/
theorem fault_of_read {rules : ReadingRules} {source : String} {e : ParseError}
    (h : read rules source = .error e) :
    ∃ f : FaultAt, e = ⟨f, source⟩ ∧
      (f = ⟨.empty, source.length⟩ ∨
        (f = ⟨.tooDeep, (markerLength? rules source).getD 0⟩ ∧ (markerLength? rules source).getD 0 <
          source.length) ∨
        PointsInto ((markerLength? rules source).getD 0)
          (source.toList.drop ((markerLength? rules source).getD 0)) f) := by
  obtain ⟨f, hf, rfl⟩ := mapError_eq_error_iff.mp h
  refine ⟨f, rfl, ?_⟩
  rcases bind_eq_error_iff.mp hf with htokens | ⟨ts, htokens, hf⟩
  · exact (tokenize_eq_error htokens).symm.imp_right .inr
  · rcases bind_eq_error_iff.mp hf with hwords | ⟨_, -, hmarked⟩
    · have hne : ts ≠ [] := (tokenize_eq_ok_iff.mp htokens).2
      have hsize : ∀ t ∈ ts, t.position ≤ source.length := by
        intro t ht
        have hbounds := ((hasWord_iff_mem htokens).mpr ht).bounds
        rw [List.length_drop, String.length_toList] at hbounds
        omega
      rcases ofTokens_eq_error hne hsize hwords with rfl | ⟨t, ht, hconcerns, hposition⟩
      · obtain ⟨t, ht⟩ := List.exists_mem_of_ne_nil ts hne
        have hbounds := ((hasWord_iff_mem htokens).mpr ht).bounds
        rw [List.length_drop, String.length_toList] at hbounds
        exact .inr (.inl ⟨rfl, by omega⟩)
      · obtain ⟨fault, position⟩ := f
        obtain rfl : t.position = position := hposition
        exact .inr (.inr (.word ((hasWord_iff_mem htokens).mpr ht) hconcerns))
    · cases hmarked

/-- The place of an error lies behind the marker and within the text, and at its end nothing is
wrong but that there is no word. A character that starts no word is pointed at itself, too deep an
expression where it starts, and everything else at a word of the text that it is said of. -/
theorem read_error_position {rules : ReadingRules} {source : String} {e : ParseError}
    (h : read rules source = .error e) :
    e.source = source ∧ (markerLength? rules source).getD 0 ≤ e.position ∧
    e.position ≤ source.length ∧ (e.position = source.length ↔ e.fault = .empty) ∧
    (e.fault = .empty ∨
      (∃ c, e.fault = .unexpectedCharacter c ∧ source.toList[e.position]? = some c) ∨
      (e.fault = .tooDeep ∧ e.position = (markerLength? rules source).getD 0) ∨
      ∃ t,
      HasWord ((markerLength? rules source).getD 0)
        (source.toList.drop ((markerLength? rules source).getD 0)) t ∧
        t.position = e.position ∧ e.fault.Concerns t.lexeme) := by
  have hstart := markerLength?_getD_le rules source
  obtain ⟨f, rfl, rfl | ⟨rfl, hlt⟩ | hpoints⟩ := fault_of_read h
  · exact ⟨rfl, hstart, Nat.le_refl _, by simp, .inl rfl⟩
  · exact ⟨rfl, Nat.le_refl _, hlt.le, by simpa using hlt.ne, .inr (.inr (.inl ⟨rfl, rfl⟩))⟩
  · cases hpoints with
    | @word fault t ht hconcerns =>
      have hbounds := ht.bounds
      rw [List.length_drop, String.length_toList] at hbounds
      refine ⟨rfl, hbounds.1, by dsimp only; omega, iff_of_false (by dsimp only; omega) ?_,
        .inr (.inr (.inr ⟨t, ht, rfl, hconcerns⟩))⟩
      rintro rfl
      exact hconcerns
    | @character c i hc =>
      rw [List.getElem?_drop] at hc
      have hlt := (List.getElem?_eq_some_iff.mp hc).1
      rw [String.length_toList] at hlt
      exact ⟨rfl, Nat.le_add_right _ _, hlt.le, iff_of_false hlt.ne (by simp),
        .inr (.inl ⟨c, rfl, hc⟩)⟩

/-- Two operands side by side are pointed at where the first of them starts. The parser sees it at
column 8 of the line `5.0 + ( ab 2.0 )`. -/
theorem read_error_position_neighbours :
    read { preface := true } "?05+(ab 2)" = .error ⟨⟨.misformed, 5⟩, "?05+(ab 2)"⟩ ∧
    ∃ t, HasWord 1 ("?05+(ab 2)".toList.drop 1) t ∧ t.position = 5 := by
  have herror : read { preface := true } "?05+(ab 2)" = .error ⟨⟨.misformed, 5⟩, "?05+(ab 2)"⟩ := by
    decide +kernel
  have hmarker : (markerLength? { preface := true } "?05+(ab 2)").getD 0 = 1 := by decide +kernel
  obtain ⟨-, -, -, -, hplace⟩ := read_error_position herror
  rw [hmarker] at hplace
  obtain hempty | ⟨c, hcharacter, -⟩ | ⟨hdeep, -⟩ | ⟨t, ht, hposition, -⟩ := hplace
  · cases hempty
  · cases hcharacter
  · cases hdeep
  · exact ⟨herror, t, ht, hposition⟩

end Expression

end PanelLayout
