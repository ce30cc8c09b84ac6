import PanelLayout.Proofs.Expression.Columns
import PanelLayout.Proofs.Expression.Parsing

/-!
# Exactness of reading

A text is read as an expression exactly if its words are a sentence that keeps both limits on
nesting; it then is what the sentence writes. A sentence beyond a limit is refused for that limit.
-/

namespace PanelLayout

section Openings

variable {limit k m : Nat} {w : Lexeme} {ws : List Lexeme} {ts : List Token}

private theorem nests_nil (hk : k ≤ limit) :
    ∀ before, before <+: ([] : List Lexeme) →
      k + before.count .opening ≤ before.count .closing + limit := by
  intro before hb
  obtain rfl := List.prefix_nil.mp hb
  simpa using hk

private theorem nests_cons (hk : k ≤ limit) (hw : k + [w].count .opening = m + [w].count .closing) :
    (∀ before, before <+: w :: ws → k + before.count .opening ≤ before.count .closing + limit) ↔
      ∀ before, before <+: ws → m + before.count .opening ≤ before.count .closing + limit := by
  have hcount (v : Lexeme) (before : List Lexeme) : (w :: before).count v =
      [w].count v + before.count v := by
    rw [← List.singleton_append, List.count_append]
  constructor
  · intro h before hb
    have := h (w :: before) (List.cons_prefix_cons.mpr ⟨rfl, hb⟩)
    rw [hcount .opening before, hcount .closing before] at this
    omega
  · intro h before hb
    cases before with
    | nil => simpa using hk
    | cons v before =>
      obtain ⟨rfl, hbefore⟩ := List.cons_prefix_cons.mp hb
      have := h before hbefore
      rw [hcount .opening before, hcount .closing before]
      omega

private theorem excessOpening?_eq_none_iff (hk : k ≤ limit) (hb : openCount? k (words ts) ≠ none) :
    excessOpening? limit k ts = none ↔
      ∀ before, before <+: words ts →
      k + before.count .opening ≤ before.count .closing + limit := by
  induction ts generalizing k with
  | nil => simpa [excessOpening?] using nests_nil hk
  | cons t ts ih =>
    obtain ⟨w, position⟩ := t
    cases w with
    | opening =>
      rw [excessOpening?]
      by_cases hlimit : k = limit
      · rw [if_pos hlimit]
        simp only [reduceCtorEq, false_iff]
        intro h
        have := h [.opening] (by simp)
        simp at this
        omega
      · rw [if_neg hlimit, ih (by omega) (by simpa [openCount?] using hb), words_cons,
          nests_cons hk]
        simp
    | closing =>
      cases k with
      | zero => simp [openCount?] at hb
      | succ k =>
        rw [excessOpening?, Nat.add_sub_cancel, ih (by omega) (by simpa [openCount?] using hb),
          words_cons, nests_cons hk]
        simp
    | number | name | operator =>
      rw [excessOpening?, ih hk (by cases k <;> simpa [openCount?] using hb), words_cons,
        nests_cons hk]
      all_goals simp

theorem Sentence.excessOpening?_eq_none_iff {extended : Bool} {e : Expression} {d : Nat}
    (h : Sentence extended .sum (words ts) e d) :
    excessOpening? limit 0 ts = none ↔ NestsWithin limit (words ts) := by
  have hb : openCount? 0 (words ts) ≠ none := by
    rw [← List.append_nil (words ts), h.openCount?_append]
    simp [openCount?]
  rw [PanelLayout.excessOpening?_eq_none_iff (Nat.zero_le _) hb]
  simp [NestsWithin]

end Openings

/-- Whether words whose form is so deep stay within the limits on nesting. -/
structure KeepsLimits (limits : NestingLimits) (ws : List Lexeme) (depth : Nat) : Prop where
  room : limits.exhausts ws = false
  openings : NestsWithin limits.openings ws
  depth : depth ≤ limits.depth

namespace Surface

theorem ofLine_eq_ok_iff {limit : Nat} {ts : List Token} {s : Surface} :
    ofLine limit ts = .ok s ↔ excessOpening? limit 0 ts = none ∧ ofTokens ts = .ok s := by
  unfold ofLine
  cases excessOpening? limit 0 ts with
  | some column => simp
  | none => cases ofTokens ts <;> simp

end Surface

namespace Expression

variable {limits : NestingLimits} {extended : Bool} {size start : Nat} {ts : List Token}
    {e : Expression}
  {d : Nat}

theorem ofTokens_of_room (h : limits.exhausts (words ts) = false) :
    ofTokens limits extended size start ts = (do
      let s ← (Surface.ofLine limits.openings (line ts)).mapError (located ts size)
      if s.depth > limits.depth then .error ⟨.tooDeep, start⟩
      else (s.resolve extended).mapError (located ts size)) := by
  rw [ofTokens, if_neg (Bool.eq_false_iff.mp h)]

/-- Words stand for an expression if the parser has room for them, and they have a form that is not
too deep and has only names that may be used. -/
theorem ofTokens_eq_ok_iff_form :
    ofTokens limits extended size start ts = .ok e ↔ limits.exhausts (words ts) = false ∧
      ∃ s, Surface.ofLine limits.openings (line ts) = .ok s ∧ s.depth ≤ limits.depth ∧
        s.resolve extended = .ok e := by
  cases hroom : limits.exhausts (words ts) with
  | true => simp [ofTokens, hroom]
  | false =>
    rw [ofTokens_of_room hroom, bind_eq_ok_iff]
    simp only [mapError_eq_ok_iff, true_and]
    refine exists_congr fun s => and_congr_right fun _ => ?_
    by_cases hdepth : s.depth > limits.depth
    · simp [hdepth]
    · simp [hdepth, mapError_eq_ok_iff, Nat.not_lt.mp hdepth]

private theorem ofLine_of_sentence (h : Sentence extended .sum (words ts) e d)
    (hopen : NestsWithin limits.openings (words ts)) :
    ∃ s, Surface.ofLine limits.openings (line ts) = .ok s ∧ s.resolve extended = .ok e ∧
    s.depth = d := by
  rw [← words_line ts] at h hopen
  obtain ⟨s, hs, he, hd⟩ := ofTokens_eq_ok_iff.mpr h
  exact ⟨s, Surface.ofLine_eq_ok_iff.mpr ⟨h.excessOpening?_eq_none_iff.mpr hopen, hs⟩, he, hd⟩

theorem ofTokens_eq_ok_iff_sentence :
    ofTokens limits extended size start ts = .ok e ↔
      ∃ d, Sentence extended .sum (words ts) e d ∧ KeepsLimits limits (words ts) d := by
  rw [ofTokens_eq_ok_iff_form]
  constructor
  · rintro ⟨hroom, s, hs, hdepth, he⟩
    obtain ⟨hexcess, hform⟩ := Surface.ofLine_eq_ok_iff.mp hs
    have hsentence := ofTokens_eq_ok_iff.mp ⟨s, hform, he, rfl⟩
    have hopen := hsentence.excessOpening?_eq_none_iff.mp hexcess
    rw [words_line] at hsentence hopen
    exact ⟨s.depth, hsentence, hroom, hopen, hdepth⟩
  · rintro ⟨d, h, hlimits⟩
    obtain ⟨s, hs, he, rfl⟩ := ofLine_of_sentence h hlimits.openings
    exact ⟨hlimits.room, s, hs, hlimits.depth, he⟩

theorem ofTokens_of_exhausts (h : limits.exhausts (words ts) = true) :
    ofTokens limits extended size start ts = .error ⟨.tooDeep, start⟩ := by
  rw [ofTokens, if_pos h]

theorem ofTokens_of_not_nestsWithin (h : Sentence extended .sum (words ts) e d)
    (hroom : limits.exhausts (words ts) = false) (hopen : ¬NestsWithin limits.openings (words ts)) :
    ∃ position, ofTokens limits extended size start ts = .error ⟨.misformed, position⟩ := by
  rw [← words_line ts] at h hopen
  obtain ⟨column, hcolumn⟩ :=
    Option.ne_none_iff_exists'.mp (mt h.excessOpening?_eq_none_iff.mp hopen)
  refine ⟨(located ts size ⟨.misformed, column⟩).position, ?_⟩
  rw [ofTokens_of_room hroom, Surface.ofLine, hcolumn]
  rfl

theorem ofTokens_of_depth_lt (h : Sentence extended .sum (words ts) e d)
    (hroom : limits.exhausts (words ts) = false) (hopen : NestsWithin limits.openings (words ts))
    (hdepth : limits.depth < d) :
    ofTokens limits extended size start ts = .error ⟨.tooDeep, start⟩ := by
  obtain ⟨s, hs, -, rfl⟩ := ofLine_of_sentence h hopen
  rw [ofTokens_of_room hroom, hs, mapError_ok, ok_bind, if_pos hdepth]

/-- Reading takes the words behind the marker, and marks what they stand for if the marker is
there. -/
theorem read_eq_ok_iff {rules : ReadingRules} {source : String} :
    read rules source = .ok e ↔
      ∃ ts f, tokenize source ((markerLength? rules source).getD 0) = .ok ts ∧
        ofTokens rules.limits rules.extended source.length
          ((markerLength? rules source).getD 0) ts = .ok f ∧
        (if (markerLength? rules source).isSome then f.markEnd else f) = e := by
  simp only [read, mapError_eq_ok_iff, bind_eq_ok_iff, pure_eq_ok, Except.ok.injEq, exists_and_left]

theorem read_unmarked (limits : NestingLimits) (extended : Bool) (source : String) :
    read { extended, limits } source =
      (tokenize source >>= ofTokens limits extended source.length 0).mapError (⟨·, source⟩) := by
  simp only [read, markerLength?, Bool.false_and, Bool.false_eq_true, if_false, Option.getD_none,
    Option.isSome_none, bind_pure]

theorem read_of_tokenize {source : String} (h : tokenize source = .ok ts) :
    read { extended, limits } source =
      (ofTokens limits extended source.length 0 ts).mapError (⟨·, source⟩) := by
  rw [read_unmarked, h, ok_bind]

/-- Reading is exact, whatever the limits on nesting are. A text gives an expression exactly if its
words are a sentence of it that keeps the limits. Where the words are a sentence beyond a limit, the
limit is what is said to be wrong. And no text gives an expression that has two operands side by
side, as a call has, empty parentheses, or an asterisk that leads a group. -/
theorem read_eq_ok_iff_sentence (limits : NestingLimits) (extended : Bool) (source : String) :
    (∀ e, read { extended, limits } source = .ok e ↔
      ∃ ts d, tokenize source = .ok ts ∧ Sentence extended .sum (words ts) e d ∧
        KeepsLimits limits (words ts) d) ∧
    (∀ ts e d, tokenize source = .ok ts → Sentence extended .sum (words ts) e d →
      (limits.exhausts (words ts) = true →
        read { extended, limits } source = .error ⟨⟨.tooDeep, 0⟩, source⟩) ∧
      (limits.exhausts (words ts) = false → ¬NestsWithin limits.openings (words ts) →
        ∃ position, read { extended, limits } source = .error ⟨⟨.misformed, position⟩, source⟩) ∧
      (limits.exhausts (words ts) = false → NestsWithin limits.openings (words ts) →
        limits.depth < d → read { extended, limits } source = .error ⟨⟨.tooDeep, 0⟩, source⟩)) ∧
    ∀ ts before after a b, tokenize source = .ok ts → words ts = before ++ a :: b :: after →
      Lexeme.Clash a b → ∀ e, read { extended, limits } source ≠ .ok e := by
  have hiff (e : Expression) : read { extended, limits } source = .ok e ↔
      ∃ ts d, tokenize source = .ok ts ∧ Sentence extended .sum (words ts) e d ∧
        KeepsLimits limits (words ts) d := by
    rw [read_unmarked, mapError_eq_ok_iff, bind_eq_ok_iff]
    simp only [ofTokens_eq_ok_iff_sentence, exists_and_left]
  refine ⟨hiff, fun ts e d hts h =>
    ⟨fun hroom => ?_, fun hroom hopen => ?_, fun hroom hopen hdepth => ?_⟩,
    fun ts before after a b hts hws hc e he => ?_⟩
  · rw [read_of_tokenize hts, ofTokens_of_exhausts hroom]
    rfl
  · obtain ⟨position, hp⟩ :=
      @ofTokens_of_not_nestsWithin limits extended source.length 0 ts e d h hroom hopen
    exact ⟨position, by rw [read_of_tokenize hts, hp]; rfl⟩
  · rw [read_of_tokenize hts, ofTokens_of_depth_lt h hroom hopen hdepth]
    rfl
  · obtain ⟨us, d, hus, h, -⟩ := (hiff e).mp he
    obtain rfl := Except.ok.inj (hts.symm.trans hus)
    rw [hws] at h
    exact h.wellSpaced.not_clash hc

/-- The sign of a group belongs to the first factor of a product, and a name in upper case is one of
the own size. -/
theorem read_signed_group_times_own_width :
    read { extended := true } "-(a + 2)*WIDTH" = .ok (.operation .mul
      (.negation (.operation .add (.variable ⟨"a", .custom⟩ false)
        (.constant (.double (Surface.numberValue ['2'])) false) false) false)
      (.variable ⟨"width", .own⟩ false) false) := by
  have ha : Names true "a" ⟨"a", .custom⟩ := .custom (by decide) (by decide +kernel)
  have hw : Names true (upperCase "width") ⟨"width", .own⟩ := .own rfl (by decide)
  have h : Sentence true .sum [.operator .sub, .opening, .name ['a'], .operator .add,
      .number ['2'], .closing, .operator .mul, .name ['W', 'I', 'D', 'T', 'H']] _ 4 :=
    .sum (.multiplication rfl (.product (.minus (.group (.addition rfl
      (.sum (.product (.name ha))) (.product (.number ['2'])))))) (.name hw))
  refine ((read_eq_ok_iff_sentence {} true _).1 _).mpr ⟨_, 4, rfl, h, rfl, ?_, by decide⟩
  exact h.excessOpening?_eq_none_iff.mp rfl

end Expression

end PanelLayout
