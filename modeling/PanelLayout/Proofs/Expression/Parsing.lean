import PanelLayout.Proofs.Computation
import PanelLayout.Proofs.Expression.Sentence

/-!
# Reading sentences

The readers of the grammar find exactly the sentences. What they find is a sentence: one case for
each reader, by induction on the depth of the recursion. Each sentence is found: by induction on its
derivation, where a sum or a product leaves its reader in the loop over further operands.
-/

namespace PanelLayout

namespace Surface

variable {extended : Bool}

theorem resolve_operation_eq_ok_iff {op : Operator} {l r : Surface} {e : Expression} :
    (operation op l r).resolve extended = .ok e ↔
      ∃ a b, l.resolve extended = .ok a ∧ r.resolve extended = .ok b ∧
      e = .operation op a b false := by
  simp only [resolve, bind_eq_ok_iff, pure_eq_ok, Except.ok.injEq]
  constructor
  · rintro ⟨a, ha, b, hb, rfl⟩
    exact ⟨a, b, ha, hb, rfl⟩
  · rintro ⟨a, b, ha, hb, rfl⟩
    exact ⟨a, ha, b, hb, rfl⟩

theorem resolve_negative_eq_ok_iff {s : Surface} {e : Expression} :
    (signed true s).resolve extended = .ok e ↔ ∃ a, s.resolve extended = .ok a ∧
    e = .negation a false := by
  simp only [resolve, bind_eq_ok_iff, pure_eq_ok, Except.ok.injEq]
  exact exists_congr fun a => and_congr_right fun _ => eq_comm

theorem resolve_name_eq_ok_iff {cs : List Char} {position : Nat} {e : Expression} :
    (name cs position).resolve extended = .ok e ↔
      ∃ v, Names extended (String.ofList cs) v ∧ e = .variable v false := by
  simp only [← resolveName_eq_some_iff, resolve]
  cases resolveName extended (String.ofList cs) with
  | none => simp
  | some v => simp [eq_comm]

theorem leadingOperator?_eq_some {accept : Operator → Bool} {ts rest : List Token} {op : Operator}
    (h : leadingOperator? accept ts = some (op, rest)) :
    accept op = true ∧ ∃ position, ts = ⟨.operator op, position⟩ :: rest := by
  unfold leadingOperator? at h
  split at h
  · split at h
    · rename_i hop
      obtain ⟨rfl, rfl⟩ := Prod.mk.inj (Option.some.inj h)
      exact ⟨hop, _, rfl⟩
    · cases h
  · cases h

/-! ### What the readers find is a sentence -/

/-- The words up to `rest` are a phrase that a form stands for. -/
def Found (extended : Bool) (p : Phrase) (ts rest : List Token) (s : Surface) (e : Expression) :
    Prop :=
  ∃ used, ts = used ++ rest ∧ Sentence extended p (words used) e s.depth

def Continued (extended : Bool) (p : Phrase) (l : Surface) (ts rest : List Token) (s : Surface)
    (e : Expression) : Prop :=
  ∃ used a, ts = used ++ rest ∧ l.resolve extended = .ok a ∧
    ∀ ws, Sentence extended p ws a l.depth → Sentence extended p (ws ++ words used) e s.depth

theorem Continued.refl {p : Phrase} {s : Surface} {ts : List Token} {e : Expression}
    (h : s.resolve extended = .ok e) :
    Continued extended p s ts ts s e :=
  ⟨[], e, rfl, h, by simp⟩

theorem Continued.found {p : Phrase} {l s : Surface} {ts mid rest : List Token} {e : Expression}
    (hc : Continued extended p l mid rest s e)
    (hf : ∀ a, l.resolve extended = .ok a → Found extended p ts mid l a) :
    Found extended p ts rest s e := by
  obtain ⟨later, a, rfl, ha, hcont⟩ := hc
  obtain ⟨first, rfl, hfirst⟩ := hf a ha
  exact ⟨first ++ later, by simp, by simpa using hcont _ hfirst⟩

theorem Continued.step {p q : Phrase} {op : Operator} {position : Nat} {l r s : Surface}
    {ts mid rest : List Token} {e : Expression}
    (hrule : ∀ {ws vs a b m n}, Sentence extended p ws a m → Sentence extended q vs b n →
      Sentence extended p (ws ++ .operator op :: vs) (.operation op a b false) (max m n + 1))
    (hf : ∀ b, r.resolve extended = .ok b → Found extended q ts mid r b)
    (hc : Continued extended p (operation op l r) mid rest s e) :
    Continued extended p l (⟨.operator op, position⟩ :: ts) rest s e := by
  obtain ⟨later, o, rfl, ho, hcont⟩ := hc
  obtain ⟨a, b, ha, hb, rfl⟩ := resolve_operation_eq_ok_iff.mp ho
  obtain ⟨operand, rfl, hoperand⟩ := hf b hb
  refine ⟨⟨.operator op, position⟩ :: operand ++ later, a, by simp, ha, fun ws hws => ?_⟩
  simpa using hcont _ (hrule hws hoperand)

theorem readCalls_eq_ok {n position : Nat} {callee s : Surface} {ts rest : List Token}
    {e : Expression} (h : readCalls n callee position ts = .ok (s, rest))
    (he : s.resolve extended = .ok e) : s = callee ∧ rest = ts := by
  induction n generalizing callee ts with
  | zero => simp [readCalls] at h
  | succ n ih =>
    have hcall {ts : List Token} (h : readCalls n (.call callee position) position ts =
        .ok (s, rest)) : False := by
      obtain ⟨rfl, -⟩ := ih h
      simp [resolve] at he
    have hwith {argument : Surface} {ts : List Token}
        (h : readCalls n (.callWith callee argument position) position ts =
            .ok (s, rest)) : False := by
      obtain ⟨rfl, -⟩ := ih h
      simp [resolve] at he
    unfold readCalls at h
    split at h
    · exact (hcall h).elim
    · obtain ⟨⟨argument, behind⟩, -, h⟩ := bind_eq_ok_iff.mp h
      dsimp only at h
      split at h
      · exact (hwith h).elim
      · cases h
    · obtain ⟨⟨argument, behind⟩, -, h⟩ := bind_eq_ok_iff.mp h
      dsimp only at h
      split at h
      · exact (hwith h).elim
      · cases h
    · obtain ⟨rfl, rfl⟩ := Prod.mk.inj (Except.ok.inj h)
      exact ⟨rfl, rfl⟩

structure Sound (extended : Bool) (n : Nat) : Prop where
  sum {ts rest : List Token} {s : Surface} {e : Expression} : readSum n ts = .ok (s, rest) →
    s.resolve extended = .ok e → Found extended .sum ts rest s e
  sumTail {l : Surface} {ts rest : List Token} {s : Surface} {e : Expression} : readSumTail n l ts =
    .ok (s, rest) →
    s.resolve extended = .ok e → Continued extended .sum l ts rest s e
  product {ts rest : List Token} {s : Surface} {e : Expression} : readProduct n ts = .ok (s, rest) →
    s.resolve extended = .ok e → Found extended .product ts rest s e
  productTail {l : Surface} {ts rest : List Token} {s : Surface} {e : Expression} :
    readProductTail n l ts = .ok (s, rest) → s.resolve extended = .ok e →
      Continued extended .product l ts rest s e
  signed {ts rest : List Token} {s : Surface} {e : Expression} : readSigned n ts = .ok (s, rest) →
    s.resolve extended = .ok e → Found extended .factor ts rest s e
  atom {ts rest : List Token} {s : Surface} {e : Expression} : readAtom n ts = .ok (s, rest) →
    s.resolve extended = .ok e → Found extended .factor ts rest s e

namespace Sound

variable {n : Nat} {ts rest : List Token} {l s : Surface} {e : Expression}

private theorem sum_succ (ih : Sound extended n) (h : readSum (n + 1) ts = .ok (s, rest))
    (he : s.resolve extended = .ok e) : Found extended .sum ts rest s e := by
  obtain ⟨⟨l, mid⟩, hl, h⟩ := bind_eq_ok_iff.mp h
  refine (ih.sumTail h he).found fun a ha => ?_
  obtain ⟨used, rfl, hs⟩ := ih.product hl ha
  exact ⟨used, rfl, hs.sum⟩

private theorem sumTail_succ (ih : Sound extended n) (h : readSumTail (n + 1) l ts = .ok (s, rest))
    (he : s.resolve extended = .ok e) : Continued extended .sum l ts rest s e := by
  rw [readSumTail] at h
  split at h
  · rename_i hop
    obtain ⟨hadd, position, rfl⟩ := leadingOperator?_eq_some hop
    obtain ⟨⟨r, mid⟩, hr, h⟩ := bind_eq_ok_iff.mp h
    exact .step (.addition hadd) (fun b hb => ih.product hr hb) (ih.sumTail h he)
  · obtain ⟨rfl, rfl⟩ := Prod.mk.inj (Except.ok.inj h)
    exact .refl he

private theorem product_succ (ih : Sound extended n) (h : readProduct (n + 1) ts = .ok (s, rest))
    (he : s.resolve extended = .ok e) : Found extended .product ts rest s e := by
  obtain ⟨⟨l, mid⟩, hl, h⟩ := bind_eq_ok_iff.mp h
  refine (ih.productTail h he).found fun a ha => ?_
  obtain ⟨used, rfl, hs⟩ := ih.signed hl ha
  exact ⟨used, rfl, hs.product⟩

private theorem productTail_succ (ih : Sound extended n)
    (h : readProductTail (n + 1) l ts = .ok (s, rest)) (he : s.resolve extended = .ok e) :
    Continued extended .product l ts rest s e := by
  rw [readProductTail] at h
  split at h
  · rename_i hop
    obtain ⟨hmul, position, rfl⟩ := leadingOperator?_eq_some hop
    obtain ⟨⟨r, mid⟩, hr, h⟩ := bind_eq_ok_iff.mp h
    exact .step (.multiplication hmul) (fun b hb => ih.signed hr hb) (ih.productTail h he)
  · obtain ⟨rfl, rfl⟩ := Prod.mk.inj (Except.ok.inj h)
    exact .refl he

private theorem signed_succ (ih : Sound extended n) (h : readSigned (n + 1) ts = .ok (s, rest))
    (he : s.resolve extended = .ok e) : Found extended .factor ts rest s e := by
  rw [readSigned] at h
  split at h
  · rename_i op behind hop
    obtain ⟨hadd, position, rfl⟩ := leadingOperator?_eq_some hop
    obtain ⟨⟨operand, mid⟩, hoperand, h⟩ := bind_eq_ok_iff.mp h
    obtain ⟨rfl, rfl⟩ := Prod.mk.inj (Except.ok.inj h)
    cases op with
    | add =>
      obtain ⟨used, rfl, hs⟩ := ih.signed hoperand he
      exact ⟨⟨.operator .add, position⟩ :: used, rfl, hs.plus⟩
    | sub =>
      obtain ⟨a, ha, rfl⟩ := resolve_negative_eq_ok_iff.mp he
      obtain ⟨used, rfl, hs⟩ := ih.signed hoperand ha
      exact ⟨⟨.operator .sub, position⟩ :: used, rfl, hs.minus⟩
    | mul | div => simp [isAdditive] at hadd
  · obtain ⟨⟨operand, mid⟩, hoperand, h⟩ := bind_eq_ok_iff.mp h
    obtain ⟨rfl, rfl⟩ := readCalls_eq_ok h he
    exact ih.atom hoperand he

private theorem group_succ {position : Nat} (ih : Sound extended n)
    (h : (do
      let (e, rest) ← readSum n ts
      match rest with
      | ⟨.closing, _⟩ :: rest => return (e, rest)
      | rest => .error rest) = Except.ok (s, rest))
    (he : s.resolve extended = .ok e) : Found extended .factor (⟨.opening, position⟩ :: ts)
        rest s e := by
  obtain ⟨⟨inner, behind⟩, hinner, h⟩ := bind_eq_ok_iff.mp h
  dsimp only at h
  split at h
  · rename_i closing behind
    obtain ⟨rfl, rfl⟩ := Prod.mk.inj (Except.ok.inj h)
    obtain ⟨used, rfl, hs⟩ := ih.sum hinner he
    refine ⟨⟨.opening, position⟩ :: (used ++ [⟨.closing, closing⟩]), by simp, ?_⟩
    simpa using hs.group
  · cases h

private theorem atom_succ (ih : Sound extended n) (h : readAtom (n + 1) ts = .ok (s, rest))
    (he : s.resolve extended = .ok e) : Found extended .factor ts rest s e := by
  unfold readAtom at h
  split at h
  · rename_i cs position behind
    obtain ⟨rfl, rfl⟩ := Prod.mk.inj (Except.ok.inj h)
    obtain rfl := Except.ok.inj he
    exact ⟨[⟨.number cs, position⟩], rfl, .number cs⟩
  · rename_i cs position behind
    obtain ⟨rfl, rfl⟩ := Prod.mk.inj (Except.ok.inj h)
    obtain ⟨v, hv, rfl⟩ := resolve_name_eq_ok_iff.mp he
    exact ⟨[⟨.name cs, position⟩], rfl, .name hv⟩
  · obtain ⟨rfl, rfl⟩ := Prod.mk.inj (Except.ok.inj h)
    simp [resolve] at he
  · obtain ⟨_, -, h⟩ := bind_eq_ok_iff.mp h
    cases h
  · exact ih.group_succ h he
  · cases h

end Sound

/-- Within each depth of recursion the readers find sentences only. -/
theorem sound (extended : Bool) (n : Nat) : Sound extended n := by
  induction n with
  | zero => constructor <;> intros <;> rename_i h _ <;> cases h
  | succ n ih =>
    exact ⟨ih.sum_succ, ih.sumTail_succ, ih.product_succ, ih.productTail_succ,
      ih.signed_succ, ih.atom_succ⟩

/-! ### Each sentence is found -/

def continues : Phrase → Lexeme → Bool
  | _, .opening => true
  | .factor, .operator _ => false
  | .product, .operator op => isMultiplicative op
  | .sum, .operator _ => true
  | _, _ => false

/-- Whether a phrase that is read in front of some words ends there. -/
def EndsAt (p : Phrase) (rest : List Token) : Prop := ∀ t ∈ rest.head?, continues p t.lexeme = false

theorem EndsAt.nil (p : Phrase) : EndsAt p [] := by simp [EndsAt]

theorem endsAt_cons {p : Phrase} {t : Token} {ts : List Token} :
    EndsAt p (t :: ts) ↔ continues p t.lexeme = false := by
  simp [EndsAt]

/-- A phrase that ends before some words has no part that goes on there. -/
theorem EndsAt.product {rest : List Token} (h : EndsAt .sum rest) : EndsAt .product rest := by
  intro t ht
  have := h t ht
  cases hl : t.lexeme <;> simp_all [continues]

theorem EndsAt.factor {rest : List Token} (h : EndsAt .product rest) : EndsAt .factor rest := by
  intro t ht
  have := h t ht
  cases hl : t.lexeme <;> simp_all [continues]

theorem EndsAt.leadingOperator?_multiplicative {rest : List Token} (h : EndsAt .product rest) :
    leadingOperator? isMultiplicative rest = none := by
  unfold leadingOperator?
  split
  · simpa [continues] using endsAt_cons.mp h
  · rfl

theorem EndsAt.leadingOperator?_additive {rest : List Token} (h : EndsAt .sum rest) :
    leadingOperator? isAdditive rest = none := by
  unfold leadingOperator?
  split
  · simpa [continues] using endsAt_cons.mp h
  · rfl

theorem readCalls_endsAt {rest : List Token} (h : EndsAt .factor rest) (n position : Nat)
    (s : Surface) :
    readCalls (n + 1) s position rest = .ok (s, rest) := by
  cases rest with
  | nil => rfl
  | cons t rest =>
    obtain ⟨w, place⟩ := t
    cases w with
    | opening => simp [endsAt_cons, continues] at h
    | _ => rfl

/-- How a form is read off the words of a phrase, whatever follows it. A sum or a product leaves its
reader in the loop over further operands, with at most one level of the recursion used up for each
word. -/
def ReadsAs : Phrase → List Token → Surface → Prop
  | .sum, ts, s => ∀ n rest, 6 * ts.length ≤ n → EndsAt .product rest →
    ∃ k ≤ ts.length, readSum n (ts ++ rest) = readSumTail (n - k) s rest
  | .product, ts, s => ∀ n rest, 6 * ts.length ≤ n + 1 → EndsAt .factor rest →
    ∃ k ≤ ts.length, readProduct n (ts ++ rest) = readProductTail (n - k) s rest
  | .factor, ts, s => ∀ n rest, 6 * ts.length ≤ n + 2 → EndsAt .factor rest →
    readSigned n (ts ++ rest) = .ok (s, rest)

namespace ReadsAs

variable {ts us : List Token} {s t : Surface}

theorem readProduct_eq (h : ReadsAs .product ts s) (hne : ts ≠ []) {n : Nat} {rest : List Token}
    (hn : 6 * ts.length ≤ n + 1) (hrest : EndsAt .product rest) :
    readProduct n (ts ++ rest) = .ok (s, rest) := by
  obtain ⟨k, hk, hread⟩ := h n rest hn hrest.factor
  have hpos := List.length_pos_iff.mpr hne
  obtain ⟨m, hm⟩ : ∃ m, n - k = m + 1 := ⟨n - k - 1, by omega⟩
  rw [hread, hm, readProductTail, hrest.leadingOperator?_multiplicative]

theorem readSum_eq (h : ReadsAs .sum ts s) (hne : ts ≠ []) {n : Nat} {rest : List Token}
    (hn : 6 * ts.length ≤ n) (hrest : EndsAt .sum rest) :
    readSum n (ts ++ rest) = .ok (s, rest) := by
  obtain ⟨k, hk, hread⟩ := h n rest hn hrest.product
  have hpos := List.length_pos_iff.mpr hne
  obtain ⟨m, hm⟩ : ∃ m, n - k = m + 1 := ⟨n - k - 1, by omega⟩
  rw [hread, hm, readSumTail, hrest.leadingOperator?_additive]

theorem product_of_factor (h : ReadsAs .factor ts s) (hne : ts ≠ []) : ReadsAs .product ts s := by
  intro n rest hn hrest
  have hpos := List.length_pos_iff.mpr hne
  obtain ⟨m, rfl⟩ : ∃ m, n = m + 1 := ⟨n - 1, by omega⟩
  refine ⟨1, hpos, ?_⟩
  rw [readProduct, h m rest (by omega) hrest]
  rfl

theorem sum_of_product (h : ReadsAs .product ts s) (hne : ts ≠ []) : ReadsAs .sum ts s := by
  intro n rest hn hrest
  have hpos := List.length_pos_iff.mpr hne
  obtain ⟨m, rfl⟩ : ∃ m, n = m + 1 := ⟨n - 1, by omega⟩
  refine ⟨1, hpos, ?_⟩
  rw [readSum, h.readProduct_eq hne (by omega) hrest]
  rfl

theorem addition {op : Operator} {position : Nat} (hop : isAdditive op = true)
    (hl : ReadsAs .sum ts s) (hr : ReadsAs .product us t) (hne : us ≠ []) :
    ReadsAs .sum (ts ++ ⟨.operator op, position⟩ :: us) (.operation op s t) := by
  intro n rest hn hrest
  have hlen : (ts ++ ⟨.operator op, position⟩ :: us).length = ts.length + us.length + 1 := by
    simp; omega
  rw [hlen] at hn
  obtain ⟨k, hk, hread⟩ := hl n (⟨.operator op, position⟩ :: (us ++ rest)) (by omega)
    (endsAt_cons.mpr (by cases op <;> simp_all [continues, isAdditive, isMultiplicative]))
  obtain ⟨m, hm⟩ : ∃ m, n - k = m + 1 := ⟨n - k - 1, by omega⟩
  refine ⟨k + 1, by omega, ?_⟩
  rw [List.append_assoc, List.cons_append, hread, hm, readSumTail]
  simp only [leadingOperator?, hop, if_true]
  rw [hr.readProduct_eq hne (by omega) hrest, show n - (k + 1) = m by omega]
  rfl

theorem multiplication {op : Operator} {position : Nat} (hop : isMultiplicative op = true)
    (hl : ReadsAs .product ts s) (hr : ReadsAs .factor us t) :
    ReadsAs .product (ts ++ ⟨.operator op, position⟩ :: us) (.operation op s t) := by
  intro n rest hn hrest
  have hlen : (ts ++ ⟨.operator op, position⟩ :: us).length = ts.length + us.length + 1 := by
    simp; omega
  rw [hlen] at hn
  obtain ⟨k, hk, hread⟩ :=
    hl n (⟨.operator op, position⟩ :: (us ++ rest)) (by omega) (endsAt_cons.mpr rfl)
  obtain ⟨m, hm⟩ : ∃ m, n - k = m + 1 := ⟨n - k - 1, by omega⟩
  refine ⟨k + 1, by omega, ?_⟩
  rw [List.append_assoc, List.cons_append, hread, hm, readProductTail]
  simp only [leadingOperator?, hop, if_true]
  rw [hr m rest (by omega) hrest, show n - (k + 1) = m by omega]
  rfl

theorem sign {op : Operator} {position : Nat} (hop : isAdditive op = true)
    (h : ReadsAs .factor ts s) :
    ReadsAs .factor (⟨.operator op, position⟩ :: ts) (.signed (op == .sub) s) := by
  intro n rest hn hrest
  rw [List.length_cons] at hn
  obtain ⟨m, rfl⟩ : ∃ m, n = m + 1 := ⟨n - 1, by omega⟩
  rw [List.cons_append, readSigned]
  simp only [leadingOperator?, hop, if_true]
  rw [h m rest (by omega) hrest]
  rfl

theorem factor_of_atom {w : Token} (hw : w.lexeme.startsOperand = true)
    (h : ∀ n rest, 6 * (ts.length + 1) ≤ n + 3 → readAtom n (w :: (ts ++ rest)) = .ok (s, rest)) :
    ReadsAs .factor (w :: ts) s := by
  intro n rest hn hrest
  rw [List.length_cons] at hn
  obtain ⟨m, rfl⟩ : ∃ m, n = m + 2 := ⟨n - 2, by omega⟩
  have hnone : leadingOperator? isAdditive (w :: (ts ++ rest)) = none := by
    obtain ⟨l, place⟩ := w
    cases l <;> simp_all [leadingOperator?, Lexeme.startsOperand]
  rw [List.cons_append, readSigned, hnone, h (m + 1) rest (by omega)]
  exact readCalls_endsAt hrest m _ s

theorem group {first last : Nat} (h : ReadsAs .sum ts s)
    (hstart : ∃ t rest, ts = t :: rest ∧ t.lexeme.startsPhrase = true) :
    ReadsAs .factor (⟨.opening, first⟩ :: (ts ++ [⟨.closing, last⟩])) s := by
  refine factor_of_atom rfl fun n rest hn => ?_
  obtain ⟨t, later, rfl, ht⟩ := hstart
  simp only [List.length_append, List.length_cons, List.length_nil] at hn
  obtain ⟨m, rfl⟩ : ∃ m, n = m + 1 := ⟨n - 1, by omega⟩
  have hread : readSum m (t :: later ++ (⟨.closing, last⟩ :: rest)) =
      .ok (s, ⟨.closing, last⟩ :: rest) :=
    h.readSum_eq (by simp) (by simp only [List.length_cons]; omega) (endsAt_cons.mpr rfl)
  rw [List.append_assoc, List.cons_append, List.singleton_append]
  -- the first word inside is neither a parenthesis that closes nor an asterisk
  obtain ⟨w, place⟩ := t
  rw [List.cons_append] at hread
  cases w with
  | closing => cases ht
  | operator op =>
    cases op with
    | mul | div => cases ht
    | add | sub => rw [readAtom, hread] <;> simp
  | number _ | name _ | opening => rw [readAtom, hread] <;> simp

end ReadsAs

end Surface

private theorem words_eq_split {ts : List Token} {ws vs : List Lexeme} {w : Lexeme}
    (h : words ts = ws ++ w :: vs) :
    ∃ us position vs', ts = us ++ ⟨w, position⟩ :: vs' ∧ words us = ws ∧ words vs' = vs := by
  obtain ⟨us, rest, rfl, hus, hrest⟩ := List.map_eq_append_iff.mp h
  obtain ⟨⟨w, position⟩, vs', rfl, rfl, hvs⟩ := List.map_eq_cons_iff.mp hrest
  exact ⟨us, position, vs', rfl, hus, hvs⟩

private theorem words_eq_cons {ts : List Token} {vs : List Lexeme} {w : Lexeme}
    (h : words ts = w :: vs) :
    ∃ position vs', ts = ⟨w, position⟩ :: vs' ∧ words vs' = vs := by
  obtain ⟨us, position, vs', rfl, hus, hvs⟩ := @words_eq_split ts [] vs w h
  obtain rfl := List.map_eq_nil_iff.mp hus
  exact ⟨position, vs', rfl, hvs⟩

private theorem Sentence.starts {extended : Bool} {p : Phrase} {ws : List Lexeme} {e : Expression}
    {d : Nat} (h : Sentence extended p ws e d) {ts : List Token} (hts : words ts = ws) :
    ∃ t rest, ts = t :: rest ∧ t.lexeme.startsPhrase = true := by
  obtain ⟨a, rest, rfl, ha⟩ := h.wellSpaced.starts
  obtain ⟨position, us, rfl, -⟩ := words_eq_cons hts
  exact ⟨⟨a, position⟩, us, rfl, ha⟩

private theorem Sentence.ne_nil {extended : Bool} {p : Phrase} {ws : List Lexeme} {e : Expression}
    {d : Nat} (h : Sentence extended p ws e d) {ts : List Token} (hts : words ts = ws) :
    ts ≠ [] := by
  obtain ⟨t, rest, rfl, -⟩ := h.starts hts
  exact List.cons_ne_nil t rest

/-- Each phrase is read as a form that stands for what it writes. -/
theorem Sentence.readsAs {extended : Bool} {p : Phrase} {ws : List Lexeme} {e : Expression}
    {d : Nat} (h : Sentence extended p ws e d) (ts : List Token) (hts : words ts = ws) :
    ∃ s : Surface, s.resolve extended = .ok e ∧ s.depth = d ∧ s.ReadsAs p ts := by
  induction h generalizing ts with
  | sum h ih =>
    obtain ⟨s, he, hd, hs⟩ := ih ts hts
    exact ⟨s, he, hd, hs.sum_of_product (h.ne_nil hts)⟩
  | product h ih =>
    obtain ⟨s, he, hd, hs⟩ := ih ts hts
    exact ⟨s, he, hd, hs.product_of_factor (h.ne_nil hts)⟩
  | addition hop _ hr ihl ihr =>
    obtain ⟨us, position, vs, rfl, hus, hvs⟩ := words_eq_split hts
    obtain ⟨s, hse, rfl, hs⟩ := ihl us hus
    obtain ⟨t, hte, rfl, ht⟩ := ihr vs hvs
    exact ⟨.operation _ s t, Surface.resolve_operation_eq_ok_iff.mpr ⟨_, _, hse, hte, rfl⟩, rfl,
      hs.addition hop ht (hr.ne_nil hvs)⟩
  | multiplication hop _ _ ihl ihr =>
    obtain ⟨us, position, vs, rfl, hus, hvs⟩ := words_eq_split hts
    obtain ⟨s, hse, rfl, hs⟩ := ihl us hus
    obtain ⟨t, hte, rfl, ht⟩ := ihr vs hvs
    exact ⟨.operation _ s t, Surface.resolve_operation_eq_ok_iff.mpr ⟨_, _, hse, hte, rfl⟩, rfl,
      hs.multiplication hop ht⟩
  | plus _ ih =>
    obtain ⟨position, us, rfl, hus⟩ := words_eq_cons hts
    obtain ⟨s, hse, rfl, hs⟩ := ih us hus
    exact ⟨.signed false s, hse, rfl, hs.sign rfl⟩
  | minus _ ih =>
    obtain ⟨position, us, rfl, hus⟩ := words_eq_cons hts
    obtain ⟨s, hse, rfl, hs⟩ := ih us hus
    exact ⟨.signed true s, Surface.resolve_negative_eq_ok_iff.mpr ⟨_, hse, rfl⟩, rfl, hs.sign rfl⟩
  | number cs =>
    obtain ⟨position, us, rfl, hus⟩ := words_eq_cons hts
    obtain rfl := List.map_eq_nil_iff.mp hus
    refine ⟨.number (Surface.numberValue cs), rfl, rfl, Surface.ReadsAs.factor_of_atom rfl
      fun n rest hn => ?_⟩
    obtain ⟨m, rfl⟩ : ∃ m, n = m + 1 := ⟨n - 1, by simp only [List.length_nil] at hn; omega⟩
    rfl
  | @name cs v hv =>
    obtain ⟨position, us, rfl, hus⟩ := words_eq_cons hts
    obtain rfl := List.map_eq_nil_iff.mp hus
    refine ⟨.name cs position, Surface.resolve_name_eq_ok_iff.mpr ⟨v, hv, rfl⟩, rfl,
      Surface.ReadsAs.factor_of_atom rfl fun n rest hn => ?_⟩
    obtain ⟨m, rfl⟩ : ∃ m, n = m + 1 := ⟨n - 1, by simp only [List.length_nil] at hn; omega⟩
    rfl
  | group h ih =>
    obtain ⟨first, inner, rfl, hinner⟩ := words_eq_cons hts
    obtain ⟨us, last, vs, rfl, hus, hvs⟩ := words_eq_split hinner
    obtain rfl := List.map_eq_nil_iff.mp hvs
    obtain ⟨s, hse, rfl, hs⟩ := ih us hus
    exact ⟨s, hse, rfl, hs.group (h.starts hus)⟩

theorem ofTokens_eq_ok_iff {extended : Bool} {ts : List Token} {e : Expression} {d : Nat} :
    (∃ s, Surface.ofTokens ts = .ok s ∧ s.resolve extended = .ok e ∧ s.depth = d) ↔
      Sentence extended .sum (words ts) e d := by
  constructor
  · rintro ⟨s, hs, he, rfl⟩
    unfold Surface.ofTokens at hs
    split at hs
    · cases hs
    · rename_i hread
      obtain rfl := Except.ok.inj hs
      obtain ⟨used, rfl, h⟩ := (Surface.sound extended _).sum hread he
      simpa using h
    · cases hs
  · intro h
    obtain ⟨s, he, hd, hs⟩ := h.readsAs ts rfl
    have hread :=
      hs.readSum_eq (h.ne_nil rfl) (n := 6 * ts.length + 6) (by omega) (Surface.EndsAt.nil _)
    rw [List.append_nil] at hread
    exact ⟨s, by rw [Surface.ofTokens, hread], he, hd⟩

end PanelLayout
