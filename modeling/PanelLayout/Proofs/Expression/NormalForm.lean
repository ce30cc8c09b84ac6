import PanelLayout.Proofs.Expression.Substitution

/-!
# What simplification leaves

In a simplified expression no rule applies to any operation, with one exception: the sign of a
difference is taken away by an exchange of its operands, and the operand that comes to stand on the
right may be negated. A second simplification makes sums of such differences and changes nothing
else; a third one changes nothing.
-/

namespace PanelLayout

namespace Expression

variable {op : Operator} {e l r s : Expression} {x y : Option Double} {strict : Bool}

abbrev SimplifiesTo (e s : Expression) : Prop := Simplifies (fun _ => none) e s

/-- Induction over a simplification that puts in nothing: no binding occurs in any case. -/
theorem SimplifiesTo.induction {motive : ∀ e s, SimplifiesTo e s → Prop}
    (constant : ∀ n b, motive (.constant n b) (.constant n b) (.constant n b))
    («variable» : ∀ v b, motive (.variable v b) (.variable v b) (.variable v b))
    (negation : ∀ {e s b} (h : SimplifiesTo e s), motive e s h →
      motive (.negation e b) s.negate (.negation h))
    (done : ∀ {op l r l' r' s x y b} (hl : SimplifiesTo l l') (hr : SimplifiesTo r r')
      (hx : l'.constant? = .ok x) (hy : r'.constant? = .ok y) (hrule : Rule op l' r' x y (.done s)),
      motive l l' hl → motive r r' hr → motive (.operation op l r b) s (.done hl hr hx hy hrule))
    (again : ∀ {op l r l' r' e s x y b} (hl : SimplifiesTo l l') (hr : SimplifiesTo r r')
      (hx : l'.constant? = .ok x) (hy : r'.constant? = .ok y) (hrule : Rule op l' r' x y (.again e))
      (h : SimplifiesTo e s), motive l l' hl → motive r r' hr → motive e s h →
      motive (.operation op l r b) s (.again hl hr hx hy hrule h))
    (combine : ∀ {op op' l r l' r' l'' r'' m s x y b} (hl : SimplifiesTo l l')
      (hr : SimplifiesTo r r') (hx : l'.constant? = .ok x) (hy : r'.constant? = .ok y)
      (hrule : Rule op l' r' x y (.combine op' l'' r''))
      (hm : SimplifiesTo (.operation op' l'' r'' false) m) (h : SimplifiesTo m s),
      motive l l' hl → motive r r' hr → motive _ m hm → motive m s h →
      motive (.operation op l r b) s (.combine hl hr hx hy hrule hm h))
    {e s : Expression} (h : SimplifiesTo e s) : motive e s h := by
  have hany : ∀ {binding : Binding} {e s : Expression}, Simplifies binding e s →
    binding = (fun _ => none) →
      ∀ h : SimplifiesTo e s, motive e s h := by
    intro binding e s h
    induction h with
    | constant n b => exact fun _ _ => constant n b
    | «variable» v b =>
      rintro rfl _
      exact «variable» v b
    | negation h ih =>
      rintro rfl _
      exact negation h (ih rfl h)
    | done hl hr hx hy hrule ihl ihr =>
      rintro rfl _
      exact done hl hr hx hy hrule (ihl rfl hl) (ihr rfl hr)
    | again hl hr hx hy hrule h ihl ihr ih =>
      rintro rfl _
      exact again hl hr hx hy hrule h (ihl rfl hl) (ihr rfl hr) (ih rfl h)
    | combine hl hr hx hy hrule hm h ihl ihr ihm ih =>
      rintro rfl _
      exact combine hl hr hx hy hrule hm h (ihl rfl hl) (ihr rfl hr) (ihm rfl hm) (ih rfl h)
  exact hany h rfl h

theorem SimplifiesTo.isSimpler (h : SimplifiesTo e s) : s.IsSimpler e := by
  have hs := Simplifies.isSimpler h (.inl (isUnbound_none e))
  rwa [(isUnbound_none e).substitute_eq] at hs

theorem InRange.exists_simplify (he : e.InRange) : ∃ s, e.simplify = .ok s ∧ SimplifiesTo e s := by
  have hends := simplify_ends (.inl (isUnbound_none e))
  rw [(isUnbound_none e).substitute_eq] at hends
  obtain ⟨s, hs⟩ := hends.exists_ok he
  exact ⟨s, hs, simplifies_of_simplify hs⟩

theorem SimplifiesTo.simplify_eq (h : SimplifiesTo e s) (he : e.InRange) : e.simplify = .ok s := by
  obtain ⟨t, ht, hsimplifies⟩ := he.exists_simplify
  rw [ht, h.unique hsimplifies]

def keepsSign : Expression → Bool
  | .variable .. => true
  | .operation op .. => decide (op ≠ .sub)
  | .constant .. | .negation .. => false

theorem negate_of_keepsSign (h : e.keepsSign = true) : e.negate = .negation e false := by
  cases e with
  | operation op l r b => cases op <;> simp_all [keepsSign, negate]
  | «variable» | constant | negation => simp_all [keepsSign, negate]

theorem constant?_of_keepsSign (h : e.keepsSign = true) : e.constant? = .ok none := by
  cases e <;> simp_all [keepsSign, constant?]

theorem isNegation_of_keepsSign (h : e.keepsSign = true) : e.isNegation = false := by
  cases e <;> simp_all [keepsSign, isNegation]

/-- Expressions to which no rule applies. Unless `strict`, a difference may have a negated right
operand. -/
inductive IsNormal (strict : Bool) : Expression → Prop
  | constant (n : Number) (b : Bool) : IsNormal strict (.constant n b)
  | variable (v : Variable) (b : Bool) : IsNormal strict (.variable v b)
  | negation {e : Expression} (h : IsNormal strict e) (hsign : e.keepsSign = true) :
      IsNormal strict (.negation e false)
  | operation {op : Operator} {l r : Expression} {x y : Option Double} (hl : IsNormal strict l)
      (hr : IsNormal strict r) (hx : l.constant? = .ok x) (hy : r.constant? = .ok y)
      (hplain : IsPlain op x y)
      (hsign : op = .add ∨ op = .sub ∧ strict = true → r.isNegation = false) :
      IsNormal strict (.operation op l r false)

theorem IsPlain.swap (h : IsPlain .sub x y) : IsPlain .sub y x := ⟨h.not_both.symm, h.right, h.left⟩

theorem IsPlain.opposite (h : IsPlain op x y) : IsPlain op.opposite x y := by
  cases op <;> exact ⟨h.not_both, h.left, h.right⟩

theorem IsNormal.negate (h : e.IsNormal false) : e.negate.IsNormal false := by
  cases h with
  | constant n b => exact .constant _ _
  | «variable» v b => exact .negation (.variable v b) rfl
  | negation h hsign => exact h
  | @operation op l r x y hl hr hx hy hplain hsign =>
    by_cases hop : op = .sub
    · subst hop
      exact .operation hr hl hy hx hplain.swap (by simp)
    · have hkeeps : (Expression.operation op l r false).keepsSign = true := by simp [keepsSign, hop]
      rw [negate_of_keepsSign hkeeps]
      exact .negation (.operation hl hr hx hy hplain hsign) hkeeps

theorem Rule.isNormal (h : Rule op l r x y (.done s)) (hl : l.IsNormal false)
    (hr : r.IsNormal false) (hx : l.constant? = .ok x) (hy : r.constant? = .ok y) :
    s.IsNormal false := by
  cases h with
  | fold a a' => exact .constant _ _
  | dropRight => exact hl
  | dropLeft => exact hr
  | keep hplain hsign => exact .operation hl hr hx hy hplain fun hop => hsign (hop.imp id And.left)

theorem SimplifiesTo.isNormal (h : SimplifiesTo e s) : s.IsNormal false := by
  induction h using SimplifiesTo.induction with
  | constant n b => exact .constant n b
  | «variable» v b => exact .variable v b
  | negation h ih => exact ih.negate
  | done hl hr hx hy hrule ihl ihr => exact hrule.isNormal ihl ihr hx hy
  | again hl hr hx hy hrule h ihl ihr ih => exact ih
  | combine hl hr hx hy hrule hm h ihl ihr ihm ih => exact ih

theorem IsNormal.simplifiesTo (h : e.IsNormal true) : SimplifiesTo e e := by
  induction h with
  | constant n b => exact .constant n b
  | «variable» v b => exact .variable v b
  | negation h hsign ih => exact negate_of_keepsSign hsign ▸ .negation ih
  | operation hl hr hx hy hplain hsign ihl ihr =>
    exact .done ihl ihr hx hy (.keep hplain (by simpa using hsign))

/-- The expression with a sum in place of each difference whose right operand is negated. -/
def straighten : Expression → Expression
  | .operation .sub l (.negation r _) b => .operation .add l.straighten r.straighten b
  | .operation op l r b => .operation op l.straighten r.straighten b
  | .negation e b => .negation e.straighten b
  | e => e

theorem straighten_difference (l r : Expression) (b c : Bool) :
    (operation .sub l (.negation r c) b).straighten = .operation .add l.straighten r.straighten b :=
  rfl

theorem straighten_operation (h : op = .add ∨ op = .sub → r.isNegation = false) (b : Bool) :
    (operation op l r b).straighten = .operation op l.straighten r.straighten b := by
  rw [straighten]
  intro r' b' hop hr
  simp [hop, hr, isNegation] at h

@[simp] theorem constant?_straighten (e : Expression) : e.straighten.constant? = e.constant? := by
  unfold straighten
  split <;> rfl

@[simp] theorem isNegation_straighten (e : Expression) :
    e.straighten.isNegation = e.isNegation := by
  unfold straighten
  split <;> rfl

theorem keepsSign_straighten (h : e.keepsSign = true) : e.straighten.keepsSign = true := by
  unfold straighten
  split <;> simp_all [keepsSign]

/-- The only negated right operand of a sum or a difference is the one that an exchange has put
there. -/
theorem IsNormal.negated_or (hr : r.IsNormal strict)
    (hsign : op = .add ∨ op = .sub ∧ strict = true → r.isNegation = false) :
    (op = .sub ∧ ∃ r', r = .negation r' false ∧ r'.IsNormal strict ∧ r'.keepsSign = true) ∨
      (op = .add ∨ op = .sub → r.isNegation = false) := by
  cases hr with
  | constant | «variable» | operation => simp [isNegation]
  | @negation r' h hkeeps =>
    by_cases hop : op = .sub
    · exact .inl ⟨hop, r', rfl, h, hkeeps⟩
    · exact .inr fun hadd => hsign (hadd.imp id fun hsub => absurd hsub hop)

theorem IsNormal.straighten (h : e.IsNormal strict) : e.straighten.IsNormal true := by
  induction h with
  | constant n b => exact .constant n b
  | «variable» v b => exact .variable v b
  | negation h hsign ih => exact .negation ih (keepsSign_straighten hsign)
  | @operation op l r x y hl hr hx hy hplain hsign ihl ihr =>
    rcases hr.negated_or hsign with ⟨rfl, r', rfl, -, hkeeps⟩ | hr'
    · rw [straighten_difference]
      cases ihr with
      | negation ihr hkeeps' =>
        obtain rfl : none = y := Except.ok.inj hy
        exact .operation ihl ihr (by simpa using hx) (constant?_of_keepsSign hkeeps')
          hplain.opposite
          fun _ => isNegation_of_keepsSign hkeeps'
    · rw [straighten_operation hr']
      exact .operation ihl ihr (by simpa using hx) (by simpa using hy) hplain
        fun hop => by simpa using hr' (hop.imp id And.left)

/-- Simplifying a normal expression straightens it. -/
theorem IsNormal.simplifiesTo_straighten (h : e.IsNormal strict) : SimplifiesTo e e.straighten := by
  induction h with
  | constant n b => exact .constant n b
  | «variable» v b => exact .variable v b
  | negation h hsign ih =>
    have h := Simplifies.negation (b := false) ih
    rwa [negate_of_keepsSign (keepsSign_straighten hsign)] at h
  | @operation op l r x y hl hr hx hy hplain hsign ihl ihr =>
    have hnormal := (IsNormal.operation hl hr hx hy hplain hsign).straighten
    rcases hr.negated_or hsign with ⟨rfl, r', rfl, -, hkeeps⟩ | hr'
    · -- the sum is built from simplified operands, and no rule applies to it any more
      exact .combine ihl ihr (by simpa using hx) (by simpa using hy) (.flip (.inr rfl) hplain rfl)
        hnormal.simplifiesTo
        hnormal.simplifiesTo
    · rw [straighten_operation hr']
      exact .done ihl ihr (by simpa using hx) (by simpa using hy)
        (.keep hplain (by simpa using hr'))

def subtractsNegation : Expression → Bool
  | .constant .. | .variable .. => false
  | .negation e _ => e.subtractsNegation
  | .operation op l r _ =>
    decide (op = .sub) && r.isNegation || l.subtractsNegation || r.subtractsNegation

theorem straighten_eq_self_iff (e : Expression) :
    e.straighten = e ↔ e.subtractsNegation = false := by
  induction e with
  | constant | «variable» => simp [Expression.straighten, subtractsNegation]
  | negation e b ih => simp [Expression.straighten, subtractsNegation, ih]
  | operation op l r b ihl ihr =>
    by_cases h : op = .sub ∧ r.isNegation = true
    · obtain ⟨rfl, hr⟩ := h
      cases r with
      | constant | «variable» | operation => simp [isNegation] at hr
      | negation r c => simp [straighten_difference, subtractsNegation, isNegation]
    · have hstraighten : (operation op l r b).straighten =
          .operation op l.straighten r.straighten b := by
        rw [Expression.straighten]
        rintro r' b' rfl rfl
        simp [isNegation] at h
      rw [hstraighten]
      simp_all [subtractsNegation]

/-- Simplifying what is read once more changes only differences with a negated right operand, into
sums, and simplifying it a third time changes nothing. So simplification is idempotent exactly where
it leaves no such difference. -/
theorem simplify_simplify {rules : ReadingRules} {source : String} (h : read rules source = .ok e) :
    ∃ s, e.simplify = .ok s ∧ s.simplify = .ok s.straighten ∧ s.straighten.simplify =
      .ok s.straighten ∧ (s.simplify = .ok s ↔ s.subtractsNegation = false) := by
  have he := read_inRange h
  obtain ⟨s, hs, hfirst⟩ := he.exists_simplify
  have hrange := hfirst.isSimpler.inRange he
  have hsecond := hfirst.isNormal.simplifiesTo_straighten
  have heq := hsecond.simplify_eq hrange
  have hthird :=
    hfirst.isNormal.straighten.simplifiesTo.simplify_eq (hsecond.isSimpler.inRange hrange)
  refine ⟨s, hs, heq, hthird, ?_⟩
  rw [heq, Except.ok.injEq]
  exact straighten_eq_self_iff s

def oppositeOfDifference : Expression :=
  .negation (.operation .sub (.negation (named "a") false) (named "b") false) false

theorem read_oppositeOfDifference : read {} "-(-a-b)" = .ok oppositeOfDifference := by
  rw [← toOption_eq_some_iff]
  decide +kernel

theorem simplify_simplify_oppositeOfDifference :
    ∃ s, oppositeOfDifference.simplify = .ok s ∧
    s.simplify = .ok (.operation .add (named "b") (named "a") false) := by
  obtain ⟨s, hs, hagain, -⟩ := simplify_simplify read_oppositeOfDifference
  refine ⟨s, hs, ?_⟩
  obtain rfl : s = .operation .sub (named "b") (.negation (named "a") false) false :=
    Except.ok.inj (hs.symm.trans (by decide +kernel))
  exact hagain

/-- The sign of `-a - b` is taken away by an exchange, which leaves `b - -a`; only the next
simplification makes `b + a`. -/
theorem simplify_not_idempotent :
    read {} "-(-a-b)" = .ok oppositeOfDifference ∧
      ∃ s, oppositeOfDifference.simplify = .ok s ∧ s.simplify ≠ .ok s := by
  refine ⟨read_oppositeOfDifference,
    .operation .sub (named "b") (.negation (named "a") false) false, ?_, ?_⟩ <;>
    decide +kernel

end Expression

end PanelLayout
