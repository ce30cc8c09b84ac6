import PanelLayout.Proofs.Expression.Range
import PanelLayout.Proofs.Expression.Rules

/-!
# Substitution by simplification

Simplification puts what a binding gives in place of the variables. What it gives is never larger
than the expression with everything put in at once, and it has the same references, as long as no
rule simplifies a node again that mentions a bound variable. Numbers mention none, so with them
simplification always ends and leaves the other variables alone.
-/

namespace PanelLayout

namespace Expression

variable {binding : Binding} {op : Operator} {e l r s t l' r' : Expression}
    {x y : Option Double} {step : Step}
  {b c : Bool} {n : Nat}

/-- The expression with all bound variables replaced at once. -/
def substitute (binding : Binding) : Expression → Expression
  | .constant n b => .constant n b
  | .variable v b => (binding v).getD (.variable v b)
  | .negation e b => .negation (e.substitute binding) b
  | .operation op l r b => .operation op (l.substitute binding) (r.substitute binding) b

def IsUnbound (binding : Binding) (e : Expression) : Prop := ∀ r ∈ e.references, binding r.1 = none

theorem isUnbound_none (e : Expression) : e.IsUnbound fun _ => none := fun _ _ => rfl

theorem isUnbound_operation :
    (operation op l r b).IsUnbound binding ↔ l.IsUnbound binding ∧ r.IsUnbound binding := by
  simp [IsUnbound, references, or_imp, forall_and]

theorem size_substitute (binding : Binding) (e : Expression) :
    (e.substitute binding).size = e.boundSize binding := by
  induction e with
  | constant n b => rfl
  | «variable» v b =>
    rw [substitute, boundSize]
    cases binding v <;> rfl
  | negation e b ih => rw [substitute, size, ih, boundSize]
  | operation op l r b ihl ihr => rw [substitute, size, ihl, ihr, boundSize]

theorem references_substitute (binding : Binding) (e : Expression) :
    (e.substitute binding).references =
      e.references.flatMap fun r => ((binding r.1).map references).getD [r] := by
  induction e with
  | constant n b => rfl
  | «variable» v b =>
    rw [substitute]
    cases h : binding v <;> simp [references, h]
  | negation e b ih => simpa only [substitute, references] using ih
  | operation op l r b ihl ihr => simp only [substitute, references, ihl, ihr, List.flatMap_append]

theorem IsUnbound.substitute_eq (h : e.IsUnbound binding) : e.substitute binding = e := by
  induction e with
  | constant n b => rfl
  | «variable» v b => rw [substitute, h (v, b) (List.mem_singleton.mpr rfl), Option.getD_none]
  | negation e b ih => rw [substitute, ih h]
  | operation op l r b ihl ihr =>
    obtain ⟨hl, hr⟩ := isUnbound_operation.mp h
    rw [substitute, ihl hl, ihr hr]

theorem inRange_negation : (negation e b).InRange ↔ e.InRange := Iff.rfl

theorem inRange_operation : (operation op l r b).InRange ↔ l.InRange ∧ r.InRange := by
  simp [InRange, constants, or_imp, forall_and]

/-- Whether an expression has the references of another one, no more nodes, and constants in range
if the other one has. -/
structure IsSimpler (s t : Expression) : Prop where
  size_le : s.size ≤ t.size
  references : s.references.Perm t.references
  inRange : t.InRange → s.InRange

namespace IsSimpler

theorem refl (e : Expression) : e.IsSimpler e := ⟨Nat.le_refl _, .refl _, id⟩

theorem trans (hs : s.IsSimpler t) (ht : t.IsSimpler e) : s.IsSimpler e :=
  ⟨hs.size_le.trans ht.size_le, hs.references.trans ht.references, hs.inRange ∘ ht.inRange⟩

theorem negation (h : s.IsSimpler t) : (Expression.negation s b).IsSimpler (.negation t c) :=
  ⟨Nat.succ_le_succ h.size_le, h.references, h.inRange⟩

theorem operation (hl : l'.IsSimpler l) (hr : r'.IsSimpler r) :
    (Expression.operation op l' r' b).IsSimpler (.operation op l r c) := by
  constructor
  · exact Nat.succ_le_succ (Nat.add_le_add hl.size_le hr.size_le)
  · exact hl.references.append hr.references
  · intro h
    rw [inRange_operation] at *
    exact ⟨hl.inRange h.1, hr.inRange h.2⟩

theorem isUnbound (h : s.IsSimpler t) (ht : t.IsUnbound binding) : s.IsUnbound binding :=
  fun r hr => ht r (h.references.mem_iff.mp hr)

end IsSimpler

theorem isSimpler_negate (e : Expression) (b : Bool) : e.negate.IsSimpler (.negation e b) := by
  cases e with
  | constant n c => exact ⟨by simp [negate, size], .refl _, fun h m hm => by
      obtain rfl := List.mem_singleton.mp hm
      exact (h n (List.mem_singleton.mpr rfl)).neg⟩
  | «variable» v c => exact (IsSimpler.refl _).negation
  | negation e c => exact ⟨by simp [negate, size]; omega, .refl _, id⟩
  | operation op l r c =>
    cases op with
    | sub =>
      constructor
      · simp [negate, size]
        omega
      · exact List.perm_append_comm
      · intro h
        rw [inRange_negation, inRange_operation] at h
        rw [negate, inRange_operation]
        exact h.symm
    | add | mul | div => exact (IsSimpler.refl _).negation

/-- What a step goes on with, the operation that it combines included. -/
def Step.expression : Step → Expression
  | .done e => e
  | .again e => e
  | .combine op l r => .operation op l r false

theorem size_pos (e : Expression) : 0 < e.size := by
  cases e <;> simp [size]

theorem eq_constant_of_constant? {a : Double} (h : e.constant? = .ok (some a)) :
    ∃ n c, e = .constant n c ∧ n.toDouble = .ok a := by
  cases e with
  | constant n c =>
    refine ⟨n, c, rfl, ?_⟩
    rw [constant?] at h
    split at h
    · rename_i x hx
      obtain rfl := Option.some.inj (Except.ok.inj h)
      exact hx
    · cases h
  | «variable» | negation | operation => cases h

theorem references_of_near {k : Int} (hx : e.constant? = .ok x) (h : near x k = true) :
    e.references = [] := by
  obtain ⟨a, rfl⟩ := exists_of_near h
  obtain ⟨n, c, rfl, -⟩ := eq_constant_of_constant? hx
  rfl

/-- A rule that does not keep the operation goes on with fewer nodes. -/
theorem Rule.size_lt (h : Rule op l r x y step) :
    step = .done (.operation op l r false) ∨ step.expression.size < l.size + r.size + 1 := by
  have hl := l.size_pos
  have hr := r.size_pos
  cases h with
  | keep => exact .inl rfl
  | flip hop hplain hneg =>
    subst hneg
    right
    simp only [Step.expression, size]
    omega
  | fold | dropRight | dropLeft | negateLeft | negateRight =>
    right
    simp only [Step.expression, size]
    omega

theorem Rule.isSimpler (h : Rule op l r x y step) (hx : l.constant? = .ok x)
    (hy : r.constant? = .ok y) :
    step.expression.IsSimpler (.operation op l r b) := by
  have hsize : step.expression.size ≤ (operation op l r b).size := by
    rcases h.size_lt with rfl | hlt
    · exact Nat.le_refl _
    · exact Nat.le_of_lt hlt
  refine ⟨hsize, ?_, ?_⟩
  · rw [references]
    cases h with
    | fold a a' =>
      obtain ⟨m, c, rfl, -⟩ := eq_constant_of_constant? hx
      obtain ⟨n, c', rfl, -⟩ := eq_constant_of_constant? hy
      exact .refl _
    | dropRight hnear | negateLeft hop hone hnear =>
      rw [references_of_near hy hnear, List.append_nil]
      exact .refl _
    | dropLeft hop hnear =>
      rw [references_of_near hx hnear]
      exact .refl _
    | negateRight hnear =>
      have hnone : l.references = [] := by
        rcases hnear with ⟨-, -, hnear⟩ | ⟨-, hnear⟩ <;> exact references_of_near hx hnear
      rw [hnone]
      exact .refl _
    | flip hop hplain hneg =>
      subst hneg
      exact .refl _
    | keep => exact .refl _
  · rw [inRange_operation]
    intro hin
    cases h with
    | fold a a' =>
      intro n hn
      obtain rfl := List.mem_singleton.mp hn
      exact Number.fits_double _
    | dropRight | negateLeft => exact hin.1
    | dropLeft | negateRight => exact hin.2
    | flip hop hplain hneg =>
      subst hneg
      exact inRange_operation.mpr hin
    | keep => exact inRange_operation.mpr hin

/-- Whether no rule simplifies a node again that mentions a bound variable: each one is done with
the node, or the operands mention none. -/
def BindsOnce (binding : Binding) : Expression → Prop
  | .constant .. | .variable .. => True
  | .negation e _ => e.BindsOnce binding
  | .operation op l r _ => l.BindsOnce binding ∧ r.BindsOnce binding ∧
      ∀ l' r' x y, Simplifies binding l l' → Simplifies binding r r' → l'.constant? = .ok x →
      r'.constant? = .ok y →
        (∃ e, Rule op l' r' x y (.done e)) ∨ l'.IsUnbound binding ∧ r'.IsUnbound binding

private theorem isUnbound_rebuilt
    (h : (operation op l r b).IsUnbound binding ∨ (operation op l r b).BindsOnce binding)
    (hl : Simplifies binding l l') (hr : Simplifies binding r r')
    (hl' : l'.IsSimpler (l.substitute binding)) (hr' : r'.IsSimpler (r.substitute binding))
    (hx : l'.constant? = .ok x) (hy : r'.constant? = .ok y) (hrule : Rule op l' r' x y step)
    (hstep : ∀ e, step ≠ .done e) : step.expression.IsUnbound binding := by
  have hoperands : l'.IsUnbound binding ∧ r'.IsUnbound binding := by
    rcases h with h | h
    · obtain ⟨hul, hur⟩ := isUnbound_operation.mp h
      rw [hul.substitute_eq] at hl'
      rw [hur.substitute_eq] at hr'
      exact ⟨hl'.isUnbound hul, hr'.isUnbound hur⟩
    · obtain ⟨-, -, honce⟩ := h
      rcases honce l' r' x y hl hr hx hy with ⟨e, hdone⟩ | hunbound
      · exact absurd (hrule.reduce_eq.symm.trans hdone.reduce_eq) (hstep e)
      · exact hunbound
  exact (hrule.isSimpler (b := b) hx hy).isUnbound (isUnbound_operation.mpr hoperands)

private theorem operands_bound
    (h : (operation op l r b).IsUnbound binding ∨ (operation op l r b).BindsOnce binding) :
    (l.IsUnbound binding ∨ l.BindsOnce binding) ∧ (r.IsUnbound binding ∨ r.BindsOnce binding) := by
  rcases h with h | h
  · obtain ⟨hl, hr⟩ := isUnbound_operation.mp h
    exact ⟨.inl hl, .inl hr⟩
  · exact ⟨.inr h.1, .inr h.2.1⟩

/-- Simplification is no more than putting in everything at once: no reference is lost or replaced
twice. -/
theorem Simplifies.isSimpler (h : Simplifies binding e s)
    (hb : e.IsUnbound binding ∨ e.BindsOnce binding) :
    s.IsSimpler (e.substitute binding) := by
  induction h with
  | constant n b => exact .refl _
  | «variable» v b => exact .refl _
  | negation h ih => exact (isSimpler_negate _ false).trans (ih hb).negation
  | done hl hr hx hy hrule ihl ihr =>
    obtain ⟨hbl, hbr⟩ := operands_bound hb
    exact (hrule.isSimpler (b := false) hx hy).trans ((ihl hbl).operation (ihr hbr))
  | @again binding op l r l' r' e s x y b hl hr hx hy hrule h ihl ihr ih =>
    obtain ⟨hbl, hbr⟩ := operands_bound hb
    have hunbound : e.IsUnbound binding :=
      isUnbound_rebuilt hb hl hr (ihl hbl) (ihr hbr) hx hy hrule (by simp)
    have hs := ih (.inl hunbound)
    rw [hunbound.substitute_eq] at hs
    exact hs.trans ((hrule.isSimpler (b := false) hx hy).trans ((ihl hbl).operation (ihr hbr)))
  | @combine binding op op' l r l' r' l'' r'' m s x y b hl hr hx hy hrule hm h ihl ihr ihm ih =>
    obtain ⟨hbl, hbr⟩ := operands_bound hb
    have hm := ihm (.inl (isUnbound_none _))
    rw [(isUnbound_none _).substitute_eq] at hm
    have hunbound : m.IsUnbound binding :=
      hm.isUnbound (isUnbound_rebuilt hb hl hr (ihl hbl) (ihr hbr) hx hy hrule (by simp))
    have hs := ih (.inl hunbound)
    rw [hunbound.substitute_eq] at hs
    exact (hs.trans hm).trans
      ((hrule.isSimpler (b := false) hx hy).trans ((ihl hbl).operation (ihr hbr)))

theorem bindsOnce_of_isUnbound (h : ∀ r ∈ e.references, ∀ t ∈ binding r.1, t.IsUnbound binding) :
    e.BindsOnce binding := by
  induction e with
  | constant n b => exact trivial
  | «variable» v b => exact trivial
  | negation e b ih => exact ih h
  | operation op l r b ihl ihr =>
    have hunbound : ∀ e : Expression, (∀ r ∈ e.references, ∀ t ∈ binding r.1, t.IsUnbound binding) →
        (e.substitute binding).IsUnbound binding := by
      intro e he r hr
      rw [references_substitute] at hr
      obtain ⟨q, hq, hr⟩ := List.mem_flatMap.mp hr
      cases hbound : binding q.1 with
      | none =>
        rw [hbound] at hr
        obtain rfl := List.mem_singleton.mp hr
        exact hbound
      | some t =>
        rw [hbound] at hr
        exact he q hq t hbound r hr
    have hl : ∀ r ∈ l.references, ∀ t ∈ binding r.1, t.IsUnbound binding :=
      fun q hq => h q (List.mem_append_left _ hq)
    have hr : ∀ q ∈ r.references, ∀ t ∈ binding q.1, t.IsUnbound binding :=
      fun q hq => h q (List.mem_append_right _ hq)
    refine ⟨ihl hl, ihr hr, fun l' r' x y hsl hsr _ _ => .inr ⟨?_, ?_⟩⟩
    · exact (hsl.isSimpler (.inr (ihl hl))).isUnbound (hunbound l hl)
    · exact (hsr.isSimpler (.inr (ihr hr))).isUnbound (hunbound r hr)

/-- How a computation ends that can only meet a number out of range, and not if `p` holds. -/
def Ends {α : Type} (p : Prop) : Except SimplifyError α → Prop
  | .ok _ => True
  | .error .tooLarge => ¬p
  | .error .endless => False

theorem Ends.mono {α : Type} {p q : Prop} {z : Except SimplifyError α} (h : Ends p z) (hq : q → p) :
    Ends q z := by
  cases z with
  | ok a => trivial
  | error e =>
    cases e with
    | tooLarge => exact fun hq' => h (hq hq')
    | endless => exact h

theorem Ends.bind {α β : Type} {p : Prop} {z : Except SimplifyError α}
    {f : α → Except SimplifyError β} (h : Ends p z) (hf : ∀ a, z = .ok a → Ends p (f a)) :
    Ends p (z >>= f) := by
  cases z with
  | ok a => exact hf a rfl
  | error e => cases e <;> exact h

theorem Ends.exists_ok {α : Type} {p : Prop} {z : Except SimplifyError α} (h : Ends p z) (hp : p) :
    ∃ a, z = .ok a := by
  cases z with
  | ok a => exact ⟨a, rfl⟩
  | error e =>
    cases e with
    | tooLarge => exact absurd hp h
    | endless => cases h

theorem constant?_ends (e : Expression) : Ends e.InRange e.constant? := by
  cases e with
  | constant n b =>
    rw [constant?]
    split
    · trivial
    · rename_i e he
      intro hin
      obtain ⟨x, hx⟩ := hin n (List.mem_singleton.mpr rfl)
      rw [hx] at he
      cases he
  | «variable» | negation | operation => trivial

/-- Simplification never looks deeper than there are nodes with everything put in. -/
theorem simplifyWithin_ends (hn : (e.substitute binding).size ≤ n)
    (hb : e.IsUnbound binding ∨ e.BindsOnce binding) :
    Ends (e.substitute binding).InRange (simplifyWithin n binding e) := by
  induction n generalizing binding e with
  | zero =>
    have := (e.substitute binding).size_pos
    omega
  | succ n ih =>
    cases e with
    | constant | «variable» => trivial
    | negation e b => exact (ih (Nat.le_of_succ_le_succ hn) hb).bind fun s hs => trivial
    | operation op l r b =>
      obtain ⟨hbl, hbr⟩ := operands_bound hb
      have hl := (l.substitute binding).size_pos
      have hr := (r.substitute binding).size_pos
      rw [substitute, size] at hn
      have hrange := @inRange_operation op (l.substitute binding) (r.substitute binding) b
      rw [substitute, simplifyWithin]
      apply ((ih (by omega) hbl).mono fun h => (hrange.mp h).1).bind
      intro l' hl'
      replace hl' := simplifies_of_simplifyWithin hl'
      apply ((ih (by omega) hbr).mono fun h => (hrange.mp h).2).bind
      intro r' hr'
      replace hr' := simplifies_of_simplifyWithin hr'
      have hsl := hl'.isSimpler hbl
      have hsr := hr'.isSimpler hbr
      apply ((constant?_ends l').mono fun h => hsl.inRange (hrange.mp h).1).bind
      intro x hx
      apply ((constant?_ends r').mono fun h => hsr.inRange (hrange.mp h).2).bind
      intro y hy
      have hrule := rule_reduce op l' r' x y
      have hsimpler := (hrule.isSimpler (b := b) hx hy).trans (hsl.operation (c := b) hsr)
      have hsize : (∀ e, reduce op l' r' x y ≠ .done e) →
          (reduce op l' r' x y).expression.size ≤ n := by
        intro hstep
        have hlt := hrule.size_lt.resolve_left (hstep _)
        have := hsl.size_le
        have := hsr.size_le
        omega
      have hunbound := isUnbound_rebuilt hb hl' hr' hsl hsr hx hy hrule
      have hagain : ∀ {binding : Binding} {e : Expression}, e.size ≤ n → e.IsUnbound binding →
          Ends e.InRange (simplifyWithin n binding e) := by
        intro binding e hn hu
        have he : Ends (e.substitute binding).InRange (simplifyWithin n binding e) :=
          ih (by rwa [hu.substitute_eq]) (.inl hu)
        rwa [hu.substitute_eq] at he
      split
      · trivial
      · rename_i e hstep
        rw [hstep] at hsize hunbound hsimpler
        exact (hagain (hsize (by simp)) (hunbound (by simp))).mono hsimpler.inRange
      · rename_i op' l'' r'' hstep
        rw [hstep] at hsize hunbound hsimpler
        apply ((hagain (hsize (by simp)) (isUnbound_none _)).mono hsimpler.inRange).bind
        intro m hm
        have hsm := (simplifies_of_simplifyWithin hm).isSimpler (.inl (isUnbound_none _))
        rw [(isUnbound_none _).substitute_eq] at hsm
        have hu : m.IsUnbound binding := hsm.isUnbound (hunbound (by simp))
        exact (hagain (hsm.size_le.trans (hsize (by simp))) hu).mono fun h =>
          hsm.inRange (hsimpler.inRange h)

theorem simplify_ends (hb : e.IsUnbound binding ∨ e.BindsOnce binding) :
    Ends (e.substitute binding).InRange (e.simplify binding) := by
  apply simplifyWithin_ends _ hb
  rw [size_substitute]
  omega

theorem simplifies_of_simplify (h : e.simplify binding = .ok s) : Simplifies binding e s :=
  simplifies_of_simplifyWithin h

/-- Simplification is one simultaneous substitution, as long as no rule simplifies a node again that
mentions a bound variable: it ends, and each bound reference is replaced once, by the references of
what is bound to it. The only other end is a constant that is too large for a double. -/
theorem simplify_references (binding : Binding) (honce : e.BindsOnce binding) :
    (∃ s, e.simplify binding = .ok s ∧
      s.references.Perm (e.references.flatMap fun r => ((binding r.1).map references).getD [r])) ∨
    e.simplify binding = .error .tooLarge ∧ ¬(e.substitute binding).InRange := by
  have hends := simplify_ends (.inr honce)
  cases h : e.simplify binding with
  | ok s =>
    refine .inl ⟨s, rfl, ?_⟩
    rw [← references_substitute]
    exact ((simplifies_of_simplify h).isSimpler (.inr honce)).references
  | error error =>
    rw [h] at hends
    cases error with
    | tooLarge => exact .inr ⟨rfl, hends⟩
    | endless => cases hends

def named (name : String) : Expression := .variable ⟨name, .custom⟩ false

/-- Puts `b - 2` in place of `a`, and `a` in place of `b`. -/
def exchanging : Binding := fun v =>
  match v.name with
  | "a" => some (.operation .sub (named "b") (.constant (.int 2) false) false)
  | "b" => some (named "a")
  | _ => none

/-- What is put in for two names is left alone, although it mentions them again. -/
theorem simplify_references_exchanged :
    ∃ s, (operation .div (named "a") (named "b") false).simplify exchanging = .ok s ∧
      s.references.Perm [(⟨"b", .custom⟩, false), (⟨"a", .custom⟩, false)] := by
  have honce : (operation .div (named "a") (named "b") false).BindsOnce exchanging := by
    refine ⟨trivial, trivial, fun l' r' x y hl hr hx hy => .inl ?_⟩
    obtain rfl := hl.unique (.variable ⟨"a", .custom⟩ false)
    obtain rfl := hr.unique (.variable ⟨"b", .custom⟩ false)
    obtain rfl := Except.ok.inj hx
    obtain rfl := Except.ok.inj hy
    exact ⟨_, rule_reduce _ _ _ _ _⟩
  rcases simplify_references exchanging honce with h | h
  · exact h
  · exact absurd h.1 (by decide +kernel)

def chaining : Binding := fun v =>
  match v.name with
  | "a" => some (named "b")
  | "b" => some (named "c")
  | _ => none

def opposite : Expression := .operation .mul (named "a") (.constant (.int (-1)) false) false

def negating : Binding := fun v =>
  match v.name with
  | "a" => some opposite
  | _ => none

theorem simplifyWithin_negating (n : Nat) :
    simplifyWithin n negating opposite = .error .endless := by
  induction n using Nat.strong_induction_on with
  | h n ih =>
    match n with
    | 0 => rfl
    | 1 => rfl
    | n + 2 =>
      -- the product is put in for `a`, and the rule for its factor has the opposite of the product
      -- simplified again
      have hrule : reduce .mul opposite (.constant (.int (-1)) false) none (some (.ofInt (-1))) =
          .again (.negation opposite false) :=
        Rule.reduce_eq (.negateLeft (.inl rfl) (by decide +kernel) (by decide +kernel))
      have hl : simplifyWithin (n + 1) negating (named "a") = .ok opposite := rfl
      have hr : simplifyWithin (n + 1) negating (.constant (.int (-1)) false) =
        .ok (.constant (.int (-1)) false) := rfl
      have hx : opposite.constant? = .ok none := rfl
      have hy : (constant (.int (-1)) false).constant? = .ok (some (.ofInt (-1))) := by
        decide +kernel
      change simplifyWithin (n + 2) negating
        (.operation .mul (named "a") (.constant (.int (-1)) false) false) = _
      rw [simplifyWithin_operation hl hr hx hy, hrule]
      change (simplifyWithin n negating opposite >>= fun s => .ok s.negate) = _
      rw [ih n (by omega)]
      rfl

/-- A factor of minus one makes the rules simplify once more what was put in: `a` becomes `b` and
then `c`. And what is put in for `a` can make them start all over, without an end. -/
theorem simplify_replaces_twice :
    opposite.simplify chaining = .ok (.negation (named "c") false) ∧
      ∀ n, simplifyWithin n negating opposite = .error .endless := by
  constructor
  · decide +kernel
  · exact simplifyWithin_negating

end Expression

end PanelLayout
