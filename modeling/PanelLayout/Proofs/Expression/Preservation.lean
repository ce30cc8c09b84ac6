import PanelLayout.Proofs.Expression.Snapping

/-!
# Simplification preserves values

With the numbers that the rules take its operands for, an expression keeps its value under
simplification, up to the sign of zero. The proof goes backwards: what the simplified expression may
give, the expression may give as well.
-/

namespace PanelLayout

namespace Expression

variable {value : Variable → Number} {op op' : Operator} {e l r s l' r' : Expression}
    {x y : Option Double} {a z : Double}
  {step : Step} {ks : List Int} {k : Int} {b : Bool}

section Units

variable {c : Double}

theorem toDouble_unit (hk : k ∈ [0, 1, -1]) : (Number.int k).toDouble = .ok (.ofInt k) := by
  have hsmall : ∀ k ∈ [(0 : Int), 1, -1], k.natAbs ≤ 1 := by decide
  exact Number.toDouble_int_of_natAbs_le ((hsmall k hk).trans (by decide))

theorem mayGive_unit (value : Variable → Number) (hk : k ∈ [0, 1, -1]) (b : Bool) :
    MayGive value (.constant (.int k) b) (.ofInt k) := by
  apply MayGive.firm rfl
  rw [plainDouble_constant, toDouble_unit hk]

theorem unit_mem (op : Operator) : op.unit ∈ [0, 1, -1] := by
  cases op <;> decide

theorem find?_unit (h : near y op.unit = true) : op.rightUnits.find? (near y) = some op.unit := by
  cases op <;> exact List.find?_cons_of_pos h

theorem find?_left_unit (hop : op = .add ∨ op = .mul) (h : near x op.unit = true) :
    op.leftUnits.find? (near x) = some op.unit := by
  rcases hop with rfl | rfl <;> exact List.find?_cons_of_pos h

theorem find?_opposite_unit (hone : near x 1 = false) (h : near x (-1) = true) :
    [1, -1].find? (near x) = some (-1) := by
  simp [hone, h]

theorem apply_unit (op : Operator) (c : Double) : (op.apply c (.ofInt op.unit)).Alike c := by
  cases op with
  | add => exact Double.add_isZero c Double.isZero_ofInt
  | sub => exact Double.sub_isZero c Double.isZero_ofInt
  | mul => exact .of_eq (Double.mul_one c)
  | div => exact .of_eq (Double.div_one c)

theorem unit_apply (hop : op = .add ∨ op = .mul) (c : Double) :
    (op.apply (.ofInt op.unit) c).Alike c := by
  rcases hop with rfl | rfl
  · exact Double.isZero_ofInt.add c
  · exact .of_eq ((Double.mul_comm _ c).trans (Double.mul_one c))

theorem apply_opposite_unit (hop : op = .mul ∨ op = .div) (c : Double) :
    op.apply c (.ofInt (-1)) = -c := by
  rcases hop with rfl | rfl
  · exact Double.mul_neg_one c
  · exact Double.div_neg_one c

end Units

/-- What a rule goes on with gives nothing that the operation may not give on what the rule takes
the operands for. -/
theorem Rule.mayGive (hrule : Rule op l r x y step) (hopen : x = none ∨ y = none)
    (h : MayGive value step.expression z) :
    ∃ a b, MayGive value (snap op.leftUnits x l) a ∧ MayGive value (snap op.rightUnits y r) b ∧
    (op.apply a b).Alike z := by
  cases hrule with
  | fold => simp at hopen
  | dropRight hy =>
    refine ⟨z, .ofInt op.unit, by rwa [snap_none], ?_, apply_unit op z⟩
    rw [snap_of_find? (find?_unit hy)]
    exact mayGive_unit value (unit_mem op) false
  | dropLeft hop hx =>
    refine ⟨.ofInt op.unit, z, ?_, by rwa [snap_none], unit_apply hop z⟩
    rw [snap_of_find? (find?_left_unit hop hx)]
    exact mayGive_unit value (unit_mem op) false
  | negateLeft hop hone hy =>
    obtain ⟨a, ha, hz⟩ := mayGive_negation_inv h
    refine ⟨a, .ofInt (-1), by rwa [snap_none], ?_, by rwa [apply_opposite_unit hop]⟩
    have hunits : op.rightUnits = [1, -1] := by rcases hop with rfl | rfl <;> rfl
    rw [hunits, snap_of_find? (find?_opposite_unit hone hy)]
    exact mayGive_unit value (by decide) false
  | negateRight hunit =>
    obtain ⟨b, hb, hz⟩ := mayGive_negation_inv h
    rcases hunit with ⟨rfl, hone, hx⟩ | ⟨rfl, hx⟩
    · refine ⟨.ofInt (-1), b, ?_, by rwa [snap_none], ?_⟩
      · rw [Operator.leftUnits, snap_of_find? (find?_opposite_unit hone hx)]
        exact mayGive_unit value (by decide) false
      · rwa [Operator.apply, Double.mul_comm, Double.mul_neg_one]
    · refine ⟨.ofInt 0, b, ?_, by rwa [snap_none], (Double.isZero_ofInt.sub b).trans hz⟩
      rw [Operator.leftUnits, snap_of_find? (List.find?_cons_of_pos hx)]
      exact mayGive_unit value (by decide) false
  | @flip _ _ r' c hop hplain hr =>
    obtain ⟨a, b, ha, hb, hz⟩ := mayGive_operation_inv h
    obtain ⟨b', hb', halike⟩ := hb.neg c
    rw [snap_of_forall hplain.left, snap_of_forall hplain.right, hr]
    refine ⟨a, b', ha, hb', .trans ?_ hz⟩
    rcases hop with rfl | rfl
    · exact (Double.Alike.refl a).add halike
    · have hneg := (Double.Alike.refl a).sub halike
      rwa [Double.sub_neg] at hneg
  | keep hplain hr =>
    rw [snap_of_forall hplain.left, snap_of_forall hplain.right]
    exact mayGive_operation_inv h

theorem Rule.snapped_again (h : Rule op l r x y (.again e)) (hl : l.IsNormal false)
    (hr : r.IsNormal false) :
    e.snapped = e := by
  cases h with
  | negateLeft => rw [snapped, hl.snapped_eq]
  | negateRight => rw [snapped, hr.snapped_eq]

theorem Rule.isNormal_combine (h : Rule op l r x y (.combine op' l' r')) (hl : l.IsNormal false)
    (hr : r.IsNormal false) (hx : l.constant? = .ok x) (hy : r.constant? = .ok y) :
    (operation op' l' r' false).IsNormal false := by
  cases h with
  | flip hop hplain hneg =>
    subst hneg
    cases hr with
    | negation hr hsign =>
      obtain rfl : none = y := Except.ok.inj hy
      exact .operation hl hr hx (constant?_of_keepsSign hsign) hplain.opposite fun _ =>
        isNegation_of_keepsSign hsign

private theorem mayGive_snap (h : MayGive value (snap ks x s) a)
    (ih : ∀ {a}, MayGive value s a → MayGive value e a) :
    MayGive value (snap ks x e) a := by
  unfold snap at *
  split at h
  · exact h
  · exact ih h

private theorem SimplifiesTo.mayGive_of_references (h : SimplifiesTo e s)
    (hclosed : e.references = []) (hs : MayGive value s z) : MayGive value e.snapped z := by
  obtain ⟨n, c, rfl, hn⟩ := h.exists_constant hclosed value
  rw [snapped_of_references hclosed]
  apply MayGive.firm (isFirm_of_references hclosed)
  rw [plainDouble, hn]
  exact hs.eq_of_isFirm rfl

private theorem mayGive_operation (hl : SimplifiesTo l l') (hr : SimplifiesTo r r')
    (hx : l'.constant? = .ok x) (hy : r'.constant? = .ok y) (hrule : Rule op l' r' x y step)
    (ihl : ∀ {z}, MayGive value l' z → MayGive value l.snapped z)
    (ihr : ∀ {z}, MayGive value r' z → MayGive value r.snapped z)
    (hs : SimplifiesTo (.operation op l r b) s) (hresult : MayGive value s z)
    (h : MayGive value step.expression z) : MayGive value (operation op l r b).snapped z := by
  by_cases hclosed : l.references ++ r.references = []
  · exact hs.mayGive_of_references hclosed hresult
  · have hx := hl.closedValue? hx
    have hy := hr.closedValue? hy
    have hboth : x = none ∨ y = none := by
      by_contra hboth
      obtain ⟨hxs, hys⟩ := not_or.mp hboth
      obtain ⟨c, rfl⟩ := Option.ne_none_iff_exists'.mp hxs
      obtain ⟨d, rfl⟩ := Option.ne_none_iff_exists'.mp hys
      rw [references_of_closedValue? hx, references_of_closedValue? hy] at hclosed
      exact hclosed rfl
    obtain ⟨c, d, hc, hd, hz⟩ := hrule.mayGive hboth h
    have hreferences := references_snapped (operation op l r b)
    rw [snapped, if_neg hclosed, hx, hy] at *
    refine .operation (not_isFirm_operation op ?_ b) (mayGive_snap hc ihl) (mayGive_snap hd ihr) hz
    rw [references, references] at hreferences
    rwa [hreferences]

/-- What a simplified expression may give, the expression may give with the numbers that the rules
take its operands for. -/
theorem SimplifiesTo.mayGive (h : SimplifiesTo e s) (hs : MayGive value s z) :
    MayGive value e.snapped z := by
  induction h using SimplifiesTo.induction generalizing z with
  | constant | «variable» => exact hs
  | @negation e s b h ih =>
    by_cases hclosed : e.references = []
    · exact SimplifiesTo.mayGive_of_references (.negation h) hclosed hs
    · have hopen : s.references ≠ [] :=
        fun hnil => hclosed (hnil ▸ h.isSimpler.references).nil_eq.symm
      obtain ⟨x, hx, hz⟩ := mayGive_negate_inv hopen hs
      exact .negation (not_isFirm_negation (by rwa [references_snapped]) b) (ih hx) hz
  | done hl hr hx hy hrule ihl ihr =>
    exact mayGive_operation hl hr hx hy hrule ihl ihr (.done hl hr hx hy hrule) hs hs
  | again hl hr hx hy hrule h ihl ihr ih =>
    have hstep := ih hs
    rw [hrule.snapped_again hl.isNormal hr.isNormal] at hstep
    exact mayGive_operation hl hr hx hy hrule ihl ihr (.again hl hr hx hy hrule h) hs hstep
  | combine hl hr hx hy hrule hm h ihl ihr ihm ih =>
    have hcombined := ih hs
    rw [hm.isNormal.snapped_eq] at hcombined
    have hstep := ihm hcombined
    rw [(hrule.isNormal_combine hl.isNormal hr.isNormal hx hy).snapped_eq] at hstep
    exact mayGive_operation hl hr hx hy hrule ihl ihr (.combine hl hr hx hy hrule hm h) hs hstep

def MeetsExactly (ks : List Int) (x : Option Double) : Prop :=
  ∀ k ∈ ks, ∀ c, x = some c → near x k = true → c.equals (.ofInt k) = true

/-- Whether no rule takes an operand for a number other than its own. -/
def IsExact : Expression → Prop
  | .constant .. | .variable .. => True
  | .negation e _ => e.IsExact
  | .operation op l r _ => l.IsExact ∧ r.IsExact ∧ (l.references ++ r.references = [] ∨
      MeetsExactly op.leftUnits l.closedValue? ∧ MeetsExactly op.rightUnits r.closedValue?)

private theorem mayGive_exact (hexact : MeetsExactly ks e.closedValue?)
    (h : MayGive value (snap ks e.closedValue? e.snapped) a)
    (ih : MayGive value e.snapped a → MayGive value e a) :
    ∃ c, MayGive value e c ∧ a.Alike c ∧ (a = c ∨ ∃ k ∈ ks, a = .ofInt k) := by
  unfold snap at h
  split at h
  · rename_i k hk
    have hnear := List.find?_some hk
    have hmem := List.mem_of_find?_eq_some hk
    obtain ⟨c, hc⟩ := exists_of_near hnear
    have ha := h.eq_of_isFirm rfl
    rw [plainDouble_constant, Number.toDouble_int] at ha
    replace ha := Number.rounded_eq_ok ha
    have hfirm := isFirm_of_references (references_of_closedValue? hc)
    refine ⟨c, .firm hfirm (plainDouble_of_closedValue? hc value), ?_, .inr ⟨k, hmem, ha⟩⟩
    rw [ha]
    exact .symm (.inl (hexact k hmem c hc hnear))
  · exact ⟨a, ih h, .refl a, .inl rfl⟩

theorem not_isPole_unit (hk : k ∈ op.rightUnits) (a : Double) : ¬op.IsPole a (.ofInt k) := by
  intro h
  obtain ⟨hop, hzero, -⟩ := h
  subst hop
  have hunit : ∀ k ∈ Operator.rightUnits .div, k ≠ 0 ∧ k.natAbs ≤ 2 ^ (51 : Nat) := by decide
  exact Double.not_isZero_ofInt (hunit k hk).1 (hunit k hk).2 hzero

theorem IsExact.mayGive (hexact : e.IsExact) (h : MayGive value e.snapped z) :
    MayGive value e z := by
  induction e generalizing z with
  | constant | «variable» => exact h
  | negation e b ih =>
    by_cases hclosed : e.references = []
    · rwa [snapped_of_references (e := .negation e b) hclosed] at h
    · obtain ⟨x, hx, hz⟩ := mayGive_negation_inv h
      exact .negation (not_isFirm_negation hclosed b) (ih hexact hx) hz
  | operation op l r b ihl ihr =>
    by_cases hclosed : l.references ++ r.references = []
    · rwa [snapped_of_references (e := .operation op l r b) hclosed] at h
    · obtain ⟨hl, hr, hunits⟩ := hexact
      obtain ⟨hleft, hright⟩ := hunits.resolve_left hclosed
      rw [snapped, if_neg hclosed] at h
      obtain ⟨x, y, hx, hy, hz⟩ := mayGive_operation_inv h
      obtain ⟨c, hc, hxc, -⟩ := mayGive_exact hleft hx (ihl hl)
      obtain ⟨d, hd, hyd, hsame⟩ := mayGive_exact hright hy (ihr hr)
      have halike : (op.apply x y).Alike (op.apply c d) := by
        apply Operator.apply_alike hxc hyd
        apply hsame.imp_right
        intro h
        obtain ⟨k, hk, hy⟩ := h
        rw [hy]
        exact not_isPole_unit hk x
      exact .operation (not_isFirm_operation op hclosed b) hc hd (halike.symm.trans hz)

section InRange

theorem inRange_snap (hks : ∀ k ∈ ks, k ∈ [0, 1, -1]) (h : e.InRange) : (snap ks x e).InRange := by
  unfold snap
  split
  · rename_i k hk
    intro n hn
    obtain rfl := List.mem_singleton.mp hn
    exact ⟨_, toDouble_unit (hks k (List.mem_of_find?_eq_some hk))⟩
  · exact h

theorem InRange.snapped (h : e.InRange) : e.snapped.InRange := by
  induction e with
  | constant | «variable» => exact h
  | negation e b ih => exact ih h
  | operation op l r b ihl ihr =>
    rw [Expression.snapped]
    split
    · exact h
    · rw [inRange_operation] at h ⊢
      have hleft : ∀ k ∈ op.leftUnits, k ∈ [0, 1, -1] := by cases op <;> decide
      have hright : ∀ k ∈ op.rightUnits, k ∈ [0, 1, -1] := by cases op <;> decide
      exact ⟨inRange_snap hleft (ihl h.1), inRange_snap hright (ihr h.2)⟩

end InRange

theorem evaluateWith_eq_ok {binding : Variable → Except NumberError (Option Expression)}
    (hbound : ∀ v ∈ e.variableList, binding v = .ok (some (.constant (value v) false)))
    (h : e.plainDouble value = .ok a) :
    e.evaluateWith binding = .ok a := by
  rw [evaluateWith_of_bound hbound]
  exact congrArg (Except.mapError EvaluationError.number) h

/-- Simplification preserves values, with the numbers that its rules take operands for, unless a
number other than zero is divided by a zero that is computed with a variable: then the sign of that
zero shows. Where the operands have exactly those numbers, it preserves the value itself, which for
an operation on two expressions is the operator applied to their values. -/
theorem evaluateWith_simplify (he : e.InRange)
    {binding : Variable → Except NumberError (Option Expression)}
    (hvalue : ∀ v ∈ e.variableList, (value v).Fits ∧
      binding v = .ok (some (.constant (value v) false))) :
    ∃ s x y z, e.simplify = .ok s ∧ s.evaluateWith binding = .ok x ∧
    e.snapped.evaluateWith binding = .ok y ∧
      e.evaluateWith binding = .ok z ∧ (e.snapped.AvoidsPoles value → x.Alike y) ∧
      (e.IsExact → e.AvoidsPoles value → x.Alike z) ∧
      ∀ op l r, e = .operation op l r false → combined op l r = .ok s ∧
        ∃ a b, l.evaluateWith binding = .ok a ∧ r.evaluateWith binding = .ok b ∧
        z = op.apply a b := by
  obtain ⟨s, hs, hsimplifies⟩ := he.exists_simplify
  have hsvars : ∀ v ∈ s.variableList, v ∈ e.variableList := fun v hv =>
    (hsimplifies.isSimpler.references.map Prod.fst).mem_iff.mp hv
  have hsnappedVars : e.snapped.variableList = e.variableList := by
    rw [variableList, references_snapped, variableList]
  obtain ⟨x, hx⟩ := (hsimplifies.isSimpler.inRange he).plainDouble fun v hv =>
    (hvalue v (hsvars v hv)).1
  obtain ⟨y, hy⟩ := he.snapped.plainDouble fun v hv => (hvalue v (hsnappedVars ▸ hv)).1
  obtain ⟨z, hz⟩ := he.plainDouble fun v hv => (hvalue v hv).1
  have hgives := hsimplifies.mayGive (mayGive_of_plainDouble hx)
  refine ⟨s, x, y, z, hs, evaluateWith_eq_ok (fun v hv => (hvalue v (hsvars v hv)).2) hx,
    evaluateWith_eq_ok (fun v hv => (hvalue v (hsnappedVars ▸ hv)).2) hy,
    evaluateWith_eq_ok (fun v hv => (hvalue v hv).2) hz, ?_, ?_, ?_⟩
  · intro hpoles
    obtain ⟨y', hy', halike⟩ := hgives.alike hpoles
    obtain rfl := Except.ok.inj (hy.symm.trans hy')
    exact halike.symm
  · intro hexact hpoles
    obtain ⟨z', hz', halike⟩ := (hexact.mayGive hgives).alike hpoles
    obtain rfl := Except.ok.inj (hz.symm.trans hz')
    exact halike.symm
  · rintro op l r rfl
    obtain ⟨a, b, ha, hb, rfl⟩ := plainDouble_operation.mp hz
    have hvars : (operation op l r false).variableList = l.variableList ++ r.variableList :=
      List.map_append
    rw [hvars] at hvalue
    refine ⟨hs, a, b, ?_, ?_, rfl⟩
    · exact evaluateWith_eq_ok (fun v hv => (hvalue v (List.mem_append_left _ hv)).2) ha
    · exact evaluateWith_eq_ok (fun v hv => (hvalue v (List.mem_append_right _ hv)).2) hb

def provided (value : Variable → Number) : Variable → Except NumberError (Option Expression) :=
  fun v =>
  .ok (some (.constant (value v) false))

def zeroMinus : Expression := .operation .sub (.constant (.int 0) false) (named "a") false

def threeForA (v : Variable) : Number := if v.name = "a" then .int 3 else .double (.zero false)

/-- Zero is taken out of `0 - a` and shows nowhere, not even where the opposite is divided by a
variable that is zero. -/
theorem evaluateWith_simplify_opposite_over_zero :
    ∃ s x, combined .div zeroMinus (named "b") = .ok s ∧
    s.evaluateWith (provided threeForA) = .ok x ∧
      x.Alike (.infinite true) := by
  have hrange : (operation .div zeroMinus (named "b") false).InRange := by
    intro n hn
    obtain rfl := List.mem_singleton.mp hn
    exact Number.fits_zero
  have hfits : ∀ v, (threeForA v).Fits := by
    intro v
    unfold threeForA
    split
    · exact ⟨_, Number.toDouble_int_of_natAbs_le (by decide)⟩
    · exact Number.fits_double _
  have hexact : (operation .div zeroMinus (named "b") false).IsExact := by
    have hzero : (constant (.int 0) false).closedValue? = some (.ofInt 0) := by decide +kernel
    refine ⟨⟨trivial, trivial, .inr ⟨?_, nofun⟩⟩, trivial, .inr ⟨nofun, nofun⟩⟩
    intro k hk c hc _
    obtain rfl := List.mem_singleton.mp hk
    rw [hzero] at hc
    rw [← Option.some.inj hc]
    decide +kernel
  have hpoles : (operation .div zeroMinus (named "b") false).AvoidsPoles threeForA :=
    ⟨⟨trivial, trivial, .inl rfl⟩, trivial, .inl rfl⟩
  obtain ⟨s, x, y, z, -, hx, -, hz, -, halike, hcombined⟩ :=
    evaluateWith_simplify hrange fun v _ =>
      ⟨hfits v, (rfl : provided threeForA v = .ok (some (.constant (threeForA v) false)))⟩
  have hplain : (operation .div zeroMinus (named "b") false).plainDouble threeForA =
    .ok (.infinite true) := by decide +kernel
  have hinfinite : (operation .div zeroMinus (named "b") false).evaluateWith (provided threeForA) =
      .ok (.infinite true) :=
    evaluateWith_eq_ok (fun _ _ => rfl) hplain
  have hxz := halike hexact hpoles
  rw [Except.ok.inj (hz.symm.trans hinfinite)] at hxz
  exact ⟨s, x, (hcombined _ _ _ rfl).1, hx, hxz⟩

def tinySum : Expression :=
  .operation .add (named "x") (.constant (.double (.ofDecimal 1 (-10))) false) false

def inverseOpposite : Expression :=
  .operation .div (.constant (.int 1) false)
    (.operation .sub (.constant (.int 0) false) (named "x") false) false

def ChangesValue (value : Variable → Number) (e : Expression) : Prop :=
  ∃ s x z, e.simplify = .ok s ∧ s.evaluateWith (provided value) = .ok x ∧
    e.evaluateWith (provided value) = .ok z ∧
    ¬x.Alike z

/-- At zero, a sum loses its tiny summand, and an inverse the sign of the zero that it divides
by. -/
theorem simplify_changes_value :
    tinySum.ChangesValue (fun _ => .double (.zero false)) ∧
    inverseOpposite.ChangesValue (fun _ => .double (.zero false)) := by
  constructor
  · refine ⟨named "x", .zero false, .ofDecimal 1 (-10), by decide +kernel, ?_, ?_, ?_⟩
    · exact evaluateWith_eq_ok (fun _ _ => rfl) (by decide +kernel)
    · exact evaluateWith_eq_ok (fun _ _ => rfl) (by decide +kernel)
    · unfold Double.Alike
      decide +kernel
  · refine ⟨.operation .div (.constant (.int 1) false) (.negation (named "x") false) false,
      .infinite true, .infinite false, by decide +kernel, ?_, ?_, ?_⟩
    · exact evaluateWith_eq_ok (fun _ _ => rfl) (by decide +kernel)
    · exact evaluateWith_eq_ok (fun _ _ => rfl) (by decide +kernel)
    · unfold Double.Alike
      decide +kernel

end Expression

end PanelLayout
