import PanelLayout.Proofs.Expression.Searching

/-!
# Depth of the searches

The searches for misplaced operands recurse within a bound on their depth. The bound is no part of
what they do: at most six levels are entered for each word, so that beyond these another bound gives
the same search.
-/

namespace PanelLayout

namespace Misplaced

variable {whole ts : List Token} {α β : Type} {p : α → Prop}

/-- Whether two searches do the same, where only words of the whole were looked at before. -/
def Same (whole : List Token) (x y : Search α) : Prop :=
  ∀ seen, seen <:+ whole → x.run seen = y.run seen

theorem Same.refl (x : Search α) : Same whole x x := fun _ _ => rfl

theorem Same.trans {x y z : Search α} (hxy : Same whole x y) (hyz : Same whole y z) :
    Same whole x z :=
  fun seen hseen => (hxy seen hseen).trans (hyz seen hseen)

theorem Same.bind {x y : Search α} {f g : α → Search β} (hxy : Same whole x y)
    (hy : Keeps whole p y) (hfg : ∀ a, p a → Same whole (f a) (g a)) :
    Same whole (x >>= f) (y >>= g) := by
  intro seen hseen
  have hkeeps := hy seen hseen
  rw [StateT.run_bind, StateT.run_bind, hxy seen hseen]
  cases hrun : y.run seen with
  | error position => rfl
  | ok found =>
    rw [hrun] at hkeeps
    exact hfg found.1 hkeeps.1 found.2 hkeeps.2

theorem Same.bind_found {k : Nat} {x y : Search (Option Found)} {f g : Option Found → Search β}
    (hxy : Same whole x y) (hy : Finds whole k y) (hnone : Same whole (f none) (g none))
    (hsome : ∀ found, found.Within whole k → Same whole (f (some found)) (g (some found))) :
    Same whole (x >>= f) (y >>= g) := by
  refine hxy.bind hy fun found? hfound => ?_
  cases found? with
  | none => exact hnone
  | some found => exact hsome found (hfound found rfl)

theorem checkBehind_none (n : Nat) (ts : List Token) : checkBehind n ts none = pure () := by
  cases n <;> rfl

/-- What one more level changes for the searches that have `n` levels: nothing, if these are enough
for the words. -/
structure Enough (whole : List Token) (n : Nat) : Prop where
  enter {checked inner : Bool} {ts : List Token} : ts <:+ whole → 6 * ts.length + 5 ≤ n →
    Same whole (enter checked inner (n + 1) ts) (enter checked inner n ts)
  behind {ts : List Token} {found : Found} {k : Nat} : found.Within whole k →
    6 * found.rest.length + 5 ≤ n →
    Same whole (checkBehind (n + 1) ts (some found)) (checkBehind n ts (some found))
  statement {ts : List Token} : ts <:+ whole → 6 * ts.length + 4 ≤ n →
    Same whole (checkStatement (n + 1) ts) (checkStatement n ts)
  starred {inner : Bool} {ts : List Token} : ts <:+ whole → 6 * ts.length + 6 ≤ n →
    Same whole (findStarred inner (n + 1) ts) (findStarred inner n ts)
  sum {inner : Bool} {ts : List Token} : ts <:+ whole → 6 * ts.length + 4 ≤ n →
    Same whole (findSum inner (n + 1) ts) (findSum inner n ts)
  sumTail {inner : Bool} {first k : Nat} {found : Found} : Reported whole first →
    found.Within whole k → 6 * found.rest.length + 1 ≤ n →
    Same whole (findSumTail inner (n + 1) first found) (findSumTail inner n first found)
  product {inner : Bool} {ts : List Token} : ts <:+ whole → 6 * ts.length + 3 ≤ n →
    Same whole (findProduct inner (n + 1) ts) (findProduct inner n ts)
  productTail {inner : Bool} {first k : Nat} {found : Found} : Reported whole first →
    found.Within whole k → 6 * found.rest.length + 1 ≤ n →
    Same whole (findProductTail inner (n + 1) first found) (findProductTail inner n first found)
  signed {inner : Bool} {ts : List Token} : ts <:+ whole → 6 * ts.length + 2 ≤ n →
    Same whole (findSigned inner (n + 1) ts) (findSigned inner n ts)
  calls {inner : Bool} {first k : Nat} {found : Found} : Reported whole first →
    found.Within whole k → 6 * found.rest.length + 2 ≤ n →
    Same whole (findCalls inner (n + 1) first found) (findCalls inner n first found)
  atom {inner : Bool} {ts : List Token} : ts <:+ whole → 6 * ts.length + 1 ≤ n →
    Same whole (findAtom inner (n + 1) ts) (findAtom inner n ts)

namespace Enough

variable {checked inner : Bool} {n first k : Nat} {found : Found}

private theorem enter_succ (ih : Enough whole n) (hts : ts <:+ whole)
    (h : 6 * ts.length + 5 ≤ n + 1) :
    Same whole (Misplaced.enter checked inner (n + 2) ts)
      (Misplaced.enter checked inner (n + 1) ts) := by
  rw [Misplaced.enter, Misplaced.enter]
  refine (ih.sum hts (by omega)).bind ((searches whole n).sum hts) fun found? hfound => ?_
  cases checked with
  | false => exact .refl _
  | true =>
    have hbehind : Same whole (checkBehind (n + 1) ts found?) (checkBehind n ts found?) := by
      cases found? with
      | none =>
        rw [checkBehind_none, checkBehind_none]
        exact .refl _
      | some found =>
        have hwithin := hfound found rfl
        have := hwithin.shorter
        exact ih.behind hwithin (by omega)
    refine hbehind.bind ((searches whole n).behind hfound) fun _ _ => ?_
    exact (ih.statement hts (by omega)).bind ((searches whole n).statement hts) fun _ _ => .refl _

private theorem behind_succ (ih : Enough whole n) (hfound : found.Within whole k)
    (h : 6 * found.rest.length + 5 ≤ n + 1) :
    Same whole (checkBehind (n + 2) ts (some found)) (checkBehind (n + 1) ts (some found)) := by
  rw [checkBehind, checkBehind]
  split
  · exact .refl _
  · exact Same.bind_found (ih.sum hfound.rest (by omega)) ((searches whole n).sum hfound.rest)
      (.refl _) fun _ _ => .refl _

private theorem statement_succ (ih : Enough whole n) (hts : ts <:+ whole)
    (h : 6 * ts.length + 4 ≤ n + 1) :
    Same whole (checkStatement (n + 2) ts) (checkStatement (n + 1) ts) := by
  unfold checkStatement
  split
  · exact .refl _
  · have hrest := suffix_of_cons hts
    rw [List.length_cons] at h
    exact (ih.starred hrest (by omega)).bind ((searches whole n).starred hrest) fun _ _ => .refl _
  · exact .refl _

private theorem starred_succ (ih : Enough whole n) (hts : ts <:+ whole)
    (h : 6 * ts.length + 6 ≤ n + 1) :
    Same whole (findStarred inner (n + 2) ts) (findStarred inner (n + 1) ts) := by
  unfold findStarred
  split
  · rw [List.length_cons] at h
    exact ih.sum (suffix_of_cons hts) (by omega)
  · exact ih.enter hts (by omega)

private theorem sum_succ (ih : Enough whole n) (hts : ts <:+ whole)
    (h : 6 * ts.length + 4 ≤ n + 1) :
    Same whole (findSum inner (n + 2) ts) (findSum inner (n + 1) ts) := by
  rw [findSum, findSum]
  refine Same.bind_found (ih.product hts (by omega)) ((searches whole n).product hts) (.refl _)
    fun found hfound => ?_
  have := hfound.shorter
  exact ih.sumTail (reported_headPosition hts) hfound (by omega)

private theorem sumTail_succ (ih : Enough whole n) (hfirst : Reported whole first)
    (hfound : found.Within whole k) (h : 6 * found.rest.length + 1 ≤ n + 1) :
    Same whole (findSumTail inner (n + 2) first found)
      (findSumTail inner (n + 1) first found) := by
  unfold findSumTail
  split
  · rename_i hrest
    obtain ⟨hsuffix, -⟩ := hfound.behind_head hrest
    rw [hrest, List.length_cons] at h
    split
    · refine Same.bind_found (ih.product hsuffix (by omega))
        ((searches whole n).product hsuffix) (.refl _) fun next hnext => ?_
      have := hnext.shorter
      exact ih.sumTail hfirst ⟨hfirst, hnext.rest, hnext.shorter⟩ (by dsimp only; omega)
    · exact .refl _
  · exact .refl _

private theorem product_succ (ih : Enough whole n) (hts : ts <:+ whole)
    (h : 6 * ts.length + 3 ≤ n + 1) :
    Same whole (findProduct inner (n + 2) ts) (findProduct inner (n + 1) ts) := by
  rw [findProduct, findProduct]
  refine Same.bind_found (ih.signed hts (by omega)) ((searches whole n).signed hts) (.refl _)
    fun found hfound => ?_
  have := hfound.shorter
  exact ih.productTail (reported_headPosition hts) hfound (by omega)

private theorem productTail_succ (ih : Enough whole n) (hfirst : Reported whole first)
    (hfound : found.Within whole k) (h : 6 * found.rest.length + 1 ≤ n + 1) :
    Same whole (findProductTail inner (n + 2) first found)
      (findProductTail inner (n + 1) first found) := by
  unfold findProductTail
  split
  · rename_i hrest
    obtain ⟨hsuffix, -⟩ := hfound.behind_head hrest
    rw [hrest, List.length_cons] at h
    split
    · refine Same.bind_found (ih.signed hsuffix (by omega))
        ((searches whole n).signed hsuffix) (.refl _) fun next hnext => ?_
      have := hnext.shorter
      exact ih.productTail hfirst ⟨hfirst, hnext.rest, hnext.shorter⟩ (by dsimp only; omega)
    · exact .refl _
  · exact .refl _

private theorem signed_succ (ih : Enough whole n) (hts : ts <:+ whole)
    (h : 6 * ts.length + 2 ≤ n + 1) :
    Same whole (findSigned inner (n + 2) ts) (findSigned inner (n + 1) ts) := by
  unfold findSigned
  refine Same.bind (.refl _) (keeps_look hts) fun _ _ => ?_
  split
  · split
    · rw [List.length_cons] at h
      exact Same.bind_found (ih.signed (suffix_of_cons hts) (by omega))
        ((searches whole n).signed (suffix_of_cons hts)) (.refl _) fun _ _ => .refl _
    · exact .refl _
  · refine Same.bind_found (ih.atom hts (by omega)) ((searches whole n).atom hts) (.refl _)
      fun found hfound => ?_
    have := hfound.shorter
    exact ih.calls (reported_headPosition hts) hfound (by omega)

private theorem calls_succ (ih : Enough whole n) (hfirst : Reported whole first)
    (hfound : found.Within whole k) (h : 6 * found.rest.length + 2 ≤ n + 1) :
    Same whole (findCalls inner (n + 2) first found) (findCalls inner (n + 1) first found) := by
  unfold findCalls
  refine Same.bind (.refl _) (keeps_look hfound.rest) fun _ _ => ?_
  split
  · rename_i hrest
    obtain ⟨hsuffix, hshorter⟩ := hfound.behind_head hrest
    rw [hrest, List.length_cons, List.length_cons] at h
    exact ih.calls hfirst ⟨hfirst, suffix_of_cons hsuffix, Nat.lt_of_succ_lt hshorter⟩
      (by dsimp only; omega)
  · rename_i hrest
    have hargument := suffix_of_cons (hfound.behind_head hrest).1
    rw [hrest, List.length_cons, List.length_cons] at h
    refine Same.bind_found (ih.enter hargument (by omega)) ((searches whole n).enter hargument)
      (.refl _) fun argument hwithin => ?_
    split
    · rename_i heq
      obtain rfl := Option.some.inj heq
      obtain ⟨hbehind, hless⟩ := hwithin.behind_head rfl
      exact ih.calls hfirst ⟨hfirst, hbehind, hless⟩ (by dsimp only; omega)
    · exact .refl _
    · exact .refl _
  · rename_i hrest
    have hargument := (hfound.behind_head hrest).1
    rw [hrest, List.length_cons] at h
    refine Same.bind_found (ih.enter hargument (by omega)) ((searches whole n).enter hargument)
      (.refl _) fun argument hwithin => ?_
    split
    · rename_i heq
      obtain rfl := Option.some.inj heq
      obtain ⟨hbehind, hless⟩ := hwithin.behind_head rfl
      exact ih.calls hfirst ⟨hfirst, hbehind, hless⟩ (by dsimp only; omega)
    · exact .refl _
  · exact .refl _

private theorem atom_succ (ih : Enough whole n) (hts : ts <:+ whole)
    (h : 6 * ts.length + 1 ≤ n + 1) :
    Same whole (findAtom inner (n + 2) ts) (findAtom inner (n + 1) ts) := by
  unfold findAtom
  split
  · exact .refl _
  · exact .refl _
  · exact .refl _
  · have hgroup := suffix_of_cons (suffix_of_cons hts)
    rw [List.length_cons, List.length_cons] at h
    exact (ih.enter hgroup (by omega)).bind ((searches whole n).enter hgroup) fun _ _ => .refl _
  · have hgroup := suffix_of_cons hts
    rw [List.length_cons] at h
    exact (ih.enter hgroup (by omega)).bind ((searches whole n).enter hgroup) fun _ _ => .refl _
  · exact .refl _

end Enough

theorem enough (whole : List Token) (n : Nat) : Enough whole n := by
  induction n with
  | zero => constructor <;> intros <;> omega
  | succ n ih =>
    exact ⟨ih.enter_succ, ih.behind_succ, ih.statement_succ, ih.starred_succ, ih.sum_succ,
      ih.sumTail_succ, ih.product_succ, ih.productTail_succ, ih.signed_succ, ih.calls_succ,
      ih.atom_succ⟩

/-- The depth that `offset` allows is no part of what it finds: a greater one gives the same. -/
theorem readings_of_le {n : Nat} {rest : List Token} (hrest : rest <:+ ts)
    (hn : 6 * ts.length + 5 ≤ n) :
    (readings n ts rest).run ts = (readings (6 * ts.length + 5) ts rest).run ts := by
  have hall := List.suffix_refl ts
  have step (m : Nat) (hm : 6 * ts.length + 5 ≤ m) :
      Same ts (readings (m + 1) ts rest) (readings m ts rest) := by
    refine Same.bind ((enough ts m).enter hall hm) ((searches ts m).enter hall) fun _ _ => ?_
    refine Same.bind (p := fun _ => True) (.refl _) (fun _ _ => ⟨trivial, hrest⟩) fun _ _ => ?_
    exact Same.bind ((enough ts m).enter hall hm) ((searches ts m).enter hall) fun _ _ => .refl _
  induction hn with
  | refl => rfl
  | step hm ih => exact (step _ hm ts hall).trans ih

end Misplaced

end PanelLayout
