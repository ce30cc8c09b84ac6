import PanelLayout.Expression.Misplaced
import PanelLayout.Proofs.Computation

/-!
# Where searches for misplaced operands point

A search over the last words of a row looks at no other words, and fails at one of them. Where it
ran out of words it fails at the start of the line.
-/

namespace PanelLayout

def StandsAt (ts : List Token) (kind : Lexeme → Prop) (position : Nat) : Prop :=
  ∃ t ∈ ts, kind t.lexeme ∧ t.position = position

abbrev WordAt (ts : List Token) : Nat → Prop := StandsAt ts fun _ => True

theorem StandsAt.head {whole ts : List Token} {t : Token} {kind : Lexeme → Prop}
    (h : t :: ts <:+ whole) (ht : kind t.lexeme) : StandsAt whole kind t.position :=
  ⟨t, h.subset List.mem_cons_self, ht, rfl⟩

theorem suffix_of_cons {whole ts : List Token} {t : Token} (h : t :: ts <:+ whole) : ts <:+ whole :=
  (List.suffix_cons t ts).trans h

namespace Misplaced

variable {whole ts : List Token} {α β : Type} {p : α → Prop} {q : β → Prop}

/-- Whether a position can be reported: the start of a word, or of the line. -/
def Reported (whole : List Token) (position : Nat) : Prop := position = 0 ∨ WordAt whole position

theorem reported_head {t : Token} (h : t :: ts <:+ whole) : Reported whole t.position :=
  .inr (.head h trivial)

theorem reported_headPosition (h : ts <:+ whole) : Reported whole (headPosition ts) := by
  cases ts with
  | nil => exact .inl rfl
  | cons t ts => exact reported_head h

/-- Whether a search that starts within the words of the whole stays within them, and finds what `p`
tells. -/
def Keeps (whole : List Token) (p : α → Prop) (x : Search α) : Prop :=
  ∀ seen, seen <:+ whole →
    Settles (Reported whole) (fun found => p found.1 ∧ found.2 <:+ whole) (x.run seen)

theorem Keeps.pure {a : α} (h : p a) : Keeps whole p (pure a) := fun _ hseen => ⟨h, hseen⟩

theorem Keeps.throw {position : Nat} (h : Reported whole position) :
    Keeps whole p (throw position) :=
  fun _ _ => h

theorem Keeps.bind {x : Search α} {f : α → Search β} (hx : Keeps whole p x)
    (hf : ∀ a, p a → Keeps whole q (f a)) : Keeps whole q (x >>= f) := by
  intro seen hseen
  exact (hx seen hseen).bind fun found hfound => hf found.1 hfound.1 found.2 hfound.2

theorem Keeps.imp {p' : α → Prop} {x : Search α} (h : Keeps whole p x) (hp : ∀ a, p a → p' a) :
    Keeps whole p' x := by
  intro seen hseen
  have hx := h seen hseen
  cases hrun : x.run seen with
  | error position => rwa [hrun] at hx
  | ok found =>
    rw [hrun] at hx
    exact ⟨hp _ hx.1, hx.2⟩

theorem keeps_look (h : ts <:+ whole) : Keeps whole (fun _ => True) (look ts) := by
  intro seen hseen
  refine ⟨trivial, ?_⟩
  dsimp only [look]
  split
  · exact h
  · exact hseen

theorem keeps_failAtFurthest : Keeps whole p failAtFurthest :=
  fun _ hseen => reported_headPosition hseen

/-- Whether what is found is about words of the whole, fewer than `k` of which are left. -/
structure Found.Within (whole : List Token) (k : Nat) (found : Found) : Prop where
  start : Reported whole found.start
  rest : found.rest <:+ whole
  shorter : found.rest.length < k

abbrev Finds (whole : List Token) (k : Nat) : Search (Option Found) → Prop :=
  Keeps whole fun found? => ∀ found ∈ found?, found.Within whole k

variable {k l : Nat}

theorem Found.Within.mono {found : Found} (h : found.Within whole k) (hkl : k ≤ l) :
    found.Within whole l :=
  ⟨h.start, h.rest, Nat.lt_of_lt_of_le h.shorter hkl⟩

/-- What stands behind the first of the words that are left. -/
theorem Found.Within.behind_head {found : Found} {t : Token} {rest : List Token}
    (h : found.Within whole k) (hrest : found.rest = t :: rest) :
    rest <:+ whole ∧ rest.length < k := by
  have hsuffix := h.rest
  have hshorter := h.shorter
  rw [hrest] at hsuffix hshorter
  exact ⟨suffix_of_cons hsuffix, Nat.lt_of_succ_lt hshorter⟩

theorem finds_none : Finds whole k (pure none) := .pure fun _ h => nomatch h

theorem finds_some {found : Found} (h : found.Within whole k) :
    Finds whole k (pure (some found)) := by
  refine .pure fun found' hfound' => ?_
  obtain rfl := Option.some.inj hfound'
  exact h

theorem Keeps.bind_found {x : Search (Option Found)} {f : Option Found → Search β}
    (hx : Finds whole k x) (hnone : Keeps whole q (f none))
    (hsome : ∀ found, found.Within whole k → Keeps whole q (f (some found))) :
    Keeps whole q (x >>= f) := by
  refine Keeps.bind hx fun found hfound => ?_
  cases found with
  | none => exact hnone
  | some found => exact hsome found (hfound found rfl)

structure Searches (whole : List Token) (n : Nat) : Prop where
  enter {checked inner : Bool} {ts : List Token} : ts <:+ whole →
    Finds whole ts.length (enter checked inner n ts)
  behind {ts : List Token} {found? : Option Found} {k : Nat} :
    (∀ found ∈ found?, found.Within whole k) → Keeps whole (fun _ => True) (checkBehind n ts found?)
  statement {ts : List Token} : ts <:+ whole → Keeps whole (fun _ => True) (checkStatement n ts)
  starred {inner : Bool} {ts : List Token} : ts <:+ whole →
    Finds whole ts.length (findStarred inner n ts)
  sum {inner : Bool} {ts : List Token} : ts <:+ whole → Finds whole ts.length (findSum inner n ts)
  sumTail {inner : Bool} {first k : Nat} {found : Found} : Reported whole first →
    found.Within whole k → Finds whole k (findSumTail inner n first found)
  product {inner : Bool} {ts : List Token} : ts <:+ whole →
    Finds whole ts.length (findProduct inner n ts)
  productTail {inner : Bool} {first k : Nat} {found : Found} : Reported whole first →
    found.Within whole k → Finds whole k (findProductTail inner n first found)
  signed {inner : Bool} {ts : List Token} : ts <:+ whole →
    Finds whole ts.length (findSigned inner n ts)
  calls {inner : Bool} {first k : Nat} {found : Found} : Reported whole first →
    found.Within whole k → Finds whole k (findCalls inner n first found)
  atom {inner : Bool} {ts : List Token} : ts <:+ whole →
    Finds whole ts.length (findAtom inner n ts)

namespace Searches

variable {checked inner : Bool} {n first : Nat} {found : Found}

private theorem enter_succ (ih : Searches whole n) (hts : ts <:+ whole) :
    Finds whole ts.length (Misplaced.enter checked inner (n + 1) ts) := by
  rw [Misplaced.enter]
  refine Keeps.bind (ih.sum hts) fun found? hfound => ?_
  have hreturn : Finds whole ts.length (pure found?) := .pure hfound
  cases checked with
  | false => exact hreturn
  | true => exact (ih.behind hfound).bind fun _ _ => (ih.statement hts).bind fun _ _ => hreturn

private theorem behind_succ {found? : Option Found} (ih : Searches whole n)
    (hfound : ∀ found ∈ found?, found.Within whole k) :
    Keeps whole (fun _ => True) (checkBehind (n + 1) ts found?) := by
  cases found? with
  | none => exact .pure trivial
  | some found =>
    have hwithin := hfound found rfl
    rw [checkBehind]
    split
    · exact .pure trivial
    · refine Keeps.bind_found (ih.sum hwithin.rest) (.pure trivial) fun second _ => ?_
      dsimp only
      split
      · exact .pure trivial
      · exact .throw hwithin.start

private theorem statement_succ (ih : Searches whole n) (hts : ts <:+ whole) :
    Keeps whole (fun _ => True) (checkStatement (n + 1) ts) := by
  unfold checkStatement
  split
  · exact .pure trivial
  · have hrest := suffix_of_cons hts
    refine Keeps.bind (ih.starred hrest) fun operand _ => ?_
    split
    · exact .throw (reported_head hts)
    · exact .pure trivial
  · exact .pure trivial

private theorem starred_succ (ih : Searches whole n) (hts : ts <:+ whole) :
    Finds whole ts.length (findStarred inner (n + 1) ts) := by
  unfold findStarred
  split
  · exact (ih.sum (suffix_of_cons hts)).imp fun found? hfound found hmem =>
      (hfound found hmem).mono (Nat.le_succ _)
  · exact ih.enter hts

private theorem sum_succ (ih : Searches whole n) (hts : ts <:+ whole) :
    Finds whole ts.length (findSum inner (n + 1) ts) := by
  rw [findSum]
  exact Keeps.bind_found (ih.product hts) finds_none fun found hfound =>
    ih.sumTail (reported_headPosition hts) hfound

private theorem sumTail_succ (ih : Searches whole n) (hfirst : Reported whole first)
    (hfound : found.Within whole k) :
    Finds whole k (findSumTail inner (n + 1) first found) := by
  unfold findSumTail
  split
  · rename_i hrest
    obtain ⟨hsuffix, hshorter⟩ := hfound.behind_head hrest
    split
    · exact Keeps.bind_found (ih.product hsuffix) (finds_some hfound) fun next hnext =>
        ih.sumTail hfirst ⟨hfirst, hnext.rest, Nat.lt_trans hnext.shorter hshorter⟩
    · exact finds_some hfound
  · exact finds_some hfound

private theorem product_succ (ih : Searches whole n) (hts : ts <:+ whole) :
    Finds whole ts.length (findProduct inner (n + 1) ts) := by
  rw [findProduct]
  exact Keeps.bind_found (ih.signed hts) finds_none fun found hfound =>
    ih.productTail (reported_headPosition hts) hfound

private theorem productTail_succ (ih : Searches whole n) (hfirst : Reported whole first)
    (hfound : found.Within whole k) :
    Finds whole k (findProductTail inner (n + 1) first found) := by
  unfold findProductTail
  split
  · rename_i hrest
    obtain ⟨hsuffix, hshorter⟩ := hfound.behind_head hrest
    split
    · exact Keeps.bind_found (ih.signed hsuffix) (finds_some hfound) fun next hnext =>
        ih.productTail hfirst ⟨hfirst, hnext.rest, Nat.lt_trans hnext.shorter hshorter⟩
    · exact finds_some hfound
  · exact finds_some hfound

private theorem signed_succ (ih : Searches whole n) (hts : ts <:+ whole) :
    Finds whole ts.length (findSigned inner (n + 1) ts) := by
  unfold findSigned
  refine Keeps.bind (keeps_look hts) fun _ _ => ?_
  split
  · split
    · exact Keeps.bind_found (ih.signed (suffix_of_cons hts)) finds_none fun found hfound =>
        finds_some ⟨reported_head hts, hfound.rest, Nat.lt_succ_of_lt hfound.shorter⟩
    · exact finds_none
  · exact Keeps.bind_found (ih.atom hts) finds_none fun found hfound =>
      ih.calls (reported_headPosition hts) hfound

private theorem calls_succ (ih : Searches whole n) (hfirst : Reported whole first)
    (hfound : found.Within whole k) : Finds whole k (findCalls inner (n + 1) first found) := by
  unfold findCalls
  refine Keeps.bind (keeps_look hfound.rest) fun _ _ => ?_
  split
  · rename_i hrest
    obtain ⟨hsuffix, hshorter⟩ := hfound.behind_head hrest
    exact ih.calls hfirst ⟨hfirst, suffix_of_cons hsuffix, Nat.lt_of_succ_lt hshorter⟩
  · rename_i hrest
    obtain ⟨hsuffix, hshorter⟩ := hfound.behind_head hrest
    -- an argument with an asterisk in front of it
    refine Keeps.bind_found (ih.enter (suffix_of_cons hsuffix)) keeps_failAtFurthest
      fun argument hargument => ?_
    split
    · rename_i heq
      obtain rfl := Option.some.inj heq
      obtain ⟨hbehind, hless⟩ := hargument.behind_head rfl
      exact ih.calls hfirst
        ⟨hfirst, hbehind, Nat.lt_trans hless (Nat.lt_of_succ_lt hshorter)⟩
    · exact finds_some hfound
    · exact keeps_failAtFurthest
  · rename_i hrest
    obtain ⟨hsuffix, hshorter⟩ := hfound.behind_head hrest
    refine Keeps.bind_found (ih.enter hsuffix) (finds_some hfound) fun argument hargument => ?_
    split
    · rename_i heq
      obtain rfl := Option.some.inj heq
      obtain ⟨hbehind, hless⟩ := hargument.behind_head rfl
      exact ih.calls hfirst ⟨hfirst, hbehind, Nat.lt_trans hless hshorter⟩
    · exact finds_some hfound
  · exact finds_some hfound

private theorem atom_succ (ih : Searches whole n) (hts : ts <:+ whole) :
    Finds whole ts.length (findAtom inner (n + 1) ts) := by
  unfold findAtom
  split
  · exact finds_some ⟨reported_head hts, suffix_of_cons hts, Nat.lt_succ_self _⟩
  · exact finds_some ⟨reported_head hts, suffix_of_cons hts, Nat.lt_succ_self _⟩
  · exact finds_some ⟨reported_head hts, suffix_of_cons (suffix_of_cons hts),
      Nat.lt_succ_of_lt (Nat.lt_succ_self _)⟩
  · have hasterisk := suffix_of_cons hts
    refine Keeps.bind (ih.enter (suffix_of_cons hasterisk)) fun group _ => ?_
    split
    · exact .throw (reported_head hasterisk)
    · exact keeps_failAtFurthest
    · exact finds_none
  · refine Keeps.bind_found (ih.enter (suffix_of_cons hts)) finds_none fun group hgroup => ?_
    split
    · rename_i heq
      obtain rfl := Option.some.inj heq
      obtain ⟨hbehind, hless⟩ := hgroup.behind_head rfl
      exact finds_some ⟨hgroup.start, hbehind, Nat.lt_succ_of_lt hless⟩
    · exact finds_none
  · exact finds_none

end Searches

/-- Within each depth of recursion the searches stay within the words. -/
theorem searches (whole : List Token) (n : Nat) : Searches whole n := by
  induction n with
  | zero =>
    constructor
    case enter => intros; rw [enter]; exact finds_none
    case behind => intros; rw [checkBehind]; exact .pure trivial
    case statement => intros; rw [checkStatement]; exact .pure trivial
    case starred => intros; rw [findStarred]; exact finds_none
    case sum => intros; rw [findSum]; exact finds_none
    case sumTail => intro _ _ _ _ _ hfound; rw [findSumTail]; exact finds_some hfound
    case product => intros; rw [findProduct]; exact finds_none
    case productTail => intro _ _ _ _ _ hfound; rw [findProductTail]; exact finds_some hfound
    case signed => intros; rw [findSigned]; exact finds_none
    case calls => intro _ _ _ _ _ hfound; rw [findCalls]; exact finds_some hfound
    case atom => intros; rw [findAtom]; exact finds_none
  | succ n ih =>
    exact ⟨ih.enter_succ, ih.behind_succ, ih.statement_succ, ih.starred_succ, ih.sum_succ,
      ih.sumTail_succ, ih.product_succ, ih.productTail_succ, ih.signed_succ,
      ih.calls_succ, ih.atom_succ⟩

theorem keeps_readings (n : Nat) {rest : List Token} (hrest : rest <:+ ts) :
    Keeps ts (fun _ => True) (readings n ts rest) := by
  refine Keeps.bind ((searches ts n).enter (List.suffix_refl ts)) fun _ _ => ?_
  refine Keeps.bind (p := fun _ => True) (fun _ _ => ⟨trivial, hrest⟩) fun _ _ => ?_
  exact Keeps.bind ((searches ts n).enter (List.suffix_refl ts)) fun _ _ => .pure trivial

/-- The column that is reported for some words is that of one of them, or the start of the line. -/
theorem reported_columnOf_offset {rest : List Token} (hrest : rest <:+ ts) :
    Reported ts (columnOf (offset ts rest)) := by
  have hrun := keeps_readings (6 * ts.length + 5) hrest ts (List.suffix_refl ts)
  unfold offset
  split
  · rename_i herror
    rw [herror] at hrun
    exact hrun
  · exact reported_head hrest
  · exact .inl rfl

end Misplaced

end PanelLayout
