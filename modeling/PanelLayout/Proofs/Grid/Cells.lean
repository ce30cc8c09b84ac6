import PanelLayout.Proofs.Grid.Resizing

/-!
# Cells and their clients

In a grid no cell is taken twice and no client takes two cells, if a client is only put into a cell
after it was taken out of the one that it had.
-/

namespace PanelLayout

namespace Location

variable {a b c : Location}

def isNegative (l : Location) : Bool := l.column.lt (.int 0) || l.row.lt (.int 0)

theorem IsWhole.isNegative {column row : Int} (h : a.IsWhole column row) :
    a.isNegative = decide (column < 0 ∨ row < 0) := by
  rw [Location.isNegative, h.1.lt (Number.isWhole_int 0), h.2.lt (Number.isWhole_int 0),
    Bool.decide_or]

theorem equals_comm (a b : Location) : a.equals b = b.equals a := by
  rw [equals, equals, Number.equals_comm a.column, Number.equals_comm a.row]

theorem equals_trans (hab : a.equals b = true) (hbc : b.equals c = true) : a.equals c = true := by
  simp only [equals, Bool.and_eq_true] at *
  exact ⟨Number.equals_trans hab.1 hbc.1, Number.equals_trans hab.2 hbc.2⟩

theorem isNegative_of_equals (h : a.equals b = true) : a.isNegative = b.isNegative := by
  simp only [equals, Bool.and_eq_true] at h
  rw [isNegative, isNegative, Number.lt_of_equals h.1, Number.lt_of_equals h.2]

end Location

namespace Grid

variable {α : Type} {g : Grid α} {client : α} {l : Location} {e : Location × α}

def clients (g : Grid α) : List α := g.entries.map Prod.snd

theorem add_eq (g : Grid α) (client : α) (l : Location) :
    g.add client l = if l.isNegative then .error (.negativeCell l.column l.row)
      else .ok (g.put l client) := rfl

theorem at?_eq_none_iff : g.at? l = none ↔ ∀ e ∈ g.entries, e.1.equals l = false := by
  simp [at?, List.find?_eq_none]

theorem exists_of_at?_eq_some (h : g.at? l = some client) :
    ∃ e ∈ g.entries, e.1.equals l = true ∧ e.2 = client := by
  obtain ⟨e, he, hclient⟩ := Option.map_eq_some_iff.mp h
  exact ⟨e, List.mem_of_find?_eq_some he, by simpa using List.find?_some he, hclient⟩

theorem entries_put (g : Grid α) (l : Location) (client : α) : (g.put l client).entries =
    if (g.at? l).isSome then g.entries.map fun e => if e.1.equals l then (e.1, client) else e
    else g.entries ++ [(l, client)] := rfl

/-- What a grid holds after a cell is taken: what was in other cells, and the client in that cell,
which keeps the location under which it was first taken. -/
theorem mem_entries_put : e ∈ (g.put l client).entries ↔ e ∈ g.entries ∧ e.1.equals l = false ∨
    e.2 = client ∧
    (g.at? l = none ∧ e.1 = l ∨ ∃ d ∈ g.entries, d.1 = e.1 ∧ d.1.equals l = true) := by
  rw [entries_put]
  cases hat : g.at? l with
  | none =>
    have hfree := at?_eq_none_iff.mp hat
    simp only [Option.isSome_none, Bool.false_eq_true, if_false, List.mem_append,
      List.mem_singleton, Prod.ext_iff, true_and]
    constructor
    · intro h
      rcases h with he | ⟨hl, hclient⟩
      · exact .inl ⟨he, hfree e he⟩
      · exact .inr ⟨hclient, .inl hl⟩
    · intro h
      rcases h with ⟨he, -⟩ | ⟨hclient, hl | ⟨d, hd, -, hequal⟩⟩
      · exact .inl he
      · exact .inr ⟨hl, hclient⟩
      · simp [hfree d hd] at hequal
  | some old =>
    simp only [Option.isSome_some, if_true, List.mem_map, reduceCtorEq, false_and, false_or]
    constructor
    · intro h
      obtain ⟨d, hd, rfl⟩ := h
      by_cases hequal : d.1.equals l = true
      · rw [if_pos hequal]
        exact .inr ⟨rfl, d, hd, rfl, hequal⟩
      · rw [if_neg hequal]
        exact .inl ⟨hd, by simpa using hequal⟩
    · intro h
      rcases h with ⟨he, hother⟩ | ⟨hclient, d, hd, hlocation, hequal⟩
      · exact ⟨e, he, by simp [hother]⟩
      · exact ⟨d, hd, by rw [if_pos hequal, hlocation, ← hclient]⟩

/-- A cell that is taken is among the cells from then on, though maybe under another location that
is equal. -/
theorem exists_mem_entries_put (g : Grid α) (hl : l.equals l = true) (client : α) :
    ∃ e ∈ (g.put l client).entries, e.2 = client ∧ e.1.equals l = true := by
  cases hat : g.at? l with
  | none => exact ⟨(l, client), mem_entries_put.mpr (.inr ⟨rfl, .inl ⟨hat, rfl⟩⟩), rfl, hl⟩
  | some old =>
    obtain ⟨d, hd, hequal, -⟩ := exists_of_at?_eq_some hat
    exact ⟨(d.1, client), mem_entries_put.mpr (.inr ⟨rfl, .inr ⟨d, hd, rfl, hequal⟩⟩), rfl, hequal⟩

/-- Whether each cell is taken once, by a client that takes no other one, and none lies outside of
the grid. -/
structure IsOrderly (g : Grid α) : Prop where
  apart : g.entries.Pairwise fun a b => a.1.equals b.1 = false
  distinct : g.clients.Nodup
  inside : ∀ e ∈ g.entries, e.1.isNegative = false

namespace IsOrderly

variable {d : Location × α}

theorem eq_of_client (h : g.IsOrderly) (hd : d ∈ g.entries) (he : e ∈ g.entries) (heq : d.2 = e.2) :
    d = e :=
  List.inj_on_of_nodup_map h.distinct hd he heq

theorem eq_of_equals (h : g.IsOrderly) (hd : d ∈ g.entries) (he : e ∈ g.entries)
    (hdl : d.1.equals l = true) (hel : e.1.equals l = true) : d = e := by
  by_contra hne
  have : Std.Symm fun a b : Location × α => a.1.equals b.1 = false :=
    ⟨fun a b hab => by rwa [Location.equals_comm]⟩
  have hapart := h.apart.forall hd he hne
  have hequal : d.1.equals e.1 = true := Location.equals_trans hdl (by rwa [Location.equals_comm])
  simp [hapart] at hequal

theorem at?_eq_some_iff (h : g.IsOrderly) :
    g.at? l = some client ↔ ∃ e ∈ g.entries, e.1.equals l = true ∧ e.2 = client := by
  constructor
  · exact exists_of_at?_eq_some
  · intro hcell
    obtain ⟨e, he, hequal, rfl⟩ := hcell
    cases hat : g.at? l with
    | none => simp [at?_eq_none_iff.mp hat e he] at hequal
    | some found =>
      obtain ⟨d, hd, hfound, rfl⟩ := exists_of_at?_eq_some hat
      rw [h.eq_of_equals hd he hfound hequal]

theorem empty (h : g.entries = []) : g.IsOrderly := by
  constructor <;> simp [clients, h]

theorem sublist {g' : Grid α} (h : g.IsOrderly) (hsub : g'.entries.Sublist g.entries) :
    g'.IsOrderly where
  apart := h.apart.sublist hsub
  distinct := h.distinct.sublist (hsub.map _)
  inside := fun e he => h.inside e (hsub.subset he)

theorem at?_of_isNegative (h : g.IsOrderly) (hl : l.isNegative = true) : g.at? l = none := by
  rw [at?_eq_none_iff]
  intro e he
  by_contra hequal
  have hnegative := Location.isNegative_of_equals (Bool.not_eq_false _ ▸ hequal)
  rw [h.inside e he, hl] at hnegative
  cases hnegative

theorem put (h : g.IsOrderly) (hclient : client ∉ g.clients) (hl : l.isNegative = false) :
    (g.put l client).IsOrderly := by
  have hother : ∀ e ∈ g.entries, e.2 ≠ client := by
    intro e he heq
    exact hclient (heq ▸ List.mem_map_of_mem he)
  have hinside : ∀ e ∈ (g.put l client).entries, e.1.isNegative = false := by
    intro e he
    rcases mem_entries_put.mp he with ⟨hold, -⟩ | ⟨-, ⟨-, heq⟩ | ⟨d, hd, heq, -⟩⟩
    · exact h.inside e hold
    · rwa [heq]
    · exact heq ▸ h.inside d hd
  cases hat : g.at? l with
  | none =>
    have hentries : (g.put l client).entries = g.entries ++ [(l, client)] := by
      simp [entries_put, hat]
    refine ⟨?_, ?_, hinside⟩
    · rw [hentries, List.pairwise_append]
      refine ⟨h.apart, List.pairwise_singleton _ _, ?_⟩
      intro a ha b hb
      rw [List.mem_singleton.mp hb]
      exact at?_eq_none_iff.mp hat a ha
    · rw [clients, hentries, List.map_append]
      refine List.nodup_append.mpr ⟨h.distinct, by simp, ?_⟩
      intro a ha b hb hab
      obtain rfl : b = client := by simpa using hb
      exact hclient (hab ▸ ha)
  | some old =>
    have hentries : (g.put l client).entries = g.entries.map fun e => if e.1.equals l
        then (e.1, client) else e := by
      simp [entries_put, hat]
    have hpairs : g.entries.Pairwise fun a b => a.1.equals b.1 = false ∧ a.2 ≠ b.2 :=
      h.apart.and (List.pairwise_map.mp h.distinct)
    refine ⟨?_, ?_, hinside⟩
    · rw [hentries, List.pairwise_map]
      refine h.apart.imp fun {a b} hab => ?_
      split <;> split <;> exact hab
    · rw [clients, hentries, List.map_map, List.Nodup, List.pairwise_map]
      refine hpairs.imp_of_mem fun {a b} ha hb hab => ?_
      by_cases hal : a.1.equals l = true
      · by_cases hbl : b.1.equals l = true
        · -- two entries in one cell would be the same entry
          obtain rfl := h.eq_of_equals ha hb hal hbl
          exact absurd rfl hab.2
        · simpa [hal, hbl] using (hother b hb).symm
      · by_cases hbl : b.1.equals l = true
        · simpa [hal, hbl] using hother a ha
        · simpa [hal, hbl] using hab.2

end IsOrderly

theorem entries_removeIf (g : Grid α) (p : Location × α → Bool) (l : Location) (resize : Bool) :
    (g.removeIf p l resize).2.entries = g.entries.filter (!p ·) := by
  unfold removeIf
  dsimp only
  split
  · rfl
  · split
    · rfl
    · unfold shrinkAfter
      dsimp only
      split
      · split <;> rfl
      · rfl

theorem removeIf_fst (g : Grid α) (p : Location × α → Bool) (l : Location) (resize : Bool) :
    (g.removeIf p l resize).1 = g.entries.any p := by
  unfold removeIf
  dsimp only
  split
  · rfl
  · split <;> rfl

section Withdrawal

variable [BEq α]

def without (g : Grid α) (client : α) : Grid α :=
  { g with entries := g.entries.filter (·.2 != client) }

theorem clients_without (g : Grid α) (client : α) :
    (g.without client).clients = g.clients.filter (· != client) := by
  rw [clients, clients, without, List.filter_map]
  rfl

theorem IsOrderly.without (h : g.IsOrderly) (client : α) : (g.without client).IsOrderly :=
  h.sublist List.filter_sublist

variable [LawfulBEq α]

theorem mem_entries_without : e ∈ (g.without client).entries ↔ e ∈ g.entries ∧ e.2 ≠ client := by
  simp [without]

theorem notMem_clients_without : client ∉ (g.without client).clients := by
  simp [clients_without]

theorem without_of_notMem (h : client ∉ g.clients) : g.without client = g := by
  have hall : ∀ e ∈ g.entries, (e.2 != client) = true := by
    intro e he
    rw [bne_iff_ne]
    intro heq
    exact h (heq ▸ List.mem_map_of_mem he)
  rw [without, List.filter_eq_self.mpr hall]

theorem without_eq_self_iff : g.without client = g ↔ client ∉ g.clients := by
  constructor
  · intro hsame
    rw [← hsame]
    exact notMem_clients_without
  · exact without_of_notMem

theorem locationOf?_eq_none_iff : g.locationOf? client = none ↔ client ∉ g.clients := by
  rw [locationOf?, Option.map_eq_none_iff, List.find?_eq_none, clients, List.mem_map, not_exists]
  exact forall_congr' fun e => by simp

theorem mem_of_locationOf?_eq_some (h : g.locationOf? client = some l) :
    (l, client) ∈ g.entries := by
  obtain ⟨e, he, rfl⟩ := Option.map_eq_some_iff.mp h
  have hclient : e.2 = client := by simpa using List.find?_some he
  rw [← hclient]
  exact List.mem_of_find?_eq_some he

theorem isEntryOf_iff :
    isEntryOf client l e = true ↔ (e.1 = l ∨ e.1.equals l = true) ∧ e.2 = client := by
  simp [isEntryOf]

/-- A client has one entry only, so whatever names its cell names all that it has. -/
theorem IsOrderly.isEntryOf_eq (h : g.IsOrderly) (he : e ∈ g.entries)
    (hentry : isEntryOf client l e = true) :
    ∀ d ∈ g.entries, isEntryOf client l d = (d.2 == client) := by
  intro d hd
  rw [Bool.eq_iff_iff, beq_iff_eq]
  constructor
  · intro hclient
    exact (isEntryOf_iff.mp hclient).2
  · intro hclient
    rwa [h.eq_of_client hd he (hclient.trans (isEntryOf_iff.mp hentry).2.symm)]

theorem IsOrderly.entries_withdraw (h : g.IsOrderly) (he : e ∈ g.entries)
    (hentry : isEntryOf client l e = true) (resize : Bool) :
    (g.withdraw client l resize).2.entries = (g.without client).entries := by
  rw [withdraw, entries_removeIf, Grid.without]
  refine List.filter_congr fun d hd => ?_
  rw [h.isEntryOf_eq he hentry d hd]
  rfl

theorem IsOrderly.withdraw_unsized (h : g.IsOrderly) (he : e ∈ g.entries)
    (hentry : isEntryOf client l e = true) :
    (g.withdraw client l false).2 = g.without client := by
  have hentries := h.entries_withdraw he hentry false
  have hremoved : (g.withdraw client l false).2 =
      { g with entries := g.entries.filter (!isEntryOf client l ·) } := by
    simp [withdraw, removeIf]
  rw [hremoved] at hentries ⊢
  rw [Grid.without]
  exact congrArg (fun entries => { g with entries }) hentries

end Withdrawal

end Grid

end PanelLayout
