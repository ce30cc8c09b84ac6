import PanelLayout.Proofs.Grid.Extent
import PanelLayout.Proofs.Grid.Failure

/-!
# The extent of a grid

A grid keeps a number of columns and rows while cells are taken and given up. It always covers the
cells that are taken, and it is the smallest that does unless a cell was given up without resizing.
-/

namespace PanelLayout

namespace Grid

variable {α : Type} {g : Grid α}

inductive Change (α : Type) where
  | add (client : α) (location : Location)
  | remove (location : Location) (resize : Bool)
  | shrink

/-- A change at whole columns and rows. Cells that are whole numbers are given up under any equal
numbers. -/
def Change.IsWhole : Change α → Prop
  | .add _ l => ∃ column row, l.IsWhole column row
  | _ => True

def change (g : Grid α) : Change α → Grid α
  | .add client l => (g.add client l).toOption.getD g
  | .remove l resize => (g.remove l resize).2
  | .shrink => g.shrinkToFit

/-- A grid without clients and tracks, where weights, margins and frames may be set already. -/
def unfilled (horizontal vertical : GridAxis) : Grid α where
  horizontal := { horizontal with count := .int 0 }
  vertical := { vertical with count := .int 0 }

structure CoversCells (g : Grid α) : Prop where
  columns : Covers g.columns g.takenColumns
  rows : Covers g.rows g.takenRows

/-- Whether the tracks of a grid are as many as the cells that are taken need. -/
structure IsTight (g : Grid α) : Prop where
  columns : IsExtent g.columns g.takenColumns
  rows : IsExtent g.rows g.takenRows

private theorem map_entries_put {β : Type} (f : Location → β) (g : Grid α) (l : Location)
    (client : α) :
    (g.put l client).entries.map (fun e => f e.1) =
      if (g.at? l).isSome then g.entries.map (fun e => f e.1)
        else g.entries.map (fun e => f e.1) ++ [f l] := by
  simp only [put, withExtent]
  split
  · rw [List.map_map]
    refine List.map_congr_left fun e _ => ?_
    simp only [Function.comp_apply]
    split <;> rfl
  · simp

theorem takenColumns_put (g : Grid α) (l : Location) (client : α) :
    (g.put l client).takenColumns = if (g.at? l).isSome then g.takenColumns
      else g.takenColumns ++ [l.column] :=
  map_entries_put Location.column g l client

theorem takenRows_put (g : Grid α) (l : Location) (client : α) :
    (g.put l client).takenRows = if (g.at? l).isSome then g.takenRows else g.takenRows ++ [l.row] :=
  map_entries_put Location.row g l client

theorem exists_entry_of_at? {l : Location} (h : (g.at? l).isSome = true) :
    ∃ e ∈ g.entries, e.1.equals l = true := by
  rw [at?, Option.isSome_map, List.find?_isSome] at h
  exact h

theorem CoversCells.put (h : g.CoversCells) {l : Location} {c r : Int} (hl : l.IsWhole c r)
    (hc : 0 ≤ c) (hr : 0 ≤ r) (client : α) : (g.put l client).CoversCells := by
  constructor
  · have hnext := h.columns.max_succ hl.1 hc
    rw [takenColumns_put]
    split
    · exact hnext.subset (List.subset_append_left _ _)
    · exact hnext
  · have hnext := h.rows.max_succ hl.2 hr
    rw [takenRows_put]
    split
    · exact hnext.subset (List.subset_append_left _ _)
    · exact hnext

theorem CoversCells.isWhole (h : g.CoversCells) {e : Location × α} (he : e ∈ g.entries) :
    ∃ w k c r, g.columns = .int w ∧ g.rows = .int k ∧ e.1.IsWhole c r ∧ 0 ≤ c ∧ c < w ∧
    0 ≤ r ∧ r < k := by
  obtain ⟨w, hw, hcolumns⟩ := h.columns
  obtain ⟨k, hk, hrows⟩ := h.rows
  obtain ⟨c, hc, hzero, hlt⟩ := hcolumns _ (List.mem_map_of_mem he)
  obtain ⟨r, hr, hzero', hlt'⟩ := hrows _ (List.mem_map_of_mem he)
  exact ⟨w, k, c, r, hw, hk, ⟨hc, hr⟩, hzero, hlt, hzero', hlt'⟩

theorem IsTight.put (h : g.IsTight) (hcover : g.CoversCells) {l : Location} {c r : Int}
    (hl : l.IsWhole c r) (hc : 0 ≤ c) (hr : 0 ≤ r) (client : α) : (g.put l client).IsTight := by
  by_cases hat : (g.at? l).isSome = true
  · -- the client that was there is replaced, and the tracks need not grow
    obtain ⟨e, he, heq⟩ := exists_entry_of_at? hat
    obtain ⟨-, -, c', r', -, -, ⟨hc', hr'⟩, -⟩ := hcover.isWhole he
    obtain ⟨hcolumn, hrow⟩ := Bool.and_eq_true_iff.mp heq
    obtain rfl : c' = c := by simpa [hc'.equals hl.1] using hcolumn
    obtain rfl : r' = r := by simpa [hr'.equals hl.2] using hrow
    have hcolumns : (g.put l client).columns = g.columns :=
      hcover.columns.max_succ_of_mem (List.mem_map_of_mem he) hc' hl.1
    have hrows : (g.put l client).rows = g.rows :=
      hcover.rows.max_succ_of_mem (List.mem_map_of_mem he) hr' hl.2
    constructor
    · rw [hcolumns, takenColumns_put, if_pos hat]
      exact h.columns
    · rw [hrows, takenRows_put, if_pos hat]
      exact h.rows
  · constructor
    · rw [takenColumns_put, if_neg hat]
      exact h.columns.max_succ hl.1 hc
    · rw [takenRows_put, if_neg hat]
      exact h.rows.max_succ hl.2 hr

theorem add_eq_ok_iff {l : Location} {c r : Int} (hl : l.IsWhole c r) {client : α} {g' : Grid α} :
    g.add client l = .ok g' ↔ 0 ≤ c ∧ 0 ≤ r ∧ g' = g.put l client := by
  rw [add, hl.1.lt (Number.isWhole_int 0), hl.2.lt (Number.isWhole_int 0)]
  split
  · rename_i h
    simp only [Bool.or_eq_true, decide_eq_true_eq] at h
    simp only [reduceCtorEq, false_iff]
    omega
  · rename_i h
    simp only [Bool.or_eq_true, decide_eq_true_eq] at h
    simp only [Except.ok.injEq, eq_comm (a := g'), show 0 ≤ c by omega, show 0 ≤ r by
      omega, true_and]

theorem shrinkToFit_isTight (h : g.CoversCells) : g.shrinkToFit.IsTight :=
  ⟨h.columns.isExtent_extentOf, h.rows.isExtent_extentOf⟩

theorem shrinkToFit_coversCells (h : g.CoversCells) : g.shrinkToFit.CoversCells :=
  ⟨h.columns.of_isExtent h.columns.isExtent_extentOf, h.rows.of_isExtent h.rows.isExtent_extentOf⟩

theorem IsTight.shrinkToFit_eq (h : g.IsTight) (hcover : g.CoversCells) : g.shrinkToFit = g := by
  rw [shrinkToFit, ← h.columns.unique hcover.columns.isExtent_extentOf,
    ← h.rows.unique hcover.rows.isExtent_extentOf]
  rfl

theorem withExtent_zero (h : g.entries = []) : g.withExtent (.int 0) (.int 0) = g.shrinkToFit := by
  simp [shrinkToFit, takenColumns, takenRows, h, extentOf]

def emptied (g : Grid α) (l : Location) : Grid α :=
  { g with entries := g.entries.filter (!·.1.equals l) }

theorem remove_unsized (g : Grid α) (l : Location) :
    g.remove l false = (g.entries.any (·.1.equals l), g.emptied l) := by
  simp [remove, removeIf, emptied]

theorem remove_resized (g : Grid α) (l : Location) :
    g.remove l true =
      (g.entries.any (·.1.equals l),
        if g.entries.any (·.1.equals l) = true then
          if (g.emptied l).entries.isEmpty = true then (g.emptied l).withExtent (.int 0) (.int 0)
          else (g.emptied l).shrinkAfter l
        else g.emptied l) := by
  simp only [remove, removeIf, emptied]
  cases g.entries.any (·.1.equals l)
  · rfl
  · simp only [Bool.not_true, Bool.or_self, Bool.false_eq_true, if_false, if_true]
    exact (apply_ite (Prod.mk true) _ _ _).symm

theorem mem_emptied {l : Location} {e : Location × α} :
    e ∈ (g.emptied l).entries ↔ e ∈ g.entries ∧ e.1.equals l = false := by
  simp [emptied]

theorem CoversCells.emptied (h : g.CoversCells) (l : Location) : (g.emptied l).CoversCells := by
  have hsub : (g.emptied l).entries ⊆ g.entries := fun e he => (mem_emptied.mp he).1
  exact ⟨h.columns.subset (List.map_subset _ hsub), h.rows.subset (List.map_subset _ hsub)⟩

private theorem isExtent_of_reached {n : Number} {ts : List Number} (h : Covers n ts)
    (hne : ts ≠ []) (hr : n.pred.le (lastTrack (.int 0) ts) = true) : IsExtent n ts := by
  obtain ⟨k, hk, hextent⟩ := h.lastTrack_zero hne
  obtain ⟨w, rfl, hts⟩ := h
  rw [Number.pred_int, (Number.isWhole_int _).le hk, decide_eq_true_eq] at hr
  obtain rfl : w = k + 1 := by
    rcases hextent with ⟨rfl, -⟩ | ⟨j, hj, ⟨t, ht, htj⟩, -⟩
    · exact absurd rfl hne
    · obtain ⟨i, hi, -, hlt⟩ := hts t ht
      obtain rfl := hi.unique htj
      have := Number.int.inj hj
      omega
  exact hextent

/-- A grid that lost a cell shrinks to fit or stays as it is, and it only stays so if no boundary
cell was lost or the last column and the last row are still taken. -/
theorem shrinkAfter_cases (h : g.CoversCells) (hne : g.entries ≠ []) (l : Location) :
    g.shrinkAfter l = g.shrinkToFit ∨ g.shrinkAfter l = g ∧
      (l.column.equals g.columns.pred = false ∧ l.row.equals g.rows.pred = false ∨ g.IsTight) := by
  have hcolumns : g.takenColumns ≠ [] := by simpa [takenColumns] using hne
  have hrows : g.takenRows ≠ [] := by simpa [takenRows] using hne
  unfold shrinkAfter
  dsimp only
  split
  · split
    · rename_i hreached
      obtain ⟨hcolumn, hrow⟩ := Bool.and_eq_true_iff.mp hreached
      exact .inr ⟨rfl,
        .inr ⟨isExtent_of_reached h.columns hcolumns hcolumn,
          isExtent_of_reached h.rows hrows hrow⟩⟩
    · obtain ⟨column, hcolumn, hw⟩ := h.columns.lastTrack_zero hcolumns
      obtain ⟨row, hrow, hk⟩ := h.rows.lastTrack_zero hrows
      refine .inl ?_
      rw [shrinkToFit, hcolumn.succ, hrow.succ, hw.unique h.columns.isExtent_extentOf,
        hk.unique h.rows.isExtent_extentOf]
  · rename_i hinner
    simp only [Bool.or_eq_true, not_or, Bool.not_eq_true] at hinner
    exact .inr ⟨rfl, .inl hinner⟩

private theorem last_isExtent {n : Number} {ts us : List Number} {t : Number} (h : IsExtent n ts)
    (hcover : Covers n ts) (hsub : us ⊆ ts) (hleft : ∀ u ∈ ts, u.equals t = false → u ∈ us)
    (hne : ts ≠ []) (hinner : t.equals n.pred = false) : IsExtent n us := by
  rcases h with ⟨rfl, -⟩ | ⟨k, rfl, ⟨u, hu, huk⟩, hts⟩
  · exact absurd rfl hne
  · refine IsExtent.of_subset (.inr ⟨k, rfl, ⟨u, hu, huk⟩, hts⟩) hsub (hleft u hu ?_) huk
    rw [Number.pred_int, Int.add_sub_cancel] at hinner
    by_contra hut
    rw [huk.equals_of_equals (by simpa using hut)] at hinner
    simp at hinner

/-- From a tight extent, a resizing removal is a plain removal followed by a fit. -/
theorem IsTight.remove_resized_eq (h : g.IsTight) (hcover : g.CoversCells) (l : Location) :
    g.remove l true = ((g.remove l false).1, (g.remove l false).2.shrinkToFit) := by
  rw [remove_resized, remove_unsized]
  congr 1
  split
  · rename_i hany
    split
    · rename_i hempty
      exact withExtent_zero (List.isEmpty_iff.mp hempty)
    · rename_i hne
      rw [List.isEmpty_iff] at hne
      rcases shrinkAfter_cases (hcover.emptied l) hne l
        with hfit | ⟨hsame, ⟨hcolumn, hrow⟩ | htight⟩
      · exact hfit
      · have hleft : ∀ e ∈ g.entries, e.1.column.equals l.column = false ∨
          e.1.row.equals l.row = false →
            e ∈ (g.emptied l).entries := by
          intro e he hout
          refine mem_emptied.mpr ⟨he, ?_⟩
          rw [Location.equals, Bool.and_eq_false_iff]
          exact hout
        have hentries : g.entries ≠ [] := by
          rintro hnil
          simp [hnil] at hany
        have hsub : (g.emptied l).entries ⊆ g.entries := fun e he => (mem_emptied.mp he).1
        have htight : (g.emptied l).IsTight := by
          constructor
          · refine last_isExtent h.columns hcover.columns (List.map_subset _ hsub) ?_ (by
              simpa [takenColumns]) hcolumn
            rintro _ hu hout
            obtain ⟨e, he, rfl⟩ := List.mem_map.mp hu
            exact List.mem_map_of_mem (hleft e he (.inl hout))
          · refine last_isExtent h.rows hcover.rows (List.map_subset _ hsub) ?_ (by
              simpa [takenRows]) hrow
            rintro _ hu hout
            obtain ⟨e, he, rfl⟩ := List.mem_map.mp hu
            exact List.mem_map_of_mem (hleft e he (.inr hout))
        rw [hsame, htight.shrinkToFit_eq (hcover.emptied l)]
      · rw [hsame, htight.shrinkToFit_eq (hcover.emptied l)]
  · rename_i hnone
    have hsame : g.emptied l = g := by
      have hall : ∀ e ∈ g.entries, (!e.1.equals l) = true := by
        intro e he
        have := List.any_eq_false.mp (Bool.not_eq_true _ ▸ hnone) e he
        simpa using this
      simp only [emptied, List.filter_eq_self.mpr hall]
    rw [hsame, h.shrinkToFit_eq hcover]

theorem CoversCells.remove_resized_cases (h : g.CoversCells) (l : Location) :
    (g.remove l true).2 = (g.emptied l).shrinkToFit ∨ (g.remove l true).2 = g.emptied l := by
  rw [remove_resized]
  dsimp only
  split
  · split
    · rename_i hempty
      exact .inl (withExtent_zero (List.isEmpty_iff.mp hempty))
    · rename_i hne
      rw [List.isEmpty_iff] at hne
      rcases shrinkAfter_cases (h.emptied l) hne l with hfit | ⟨hsame, -⟩
      · exact .inl hfit
      · exact .inr hsame
  · exact .inr rfl

theorem CoversCells.remove (h : g.CoversCells) (l : Location) (resize : Bool) :
    (g.remove l resize).2.CoversCells := by
  cases resize with
  | false => exact remove_unsized g l ▸ h.emptied l
  | true =>
    rcases h.remove_resized_cases l with hfit | hsame
    · exact hfit ▸ shrinkToFit_coversCells (h.emptied l)
    · exact hsame ▸ h.emptied l

theorem IsTight.remove_resized (h : g.IsTight) (hcover : g.CoversCells) (l : Location) :
    (g.remove l true).2.IsTight := by
  rw [h.remove_resized_eq hcover]
  exact shrinkToFit_isTight (hcover.remove l false)

theorem CoversCells.change (h : g.CoversCells) {c : Change α} (hc : c.IsWhole) :
    (g.change c).CoversCells := by
  cases c with
  | add client l =>
    obtain ⟨column, row, hl⟩ := hc
    cases hadd : g.add client l with
    | error => simpa [Grid.change, hadd, Except.toOption] using h
    | ok g' =>
      obtain ⟨hcolumn, hrow, rfl⟩ := (add_eq_ok_iff hl).mp hadd
      simpa [Grid.change, hadd, Except.toOption] using h.put hl hcolumn hrow client
  | remove l resize => exact h.remove l resize
  | shrink => exact shrinkToFit_coversCells h

/-- Every change but a removal without resizing keeps the extent tight. -/
theorem IsTight.change (h : g.IsTight) (hcover : g.CoversCells) {c : Change α} (hc : c.IsWhole)
    (hresize : ∀ l, c ≠ .remove l false) : (g.change c).IsTight := by
  cases c with
  | add client l =>
    obtain ⟨column, row, hl⟩ := hc
    cases hadd : g.add client l with
    | error => simpa [Grid.change, hadd, Except.toOption] using h
    | ok g' =>
      obtain ⟨hcolumn, hrow, rfl⟩ := (add_eq_ok_iff hl).mp hadd
      simpa [Grid.change, hadd, Except.toOption] using h.put hcover hl hcolumn hrow client
  | remove l resize =>
    cases resize with
    | false => exact absurd rfl (hresize l)
    | true => exact h.remove_resized hcover l
  | shrink => exact shrinkToFit_isTight hcover

theorem unfilled_coversCells (horizontal vertical : GridAxis) : (unfilled (α :=
  α) horizontal vertical).CoversCells :=
  ⟨covers_nil, covers_nil⟩

theorem unfilled_isTight (horizontal vertical : GridAxis) : (unfilled (α :=
  α) horizontal vertical).IsTight :=
  ⟨isExtent_nil, isExtent_nil⟩

theorem CoversCells.changes (h : g.CoversCells) {cs : List (Change α)} (hcs : ∀ c ∈ cs, c.IsWhole) :
    (cs.foldl Grid.change g).CoversCells := by
  induction cs generalizing g with
  | nil => exact h
  | cons c cs ih =>
    exact ih (h.change (hcs c List.mem_cons_self)) fun d hd => hcs d (List.mem_cons_of_mem _ hd)

theorem IsTight.changes (h : g.IsTight) (hcover : g.CoversCells) {cs : List (Change α)}
    (hcs : ∀ c ∈ cs, c.IsWhole) (hresize : ∀ l, Change.remove l false ∉ cs) :
    (cs.foldl Grid.change g).IsTight := by
  induction cs generalizing g with
  | nil => exact h
  | cons c cs ih =>
    have hc := hcs c List.mem_cons_self
    refine ih (h.change hcover hc ?_) (hcover.change hc) (fun d hd =>
      hcs d (List.mem_cons_of_mem _ hd)) ?_
    · rintro l rfl
      exact hresize l List.mem_cons_self
    · exact fun l hl => hresize l (List.mem_cons_of_mem _ hl)

/-- A client that holds the cell it recorded lies inside the tracks, however it recorded the
cell. -/
theorem CoversCells.has_of_holds [BEq α] (h : g.CoversCells) {client : α} {l : Location}
    (hl : g.holds client l = true) :
    g.horizontal.has l.column = true ∧ g.vertical.has l.row = true := by
  obtain ⟨e, he, hentry⟩ := List.any_eq_true.mp hl
  obtain ⟨w, k, c, r, hw, hk, ⟨hc, hr⟩, hzero, hlt, hzero', hlt'⟩ := h.isWhole he
  have hsame : e.1.equals l = true := by
    simp only [isEntryOf, Bool.and_eq_true, Bool.or_eq_true, decide_eq_true_eq] at hentry
    rcases hentry.1 with rfl | hequal
    · simp [Location.equals, hc.equals hc, hr.equals hr]
    · exact hequal
  obtain ⟨hcolumn, hrow⟩ := Bool.and_eq_true_iff.mp hsame
  constructor
  · rw [GridAxis.has, show g.horizontal.count = .int w from hw, Number.lt,
      (hc.le_of_equals hcolumn _).1, (hc.le_of_equals hcolumn _).2, (hc.le_of_equals hcolumn _).2]
    simp only [Bool.and_eq_true, Bool.not_eq_true', decide_eq_true_eq, decide_eq_false_iff_not]
    omega
  · rw [GridAxis.has, show g.vertical.count = .int k from hk, Number.lt, (hr.le_of_equals hrow _).1,
      (hr.le_of_equals hrow _).2, (hr.le_of_equals hrow _).2]
    simp only [Bool.and_eq_true, Bool.not_eq_true', decide_eq_true_eq, decide_eq_false_iff_not]
    omega

/-- The extent of a grid. However clients are added, removed and the extent fitted, refused
additions included, the tracks cover the cells that are taken, and a client that is where it
recorded to be is never said to lie outside. A removal that resizes leaves the number of tracks as
it is or makes it tight. While it is tight such a removal is a plain one followed by a fit. So it is
tight as long as no cell was given up without resizing since the last fit. -/
theorem changes_extent [BEq α] (horizontal vertical : GridAxis) (cs : List (Change α))
    (hcs : ∀ c ∈ cs, c.IsWhole) :
    let g := cs.foldl Grid.change (unfilled horizontal vertical)
    (∃ columns rows, g.columns = .int columns ∧ g.rows = .int rows ∧
      ∀ e ∈ g.entries, ∃ column row, e.1.IsWhole column row ∧ 0 ≤ column ∧ column < columns ∧
      0 ≤ row ∧ row < rows) ∧
    (∀ registry mode client l container, g.holds client l = true →
      (g.resolve registry mode client (some l) container).FailsOnly (· ≠ .index)) ∧
    (∀ l, (g.remove l true).1 = true →
      (g.remove l true).2.columns = g.columns ∧ (g.remove l true).2.rows = g.rows ∨
      (g.remove l true).2.IsTight) ∧
    (g.IsTight → ∀ l, g.remove l true = ((g.remove l false).1, (g.remove l false).2.shrinkToFit)) ∧
    ∀ before after, cs = before ++ after →
    (before = [] ∨ ∃ earlier, before = earlier ++ [.shrink]) →
      (∀ l, .remove l false ∉ after) → g.IsTight := by
  intro g
  have hcover : g.CoversCells := (unfilled_coversCells horizontal vertical).changes hcs
  refine ⟨?_, fun registry mode client l container hl => ?_, fun l _ => ?_, fun h l =>
    h.remove_resized_eq hcover l, ?_⟩
  · obtain ⟨w, hw, hcolumns⟩ := hcover.columns
    obtain ⟨k, hk, hrows⟩ := hcover.rows
    refine ⟨w, k, hw, hk, fun e he => ?_⟩
    obtain ⟨c, hc, hzero, hlt⟩ := hcolumns _ (List.mem_map_of_mem he)
    obtain ⟨r, hr, hzero', hlt'⟩ := hrows _ (List.mem_map_of_mem he)
    exact ⟨c, r, ⟨hc, hr⟩, hzero, hlt, hzero', hlt'⟩
  · obtain ⟨hcolumn, hrow⟩ := hcover.has_of_holds hl
    rw [resolve, if_pos hl]
    exact (GridShape.resolveAt_failsOnly hcolumn hrow).bind fun _ => Report.failsOnly_pure
  · rcases hcover.remove_resized_cases l with hfit | hsame
    · exact .inr (hfit ▸ shrinkToFit_isTight (hcover.emptied l))
    · exact .inl (hsame ▸ ⟨rfl, rfl⟩)
  · rintro before after rfl hbefore hafter
    have hcs' := List.forall_mem_append.mp hcs
    have hreached : (before.foldl Grid.change
        (unfilled (α := α) horizontal vertical)).CoversCells :=
      (unfilled_coversCells horizontal vertical).changes hcs'.1
    have htight : (before.foldl Grid.change (unfilled (α := α) horizontal vertical)).IsTight := by
      rcases hbefore with rfl | ⟨earlier, rfl⟩
      · exact unfilled_isTight horizontal vertical
      · rw [List.foldl_append]
        exact shrinkToFit_isTight
          ((unfilled_coversCells horizontal vertical).changes (List.forall_mem_append.mp hcs'.1).1)
    change (List.foldl Grid.change _ (before ++ after)).IsTight
    rw [List.foldl_append]
    exact htight.changes hreached hcs'.2 hafter

/-- A column that was given up without resizing is forgotten by a fit, and the removal after it
resizes again. -/
theorem changes_extent_after_fit :
    ∃ g : Grid String,
    g = [Change.add "a" (.ofInts 0 0), .add "b" (.ofInts 1 2), .add "c" (.ofInts 4 0),
        .remove (.ofInts 4 0) false, .shrink, .remove (.ofInts 1 2) true].foldl Grid.change
        (unfilled {} {}) ∧
      g.columns = .int 1 ∧ g.rows = .int 1 ∧ g.IsTight := by
  have h :=
    changes_extent {} {} [Change.add "a" (.ofInts 0 0), .add "b" (.ofInts 1 2),
      .add "c" (.ofInts 4 0),
    .remove (.ofInts 4 0) false, .shrink, .remove (.ofInts 1 2) true] (by
      simp only [List.forall_mem_cons, Change.IsWhole, and_true, List.not_mem_nil,
        false_implies, implies_true]
      exact ⟨⟨0, 0, rfl, rfl⟩, ⟨1, 2, rfl, rfl⟩, 4, 0, rfl, rfl⟩)
  have htight :=
    h.2.2.2.2 ([Change.add "a" (.ofInts 0 0), .add "b" (.ofInts 1 2), .add "c" (.ofInts 4 0),
      .remove (.ofInts 4 0) false] ++ [.shrink]) [.remove (.ofInts 1 2) true] rfl
        (.inr ⟨_, rfl⟩) (by simp)
  exact ⟨_, rfl, by decide +kernel, by decide +kernel, htight⟩

end Grid

end PanelLayout
