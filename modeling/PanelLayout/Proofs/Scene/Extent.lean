import PanelLayout.Proofs.Scene.Calls

/-!
# The extent of a panel's grid

The tracks of a panel always cover the cells that are held. They are no more than these need as long
as whatever moves to another cell leaves the grid with cells in the last column and the last row
that there were.
-/

namespace PanelLayout

/-- With tracks that were counted before, and perhaps grown for one that is taken, there is one
track too many unless something still reaches as far as before. -/
private theorem isExtent_iff_reached {w n : Int} {ts : List Number} (hcover : Covers (.int n) ts)
    (hpos : 0 < w) (hle : w ≤ n) (hgrown : n = w ∨ ∃ t ∈ ts, t.IsWhole (n - 1)) :
    IsExtent (.int n) ts ↔ ∃ t ∈ ts, (Number.int w).le t.succ = true := by
  obtain ⟨n', hn', hts⟩ := hcover
  obtain rfl := Number.int.inj hn'
  constructor
  · intro hextent
    rcases hextent with ⟨-, hzero⟩ | ⟨k, hk, ⟨t, ht, htk⟩, -⟩
    · have := Number.int.inj hzero
      omega
    · have hlast := Number.int.inj hk
      refine ⟨t, ht, ?_⟩
      rw [htk.succ, Number.le_int, decide_eq_true_eq]
      omega
  · intro hreached
    have hlast : ∃ t ∈ ts, t.IsWhole (n - 1) := by
      rcases hgrown with rfl | hgrown
      · obtain ⟨t, ht, hle⟩ := hreached
        obtain ⟨k, hk, -, hlt⟩ := hts t ht
        rw [hk.succ, Number.le_int, decide_eq_true_eq] at hle
        exact ⟨t, ht, by rwa [show n - 1 = k by omega]⟩
      · exact hgrown
    refine .inr ⟨n - 1, by rw [Int.sub_add_cancel], hlast, fun t ht => ?_⟩
    obtain ⟨k, hk, -, hlt⟩ := hts t ht
    exact ⟨k, hk, by omega⟩

namespace Grid

variable {g : Grid Key} {child : Key} {l : Location} {c r : Int}

def Reaches (g : Grid Key) (columns rows : Number) : Prop :=
  (∃ t ∈ g.takenColumns, columns.le t.succ = true) ∧ ∃ t ∈ g.takenRows, rows.le t.succ = true

theorem CoversCells.without (h : g.CoversCells) (child : Key) : (g.without child).CoversCells := by
  have hsub : (g.without child).entries ⊆ g.entries := fun e he => (mem_entries_without.mp he).1
  exact ⟨h.columns.subset (List.map_subset _ hsub), h.rows.subset (List.map_subset _ hsub)⟩

theorem exists_entry_put (hcover : g.CoversCells) (hl : l.IsWhole c r) (client : Key) :
    ∃ e ∈ (g.put l client).entries, e.1.IsWhole c r := by
  obtain ⟨e, he, -, hequal⟩ := g.exists_mem_entries_put hl.equals_self client
  rcases mem_entries_put.mp he with ⟨-, hother⟩ | ⟨-, ⟨-, heq⟩ | ⟨d, hd, heq, -⟩⟩
  · simp [hequal] at hother
  · exact ⟨e, he, heq ▸ hl⟩
  · obtain ⟨-, -, c', r', -, -, hwhole, -⟩ := hcover.isWhole hd
    rw [heq] at hwhole
    obtain ⟨rfl, rfl⟩ := (hwhole.equals_iff hl).mp hequal
    exact ⟨e, he, hwhole⟩

theorem IsOrderly.withdraw_eq_remove (h : g.IsOrderly) (hcover : g.CoversCells) {e : Location × Key}
    (he : e ∈ g.entries) (hentry : isEntryOf child l e = true) (resize : Bool) :
    g.withdraw child l resize = g.remove l resize := by
  have hcell : e.1.equals l = true := by
    rcases (isEntryOf_iff.mp hentry).1 with heq | hequal
    · obtain ⟨-, -, c, r, -, -, hwhole, -⟩ := hcover.isWhole he
      exact heq ▸ hwhole.equals_self
    · exact hequal
  have hsame : ∀ d ∈ g.entries, isEntryOf child l d = d.1.equals l := by
    intro d hd
    rw [h.isEntryOf_eq he hentry d hd, Bool.eq_iff_iff, beq_iff_eq]
    constructor
    · intro hclient
      rwa [h.eq_of_client hd he (hclient.trans (isEntryOf_iff.mp hentry).2.symm)]
    · intro hequal
      rw [h.eq_of_equals hd he hequal hcell]
      exact (isEntryOf_iff.mp hentry).2
  have hany : g.entries.any (isEntryOf child l) = g.entries.any (·.1.equals l) := by
    rw [Bool.eq_iff_iff, List.any_eq_true, List.any_eq_true]
    exact exists_congr fun d => and_congr_right fun hd => by rw [hsame d hd]
  have hleft : g.entries.filter (!isEntryOf child l ·) = g.entries.filter (!·.1.equals l) :=
    List.filter_congr fun d hd => by rw [hsame d hd]
  rw [withdraw, remove, removeIf, removeIf, hany, hleft]

end Grid

namespace Scene

variable {g g' : Grid Key} {c : Call} {child : Key} {l : Location}

def Call.IsWhole : Call → Prop
  | .addToGrid _ l => ∃ column row, l.IsWhole column row
  | _ => True

def Call.resizes : Call → Bool
  | .remove _ resize => resize
  | _ => true

theorem Regridded.coversCells (h : Regridded g c g') (horderly : g.IsOrderly)
    (hcover : g.CoversCells) (hc : c.IsWhole) : g'.CoversCells := by
  cases h with
  | same => exact hcover
  | @placed child l hl =>
    obtain ⟨column, row, hwhole⟩ := hc
    rw [hwhole.isNegative, decide_eq_false_iff_not] at hl
    exact (hcover.without child).put hwhole (by omega) (by omega) child
  | refused => exact hcover.without _
  | withdrawn he hentry =>
    rw [horderly.withdraw_eq_remove hcover he hentry]
    exact hcover.remove _ _

private theorem max_succ_grown {w k : Int} {ts : List Number} {t : Number} (ht : t ∈ ts)
    (hk : t.IsWhole k) :
    max w (k + 1) = w ∨ ∃ u ∈ ts, u.IsWhole (max w (k + 1) - 1) := by
  by_cases hle : k + 1 ≤ w
  · exact .inl (Int.max_eq_left hle)
  · refine .inr ⟨t, ht, ?_⟩
    rwa [Int.max_eq_right (by omega), Int.add_sub_cancel]

private theorem Regridded.columns_grown {w : Int} (h : Regridded g (.addToGrid child l) g')
    (hcover : g.CoversCells) (hc : (Call.addToGrid child l).IsWhole) (hw : g.columns = .int w) :
    ∃ n, g'.columns = .int n ∧ w ≤ n ∧ (n = w ∨ ∃ t ∈ g'.takenColumns, t.IsWhole (n - 1)) := by
  cases h with
  | same => exact ⟨w, hw, Int.le_refl w, .inl rfl⟩
  | refused => exact ⟨w, hw, Int.le_refl w, .inl rfl⟩
  | placed =>
    obtain ⟨column, row, hl⟩ := hc
    obtain ⟨e, he, hel⟩ := Grid.exists_entry_put (hcover.without child) hl child
    refine ⟨max w (column + 1), ?_, Int.le_max_left w _,
      max_succ_grown (List.mem_map_of_mem he) hel.1⟩
    rw [← Number.max_int, ← hw, ← hl.1.succ]
    rfl

private theorem Regridded.rows_grown {w : Int} (h : Regridded g (.addToGrid child l) g')
    (hcover : g.CoversCells) (hc : (Call.addToGrid child l).IsWhole) (hw : g.rows = .int w) :
    ∃ n, g'.rows = .int n ∧ w ≤ n ∧ (n = w ∨ ∃ t ∈ g'.takenRows, t.IsWhole (n - 1)) := by
  cases h with
  | same => exact ⟨w, hw, Int.le_refl w, .inl rfl⟩
  | refused => exact ⟨w, hw, Int.le_refl w, .inl rfl⟩
  | placed =>
    obtain ⟨column, row, hl⟩ := hc
    obtain ⟨e, he, hel⟩ := Grid.exists_entry_put (hcover.without child) hl child
    refine ⟨max w (row + 1), ?_, Int.le_max_left w _, max_succ_grown (List.mem_map_of_mem he) hel.2⟩
    rw [← Number.max_int, ← hw, ← hl.2.succ]
    rfl

/-- When a component leaves its cell for another one, no track is too many if and only if the cells
that are held then still reach as far as the tracks did. -/
theorem Regridded.isTight_iff_reaches (h : Regridded g (.addToGrid child l) g')
    (horderly : g.IsOrderly) (hcover : g.CoversCells) (hc : (Call.addToGrid child l).IsWhole)
    (hclient : child ∈ g.clients) :
    g'.IsTight ↔ g'.Reaches g.columns g.rows := by
  obtain ⟨e, he, -⟩ := List.mem_map.mp hclient
  obtain ⟨w, k, i, j, hw, hk, -, hi, hiw, hj, hjk⟩ := hcover.isWhole he
  obtain ⟨n, hn, hwn, hcolumn⟩ := h.columns_grown hcover hc hw
  obtain ⟨m, hm, hkm, hrow⟩ := h.rows_grown hcover hc hk
  have hcover' := h.coversCells horderly hcover hc
  have hcolumns := isExtent_iff_reached (hn ▸ hcover'.columns) (by omega) hwn hcolumn
  have hrows := isExtent_iff_reached (hm ▸ hcover'.rows) (by omega) hkm hrow
  rw [Grid.Reaches, hw, hk, ← hcolumns, ← hrows, ← hn, ← hm]
  exact ⟨fun ht => ⟨ht.columns, ht.rows⟩, fun ht => ⟨ht.1, ht.2⟩⟩

/-- A call keeps a grid as small as its contents if it does not move a component away from the last
column or row, and does not ask for the tracks to stay. -/
theorem Regridded.isTight (h : Regridded g c g') (horderly : g.IsOrderly) (hcover : g.CoversCells)
    (hc : c.IsWhole) (hresize : c.resizes = true)
    (hreach : ∀ child l, c = .addToGrid child l → child ∈ g.clients → g'.Reaches g.columns g.rows)
    (ht : g.IsTight) : g'.IsTight := by
  by_cases hmove : ∃ child l, c = .addToGrid child l ∧ child ∈ g.clients
  · obtain ⟨child, l, rfl, hclient⟩ := hmove
    exact (h.isTight_iff_reaches horderly hcover hc hclient).mpr (hreach child l rfl hclient)
  · simp only [not_exists, not_and] at hmove
    cases h with
    | same => exact ht
    | @placed child l hl =>
      obtain ⟨column, row, hwhole⟩ := hc
      rw [hwhole.isNegative, decide_eq_false_iff_not] at hl
      rw [Grid.without_of_notMem (hmove child l rfl)]
      exact ht.put hcover hwhole (by omega) (by omega) child
    | @refused child l => rwa [Grid.without_of_notMem (hmove child l rfl)]
    | @withdrawn child l e resize he hentry =>
      obtain rfl : resize = true := hresize
      rw [horderly.withdraw_eq_remove hcover he hentry]
      exact ht.remove_resized hcover l

/-- Whether a call that moves a component of a panel leaves that panel with cells that reach the
last column and the last row that there were. -/
def KeepsReach (panel : Key) (s : Scene) : Key × Call → Prop
  | (q, .addToGrid child l) => q = panel → child ∈ (s.panel panel).grid.clients →
      ((s.call panel (.addToGrid child l)).panel panel).grid.Reaches (s.panel panel).grid.columns
        (s.panel panel).grid.rows
  | _ => True

section Calls

variable {s : Scene} {panel : Key} {c : Key × Call}

private theorem coversCells_call (h : s.IsOrderly) (hcover : (s.panel panel).grid.CoversCells)
    (hc : c.2.IsWhole) :
    ((s.call c.1 c.2).panel panel).grid.CoversCells := by
  by_cases hpanel : panel = c.1
  · subst hpanel
    exact (call_outcome (h c.1) c.2).regridded.coversCells (h c.1) hcover hc
  · rwa [(call_outcome (h c.1) c.2).panel_of_ne hpanel]

private theorem isTight_call (h : s.IsOrderly) (hcover : (s.panel panel).grid.CoversCells)
    (hc : c.2.IsWhole) (hresize : c.2.resizes = true) (hreach : KeepsReach panel s c)
    (ht : (s.panel panel).grid.IsTight) : ((s.call c.1 c.2).panel panel).grid.IsTight := by
  by_cases hpanel : panel = c.1
  · subst hpanel
    refine (call_outcome (h c.1) c.2).regridded.isTight (h c.1) hcover hc hresize
      (fun child l hadd hclient => ?_) ht
    obtain ⟨q, c⟩ := c
    subst hadd
    exact hreach rfl hclient
  · rwa [(call_outcome (h c.1) c.2).panel_of_ne hpanel]

end Calls

/-- After any calls on panels that were empty at first, the tracks of a panel cover its cells, and
they are as many as these need: the last column and the last row are taken, and there are none if no
cell is held. The latter holds if no removal asked for the tracks to stay, and each call that moved
a component of the panel left some cell in the last column or beyond, and some in the last row or
beyond. -/
theorem run_extent {s : Scene}
    (hfresh : ∀ key, ∃ horizontal vertical, (s.panel key).grid = .unfilled horizontal vertical)
    (calls : List (Key × Call)) (hwhole : ∀ c ∈ calls, c.2.IsWhole) (panel : Key) :
    ((s.run calls).panel panel).grid.CoversCells ∧
      ((∀ c ∈ calls, c.2.resizes = true) → Throughout (KeepsReach panel) s calls →
        ((s.run calls).panel panel).grid.IsTight) := by
  have horderly : s.IsOrderly := by
    intro key
    obtain ⟨horizontal, vertical, hgrid⟩ := hfresh key
    exact hgrid ▸ .empty rfl
  obtain ⟨horizontal, vertical, hgrid⟩ := hfresh panel
  have hcover : (s.panel panel).grid.CoversCells := hgrid ▸ Grid.unfilled_coversCells ..
  have htight : (s.panel panel).grid.IsTight := hgrid ▸ Grid.unfilled_isTight ..
  clear hfresh hgrid
  have hall : Throughout (fun _ c => c.2.IsWhole) s calls :=
    throughout_of_forall (fun _ => hwhole) s
  constructor
  · have hrun :=
      run_induction (fun t => t.IsOrderly ∧ (t.panel panel).grid.CoversCells)
        ⟨horderly, hcover⟩ hall
      fun t c ht hc => ⟨ht.1.call c.1 c.2, coversCells_call ht.1 ht.2 hc⟩
    exact hrun.2
  · intro hresize hreach
    have hkept : Throughout (fun _ c => c.2.resizes = true) s calls :=
      throughout_of_forall (fun _ => hresize) s
    have hrun := run_induction
      (fun t => t.IsOrderly ∧ (t.panel panel).grid.CoversCells ∧ (t.panel panel).grid.IsTight)
      ⟨horderly, hcover, htight⟩ (hall.and (hkept.and hreach)) fun t c ht hc =>
        ⟨ht.1.call c.1 c.2, coversCells_call ht.1 ht.2.1 hc.1,
          isTight_call ht.1 ht.2.1 hc.1 hc.2.1 hc.2.2 ht.2.2⟩
    exact hrun.2.2

/-- Cells at `(0, 0)` and `(2, 1)`; the first component moves to `(1, 1)`, and the one in the last
column is removed. -/
theorem run_extent_after_removal :
    let calls : List (Key × Call) :=
      [(0, .addToGrid 1 (.ofInts 0 0)), (0, .addToGrid 2 (.ofInts 2 1)),
        (0, .addToGrid 1 (.ofInts 1 1)), (0, .remove 2 true)]
    (((fresh 2).run calls).panel 0).grid.IsTight ∧
      (((fresh 2).run calls).panel 0).grid.columns = .int 2 ∧
      (((fresh 2).run calls).panel 0).grid.rows = .int 2 := by
  intro calls
  have hwhole : ∀ c ∈ calls, c.2.IsWhole := by
    simp only [calls, List.forall_mem_cons, List.not_mem_nil, false_implies, implies_true,
      Call.IsWhole, and_true]
    exact ⟨⟨0, 0, rfl, rfl⟩, ⟨2, 1, rfl, rfl⟩, ⟨1, 1, rfl, rfl⟩⟩
  have h := run_extent (s := fresh 2) (fun key => ⟨{}, {}, by simp [Grid.unfilled]⟩) calls hwhole 0
  refine ⟨h.2 (by decide) ?_, ?_, ?_⟩
  · refine ⟨fun _ hclient => ?_, fun _ hclient => ?_, fun _ _ => ?_, trivial, trivial⟩
    · exact absurd hclient (by decide +kernel)
    · exact absurd hclient (by decide +kernel)
    · exact ⟨⟨.int 2, by decide +kernel, by decide⟩, ⟨.int 1, by decide +kernel, by decide⟩⟩
  · decide +kernel
  · decide +kernel

/-- A component that moves from the third column to the first leaves three columns behind. -/
theorem run_extent_after_move :
    let g :=
  (((fresh 1).run [(0, .addToGrid 1 (.ofInts 2 0)), (0, .addToGrid 1 (.ofInts 0 0))]).panel 0).grid
    g.entries = [(.ofInts 0 0, 1)] ∧ g.columns = .int 3 ∧ ¬ g.IsTight := by
  intro g
  have hentries : g.entries = [(.ofInts 0 0, 1)] := by decide +kernel
  have hcolumns : g.columns = .int 3 := by decide +kernel
  refine ⟨hentries, hcolumns, fun ht => ?_⟩
  have hextent : IsExtent (.int 3) [.int 0] := by
    have htaken : g.takenColumns = [.int 0] := by
      simp [Grid.takenColumns, hentries, Location.ofInts]
    exact htaken ▸ hcolumns ▸ ht.columns
  rcases hextent with ⟨hnone, -⟩ | ⟨k, hk, ⟨t, ht, htk⟩, -⟩
  · cases hnone
  · obtain rfl := List.mem_singleton.mp ht
    have hzero := (Number.isWhole_int 0).unique htk
    have hthree := Number.int.inj hk
    omega

end Scene

end PanelLayout
