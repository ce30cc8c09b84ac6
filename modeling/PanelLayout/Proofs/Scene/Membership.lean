import PanelLayout.Proofs.Scene.Calls
import PanelLayout.Proofs.Scene.Passes

/-!
# What a panel holds

No call puts a component into two cells of a panel or twice among its free ones. A component that is
put into a cell while it is free, though, is held in both ways from then on; as long as this is not
done, a panel holds everything once.
-/

namespace PanelLayout

namespace Scene

variable {s t : Scene} {panel key : Key} {c : Call}

/-- Whether a panel holds nothing in two cells and nothing twice in free form, and what is in a cell
recorded a location. -/
structure IsConsistent (s : Scene) (panel : Key) : Prop where
  orderly : (s.panel panel).grid.IsOrderly
  recorded : ∀ key ∈ (s.panel panel).grid.clients, (s.location key).isSome = true
  free : (s.panel panel).free.Nodup

def IsApart (s : Scene) (panel : Key) : Prop :=
  ∀ key ∈ (s.panel panel).free, key ∉ (s.panel panel).grid.clients

/-- Whether a call puts nothing into a cell of a panel that this panel holds in free form. -/
def SparesFree (panel : Key) (s : Scene) : Key × Call → Prop
  | (_, .addToGrid child _) => child ∉ (s.panel panel).free
  | _ => True

private theorem clients_placed {g : Grid Key} {l : Location} {child : Key} (horderly : g.IsOrderly)
    (h : key ∈ ((g.without child).put l child).clients) :
    key = child ∨ key ∈ g.clients ∧ key ≠ child ∧ g.at? l ≠ some key := by
  obtain ⟨e, he, rfl⟩ := List.mem_map.mp h
  rcases Grid.mem_entries_put.mp he with ⟨hleft, hother⟩ | ⟨hclient, -⟩
  · obtain ⟨hold, hne⟩ := Grid.mem_entries_without.mp hleft
    refine .inr ⟨List.mem_map_of_mem hold, hne, fun hat => ?_⟩
    obtain ⟨d, hd, hequal, hsame⟩ := Grid.exists_of_at?_eq_some hat
    rw [horderly.eq_of_client hd hold hsame, hother] at hequal
    cases hequal
  · exact .inl hclient

private theorem clients_withdraw {g : Grid Key} {l : Location} {child : Key} {e : Location × Key}
    {resize : Bool} (horderly : g.IsOrderly) (he : e ∈ g.entries)
    (hentry : Grid.isEntryOf child l e = true) :
    (g.withdraw child l resize).2.clients = g.clients.filter (· != child) := by
  rw [Grid.clients, horderly.entries_withdraw he hentry]
  exact Grid.clients_without g child

theorem Outcome.isConsistent (h : Outcome s panel c t) (hpanel : panel < s.nodes.size)
    (hchild : c.child < s.nodes.size) (hs : s.IsConsistent panel) : t.IsConsistent panel := by
  have horderly := h.regridded.isOrderly hs.orderly
  cases h with
  | same => exact hs
  | added hlocation hfree =>
    refine ⟨horderly, by simpa using hs.recorded, ?_⟩
    simp only [panel_withFree, hpanel, and_self, if_true]
    exact hs.free.append (List.nodup_singleton _) (by simpa using hfree)
  | @placed child l hl =>
    refine ⟨horderly, ?_, by simpa [panel_withGrid, hpanel] using hs.free⟩
    intro key hkey
    simp only [panel_setLocation, panel_withGrid, size_displaced, hpanel, and_self, if_true] at hkey
    simp only [location_setLocation, location_withGrid, size_withGrid, size_displaced]
    rcases clients_placed hs.orderly hkey with rfl | ⟨hold, hne, hat⟩
    · rw [if_pos ⟨rfl, hchild⟩, Option.isSome_some]
    · rw [if_neg (fun heq => hne heq.1.symm), location_displaced hat]
      exact hs.recorded key hold
  | @refused child l hl =>
    refine ⟨horderly, ?_, by simpa [panel_withGrid, hpanel] using hs.free⟩
    intro key hkey
    simp only [panel_withGrid, hpanel, and_self, if_true, Grid.clients_without] at hkey
    rw [location_withGrid]
    exact hs.recorded key (List.mem_filter.mp hkey).1
  | @withdrawn child l e resize hlocation he hentry =>
    refine ⟨horderly, ?_, by simpa [panel_withGrid, hpanel] using hs.free⟩
    intro key hkey
    simp only [panel_setLocation, panel_withGrid, hpanel, and_self, if_true,
      clients_withdraw hs.orderly he hentry] at hkey
    obtain ⟨hold, hne⟩ := List.mem_filter.mp hkey
    rw [location_setLocation, if_neg (fun heq => by simp [heq.1] at hne), location_withGrid]
    exact hs.recorded key hold
  | dropped hlocation hfree =>
    refine ⟨horderly, by simpa using hs.recorded, ?_⟩
    simp only [panel_withFree, hpanel, and_self, if_true]
    exact hs.free.erase _

/-- What is free and what sits in cells stay apart as long as nothing that is free is put into a
cell. -/
theorem Outcome.isApart (h : Outcome s panel c t) (hpanel : panel < s.nodes.size)
    (hs : s.IsConsistent panel) (hspare : SparesFree panel s (panel, c))
    (hapart : s.IsApart panel) : t.IsApart panel := by
  cases h with
  | same => exact hapart
  | @added child hlocation hfree =>
    intro key hkey
    simp only [panel_withFree, hpanel, and_self, if_true, List.mem_append, List.mem_singleton]
      at hkey ⊢
    rcases hkey with hold | rfl
    · exact hapart key hold
    · intro hclient
      have hrecorded := hs.recorded key hclient
      simp [hlocation] at hrecorded
  | @placed child l hl =>
    intro key hkey hclient
    simp only [panel_setLocation, panel_withGrid, size_displaced, hpanel, and_self, if_true,
      panel_displaced] at hkey hclient
    rcases clients_placed hs.orderly hclient with rfl | ⟨hold, -, -⟩
    · exact hspare hkey
    · exact hapart key hkey hold
  | refused hl =>
    intro key hkey hclient
    simp only [panel_withGrid, hpanel, and_self, if_true, Grid.clients_without] at hkey hclient
    exact hapart key hkey (List.mem_filter.mp hclient).1
  | withdrawn hlocation he hentry =>
    intro key hkey hclient
    simp only [panel_setLocation, panel_withGrid, hpanel, and_self, if_true,
      clients_withdraw hs.orderly he hentry] at hkey hclient
    exact hapart key hkey (List.mem_filter.mp hclient).1
  | dropped hlocation hfree =>
    intro key hkey
    simp only [panel_withFree, hpanel, and_self, if_true] at hkey ⊢
    exact hapart key (List.mem_of_mem_erase hkey)

theorem IsConsistent.nodup_children (h : s.IsConsistent panel) (hapart : s.IsApart panel) :
    (s.children panel).Nodup := by
  rw [(s.children_perm panel).nodup_iff, List.nodup_append]
  exact ⟨h.orderly.distinct, h.free, fun a ha b hb hab => hapart b hb (hab ▸ ha)⟩

theorem IsConsistent.notMem_children_remove (h : s.IsConsistent panel) (hapart : s.IsApart panel)
    (hpanel : panel < s.nodes.size) {child : Key} {resize : Bool}
    (hfound : (s.remove panel child resize).1 = true) :
    child ∉ (s.remove panel child resize).2.children panel := by
  rw [remove_eq] at hfound ⊢
  rw [mem_children, not_or]
  cases hlocation : s.location child with
  | some l =>
    simp only [hlocation] at hfound ⊢
    split at hfound
    · rename_i hholds
      obtain ⟨e, he, hentry⟩ := List.any_eq_true.mp hholds
      have hclient : child ∈ (s.panel panel).grid.clients :=
        List.mem_map.mpr ⟨e, he, (Grid.isEntryOf_iff.mp hentry).2⟩
      simp only [hholds, if_true, panel_setLocation, panel_withGrid, hpanel, and_self,
        clients_withdraw h.orderly he hentry]
      exact ⟨by simp, fun hfree => hapart child hfree hclient⟩
    · cases hfound
  | none =>
    simp only [hlocation] at hfound ⊢
    split at hfound
    · rename_i hfree
      simp only [hfree, if_true, panel_withFree, hpanel, and_self]
      exact ⟨hapart child hfree, h.free.not_mem_erase⟩
    · cases hfound

section Runs

variable {calls : List (Key × Call)}

private theorem run_isConsistent (hpanel : panel < s.nodes.size)
    (hcalls : ∀ c ∈ calls, c.1 = panel ∧ c.2.child < s.nodes.size) (h : s.IsConsistent panel) :
    (s.run calls).IsConsistent panel ∧ (s.run calls).nodes.size = s.nodes.size := by
  refine run_induction (fun t => t.IsConsistent panel ∧ t.nodes.size = s.nodes.size) ⟨h, rfl⟩
    (throughout_of_forall (fun _ => hcalls) s) fun t c ht hc => ?_
  obtain ⟨hconsistent, hsize⟩ := ht
  obtain ⟨q, c⟩ := c
  obtain ⟨rfl, hchild⟩ := hc
  have hcall := call_outcome hconsistent.orderly c
  exact ⟨hcall.isConsistent (hsize ▸ hpanel) (hsize ▸ hchild) hconsistent,
    hcall.size_eq.trans hsize⟩

private theorem run_isApart (hpanel : panel < s.nodes.size)
    (hcalls : ∀ c ∈ calls, c.1 = panel ∧ c.2.child < s.nodes.size) (h : s.IsConsistent panel)
    (hspare : Throughout (SparesFree panel) s calls) (hapart : s.IsApart panel) :
    (s.run calls).IsApart panel := by
  induction calls generalizing s with
  | nil => exact hapart
  | cons c cs ih =>
    obtain ⟨q, c⟩ := c
    obtain ⟨rfl, hchild⟩ := hcalls (q, c) List.mem_cons_self
    have hcall := call_outcome h.orderly c
    have hsize := hcall.size_eq
    exact ih (hsize ▸ hpanel) (fun d hd => hsize ▸ hcalls d (List.mem_cons_of_mem _ hd))
      (hcall.isConsistent hpanel hchild h) hspare.2 (hcall.isApart hpanel h hspare.1 hapart)

/-- After any calls on a panel that was empty at first, no component sits in two of its cells or is
free in it twice. If no call put a component into a cell while it was free, the panel holds each
component once in all; a component that is found and removed is not held any more; and a layout pass
places each component once that no other panel holds. -/
theorem run_holds_once (calls : List (Key × Call)) (panel : Key) (hpanel : panel < s.nodes.size)
    (hempty : (s.panel panel).grid.entries = []) (hnone : (s.panel panel).free = [])
    (hcalls : ∀ c ∈ calls, c.1 = panel ∧ c.2.child < s.nodes.size) :
    let t := s.run calls
    ((t.panel panel).grid.clients.Nodup ∧ (t.panel panel).free.Nodup) ∧
      (Throughout (SparesFree panel) s calls →
        (t.children panel).Nodup ∧
          (∀ child resize, (t.remove panel child resize).1 = true →
            child ∉ (t.remove panel child resize).2.children panel) ∧
          ∀ root container ps, t.element panel = .ok root →
          (root.layout container).result = .ok ps →
            List.Forall₂ (IsPlacementOf t) (t.placed panel) ps ∧
              ∀ key, (∀ other, other ≠ panel → key ∉ t.children other) →
              (t.placed panel).count key ≤ 1) := by
  intro t
  have hstart : s.IsConsistent panel := by
    refine ⟨.empty hempty, ?_, by simp [hnone]⟩
    simp [Grid.clients, hempty]
  have hstartApart : s.IsApart panel := by
    intro key hkey
    simp [hnone] at hkey
  obtain ⟨hconsistent, hsize⟩ := run_isConsistent hpanel hcalls hstart
  refine ⟨⟨hconsistent.orderly.distinct, hconsistent.free⟩, fun hspare => ?_⟩
  have hapart := run_isApart hpanel hcalls hstart hspare hstartApart
  have hnodup := hconsistent.nodup_children hapart
  refine ⟨hnodup, fun child resize => hconsistent.notMem_children_remove hapart (hsize ▸ hpanel),
    ?_⟩
  intro root container ps hroot hlayout
  obtain ⟨rect, -, hplace⟩ := Report.result_bind_eq_ok_iff.mp hlayout
  exact ⟨place_placed hroot hplace, fun key => count_placedWithin_le hroot hnodup⟩

end Runs

/-- A free component beside one that moves within the grid. -/
theorem run_holds_once_after_move :
    let t :=
  (fresh 2).run [(0, .add 1), (0, .addToGrid 2 (.ofInts 0 0)), (0, .addToGrid 2 (.ofInts 1 0))]
    (t.children 0).Nodup ∧ t.children 0 = [2, 1] ∧ (t.remove 0 1 true).1 = true ∧
        1 ∉ (t.remove 0 1 true).2.children 0 := by
  intro t
  have h :=
    run_holds_once (s := fresh 2) [(0, .add 1), (0, .addToGrid 2 (.ofInts 0 0)),
      (0, .addToGrid 2 (.ofInts 1 0))] 0
    (by decide) (by simp) (by simp) (by decide)
  have hspare : Throughout (SparesFree 0) (fresh 2)
      [(0, .add 1), (0, .addToGrid 2 (.ofInts 0 0)), (0, .addToGrid 2 (.ofInts 1 0))] := by
    refine ⟨trivial, ?_, ?_, trivial⟩
    · show 2 ∉ _
      decide
    · show 2 ∉ _
      decide
  obtain ⟨hnodup, hremove, -⟩ := h.2 hspare
  have hfound : (t.remove 0 1 true).1 = true := by decide
  exact ⟨hnodup, by decide +kernel, hfound, hremove 1 true hfound⟩

/-- A free component that is put into a cell is held twice, and still once after it was removed. -/
theorem run_holds_twice_after_add :
    let t := (fresh 1).run [(0, .add 1), (0, .addToGrid 1 (.ofInts 0 0))]
    t.children 0 = [1, 1] ∧ (t.remove 0 1 true).1 = true ∧
        (t.remove 0 1 true).2.children 0 = [1] := by
  refine ⟨?_, ?_, ?_⟩ <;> decide +kernel

end Scene

end PanelLayout
