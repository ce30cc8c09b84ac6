import PanelLayout.Proofs.Computation
import PanelLayout.Proofs.Scene.Nodes

/-!
# Calls on a panel

Components are added to a panel, put into cells of its grid and removed, in any order. Each call
does one of a few things, and each of them keeps the cells, the free components and the recorded
locations in agreement.
-/

namespace PanelLayout

namespace Scene

open Grid (isEntryOf isEntryOf_iff)

variable {s t : Scene} {panel key : Key} {l : Location}

inductive Call where
  | add (child : Key)
  | addToGrid (child : Key) (location : Location)
  | remove (child : Key) (resize : Bool)

def Call.child : Call → Key
  | .add child | .addToGrid child _ | .remove child _ => child

def call (s : Scene) (panel : Key) : Call → Scene
  | .add child => (s.add panel child).toOption.getD s
  | .addToGrid child l => (s.addToGrid panel child l).2
  | .remove child resize => (s.remove panel child resize).2

/-- The scene where what is in a cell, if it is not a given component, has no location any more. -/
def displaced (s : Scene) (panel child : Key) (l : Location) : Scene :=
  match (s.panel panel).grid.at? l with
  | some old => if old = child then s else s.setLocation old none
  | none => s

@[simp] theorem panel_displaced (s : Scene) (panel child : Key) (l : Location) (key : Key) :
    (s.displaced panel child l).panel key = s.panel key := by
  unfold displaced
  split
  · split <;> simp
  · rfl

@[simp] theorem size_displaced (s : Scene) (panel child : Key) (l : Location) :
    (s.displaced panel child l).nodes.size = s.nodes.size := by
  unfold displaced
  split
  · split <;> simp
  · rfl

theorem location_displaced (hkey : (s.panel panel).grid.at? l ≠ some key) (child : Key) :
    (s.displaced panel child l).location key = s.location key := by
  unfold displaced
  split
  · rename_i old hold
    split
    · rfl
    · rw [location_setLocation, if_neg]
      intro heq
      exact hkey (heq.1 ▸ hold)
  · rfl

theorem location_displaced_of_at? {child : Key} (hkey : (s.panel panel).grid.at? l = some key)
    (hne : key ≠ child) (hin : key < s.nodes.size) :
    (s.displaced panel child l).location key = none := by
  rw [displaced, hkey]
  simp [hne, location_setLocation, hin]

def withGrid (s : Scene) (panel : Key) (grid : Grid Key) : Scene :=
  s.setPanel panel { s.panel panel with grid }

def withFree (s : Scene) (panel : Key) (free : List Key) : Scene :=
  s.setPanel panel { s.panel panel with free }

theorem addToGrid_eq (h : (s.panel panel).grid.IsOrderly) (child : Key) (l : Location) :
    s.addToGrid panel child l =
      if l.isNegative then
        (.error (.negativeCell l.column l.row),
          (s.displaced panel child l).withGrid panel ((s.panel panel).grid.without child))
      else
        (.ok (),
          ((s.displaced panel child l).withGrid panel
            (((s.panel panel).grid.without child).put l child)).setLocation
          child (some l)) := by
  have hleft : ∀ held, (s.panel panel).grid.locationOf? child = some held →
      ((s.panel panel).grid.withdraw child held false).2 = (s.panel panel).grid.without child := by
    intro held hheld
    have hentry := Grid.mem_of_locationOf?_eq_some hheld
    exact h.withdraw_unsized hentry (isEntryOf_iff.mpr ⟨.inl rfl, rfl⟩)
  unfold addToGrid
  dsimp only
  cases hheld : (s.panel panel).grid.locationOf? child with
  | some held =>
    simp only [hleft held hheld, Grid.add_eq]
    cases l.isNegative <;> rfl
  | none =>
    simp only [Grid.without_of_notMem (Grid.locationOf?_eq_none_iff.mp hheld), Grid.add_eq]
    cases l.isNegative <;> rfl

/-- A cell outside of the grid is refused, and the component has left its cell by then. -/
theorem addToGrid_of_isNegative (h : (s.panel panel).grid.IsOrderly) (child : Key)
    (hl : l.isNegative = true) :
    s.addToGrid panel child l =
      (.error (.negativeCell l.column l.row),
        s.withGrid panel ((s.panel panel).grid.without child)) := by
  have hkept : s.displaced panel child l = s := by
    simp only [displaced, h.at?_of_isNegative hl]
  rw [addToGrid_eq h, if_pos hl, hkept]

theorem addToGrid_of_not_isNegative (h : (s.panel panel).grid.IsOrderly) (child : Key)
    (hl : l.isNegative = false) :
    s.addToGrid panel child l =
      (.ok (),
        ((s.displaced panel child l).withGrid panel
          (((s.panel panel).grid.without child).put l child)).setLocation
        child (some l)) := by
  rw [addToGrid_eq h, hl, if_neg Bool.false_ne_true]

theorem remove_eq (s : Scene) (panel child : Key) (resize : Bool) : s.remove panel child resize =
    match s.location child with
    | some l =>
      if (s.panel panel).grid.holds child l then
        let g := ((s.panel panel).grid.withdraw child l resize).2
        (true, (s.withGrid panel g).setLocation child none)
      else (false, s)
    | none =>
      if child ∈ (s.panel panel).free then
        (true, s.withFree panel ((s.panel panel).free.erase child))
      else (false, s) := by
  unfold remove
  rw [location_component]
  cases s.location child with
  | some l =>
    simp only [Grid.withdraw, Grid.removeIf_fst]
    rfl
  | none => simp [withFree]

inductive Outcome (s : Scene) (panel : Key) : Call → Scene → Prop
  | same (c : Call) : Outcome s panel c s
  | added {child : Key} : s.location child = none → child ∉ (s.panel panel).free →
      Outcome s panel (.add child) (s.withFree panel ((s.panel panel).free ++ [child]))
  | placed {child : Key} {l : Location} :
      l.isNegative = false →
      Outcome s panel (.addToGrid child l)
        (((s.displaced panel child l).withGrid panel
          (((s.panel panel).grid.without child).put l child)).setLocation child (some l))
  | refused {child : Key} {l : Location} : l.isNegative = true →
      Outcome s panel (.addToGrid child l) (s.withGrid panel ((s.panel panel).grid.without child))
  | withdrawn {child : Key} {l : Location} {e : Location × Key} {resize : Bool} :
      s.location child = some l → e ∈ (s.panel panel).grid.entries → isEntryOf child l e = true →
      Outcome s panel (.remove child resize)
        ((s.withGrid panel ((s.panel panel).grid.withdraw child l resize).2).setLocation child none)
  | dropped {child : Key} {resize : Bool} : s.location child = none → child ∈ (s.panel panel).free →
      Outcome s panel (.remove child resize) (s.withFree panel ((s.panel panel).free.erase child))

theorem call_outcome (h : (s.panel panel).grid.IsOrderly) (c : Call) :
    Outcome s panel c (s.call panel c) := by
  cases c with
  | add child =>
    rw [call, add, location_component]
    by_cases hgridded : (s.location child).isSome = true
    · simpa [hgridded, Except.toOption] using Outcome.same _
    · have hlocation : s.location child = none := by simpa using hgridded
      by_cases hfree : child ∈ (s.panel panel).free
      · simpa [hlocation, hfree, Except.toOption] using Outcome.same _
      · simpa [hlocation, hfree, Except.toOption, withFree] using Outcome.added hlocation hfree
  | addToGrid child l =>
    cases hl : l.isNegative with
    | false =>
      rw [call, addToGrid_of_not_isNegative h child hl]
      exact .placed hl
    | true =>
      rw [call, addToGrid_of_isNegative h child hl]
      exact .refused hl
  | remove child resize =>
    rw [call, remove_eq]
    cases hlocation : s.location child with
    | some l =>
      dsimp only
      split
      · rename_i hany
        obtain ⟨e, he, hentry⟩ := List.any_eq_true.mp hany
        exact .withdrawn hlocation he hentry
      · exact .same _
    | none =>
      dsimp only
      split
      · rename_i hfree
        exact .dropped hlocation hfree
      · exact .same _

@[simp] theorem location_withGrid (s : Scene) (panel : Key) (grid : Grid Key) (key : Key) :
    (s.withGrid panel grid).location key = s.location key := location_setPanel ..

@[simp] theorem location_withFree (s : Scene) (panel : Key) (free : List Key) (key : Key) :
    (s.withFree panel free).location key = s.location key := location_setPanel ..

@[simp] theorem size_withGrid (s : Scene) (panel : Key) (grid : Grid Key) :
    (s.withGrid panel grid).nodes.size = s.nodes.size := size_setPanel ..

@[simp] theorem size_withFree (s : Scene) (panel : Key) (free : List Key) :
    (s.withFree panel free).nodes.size = s.nodes.size := size_setPanel ..

theorem panel_withGrid (s : Scene) (panel key : Key) (grid : Grid Key) :
    (s.withGrid panel grid).panel key =
    if panel = key ∧ panel < s.nodes.size then { s.panel panel with grid } else s.panel key :=
  panel_setPanel ..

theorem panel_withFree (s : Scene) (panel key : Key) (free : List Key) :
    (s.withFree panel free).panel key =
    if panel = key ∧ panel < s.nodes.size then { s.panel panel with free } else s.panel key :=
  panel_setPanel ..

@[simp] theorem grid_withFree (s : Scene) (panel key : Key) (free : List Key) :
    ((s.withFree panel free).panel key).grid = (s.panel key).grid := by
  rw [panel_withFree]
  split
  · rename_i h
    rw [h.1]
  · rfl

/-- What a call can do to the cells of the panel that it is made on. -/
inductive Regridded (g : Grid Key) : Call → Grid Key → Prop
  | same (c : Call) : Regridded g c g
  | placed {child : Key} {l : Location} : l.isNegative = false →
      Regridded g (.addToGrid child l) ((g.without child).put l child)
  | refused {child : Key} {l : Location} :
      l.isNegative = true → Regridded g (.addToGrid child l) (g.without child)
  | withdrawn {child : Key} {l : Location} {e : Location × Key} {resize : Bool} : e ∈ g.entries →
      isEntryOf child l e = true → Regridded g (.remove child resize) (g.withdraw child l resize).2

theorem Outcome.regridded {c : Call} (h : Outcome s panel c t) :
    Regridded (s.panel panel).grid c (t.panel panel).grid := by
  by_cases hin : panel < s.nodes.size
  · cases h with
    | same => exact .same _
    | added => simpa using Regridded.same _
    | placed hl => simpa [panel_withGrid, hin] using Regridded.placed hl
    | refused hl => simpa [panel_withGrid, hin] using Regridded.refused hl
    | withdrawn _ he hentry => simpa [panel_withGrid, hin] using Regridded.withdrawn he hentry
    | dropped => simpa using Regridded.same _
  · cases h <;> simpa [panel_withGrid, hin] using Regridded.same _

theorem Outcome.panel_of_ne {c : Call} (h : Outcome s panel c t) (hkey : key ≠ panel) :
    t.panel key = s.panel key := by
  cases h <;> simp [panel_withGrid, panel_withFree, hkey.symm]

theorem Outcome.size_eq {c : Call} (h : Outcome s panel c t) : t.nodes.size = s.nodes.size := by
  cases h <;> simp

theorem Regridded.isOrderly {g g' : Grid Key} {c : Call} (h : Regridded g c g') (hg : g.IsOrderly) :
    g'.IsOrderly := by
  cases h with
  | same => exact hg
  | placed hl => exact (hg.without _).put Grid.notMem_clients_without hl
  | refused => exact hg.without _
  | withdrawn =>
    refine hg.sublist ?_
    rw [Grid.withdraw, Grid.entries_removeIf]
    exact List.filter_sublist

def IsOrderly (s : Scene) : Prop := ∀ key, (s.panel key).grid.IsOrderly

theorem IsOrderly.call (h : s.IsOrderly) (panel : Key) (c : Call) : (s.call panel c).IsOrderly := by
  intro key
  by_cases hkey : key = panel
  · rw [hkey]
    exact (call_outcome (h panel) c).regridded.isOrderly (h panel)
  · rw [(call_outcome (h panel) c).panel_of_ne hkey]
    exact h key

section Runs

variable {calls : List (Key × Call)}

/-- The scene after some calls, each on a panel of its own, refused ones among them. -/
def run (s : Scene) (calls : List (Key × Call)) : Scene := calls.foldl (fun s c => s.call c.1 c.2) s

/-- Whether a condition on the scene and the call that comes next holds all along some calls. -/
def Throughout (p : Scene → Key × Call → Prop) : Scene → List (Key × Call) → Prop
  | _, [] => True
  | s, c :: cs => p s c ∧ Throughout p (s.call c.1 c.2) cs

theorem throughout_of_forall {p : Scene → Key × Call → Prop} (h : ∀ s, ∀ c ∈ calls, p s c)
    (s : Scene) :
    Throughout p s calls := by
  induction calls generalizing s with
  | nil => trivial
  | cons c cs ih =>
    exact ⟨h s c List.mem_cons_self, ih (fun s d hd => h s d (List.mem_cons_of_mem _ hd)) _⟩

theorem Throughout.and {p q : Scene → Key × Call → Prop} (hp : Throughout p s calls)
    (hq : Throughout q s calls) :
    Throughout (fun s c => p s c ∧ q s c) s calls := by
  induction calls generalizing s with
  | nil => trivial
  | cons c cs ih => exact ⟨⟨hp.1, hq.1⟩, ih hp.2 hq.2⟩

theorem run_induction {p : Scene → Key × Call → Prop} (holds : Scene → Prop) (hs : holds s)
    (hp : Throughout p s calls) (hcall : ∀ s c, holds s → p s c → holds (s.call c.1 c.2)) :
    holds (s.run calls) := by
  induction calls generalizing s with
  | nil => exact hs
  | cons c cs ih => exact ih (hcall s c hs hp.1) hp.2

theorem IsOrderly.run (h : s.IsOrderly) (calls : List (Key × Call)) : (s.run calls).IsOrderly :=
  run_induction (p := fun _ _ => True) IsOrderly h (throughout_of_forall (fun _ _ _ => trivial) s)
    fun _ c hs _ => hs.call c.1 c.2

end Runs

/-- One panel that holds nothing, and some components after it. -/
def fresh (components : Nat) : Scene where
  nodes := (⟨{}, 0, 0, some {}⟩ :: List.replicate components ⟨{}, 0, 0, none⟩).toArray

@[simp] theorem panel_fresh (components : Nat) (key : Key) : (fresh components).panel key = {} := by
  cases key with
  | zero => rfl
  | succ key =>
    by_cases hkey : key < components
    · simp [Scene.panel, node, fresh, hkey]
    · simp [Scene.panel, node, fresh, hkey, default]

end Scene

end PanelLayout
