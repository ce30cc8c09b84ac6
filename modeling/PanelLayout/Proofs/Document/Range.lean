import PanelLayout.Proofs.Document.Enumeration
import PanelLayout.Proofs.Grid.Range

/-!
# Documents in range

A document whose numbers have nearest doubles can be loaded, or is refused for something else that
it says. What is loaded has expressions in range and positive weights.
-/

namespace PanelLayout

namespace Document

variable {settings : Settings} {v u : Json} {node : Members}

/-- Whether a value is an object, if there is one, and all numbers in it have nearest doubles. -/
def HoldsDoubles (v? : Option Json) : Prop :=
  ∀ v ∈ v?, ∃ members, v = .object members ∧ ∀ m ∈ members, m.2.FitsDouble

def AsksFinite (v : Json) : Prop :=
  ∀ node, v = .object node → ∀ key ∈ ["column", "row"], ∀ w ∈ Json.get? node key, ¬w.IsInfinite

/-- Whether the numbers that a node holds are in range: those of its variables, of the weights of
its tracks, and of the cells of its children. -/
structure NodeInRange (node : Members) : Prop where
  registry : HoldsDoubles (Json.get? node "variables")
  weights : isPanel node = true → ∀ key ∈ ["column_weights", "row_weights"],
    HoldsDoubles (Json.get? node key)
  cells : ∀ u ∈ items (.object node), AsksFinite u

def TreeInRange (v : Json) : Prop :=
  ∀ path node, nodeAt? v path = some (.object node) → NodeInRange node

theorem TreeInRange.root (h : TreeInRange (.object node)) : NodeInRange node := h [] node rfl

theorem TreeInRange.child (h : TreeInRange v) {i : Nat} (hu : (items v)[i]? = some u) :
    TreeInRange u := by
  intro path node hnode
  exact h (i :: path) node ((nodeAt?_cons hu path).trans hnode)

theorem membersOf_yields {key : String} (h : HoldsDoubles (Json.get? node key)) :
    Yields (fun members => ∀ m ∈ members, m.2.FitsDouble) (membersOf node key) := by
  unfold membersOf
  split
  · intro m hm
    cases hm
  · rename_i members hmembers
    obtain ⟨members', heq, hfits⟩ := h _ hmembers
    cases heq
    exact hfits
  · rename_i w hnot hw
    obtain ⟨members, heq, -⟩ := h _ hw
    exact (hnot members heq).elim

theorem define_yields (vs : Variables) (name : String) {w : Json} (hw : w.FitsDouble) :
    Yields (fun _ => True) (vs.define (.text name) w) := by
  have hname : Yields (fun _ => True) (Variables.checkName (.text name)) := by
    unfold Variables.checkName
    dsimp only
    split
    · exact trivial
    · split <;> exact trivial
  exact hname.bind fun _ _ _ => (Json.toDouble_yields hw).bind fun _ _ _ => trivial

theorem componentOf_yields (h : NodeInRange node) :
    Yields (fun c => c.InRange ∧ c.settings = settings) (componentOf settings node) := by
  unfold componentOf
  have hstart :
      ({ name := value node "name", visible := flag node "visible", settings } :
        Component).InRange := by
    constructor <;> simp
  refine (hstart.withGeometry_yields ..).bind fun c _ hc => ?_
  refine (membersOf_yields h.registry).bind fun members _ hmembers => ?_
  refine (Yields.foldlM (q := fun _ => True) (fun m hm vs _ =>
    define_yields vs m.1 (hmembers m hm)) trivial).bind
    fun registry _ _ => ?_
  exact ⟨⟨hc.1.x, hc.1.y, hc.1.width, hc.1.height⟩, hc.2⟩

theorem pairOf_yields (w : Json) : Yields (fun _ => True) ((pairOf w).mapError .conversion) := by
  unfold pairOf
  split
  · exact trivial
  · unfold Json.toPair
    split <;> exact trivial

theorem withPair_yields {α : Type} {P : Grid α → Prop} {key : String} {g : Grid α}
    {set : Grid α → Json → Json → Except LayoutError Unit × Grid α}
    (hset : ∀ g x y, P g → Yields (fun _ => P (set g x y).2) (set g x y).1) (hg : P g) :
    Yields P (withPair node key g set) := by
  unfold withPair
  split
  · exact hg
  · exact (pairOf_yields _).bind fun xy _ _ => (hset g xy.1 xy.2 hg).bind fun _ _ h => h

theorem withWeights_yields {α : Type} {P : Grid α → Prop} {key : String} {g : Grid α}
    {set : Grid α → Number → Json → Except LayoutError (Grid α)}
    (hset : ∀ g track w, w.FitsDouble → P g → Yields P (set g track w))
    (h : HoldsDoubles (Json.get? node key)) (hg : P g) :
    Yields P (withWeights node key g set) := by
  refine (membersOf_yields h).bind fun members _ hmembers => ?_
  refine Yields.foldlM (fun m hm g hg => ?_) hg
  exact (Json.wholeNumeral_yields m.1).bind fun track _ _ => hset g _ m.2 (hmembers m hm) hg

theorem emptyGrid_yields (h : NodeInRange node) (hpanel : isPanel node = true) :
    Yields (fun g => g.toGridShape.InRange) (emptyGrid node) := by
  unfold emptyGrid
  have hcolumns := h.weights hpanel "column_weights" List.mem_cons_self
  have hrows := h.weights hpanel "row_weights" (List.mem_cons_of_mem _ List.mem_cons_self)
  refine (withPair_yields (P := fun g => g.toGridShape.InRange) (fun g x y hg =>
    Grid.setInsets_yields hg .margin x y)
    GridShape.InRange.empty).bind fun g _ hg => ?_
  refine (withPair_yields (P := fun g => g.toGridShape.InRange) (fun g x y hg =>
    Grid.setInsets_yields hg .frame x y) hg).bind
    fun g _ hg => ?_
  refine (withWeights_yields (P := fun g => g.toGridShape.InRange)
    (fun g track w hw hg => Grid.setColumnWeight_yields hg track hw) hcolumns hg).bind
      fun g _ hg => ?_
  exact withWeights_yields (P := fun g => g.toGridShape.InRange)
    (fun g track w hw hg => Grid.setRowWeight_yields hg track hw) hrows hg

theorem locationOf?_yields (h : AsksFinite (.object node)) :
    Yields (fun _ => True) (locationOf? node) := by
  have htrack : ∀ key ∈ ["column", "row"],
      Yields (fun _ => True)
        ((((Json.get? node key).getD (.number (.int 0))).toInt).mapError .conversion) := by
    intro key hkey
    refine Json.toInt_yields ?_
    cases hw : Json.get? node key with
    | none => exact fun hinfinite => by cases hinfinite.choose_spec
    | some w => exact h node rfl key hkey w hw
  unfold locationOf?
  split
  · exact trivial
  · exact (htrack "column" (by decide)).bind fun _ _ _ => (htrack "row" (by decide)).bind
      fun _ _ _ => trivial

private theorem placed_yields (held : Held) (child : Element) (node : Members)
    (h : Yields (fun _ => True) (locationOf? node)) :
    Yields (fun _ => True) ((do
      match ← (locationOf? node : Except LayoutError (Option Location)) with
      | none => return (held.1, held.2 ++ [child])
      | some location => do
        let grid ← held.1.add (child.withLocation location) location
        return (grid, held.2)) : Report Held).result := by
  rw [Report.result_bind]
  refine h.bind fun l _ _ => ?_
  cases l with
  | none => exact trivial
  | some location =>
    have hadd : Yields (fun _ => True) (held.1.add (child.withLocation location) location) := by
      unfold Grid.add
      split <;> exact trivial
    rw [Report.result_bind]
    exact hadd.bind fun _ _ _ => trivial

theorem placeChild_yields (held : Held) {element : Report Element}
    (h : Yields (fun _ => AsksFinite v) element.result) :
    Yields (fun _ => True) (placeChild held v element).result := by
  unfold placeChild
  rw [Report.result_bind]
  refine h.bind fun child _ hv => ?_
  cases v with
  | object node =>
    have hplaced := placed_yields held child node (locationOf?_yields hv)
    dsimp only
    split
    · exact hplaced
    · exact hplaced
  | _ => exact placed_yields held child [] trivial

theorem sizeOf_lt_of_mem_items (h : u ∈ items v) : sizeOf u < sizeOf v := by
  unfold items at h
  split at h
  · rename_i node
    split at h
    · split at h
      · rename_i us hchildren
        obtain ⟨l, r, hsplit, -⟩ := List.lookup_eq_some_iff.mp hchildren
        have hmem : ("children", Json.array us) ∈ node := by simp [hsplit]
        have hnode := List.sizeOf_lt_of_mem hmem
        have hitem := List.sizeOf_lt_of_mem h
        simp only [Prod.mk.sizeOf_spec, Json.array.sizeOf_spec, Json.object.sizeOf_spec] at hnode ⊢
        omega
      · cases h
    · cases h
  · cases h

/-- Induction on a document: a node after all that it holds. -/
theorem items_induction {P : Json → Prop} (h : ∀ v, (∀ u ∈ items v, P u) → P v) (v : Json) :
    P v := by
  induction hn : sizeOf v using Nat.strong_induction_on generalizing v with
  | _ n ih =>
    subst hn
    exact h v fun u hu => ih (sizeOf u) (sizeOf_lt_of_mem_items hu) u rfl

theorem childrenOf_yields (hpanel : isPanel node = true)
    (h : ∀ u ∈ items (.object node), Yields (fun _ => AsksFinite u) (load settings u).result) :
    Yields (fun children => ∀ child ∈ children, Yields (fun _ => AsksFinite child.1) child.2.result)
      (childrenOf node (loadChildren settings node)).result := by
  rw [items, if_pos hpanel] at h
  unfold childrenOf
  split
  · intro child hchild
    cases hchild
  · rename_i us hus
    simp only [hus] at h
    rw [loadChildren_eq hus]
    intro child hchild
    obtain ⟨u, hu, rfl⟩ := List.mem_map.mp hchild
    exact h u hu
  · split
    -- what is no array has parts that are no nodes
    · intro child hchild
      obtain ⟨p, -, rfl⟩ := List.mem_map.mp hchild
      exact trivial
    · exact trivial

theorem result_checkKeys (node : Members) : (checkKeys node).result = .ok () := by
  unfold checkKeys
  generalize (if isPanel node then panelKeys else componentKeys) = known
  dsimp only
  split <;> rfl

/-- A document in range is loaded or refused. -/
theorem load_yields (h : TreeInRange v) : Yields (fun _ => True) (load settings v).result := by
  induction v using items_induction with
  | h v ih =>
    cases v with
    | object node =>
      have hnode := h.root
      have hitems :
          ∀ u ∈ items (.object node), Yields (fun _ => AsksFinite u) (load settings u).result := by
        intro u hu
        obtain ⟨i, hi⟩ := List.mem_iff_getElem?.mp hu
        exact (ih u hu (h.child hi)).mono fun _ _ => hnode.cells u hu
      rw [load, assemble, Report.result_bind, result_checkKeys, ok_bind, Report.result_bind]
      refine (componentOf_yields hnode).bind fun c _ _ => ?_
      split
      · exact trivial
      · rename_i hpanel
        have hpanel : isPanel node = true := by simpa using hpanel
        rw [Report.result_bind]
        refine (emptyGrid_yields hnode hpanel).bind fun g _ _ => ?_
        rw [Report.result_bind]
        refine (childrenOf_yields hpanel hitems).bind fun children _ hchildren => ?_
        rw [Report.result_bind, Report.result_foldlM]
        refine Yields.bind (p := fun _ => True) ?_ fun held _ _ => trivial
        exact Yields.foldlM (fun child hchild held _ =>
          placeChild_yields held (hchildren child hchild)) trivial
    | _ => exact trivial

end Document

end PanelLayout
