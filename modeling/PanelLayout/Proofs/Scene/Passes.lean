import PanelLayout.Proofs.Placement.Levels
import PanelLayout.Proofs.Scene.Nodes

/-!
# Layout passes over a scene

Which components of a scene a layout pass places, by their keys, and how often.
-/

namespace PanelLayout

namespace Scene

variable {s : Scene} {n m : Nat} {key other root : Key}

theorem forall₂_trans {α β γ : Type} {R : α → β → Prop} {S : β → γ → Prop} {T : α → γ → Prop}
    {as : List α} {bs : List β} {cs : List γ} (hab : List.Forall₂ R as bs)
    (hbc : List.Forall₂ S bs cs) (h : ∀ a ∈ as, ∀ b c, R a b → S b c → T a c) :
    List.Forall₂ T as cs := by
  induction hab generalizing cs with
  | nil =>
    cases hbc
    exact .nil
  | cons hr _ ih =>
    cases hbc with
    | cons hs hbc =>
      exact .cons (h _ List.mem_cons_self _ _ hr hs) (ih hbc fun a ha =>
        h a (List.mem_cons_of_mem _ ha))

/-- The keys of what a layout pass places below a key, itself first. The first argument bounds the
depth. -/
def placedWithin : Nat → Scene → Key → List Key
  | 0, _, _ => []
  | n + 1, s, key => key :: ((s.children key).filter (s.isLaidOut key)).flatMap (placedWithin n s)

def placed (s : Scene) (root : Key) : List Key := placedWithin (s.nodes.size + 1) s root

theorem children_of_none (h : (s.node key).panel = none) : s.children key = [] := by
  simp [children, panel, h, Element.paintOrder]

theorem children_perm (s : Scene) (panel : Key) :
    (s.children panel).Perm ((s.panel panel).grid.clients ++ (s.panel panel).free) :=
  ((List.mergeSort_perm _ _).map Prod.snd).append_right _

theorem mem_children {panel : Key} :
    key ∈ s.children panel ↔ key ∈ (s.panel panel).grid.clients ∨ key ∈ (s.panel panel).free := by
  rw [(s.children_perm panel).mem_iff, List.mem_append]

theorem elementWithin_leaf (h : (s.node key).panel = none) :
    elementWithin (n + 1) s key = .ok (.leaf (s.component key)) := by
  simp only [elementWithin, h]

theorem elementWithin_panel {p : PanelNode} (h : (s.node key).panel = some p) {e : Element} :
    elementWithin (n + 1) s key = .ok e ↔
      ∃ es, List.Forall₂ (fun k e => elementWithin n s k = .ok e)
        ((s.children key).filter (s.isLaidOut key)) es ∧
        e = .panel (s.component key) ⟨p.grid.toGridShape, p.textResize⟩ es := by
  simp only [elementWithin, h, bind_eq_ok_iff, mapM_eq_ok_iff, pure_eq_ok, Except.ok.injEq,
    eq_comm (b := e)]

theorem component_of_elementWithin {e : Element} (h : elementWithin n s key = .ok e) :
    e.component = s.component key := by
  cases n with
  | zero => cases h
  | succ n =>
    cases hp : (s.node key).panel with
    | none =>
      rw [elementWithin_leaf hp] at h
      rw [← Except.ok.inj h, Element.component]
    | some p =>
      obtain ⟨es, -, rfl⟩ := (elementWithin_panel hp).mp h
      rfl

theorem exists_elementWithin_of_child {e : Element} (h : elementWithin (n + 1) s key = .ok e)
    (hother : other ∈ (s.children key).filter (s.isLaidOut key)) :
    ∃ e', elementWithin n s other = .ok e' := by
  cases hp : (s.node key).panel with
  | none => simp [children_of_none hp] at hother
  | some p =>
    obtain ⟨es, hes, -⟩ := (elementWithin_panel hp).mp h
    obtain ⟨i, hi, rfl⟩ := List.getElem_of_mem hother
    have hi' : i < es.length := hes.length_eq ▸ hi
    exact ⟨es[i], hes.get hi hi'⟩

theorem exists_holder (h : other ∈ placedWithin n s key) :
    other = key ∨ ∃ holder ∈ placedWithin n s key, other ∈ s.children holder := by
  induction n generalizing key with
  | zero => cases h
  | succ n ih =>
    rcases List.mem_cons.mp h with heq | hbelow
    · exact .inl heq
    · obtain ⟨child, hchild, hother⟩ := List.mem_flatMap.mp hbelow
      right
      rcases ih hother with rfl | ⟨holder, hholder, hheld⟩
      · exact ⟨key, List.mem_cons_self, (List.mem_filter.mp hchild).1⟩
      · exact ⟨holder, List.mem_cons_of_mem _ (List.mem_flatMap.mpr ⟨child, hchild, hholder⟩),
          hheld⟩

theorem placedWithin_eq_of_le {e : Element} (h : elementWithin n s key = .ok e) (hle : n ≤ m) :
    placedWithin m s key = placedWithin n s key := by
  induction n generalizing m key e with
  | zero => cases h
  | succ n ih =>
    obtain ⟨m, rfl⟩ := Nat.exists_eq_add_one_of_ne_zero (by omega : m ≠ 0)
    simp only [placedWithin, List.cons.injEq, true_and]
    refine List.flatMap_congr fun child hchild => ?_
    obtain ⟨e', he'⟩ := exists_elementWithin_of_child h hchild
    exact ih he' (by omega)

theorem exists_elementWithin_of_mem {e : Element} (h : elementWithin n s key = .ok e)
    (hother : other ∈ placedWithin n s key) : ∃ m ≤ n, ∃ e', elementWithin m s other = .ok e' := by
  induction n generalizing key e with
  | zero => cases h
  | succ n ih =>
    rcases List.mem_cons.mp hother with rfl | hbelow
    · exact ⟨n + 1, Nat.le_refl _, e, h⟩
    · obtain ⟨child, hchild, hmem⟩ := List.mem_flatMap.mp hbelow
      obtain ⟨e', he'⟩ := exists_elementWithin_of_child h hchild
      obtain ⟨m, hm, hend⟩ := ih he' hmem
      exact ⟨m, by omega, hend⟩

theorem notMem_below {e : Element} (h : elementWithin (n + 1) s key = .ok e) :
    key ∉ ((s.children key).filter (s.isLaidOut key)).flatMap (placedWithin n s) := by
  induction n using Nat.strong_induction_on generalizing e with
  | _ n ih =>
    intro hmem
    obtain ⟨child, hchild, hkey⟩ := List.mem_flatMap.mp hmem
    obtain ⟨e', he'⟩ := exists_elementWithin_of_child h hchild
    -- the key would have an end within a smaller bound, where the induction hypothesis applies
    obtain ⟨m, hm, e₁, hend⟩ := exists_elementWithin_of_mem he' hkey
    cases m with
    | zero => cases hend
    | succ m =>
      refine ih m (by omega) hend ?_
      obtain ⟨e₂, hsooner⟩ := exists_elementWithin_of_child hend hchild
      rw [placedWithin_eq_of_le hsooner (by omega)] at hkey
      exact List.mem_flatMap.mpr ⟨child, hchild, hkey⟩

private theorem count_flatMap_le {keys : List Key} {f : Key → List Key}
    (h : ∀ child ∈ keys, (f child).count key ≤ if child = key then 1 else 0) :
    (keys.flatMap f).count key ≤ keys.count key := by
  induction keys with
  | nil => simp
  | cons child keys ih =>
    have hchild := h child List.mem_cons_self
    have hkeys := ih fun c hc => h c (List.mem_cons_of_mem _ hc)
    simp only [List.flatMap_cons, List.count_append, List.count_cons, beq_iff_eq]
    omega

/-- A pass that has an end places no key twice if the root holds it at most once and nothing else
holds it. -/
theorem count_placedWithin_le {e : Element} (h : elementWithin (n + 1) s root = .ok e)
    (hnodup : (s.children root).Nodup) (honly : ∀ panel, panel ≠ root → key ∉ s.children panel) :
    (placedWithin (n + 1) s root).count key ≤ 1 := by
  have hroot := notMem_below h
  by_cases hkey : key = root
  · rw [hkey, placedWithin, List.count_cons_self, List.count_eq_zero_of_not_mem hroot]
  · have hbelow : ∀ child ∈ (s.children root).filter (s.isLaidOut root),
        (placedWithin n s child).count key ≤ if child = key then 1 else 0 := by
      intro child hchild
      split
      · rename_i heq
        subst heq
        obtain ⟨e', he'⟩ := exists_elementWithin_of_child h hchild
        cases n with
        | zero => cases he'
        | succ n =>
          rw [placedWithin, List.count_cons_self, List.count_eq_zero_of_not_mem (notMem_below he')]
      · rename_i hne
        rw [Nat.le_zero, List.count_eq_zero]
        intro hmem
        rcases exists_holder hmem with heq | ⟨holder, hholder, hheld⟩
        · exact hne heq.symm
        · have heq : holder = root := by
            by_contra hother
            exact honly holder hother hheld
          exact hroot (List.mem_flatMap.mpr ⟨child, hchild, heq ▸ hholder⟩)
    rw [placedWithin, List.count_cons_of_ne (Ne.symm hkey)]
    exact (count_flatMap_le hbelow).trans (List.nodup_iff_count_le_one.mp (hnodup.filter _) key)

def IsPlacementOf (s : Scene) (key : Key) (p : Placement) : Prop :=
  p.component = s.component key ∧ p.isPanel = s.isPanel key

private theorem placeIn_placed {panel : Component} {shape : GridShape} {scale : TextScale}
    {depth : Nat} {container : Rectangle} {keys : List Key} {es : List Element}
    {ps : List Placement}
    (hplace : ∀ key e scale depth rect ps, elementWithin n s key = .ok e →
      (e.place scale depth rect).result = .ok ps →
      List.Forall₂ (IsPlacementOf s) (placedWithin n s key) ps)
    (hvisible : ∀ key ∈ keys, (s.component key).visible = true)
    (hes : List.Forall₂ (fun k e => elementWithin n s k = .ok e) keys es)
    (h : (Element.placeIn panel shape scale depth container es).result = .ok ps) :
    List.Forall₂ (IsPlacementOf s) (keys.flatMap (placedWithin n s)) ps := by
  induction hes generalizing ps with
  | nil =>
    obtain rfl := Except.ok.inj h
    exact .nil
  | @cons key e keys es he hes ih =>
    have hshown : e.component.visible = true := by
      rw [component_of_elementWithin he]
      exact hvisible key List.mem_cons_self
    obtain ⟨rect, here, later, -, hhere, hlater, rfl⟩ := (Element.placeIn_of_visible hshown).mp h
    rw [List.flatMap_cons]
    have hfirst := hplace key e _ _ _ _ he hhere
    have hrest := ih (fun k hk => hvisible k (List.mem_cons_of_mem _ hk)) hlater
    exact List.rel_append hfirst hrest

theorem place_placed {e : Element} {scale : TextScale} {depth : Nat} {rect : Rectangle}
    {ps : List Placement} (he : elementWithin n s key = .ok e)
    (h : (e.place scale depth rect).result = .ok ps) :
    List.Forall₂ (IsPlacementOf s) (placedWithin n s key) ps := by
  induction n generalizing key e scale depth rect ps with
  | zero => cases he
  | succ n ih =>
    cases hp : (s.node key).panel with
    | none =>
      rw [elementWithin_leaf hp] at he
      obtain rfl := Except.ok.inj he
      obtain rfl := Except.ok.inj h
      rw [placedWithin, children_of_none hp]
      exact .cons ⟨rfl, by simp [isPanel, hp]⟩ .nil
    | some p =>
      obtain ⟨es, hes, rfl⟩ := (elementWithin_panel hp).mp he
      obtain ⟨held, hheld, h⟩ := Report.result_bind_eq_ok_iff.mp h
      obtain rfl := Except.ok.inj h
      refine .cons ⟨rfl, by simp [isPanel, hp]⟩
        (placeIn_placed (fun _ _ _ _ _ _ => ih) (fun child hchild => ?_) hes hheld)
      have hshown := (List.mem_filter.mp hchild).2
      simp only [isLaidOut, Bool.and_eq_true] at hshown
      exact hshown.1

end Scene

end PanelLayout
