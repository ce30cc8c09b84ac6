import PanelLayout.Proofs.Grid.Cells
import PanelLayout.Scene

/-!
# Changes of one node

What the changes of a scene do to the locations of its components and to what its panels hold.
-/

namespace PanelLayout

namespace Scene

variable {s : Scene} {key other : Key}

def location (s : Scene) (key : Key) : Option Location := (s.node key).component.location

@[simp] theorem location_component (s : Scene) (key : Key) : (s.component key).location =
    s.location key := rfl

theorem lt_size_of_isPanel (h : s.isPanel key = true) : key < s.nodes.size := by
  by_contra hout
  have hnone : s.nodes[key]? = none := Array.getElem?_eq_none (Nat.le_of_not_lt hout)
  simp [isPanel, node, hnone, default] at h

@[simp] theorem size_setNode (s : Scene) (key : Key) (node : SceneNode) :
    (s.setNode key node).nodes.size = s.nodes.size := by
  simp [setNode]

@[simp] theorem size_setLocation (s : Scene) (key : Key) (l : Option Location) :
    (s.setLocation key l).nodes.size = s.nodes.size := size_setNode ..

@[simp] theorem size_setPanel (s : Scene) (key : Key) (p : PanelNode) :
    (s.setPanel key p).nodes.size = s.nodes.size :=
  size_setNode ..

theorem node_setNode (s : Scene) (key other : Key) (node : SceneNode) :
    (s.setNode key node).node other = if key = other ∧ key < s.nodes.size then node
      else s.node other := by
  unfold Scene.node setNode
  rw [Array.getElem?_setIfInBounds]
  by_cases heq : key = other
  · by_cases hin : key < s.nodes.size
    · simp [heq, heq ▸ hin]
    · simp [heq, heq ▸ hin]
  · simp [heq]

@[simp] theorem panel_setLocation (s : Scene) (key other : Key) (l : Option Location) :
    (s.setLocation key l).panel other = s.panel other := by
  simp only [panel, setLocation, setComponent, node_setNode]
  split
  · rename_i h
    rw [h.1]
  · rfl

@[simp] theorem location_setPanel (s : Scene) (key other : Key) (p : PanelNode) :
    (s.setPanel key p).location other = s.location other := by
  simp only [location, setPanel, node_setNode]
  split
  · rename_i h
    rw [h.1]
  · rfl

theorem location_setLocation (s : Scene) (key other : Key) (l : Option Location) :
    (s.setLocation key l).location other = if key = other ∧ key < s.nodes.size then l
      else s.location other := by
  simp only [location, setLocation, setComponent, node_setNode]
  split <;> rfl

theorem panel_setPanel (s : Scene) (key other : Key) (p : PanelNode) :
    (s.setPanel key p).panel other = if key = other ∧ key < s.nodes.size then p
      else s.panel other := by
  simp only [panel, setPanel, node_setNode]
  split <;> rfl

theorem setPanel_panel (h : s.isPanel key = true) : s.setPanel key (s.panel key) = s := by
  have hin := lt_size_of_isPanel h
  obtain ⟨p, hp⟩ := Option.isSome_iff_exists.mp h
  have hnode : s.nodes[key] = s.node key := by simp [node, hin]
  have hsame : ({ s.node key with panel := some (s.panel key) } : SceneNode) = s.nodes[key] := by
    rw [panel, hp, Option.getD_some, ← hp, hnode]
  have hnodes : s.nodes.setIfInBounds key s.nodes[key] = s.nodes := by
    apply Array.ext_getElem?
    intro i
    rw [Array.getElem?_setIfInBounds]
    split
    · rename_i heq
      simp [← heq, hin]
    · rfl
  rw [setPanel, hsame, setNode, hnodes]

end Scene

end PanelLayout
