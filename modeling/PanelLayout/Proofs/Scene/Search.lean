import PanelLayout.Proofs.Scene.Passes

/-!
# Search

A search below a panel of a scene goes through all that the panel holds, in one order: each child
before what that child holds, and this before the next child.
-/

namespace PanelLayout

namespace Scene

variable {s : Scene} {key : Key}

/-- The keys of all that is held below a key, each before what it holds itself. The first argument
bounds the depth. -/
def descendantsWithin : Nat → Scene → Key → List Key
  | 0, _, _ => []
  | n + 1, s, key => (s.children key).flatMap fun child => child :: descendantsWithin n s child

theorem descendantsWithin_of_leaf (n : Nat) (h : s.isPanel key = false) :
    descendantsWithin n s key = [] := by
  cases n with
  | zero => rfl
  | succ n =>
    have hnone : (s.node key).panel = none :=
      Option.isSome_eq_false_iff.mp h |> Option.isNone_iff_eq_none.mp
    rw [descendantsWithin, children_of_none hnone, List.flatMap_nil]

theorem findWithin_eq (n : Nat) (s : Scene) (name : Json) (key : Key) :
    findWithin n s name key = (descendantsWithin n s key).find? fun k =>
    (s.component k).name.equals name := by
  induction n generalizing key with
  | zero => rfl
  | succ n ih =>
    rw [findWithin, descendantsWithin, List.find?_flatMap]
    congr 1
    funext child
    rw [List.find?_cons]
    cases hname : (s.component child).name.equals name with
    | true => simp
    | false =>
      cases hpanel : s.isPanel child with
      | true => simp [ih]
      | false => simp [descendantsWithin_of_leaf n hpanel]

def descendants (s : Scene) (key : Key) : List Key := descendantsWithin (s.nodes.size + 1) s key

theorem find?_eq (s : Scene) (name : Json) (key : Key) :
    s.find? name key = (s.descendants key).find? fun k => (s.component k).name.equals name :=
  findWithin_eq ..

end Scene

end PanelLayout
