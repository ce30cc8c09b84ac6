import PanelLayout.Proofs.Double.Units
import PanelLayout.Proofs.Grid.Operations

/-!
# Effective weights

What a grid does with its weights depends on the weight of each track alone: the last one that was
accepted for it, or one. How weights were set does not matter, nor which ones are stored for tracks
that the grid does not have.
-/

namespace PanelLayout

def weightOf? (v : Json) : Option Double :=
  match v.toDouble with
  | .ok (.finite false m) => if 0 < m.quanta then some (.finite false m) else none
  | _ => none

theorem toOption_checkWeight (v : Json) : (GridAxis.checkWeight v).toOption = weightOf? v := by
  ext w
  rw [toOption_eq_some_iff, GridAxis.checkWeight_eq_ok_iff, weightOf?]
  constructor
  · rintro ⟨hw, hfinite, rfl | ⟨m, rfl, hm⟩⟩
    · cases hfinite
    · simp [hw, hm]
  · intro h
    split at h
    · rename_i m hm
      split at h
      · rename_i hpos
        obtain rfl := Option.some.inj h
        exact ⟨hm, rfl, .inr ⟨m, rfl, hpos⟩⟩
      · cases h
    · cases h

theorem weightOf?_int {n : Int} (h : n.natAbs ≤ 2 ^ (51 : Nat)) :
    weightOf? (.number (.int n)) = if 0 < n then some (.ofInt n) else none := by
  obtain ⟨s, m, hm, hquanta⟩ := Double.isQuanta_ofInt h
  have hpos : 0 < m.signed s ↔ 0 < n := by
    have hmul := Int.mul_lt_mul_right quantaPerOne_cast_pos (b := 0) (c := n)
    rw [Int.zero_mul] at hmul
    rw [hquanta, hmul]
  rw [weightOf?, Json.toDouble, Number.toDouble_int_of_natAbs_le h, hm]
  cases s with
  | true =>
    have hn : ¬0 < n := by
      rw [← hpos, Magnitude.signed, if_pos rfl]
      omega
    rw [if_neg hn]
    rfl
  | false =>
    have hn : 0 < n ↔ 0 < m.quanta := by
      rw [← hpos, Magnitude.signed, if_neg Bool.false_ne_true]
      omega
    simp only [hn]
    rfl

theorem Double.IsPositive.eq_one {w : Double} (h : w.IsPositive) (hone : w.equals .one = true) :
    w = .one := by
  rcases isPositive_one with heq | ⟨m, heq, -⟩
  · rw [heq] at hone ⊢
    rcases h with rfl | ⟨l, rfl, -⟩
    · rfl
    · simp [equals, le] at hone
  · rw [heq] at hone ⊢
    rcases h with rfl | ⟨l, rfl, -⟩
    · simp [equals, le] at hone
    · have hquanta : l.quanta = m.quanta := by
        simp only [equals, le, Magnitude.signed, Bool.and_eq_true, decide_eq_true_eq,
          Bool.false_eq_true, if_false] at hone
        omega
      obtain ⟨q, hq⟩ := l
      obtain ⟨r, hr⟩ := m
      obtain rfl : q = r := hquanta
      rfl

namespace GridAxis

variable {a b : GridAxis} {t track : Number} {w : Double} {weights : List (Number × Double)}

def entryFor? (weights : List (Number × Double)) (t : Number) : Option Double :=
  (weights.find? (·.1.equals t)).map Prod.snd

def replaceEntry (weights : List (Number × Double)) (track : Number) (w : Double) :
    List (Number × Double) :=
  weights.map fun e => if e.1.equals track then (e.1, w) else e

theorem entryFor?_congr (h : track.equals t = true) :
    entryFor? weights t = entryFor? weights track := by
  simp only [entryFor?, Number.equals_congr h]

theorem entryFor?_filter_self : entryFor? (weights.filter (!·.1.equals track)) track = none := by
  rw [entryFor?, Option.map_eq_none_iff, List.find?_eq_none]
  intro e he
  simpa using (List.mem_filter.mp he).2

theorem entryFor?_filter_of_ne (h : track.equals t = false) :
    entryFor? (weights.filter (!·.1.equals track)) t = entryFor? weights t := by
  rw [entryFor?, entryFor?, List.find?_filter]
  congr 2
  funext e
  cases heq : e.1.equals t with
  | false => simp
  | true => simp [Number.equals_eq_false h heq]

theorem find?_replaceEntry (weights : List (Number × Double)) (track t : Number) (w : Double) :
    (replaceEntry weights track w).find? (·.1.equals t) =
      (weights.find? (·.1.equals t)).map fun e => if e.1.equals track then (e.1, w) else e := by
  rw [replaceEntry, List.find?_map]
  congr 2
  funext e
  simp only [Function.comp_apply]
  split <;> rfl

theorem entryFor?_replaceEntry_self (h : weights.any (·.1.equals track) = true) :
    entryFor? (replaceEntry weights track w) track = some w := by
  obtain ⟨e, he⟩ := Option.isSome_iff_exists.mp (List.find?_isSome.mpr (List.any_eq_true.mp h))
  have hequal := List.find?_some he
  rw [entryFor?, find?_replaceEntry, he, Option.map_some, if_pos hequal, Option.map_some]

theorem entryFor?_replaceEntry_of_ne (h : track.equals t = false) :
    entryFor? (replaceEntry weights track w) t = entryFor? weights t := by
  rw [entryFor?, entryFor?, find?_replaceEntry]
  cases he : weights.find? (·.1.equals t) with
  | none => rfl
  | some e =>
    have hequal := List.find?_some he
    simp [Number.equals_eq_false h hequal]

theorem entryFor?_nil (t : Number) : entryFor? [] t = none := rfl

theorem weight_eq (a : GridAxis) (t : Number) : a.weight t = (entryFor? a.weights t).getD .one :=
  rfl

theorem weight_setEntry (a : GridAxis) (hw : w.IsPositive) (track t : Number) :
    ({ a with weights := setEntry a.weights track w } : GridAxis).weight t = if track.equals t
      then w else a.weight t := by
  rw [weight_eq, weight_eq]
  dsimp only
  cases ht : track.equals t with
  | true =>
    rw [entryFor?_congr ht, if_pos rfl, setEntry]
    have hself : track.equals track = true :=
      Number.equals_trans ht (Number.equals_comm track t ▸ ht)
    split
    · rename_i hone
      rw [entryFor?_filter_self, Option.getD_none, hw.eq_one hone]
    · split
      · rename_i hany
        exact congrArg (·.getD .one) (entryFor?_replaceEntry_self hany)
      · rename_i hnone
        have hnone : a.weights.find? (·.1.equals track) = none := by simpa using hnone
        simp [entryFor?, hnone, hself]
  | false =>
    rw [if_neg Bool.false_ne_true, setEntry]
    split
    · rw [entryFor?_filter_of_ne ht]
    · split
      · exact congrArg (·.getD .one) (entryFor?_replaceEntry_of_ne ht)
      · simp [entryFor?, ht]

theorem frame_setWeight (a : GridAxis) (track : Number) (v : Json) :
    ((a.setWeight track v).toOption.getD a).count = a.count ∧
    ((a.setWeight track v).toOption.getD a).margin = a.margin ∧
      ((a.setWeight track v).toOption.getD a).frame = a.frame := by
  rw [setWeight]
  cases checkWeight v <;> exact ⟨rfl, rfl, rfl⟩

theorem weight_setWeight (a : GridAxis) (track : Number) (v : Json) (t : Number) :
    ((a.setWeight track v).toOption.getD a).weight t =
      ((if track.equals t then weightOf? v else none).getD (a.weight t)) := by
  rw [← toOption_checkWeight, setWeight]
  cases hw : checkWeight v with
  | error e => simp [Except.toOption]
  | ok w =>
    have hset := a.weight_setEntry (checkWeight_eq_ok_iff.mp hw).2.2 track t
    cases ht : track.equals t with
    | true => simpa [Except.toOption, ht] using hset
    | false => simpa [Except.toOption, ht] using hset

/-- Whether two axes have as many tracks, the same margin and frame, and the same weight for each of
their tracks. -/
structure LooksLike (a b : GridAxis) : Prop where
  count : a.count = b.count
  margin : a.margin = b.margin
  frame : a.frame = b.frame
  weights : ∀ i : Nat, (Number.int i).lt a.count = true → a.weight (.int i) = b.weight (.int i)

theorem weightSum_congr {tracks : Nat} (h : ∀ i < tracks, a.weight (.int i) = b.weight (.int i)) :
    a.weightSum tracks = b.weightSum tracks := by
  have hfold : ∀ n ≤ tracks, a.weightTotal n = b.weightTotal n := by
    intro n hn
    induction n with
    | zero => rfl
    | succ n ih => rw [weightTotal_succ, weightTotal_succ, ih (by omega), h n (by omega)]
  rcases Nat.eq_zero_or_pos tracks with rfl | hpos
  · rfl
  · rw [weightSum_of_pos hpos, weightSum_of_pos hpos, hfold tracks (Nat.le_refl _)]

theorem boundary_congr {count : Nat} (h : ∀ i < count, a.weight (.int i) = b.weight (.int i))
    (mode : Rounding) (usable : Number) (tracks : Nat) :
    a.boundary mode count usable tracks = b.boundary mode count usable tracks := by
  unfold boundary
  split
  · rfl
  · have hpart := weightSum_congr fun i (hi : i < tracks) => h i (by omega)
    rw [hpart, weightSum_congr h]

theorem lt_count_of_wholeTracks {count i : Nat} (h : wholeTracks a.count = .ok count)
    (hi : i < count) :
    (Number.int i).lt a.count = true := by
  unfold wholeTracks at h
  split at h
  · rename_i n hn
    obtain rfl := Except.ok.inj h
    have hwhole : a.count.IsWhole n := hn
    rw [(Number.isWhole_int i).lt hwhole, decide_eq_true_eq]
    omega
  · cases h

/-- A track starts and ends alike on both axes. The weights of tracks beyond the last one are not
looked at. -/
theorem LooksLike.span_eq (h : a.LooksLike b) (mode : Rounding) (start available : Number)
    (margin : Int) (track : Number) :
    a.span mode start available margin track = b.span mode start available margin track := by
  unfold span
  rw [← h.count]
  cases hcount : wholeTracks a.count with
  | error e => rfl
  | ok count =>
    have hboundary := boundary_congr fun i hi => h.weights i (lt_count_of_wholeTracks hcount hi)
    simp only [Report.liftM_ok_bind, hboundary]

end GridAxis

namespace GridShape

def LooksLike (g g' : GridShape) : Prop := ∀ axis, (g.along axis).LooksLike (g'.along axis)

theorem LooksLike.resolveAt_eq {g g' : GridShape} (h : g.LooksLike g') (registry : Variables)
    (mode : Rounding) (l : Location) (container : Rectangle) :
    g.resolveAt registry mode l container = g'.resolveAt registry mode l container := by
  have hx : g.horizontal.LooksLike g'.horizontal := h .horizontal
  have hy : g.vertical.LooksLike g'.vertical := h .vertical
  unfold resolveAt
  simp only [GridAxis.has, columns, rows, hx.count, hx.margin, hx.frame, hx.span_eq, hy.count,
    hy.margin, hy.frame, hy.span_eq]
  rfl

end GridShape

namespace Grid

variable {α : Type} {g : Grid α}

/-- The weight that an operation gives a track of an axis, if it gives it one. A call that is
refused gives none. -/
def Operation.weightFor? (axis : Axis) (t : Number) (operation : Operation α) : Option Double :=
  operation.weightCall?.bind fun (other, track, v) => if other = axis ∧ track.equals t = true
    then weightOf? v else none

def lastWeight? (axis : Axis) (t : Number) (operations : List (Operation α)) : Option Double :=
  operations.reverse.findSome? (Operation.weightFor? axis t)

theorem weight_operate (g : Grid α) (operation : Operation α) (axis : Axis) (t : Number) :
    ((g.operate operation).along axis).weight t =
      (operation.weightFor? axis t).getD ((g.along axis).weight t) := by
  rw [GridAxis.weight_eq, weights_operate, ← GridAxis.weight_eq, Operation.weighted,
    Operation.weightFor?]
  cases operation.weightCall? with
  | none => rfl
  | some call =>
    obtain ⟨other, track, v⟩ := call
    by_cases haxis : other = axis
    · simp [haxis, GridAxis.weight_setWeight]
    · simp [haxis]

theorem Operation.frame_weighted (operation : Operation α) (axis : Axis) (a : GridAxis) :
    (operation.weighted axis a).count = a.count ∧ (operation.weighted axis a).margin = a.margin ∧
      (operation.weighted axis a).frame = a.frame := by
  unfold Operation.weighted
  split
  · split
    · exact a.frame_setWeight ..
    · exact ⟨rfl, rfl, rfl⟩
  · exact ⟨rfl, rfl, rfl⟩

theorem frame_afterWeights {operations : List (Operation α)}
    (h : ∀ operation ∈ operations, operation.weightCall?.isSome = true) (g : Grid α) (axis : Axis) :
    ((operations.foldl operate g).along axis).count = (g.along axis).count ∧
      ((operations.foldl operate g).along axis).margin = (g.along axis).margin ∧
      ((operations.foldl operate g).along axis).frame = (g.along axis).frame := by
  induction operations generalizing g with
  | nil => exact ⟨rfl, rfl, rfl⟩
  | cons operation operations ih =>
    obtain ⟨hoperation, hrest⟩ := List.forall_mem_cons.mp h
    have hstep := operation.frame_weighted axis (g.along axis)
    rw [← along_operate hoperation] at hstep
    obtain ⟨hcount, hmargin, hframe⟩ := ih hrest (g.operate operation)
    exact ⟨hcount.trans hstep.1, hmargin.trans hstep.2.1, hframe.trans hstep.2.2⟩

/-- After some operations a track has the last weight that they gave it, or the one that it had
before. -/
theorem weight_afterOperations (g : Grid α) (operations : List (Operation α)) (axis : Axis)
    (t : Number) :
    ((operations.foldl operate g).along axis).weight t =
      (lastWeight? axis t operations).getD ((g.along axis).weight t) := by
  induction operations generalizing g with
  | nil => rfl
  | cons operation operations ih =>
    rw [List.foldl_cons, ih, weight_operate, lastWeight?, lastWeight?, List.reverse_cons,
      List.findSome?_append]
    cases operations.reverse.findSome? (Operation.weightFor? axis t) with
    | none => simp
    | some w => rfl

theorem reached_cons (operation : Operation α) (operations : List (Operation α)) :
    reached (operation :: operations) = operations.foldl operate (operate {} operation) := rfl

theorem looksLike_afterWeights {first second : List (Operation α)} (g : Grid α)
    (hfirst : ∀ operation ∈ first, operation.weightCall?.isSome = true)
    (hsecond : ∀ operation ∈ second, operation.weightCall?.isSome = true)
    (hlast : ∀ axis, ∀ i : Nat, (Number.int i).lt (g.along axis).count = true →
      lastWeight? axis (.int i) first = lastWeight? axis (.int i) second) :
    (first.foldl operate g).LooksLike (second.foldl operate g).toGridShape := by
  intro axis
  obtain ⟨hcount, hmargin, hframe⟩ := frame_afterWeights hfirst g axis
  obtain ⟨hcount', hmargin', hframe'⟩ := frame_afterWeights hsecond g axis
  refine ⟨hcount.trans hcount'.symm, hmargin.trans hmargin'.symm, hframe.trans hframe'.symm,
    fun i hi => ?_⟩
  rw [hcount] at hi
  rw [weight_afterOperations, weight_afterOperations, hlast axis i hi]

theorem isSome_setWeight (a : GridAxis) (track : Number) (v : Json) :
    (a.setWeight track v).toOption.isSome = (weightOf? v).isSome := by
  rw [← toOption_checkWeight, GridAxis.setWeight]
  cases GridAxis.checkWeight v <;> rfl

/-- Weights act only through their effective values. A call that sets a weight is accepted just for
a positive finite number. Whatever is done to a grid, a track weighs what was accepted for it last,
or one, and the tables hold none but positive finite weights other than one. Two grids that differ
in nothing but how they came by the weights of their tracks, or in weights of tracks that they do
not have, have the same cells. -/
theorem weights_effective (operations : List (Operation α)) :
    (∀ (g : Grid α) track v, (g.setColumnWeight track v).toOption.isSome = (weightOf? v).isSome ∧
      (g.setRowWeight track v).toOption.isSome = (weightOf? v).isSome) ∧
    (∀ axis t, ((reached operations).along axis).weight t =
      (lastWeight? axis t operations).getD .one) ∧
    (∀ axis, ∀ e ∈ ((reached operations).along axis).weights,
      e.2.IsPositive ∧ e.2.isFinite = true ∧ e.2.equals .one = false) ∧
    ∀ g g' : GridShape, g.LooksLike g' → ∀ registry mode l container,
      g.resolveAt registry mode l container = g'.resolveAt registry mode l container := by
  refine ⟨fun g track v => ⟨?_, ?_⟩, fun axis t => ?_, reached_holdsWeights operations, fun _ _ h =>
    h.resolveAt_eq⟩
  · rw [← isSome_setWeight g.horizontal track v, setColumnWeight]
    cases g.horizontal.setWeight track v <;> rfl
  · rw [← isSome_setWeight g.vertical track v, setRowWeight]
    cases g.vertical.setWeight track v <;> rfl
  · have hempty : (({} : Grid α).along axis).weights = [] := by cases axis <;> rfl
    rw [reached, weight_afterOperations, GridAxis.weight_eq, hempty, GridAxis.entryFor?_nil,
      Option.getD_none]

/-- A grid with a column of weight three, and one that came to it with another weight before, a
refused one after, and a weight for a column that it does not have. -/
theorem weights_effective_after_refusal :
    let add : Operation Unit := .change (.add () (.ofInts 1 0))
    let direct : List (Operation Unit) := [.columnWeight (.int 0) (.number (.int 3))]
    let detour : List (Operation Unit) := [.columnWeight (.int 0) (.number (.int 2)),
      .columnWeight (.int 7) (.number (.int 5)), .columnWeight (.int 0) (.number (.int 3)),
      .columnWeight (.int 0) (.number (.int 0))]
    (reached (add :: direct)).horizontal.weight (.int 7) = .one ∧
      (reached (add :: detour)).horizontal.weight (.int 7) = .ofInt 5 ∧
      ∀ registry mode l container, (reached (add :: direct)).resolveAt registry mode l container =
        (reached (add :: detour)).resolveAt registry mode l container := by
  intro add direct detour
  obtain ⟨-, hdirect, -, -⟩ := weights_effective (add :: direct)
  obtain ⟨-, hdetour, -, hcells⟩ := weights_effective (add :: detour)
  have hweights : weightOf? (.number (.int 3)) = some (.ofInt 3) ∧ weightOf? (.number (.int 2)) =
    some (.ofInt 2) ∧
      weightOf? (.number (.int 5)) = some (.ofInt 5) ∧ weightOf? (.number (.int 0)) = none :=
    ⟨weightOf?_int (by decide), weightOf?_int (by decide), weightOf?_int (by decide),
      weightOf?_int (by decide)⟩
  refine ⟨(hdirect .horizontal (.int 7)).trans ?_, (hdetour .horizontal (.int 7)).trans ?_,
    hcells _ _ ?_⟩
  · simp [add, direct, lastWeight?, Operation.weightFor?, Operation.weightCall?,
      List.findSome?_cons]
  · simp [add, detour, lastWeight?, Operation.weightFor?, Operation.weightCall?, hweights]
  · rw [reached_cons, reached_cons]
    refine looksLike_afterWeights _ (by simp [direct, Operation.weightCall?])
      (by simp [detour, Operation.weightCall?]) fun axis i hi => ?_
    cases axis with
    | horizontal =>
      have hfew : (Number.int i).lt (.int 2) = true := hi
      obtain rfl | rfl : i = 0 ∨ i = 1 := by
        simp at hfew
        omega
      · simp [direct, detour, lastWeight?, Operation.weightFor?, Operation.weightCall?, hweights]
      · simp [direct, detour, lastWeight?, Operation.weightFor?, Operation.weightCall?]
    | vertical => simp [direct, detour, lastWeight?, Operation.weightFor?, Operation.weightCall?]

end Grid

end PanelLayout
