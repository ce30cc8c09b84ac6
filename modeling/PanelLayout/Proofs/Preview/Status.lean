import PanelLayout.Preview
import PanelLayout.Proofs.Drawing

/-!
# Answers to posted layouts

Each posted layout is answered with what was asked for, or it is refused and blamed, as long as its
numbers are in range. Beyond that the service itself fails, although the layout is at fault.
-/

namespace PanelLayout

namespace Preview

open Document (AsksFinite nodeComponent TreeInRange TreeHasRoom InPlace)

theorem isRefusal_iff (e : LayoutError) : isRefusal e = true ↔ e.category.IsBlamed := by
  unfold isRefusal ErrorCategory.IsBlamed
  cases e.category <;> simp

/-- Whether a job is in range: its window and all numbers in its layout have nearest doubles, and
margins leave lengths that have them wherever a child takes a cell. -/
structure Job.InRange (job : Job) : Prop where
  width : (Number.int job.width).Fits
  height : (Number.int job.height).Fits
  tree : TreeInRange (.object job.layout)
  room : ∀ c rect, nodeComponent {} (.object job.layout) = .ok c →
    (c.renderRect (.ofInts 0 0 job.width job.height)).result = .ok rect →
    TreeHasRoom (.object job.layout) rect

/-- Whether a posted body is in range: it asks for a finite window, and the job that it describes is
in range. -/
structure IsInRange (body : Json) : Prop where
  window : ∀ members, body = .object members → ∀ key ∈ ["width", "height"],
    ∀ v ∈ Json.get? members key, ¬v.IsInfinite
  job : ∀ job, Job.ofBody body = .ok job → job.InRange

theorem ofBody_yields {body : Json} (h : IsInRange body) :
    Yields Job.InRange (Job.ofBody body) := by
  suffices hjob : Yields (fun _ => True) (Job.ofBody body) by
    cases hbody : Job.ofBody body with
    | error e => rwa [hbody] at hjob
    | ok job => exact h.job job hbody
  unfold Job.ofBody
  split
  · rename_i members
    have hsize : ∀ key ∈ ["width", "height"], ∀ default : Int, Yields (fun _ => True)
        ((((Json.get? members key).getD (.number (.int default))).toInt).mapError .conversion) := by
      intro key hkey default
      refine Json.toInt_yields ?_
      cases hv : Json.get? members key with
      | none => exact fun hinfinite => by cases hinfinite.choose_spec
      | some v => exact h.window members rfl key hkey v hv
    split
    · refine (hsize "width" (by decide) 640).bind fun width _ _ =>
        (hsize "height" (by decide) 480).bind fun height _ _ => ?_
      split <;> exact trivial
    · exact trivial
  · exact trivial

/-- What is made of the layout pass of a body in range is never a failure of the service. -/
theorem answerValue_status {body : Json} (h : IsInRange body)
    {finish : Job → List Placement → Response}
    (hfinish : ∀ job ps, job.InRange →
      (∀ p ∈ ps, InPlace (.forRoot (.ofInts 0 0 job.width job.height) {}) p) →
      (finish job ps).status = 200) :
    (answerValue body finish).status = 200 ∨ (answerValue body finish).status = 400 := by
  have hpass : Yields (fun r : Job × List Placement => r.1.InRange ∧
      ∀ p ∈ r.2, InPlace (.forRoot (.ofInts 0 0 r.1.width r.1.height) {}) p)
      (do let job ← Job.ofBody body; return (job, ← job.placements.result)) := by
    refine (ofBody_yields h).bind fun job _ hjob => ?_
    have hcontainer : (Rectangle.ofInts 0 0 job.width job.height).InRange :=
      ⟨_, _, _, _, rfl, hjob.width, hjob.height⟩
    exact (Document.layout_yields hjob.tree hcontainer hjob.room).bind fun ps _ hps => ⟨hjob, hps⟩
  unfold answerValue
  generalize (do let job ← Job.ofBody body; return (job, ← job.placements.result) :
    Except LayoutError (Job × List Placement)) = result at hpass
  dsimp only
  cases result with
  | ok r => exact .inl (hfinish r.1 r.2 hpass.1 hpass.2)
  | error e =>
    right
    dsimp only
    rw [if_pos ((isRefusal_iff e).mpr hpass)]
    rfl

theorem answerPost_eq_ok {text : String} {body : Json} (hbody : Json.ofText text = .ok body)
    (finish : Job → List Placement → Response) :
    answerPost text finish = .ok (answerValue body finish) := by
  rw [answerPost, hbody]
  rfl

theorem draw_status {job : Job} (hjob : job.InRange) {ps : List Placement}
    (hps : ∀ p ∈ ps, InPlace (.forRoot (.ofInts 0 0 job.width job.height) {}) p) :
    (draw job ps).status = 200 := by
  have hcontainer : (Rectangle.ofInts 0 0 job.width job.height).InRange :=
    ⟨_, _, _, _, rfl, hjob.width, hjob.height⟩
  obtain ⟨image, himage⟩ :=
    Drawing.ofPlacements_eq_ok hcontainer hps (.int job.width) (.int job.height)
  rw [draw, himage]
  rfl

/-- Posted layouts are answered or refused. A body that is read and in range is answered with its
listing or its drawing, or refused as the fault of the layout; the service does not fail. -/
theorem answer_status {request : Request} {text : String} {body : Json}
    (hmethod : request.method = .post text)
    (hpath : request.plainPath = "/rects.json" ∨ request.plainPath = "/preview.svg")
    (hbody : Json.ofText text = .ok body) (h : IsInRange body) :
    ∃ response, answer request = .ok response ∧
      (response.status = 200 ∨ response.status = 400) := by
  unfold answer
  rw [hmethod]
  rcases hpath with hpath | hpath
  · rw [hpath]
    exact ⟨_, answerPost_eq_ok hbody _, answerValue_status h fun _ _ _ _ => rfl⟩
  · rw [hpath]
    exact ⟨_, answerPost_eq_ok hbody draw,
      answerValue_status h fun _ _ hjob hps => draw_status hjob hps⟩

def twoColumns : List (String × Json) := [("margin", .text "3"), ("children", .array [
  .object [("column", .number (.int 0))], .object [("column", .number (.int 1))]])]

def twoColumnsBody : Json :=
  .object [("layout", .object twoColumns), ("width", .number (.int 20)),
    ("height", .number (.int 10))]

private theorem twoColumns_node {path : List Nat} {u : Json}
    (h : Document.nodeAt? (.object twoColumns) path = some u) :
    path = [] ∧ u = .object twoColumns ∨ ∃ k, u = .object [("column", .number (.int k))] := by
  have hleaf : ∀ (k : Int) (path : List Nat),
    Document.nodeAt? (.object [("column", .number (.int k))]) path = some u →
      u = .object [("column", .number (.int k))] := by
    intro k path hu
    cases path with
    | nil => exact (Option.some.inj hu).symm
    | cons i path => cases hu
  match path, h with
  | [], h => exact .inl ⟨rfl, (Option.some.inj h).symm⟩
  | 0 :: path, h => exact .inr ⟨0, hleaf 0 path h⟩
  | 1 :: path, h => exact .inr ⟨1, hleaf 1 path h⟩
  | (i + 2) :: path, h => cases h

private theorem twoColumns_tree : TreeInRange (.object twoColumns) := by
  have hcolumn : ∀ k : Int, AsksFinite (.object [("column", .number (.int k))]) := by
    intro k node hnode key hkey v hv hinfinite
    cases hnode
    simp only [List.mem_cons, List.not_mem_nil, or_false] at hkey
    rcases hkey with rfl | rfl
    · obtain rfl := Option.some.inj hv
      cases hinfinite.choose_spec
    · cases hv
  intro path node hnode
  rcases twoColumns_node hnode with ⟨-, hroot⟩ | ⟨k, hleaf⟩
  · cases hroot
    refine ⟨(fun _ h => nomatch h), fun _ key hkey => ?_, fun u hu => ?_⟩
    · simp only [List.mem_cons, List.not_mem_nil, or_false] at hkey
      rcases hkey with rfl | rfl <;> exact fun _ h => nomatch h
    · have hitems : Document.items (.object twoColumns) =
          [.object [("column", .number (.int 0))], .object [("column", .number (.int 1))]] := rfl
      simp only [hitems, List.mem_cons, List.not_mem_nil, or_false] at hu
      rcases hu with rfl | rfl
      · exact hcolumn 0
      · exact hcolumn 1
  · cases hleaf
    exact ⟨(fun _ h => nomatch h), (fun hpanel => nomatch hpanel), fun u hu => nomatch hu⟩

private theorem twoColumns_room {c : Component} {rect : Rectangle}
    (hc : nodeComponent {} (.object twoColumns) = .ok c)
    (hrect : (c.renderRect (.ofInts 0 0 20 10)).result = .ok rect) :
    TreeHasRoom (.object twoColumns) rect := by
  have h : ((nodeComponent {} (.object twoColumns)).toOption.bind fun c =>
      (Document.shapeOf (.object twoColumns)).toOption.bind fun shape =>
      (c.renderRect (.ofInts 0 0 20 10)).result.toOption.bind fun rect =>
      (shape.inset c.registry .truncate rect).result.toOption.map fun m =>
        (m, shape.horizontal.count, shape.vertical.count)) =
      some ((.ofInts 0 0 20 10, 3, 3), .int 2, .int 1) := by decide +kernel
  intro path i u inner hu hlisted hcell hinner
  rcases twoColumns_node hu with ⟨rfl, rfl⟩ | ⟨k, rfl⟩
  · cases hinner
    intro c' shape area marginX marginY hc' hshape hinset
    obtain rfl := Except.ok.inj (hc'.symm.trans hc)
    simp only [hc, hshape, hrect, hinset, Except.toOption, Option.bind_some, Option.map_some,
      Option.some.injEq, Prod.mk.injEq] at h
    obtain ⟨⟨rfl, rfl, rfl⟩, hcolumns, hrows⟩ := h
    constructor
    · intro n count hn hcount
      rw [hcolumns] at hcount
      cases hn
      cases hcount
      exact ⟨.ofInt 17, by decide +kernel⟩
    · intro n count hn hcount
      rw [hrows] at hcount
      cases hn
      cases hcount
      exact ⟨.ofInt 10, by decide +kernel⟩
  · exact absurd rfl hcell

private theorem twoColumns_inRange : IsInRange twoColumnsBody := by
  constructor
  · intro members hmembers key hkey v hv hinfinite
    cases hmembers
    simp only [List.mem_cons, List.not_mem_nil, or_false] at hkey
    rcases hkey with rfl | rfl
    all_goals
      obtain rfl := Option.some.inj hv
      cases hinfinite.choose_spec
  · intro job hjob
    have hsize : Job.ofBody twoColumnsBody = .ok ⟨twoColumns, 20, 10⟩ := rfl
    obtain rfl := Except.ok.inj (hjob.symm.trans hsize)
    exact ⟨⟨.ofInt 20, by decide +kernel⟩, ⟨.ofInt 10, by decide +kernel⟩, twoColumns_tree,
      fun c rect => twoColumns_room⟩

def twoColumnsText : String :=
  "\x7b\"layout\": \x7b\"margin\": \"3\", \"children\": [\x7b\"column\": 0\x7d, " ++
    "\x7b\"column\": 1\x7d]\x7d, \"width\": 20, \"height\": 10\x7d"

/-- Two columns are listed or refused. -/
theorem answer_status_two_columns : Json.ofText twoColumnsText = .ok twoColumnsBody ∧
    IsInRange twoColumnsBody ∧
      ∃ response, answer ⟨"/rects.json", .post twoColumnsText⟩ = .ok response ∧
      (response.status = 200 ∨ response.status = 400) :=
  have hread : Json.ofText twoColumnsText = .ok twoColumnsBody :=
    toOption_eq_some_iff.mp (by decide +kernel)
  ⟨hread, twoColumns_inRange,
    answer_status rfl (.inl (by decide +kernel)) hread twoColumns_inRange⟩

def nullVariables : Request :=
  ⟨"/rects.json", .post "\x7b\"layout\": \x7b\"variables\": null\x7d\x7d"⟩

/-- Variables that are no object are a fault of the layout, and yet the service fails on them. -/
theorem answer_status_null_variables :
    ∃ response, answer nullVariables = .ok response ∧ response.status = 500 := by
  have h : (answer nullVariables).toOption.map Response.status = some 500 := by decide +kernel
  obtain ⟨response, hresponse, hstatus⟩ := Option.map_eq_some_iff.mp h
  exact ⟨response, toOption_eq_some_iff.mp hresponse, hstatus⟩

end Preview

end PanelLayout
