import PanelLayout.Drawing
import PanelLayout.Proofs.Double.Range
import PanelLayout.Proofs.Markup

/-!
# Elements of a drawing

A drawing has one rectangle for its background, one for each component that is not empty, and one
text for each of these that has a name. This can be counted in the written drawing, whatever the
names are. There is a drawing as long as its labels have a size.
-/

namespace PanelLayout

namespace Number

variable {a b c : Number} {n : Int} {x : Double}

theorem div_eq_ok (h : a.div b = .ok c) : ∃ x, c = double x := by
  unfold Number.div at h
  split at h
  · split at h
    · cases h
    · obtain ⟨x, -, hx⟩ := bind_eq_ok_iff.mp h
      exact ⟨x, (Except.ok.inj hx).symm⟩
  · obtain ⟨x, -, h⟩ := bind_eq_ok_iff.mp h
    obtain ⟨y, -, h⟩ := bind_eq_ok_iff.mp h
    split at h
    · cases h
    · exact ⟨x / y, (Except.ok.inj h).symm⟩

theorem fits_of_truncate (h : (double x).truncate = .ok n) : (int n).Fits := by
  cases x with
  | nan | infinite => cases h
  | finite s m =>
    obtain rfl := Except.ok.inj h
    refine fits_of_mul_le m.isDouble ?_
    have hnatAbs : ∀ k : Nat, (if s = true then -(k : Int) else k).natAbs = k := by cases s <;> simp
    rw [hnatAbs]
    exact Nat.div_mul_le_self m.quanta quantaPerOne

theorem Fits.add_eq_ok (h : (int n).Fits) (a : Number) : ∃ b, a.add (int n) = .ok b := by
  obtain ⟨y, hy⟩ := h
  cases hvalue : a.value with
  | inl m => exact ⟨int (m + n), by simp only [Number.add, hvalue, value_int]⟩
  | inr x =>
    have ha : a.toDouble = .ok x := by rw [toDouble, hvalue]
    exact ⟨double (x + y), by
      simp only [Number.add, hvalue, value_int, ha, hy, ok_bind, pure_eq_ok]⟩

end Number

theorem TextScale.fits_of_wholeTextSize {scale : TextScale} {n k : Int}
    (h : scale.wholeTextSize n = .ok k) (hn : (Number.int n).Fits) : (Number.int k).Fits := by
  unfold wholeTextSize at h
  split at h
  · unfold scaled at h
    split at h
    · obtain rfl := Except.ok.inj h
      exact Number.fits_zero
    · obtain ⟨ratio, -, h⟩ := bind_eq_ok_iff.mp h
      obtain ⟨size, hsize, h⟩ := bind_eq_ok_iff.mp h
      obtain ⟨x, rfl⟩ := Number.div_eq_ok hsize
      exact Number.fits_of_truncate h
  · obtain rfl := Except.ok.inj h
    exact hn

namespace Drawing

variable {p : Placement} {ps : List Placement} {ms : List Markup} {image : Markup}
    {width height : Number}

def isLabelled (p : Placement) : Bool := !p.rect.isEmpty && p.component.name.isTruthy

def shapeNames (p : Placement) : List String :=
  if p.rect.isEmpty then [] else if p.component.name.isTruthy then ["rect", "text"] else ["rect"]

theorem label_isOk_iff (p : Placement) :
    (∃ ms, label p = .ok ms) ↔
    (p.component.name.isTruthy = true → ∃ n, p.scale.wholeTextSize labelSize = .ok n) := by
  unfold label
  split
  · rename_i hname
    constructor
    · intro h _
      obtain ⟨ms, h⟩ := h
      obtain ⟨n, hn, -⟩ := bind_eq_ok_iff.mp h
      exact ⟨n, hn⟩
    · intro h
      obtain ⟨n, hn⟩ := h hname
      have hlabel : (Number.int labelSize).Fits := ⟨.ofInt labelSize, by decide +kernel⟩
      have htwo : (Number.int 2).Fits := ⟨.ofInt 2, by decide +kernel⟩
      have hone : (Number.int 1).Fits := ⟨.ofInt 1, by decide +kernel⟩
      have hsize : (Number.int (max n 1)).Fits := by
        rcases Int.le_total n 1 with hle | hle
        · rwa [Int.max_eq_right hle]
        · rw [Int.max_eq_left hle]
          exact TextScale.fits_of_wholeTextSize hn hlabel
      obtain ⟨left, hleft⟩ := htwo.add_eq_ok p.rect.x
      obtain ⟨top, htop⟩ := hsize.add_eq_ok p.rect.y
      simp only [hn, hleft, htop, ok_bind]
      exact ⟨_, rfl⟩
  · rename_i hname
    exact ⟨fun _ h => absurd h hname, fun _ => ⟨[], rfl⟩⟩

theorem shapes_isOk_iff (p : Placement) :
    (∃ ms, shapes p = .ok ms) ↔
    (isLabelled p = true → ∃ n, p.scale.wholeTextSize labelSize = .ok n) := by
  unfold shapes isLabelled
  split
  · rename_i hempty
    rw [hempty]
    exact ⟨fun _ h => absurd h Bool.false_ne_true, fun _ => ⟨[], rfl⟩⟩
  · rename_i hempty
    rw [Bool.not_eq_true] at hempty
    rw [hempty, Bool.not_false, Bool.true_and, ← label_isOk_iff]
    constructor
    · intro h
      obtain ⟨ms, h⟩ := h
      obtain ⟨inner, hinner, -⟩ := bind_eq_ok_iff.mp h
      exact ⟨inner, hinner⟩
    · intro h
      obtain ⟨inner, hinner⟩ := h
      simp only [hinner, ok_bind]
      exact ⟨_, rfl⟩

private theorem outline_isPlain (x y width height style : String) :
    (Markup.element "rect" [("x", x), ("y", y), ("width", width), ("height", height),
      ("style", style)] [] false).IsPlain := by
  rw [Markup.isPlain_element_iff]
  change ∀ s ∈ ["rect", "x", "y", "width", "height", "style"], '<' ∉ s.toList
  decide

private theorem label_isPlain (x y size family text : String) :
    (Markup.element "text" [("x", x), ("y", y), ("font_size", size), ("font_family", family)]
      [.text text] false).IsPlain := by
  rw [Markup.isPlain_element_iff]
  change ∀ s ∈ ["text", "x", "y", "font_size", "font_family"], '<' ∉ s.toList
  decide

/-- The elements for one component, by their names. -/
theorem elementsIn_shapes (h : shapes p = .ok ms) :
    (Markup.elementsIn ms).map Markup.name = shapeNames p ∧
    ∀ e ∈ Markup.elementsIn ms, e.IsPlain := by
  unfold shapes at h
  unfold shapeNames
  split at h
  · rename_i hempty
    obtain rfl := Except.ok.inj h
    rw [if_pos hempty]
    exact ⟨rfl, fun e he => nomatch he⟩
  · rename_i hempty
    rw [if_neg hempty]
    obtain ⟨inner, hinner, h⟩ := bind_eq_ok_iff.mp h
    obtain rfl := Except.ok.inj h
    unfold label at hinner
    split at hinner
    · rename_i hname
      obtain ⟨size, -, hinner⟩ := bind_eq_ok_iff.mp hinner
      obtain ⟨left, -, hinner⟩ := bind_eq_ok_iff.mp hinner
      obtain ⟨top, -, hinner⟩ := bind_eq_ok_iff.mp hinner
      obtain rfl := Except.ok.inj hinner
      rw [if_pos hname]
      exact ⟨rfl,
        List.forall_mem_cons.mpr ⟨outline_isPlain ..,
          List.forall_mem_singleton.mpr (label_isPlain ..)⟩⟩
    · rename_i hname
      obtain rfl := Except.ok.inj hinner
      rw [if_neg hname]
      exact ⟨rfl, List.forall_mem_singleton.mpr (outline_isPlain ..)⟩

theorem elementsIn_flatten {mss : List (List Markup)}
    (h : List.Forall₂ (fun p ms => shapes p = .ok ms) ps mss) :
    (Markup.elementsIn mss.flatten).map Markup.name = ps.flatMap shapeNames ∧
      ∀ e ∈ Markup.elementsIn mss.flatten, e.IsPlain := by
  induction h with
  | nil => exact ⟨rfl, fun e he => nomatch he⟩
  | cons hp _ ih =>
    obtain ⟨hnames, hplain⟩ := elementsIn_shapes hp
    rw [List.flatten_cons, Markup.elementsIn_append, List.map_append,
      List.flatMap_cons, hnames, ih.1]
    exact ⟨rfl, List.forall_mem_append.mpr ⟨hplain, ih.2⟩⟩

theorem elements_ofPlacements (h : ofPlacements ps width height = .ok image) :
    image.elements.map Markup.name = "svg" :: "rect" :: ps.flatMap shapeNames ∧
    ∀ e ∈ image.elements, e.IsPlain := by
  obtain ⟨mss, hmss, h⟩ := bind_eq_ok_iff.mp h
  obtain rfl := Except.ok.inj h
  obtain ⟨hnames, hplain⟩ := elementsIn_flatten (mapM_eq_ok_iff.mp hmss)
  have hroot : ∀ s ∈ ["svg", "width", "height", "viewBox", "xmlns", "xmlns__xlink"],
    '<' ∉ s.toList := by decide
  constructor
  · rw [← hnames]
    rfl
  · refine List.forall_mem_cons.mpr ⟨Markup.isPlain_element_iff.mpr hroot,
      List.forall_mem_cons.mpr ⟨outline_isPlain .., hplain⟩⟩

theorem countP_rect (ps : List Placement) :
    (ps.flatMap shapeNames).countP ("rect".toList <+: ·.toList) = ps.countP (!·.rect.isEmpty) := by
  induction ps with
  | nil => rfl
  | cons p ps ih =>
    have hcount : (shapeNames p).countP ("rect".toList <+: ·.toList) = if !p.rect.isEmpty
        then 1 else 0 := by
      unfold shapeNames
      cases p.rect.isEmpty <;> cases p.component.name.isTruthy <;> decide
    rw [List.flatMap_cons, List.countP_append, ih, List.countP_cons, hcount, Nat.add_comm]

theorem countP_text (ps : List Placement) :
    (ps.flatMap shapeNames).countP ("text".toList <+: ·.toList) = ps.countP isLabelled := by
  induction ps with
  | nil => rfl
  | cons p ps ih =>
    have hcount : (shapeNames p).countP ("text".toList <+: ·.toList) = if isLabelled p
        then 1 else 0 := by
      unfold shapeNames isLabelled
      cases p.rect.isEmpty <;> cases p.component.name.isTruthy <;> decide
    rw [List.flatMap_cons, List.countP_append, ih, List.countP_cons, hcount, Nat.add_comm]

/-- Components can be drawn as long as the labels have a size. -/
theorem ofPlacements_isOk_iff (ps : List Placement) (width height : Number) :
    (∃ image, ofPlacements ps width height = .ok image) ↔
      ∀ p ∈ ps, isLabelled p = true → ∃ n, p.scale.wholeTextSize labelSize = .ok n := by
  have hshapes : (∃ mss, ps.mapM shapes = .ok mss) ↔ ∀ p ∈ ps, ∃ ms, shapes p = .ok ms := by
    simp only [mapM_eq_ok_iff]
    induction ps with
    | nil => simp
    | cons p ps ih => simp [List.forall₂_cons_left_iff, ih]
  simp only [← shapes_isOk_iff, ← hshapes]
  constructor
  · intro h
    obtain ⟨image, h⟩ := h
    obtain ⟨mss, hmss, -⟩ := bind_eq_ok_iff.mp h
    exact ⟨mss, hmss⟩
  · intro h
    obtain ⟨mss, hmss⟩ := h
    rw [ofPlacements, hmss]
    exact ⟨_, rfl⟩

/-- No text can open or close an element. The brackets in the written form of a tree with plain
names are told by its elements: one for an element without children, two for one with children, and
one more for a root. A drawing exists exactly if its labels have sizes, and whatever the components
are called, it shows one rectangle more than there are components that are not empty, and a text for
each of those that has a name. -/
theorem ofPlacements_occurrences :
    (∀ m : Markup, (∀ e ∈ m.elements, e.IsPlain) → m.render.toList.count '<' =
      m.elements.countP (!·.hasChildren) + 2 * m.elements.countP (·.hasChildren) +
        m.elements.countP (·.isRoot)) ∧
    ∀ (ps : List Placement) (width height : Number),
      ((∃ image, ofPlacements ps width height = .ok image) ↔
        ∀ p ∈ ps, isLabelled p = true → ∃ n, p.scale.wholeTextSize labelSize = .ok n) ∧
      ∀ image, ofPlacements ps width height = .ok image →
        occurrences "<rect".toList image.render.toList = ps.countP (!·.rect.isEmpty) + 1 ∧
        occurrences "<text".toList image.render.toList = ps.countP isLabelled := by
  refine ⟨fun m h => Markup.count_bracket h, fun ps width height =>
    ⟨ofPlacements_isOk_iff ps width height, fun image h => ?_⟩⟩
  obtain ⟨hnames, hplain⟩ := elements_ofPlacements h
  have hrect :=
    Markup.occurrences_bracket (p := "rect".toList) hplain (List.all_eq_true.mp rfl) (by decide)
  have htext :=
    Markup.occurrences_bracket (p := "text".toList) hplain (List.all_eq_true.mp rfl) (by decide)
  rw [hnames, List.countP_cons, List.countP_cons] at hrect htext
  rw [countP_rect] at hrect
  rw [countP_text] at htext
  exact ⟨hrect, htext⟩

def named (name : String) (width : Int) : Placement :=
  { component := { name := .text name }, isPanel := false, rect := .ofInts 0 0 width 10
    scale := ⟨.int 370, .int 370, true⟩, depth := 1 }

/-- Two of three components have a size, and both their names look like elements. -/
theorem ofPlacements_occurrences_of_names :
    (∃ image, ofPlacements [named "<rect/>" 20, named "</text><text>" 20, named "a" 0]
    (.int 20) (.int 10) = .ok image ∧ occurrences "<rect".toList image.render.toList = 3 ∧
      occurrences "<text".toList image.render.toList = 2) ∧
    (Markup.element "g" [] [.element "text" [("x", "<")] [.text "a<b"] false]
      true).render.toList.count '<' = 5 := by
  obtain ⟨hcount, hdrawing⟩ := ofPlacements_occurrences
  obtain ⟨hexists, hoccurrences⟩ :=
    hdrawing [named "<rect/>" 20, named "</text><text>" 20, named "a" 0] (.int 20) (.int 10)
  have hsize : ∀ p ∈ [named "<rect/>" 20, named "</text><text>" 20, named "a" 0],
      ∃ n, p.scale.wholeTextSize labelSize = .ok n := by
    have hscale : (⟨.int 370, .int 370, true⟩ : TextScale).wholeTextSize labelSize = .ok 14 := by
      decide +kernel
    intro p hp
    simp only [List.mem_cons, List.not_mem_nil, or_false] at hp
    rcases hp with rfl | rfl | rfl <;> exact ⟨14, hscale⟩
  obtain ⟨image, himage⟩ := hexists.mpr fun p hp _ => hsize p hp
  obtain ⟨hrect, htext⟩ := hoccurrences image himage
  refine ⟨⟨image, himage, ?_, ?_⟩, ?_⟩
  · rw [hrect]
    decide +kernel
  · rw [htext]
    decide +kernel
  · rw [hcount]
    · decide
    · simp [Markup.elements, Markup.elementsIn, Markup.IsPlain]

end Drawing

end PanelLayout
