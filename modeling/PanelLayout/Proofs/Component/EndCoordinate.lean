import PanelLayout.Proofs.Component.Lengths
import PanelLayout.Proofs.Double.Pixels

/-!
# End coordinates

A size may be given as the coordinate where the component ends. The start and what is left of the
size are turned into pixels one by one, so the edge comes out where the end coordinate lies if the
start is a whole number, and within one pixel of it otherwise.
-/

namespace PanelLayout

attribute [local instance (high)] instPowNat

def Double.IsWhole (x : Double) : Prop := ∃ n : Int, x.IsQuanta (n * quantaPerOne)

def Double.IsModerate (x : Double) : Prop :=
  x.isFinite = true ∧ x.abs.le (.ofInt (2 ^ (48 : Nat))) = true

theorem Double.IsModerate.exists_quanta {x : Double} (h : x.IsModerate) :
    ∃ n, x.IsQuanta n ∧ n.natAbs ≤ 2 ^ (48 : Nat) * quantaPerOne := by
  obtain ⟨n, hn⟩ := exists_isQuanta h.1
  have hle := h.2
  rw [hn.abs.le (isQuanta_ofInt (by decide)), decide_eq_true_eq] at hle
  exact ⟨n, hn, by omega⟩

theorem Double.IsWhole.dvd {x : Double} {n : Int} (h : x.IsWhole) (hn : x.IsQuanta n) :
    (quantaPerOne : Int) ∣ n := by
  obtain ⟨k, hk⟩ := h
  rw [hn.unique hk]
  exact Int.dvd_mul_left ..

namespace Component

/-- Whether an edge lies where an end coordinate tells, counted from the start of the container. For
a position that is not behind the end this holds up to one pixel; and it holds exactly for a
position that is a whole number, if that is not negative or the end is a whole number too. -/
def EndsNear (mode : Rounding) (e position : Number) (start : Int)
    (edge : Except NumberError Number) : Prop :=
  ∀ x p : Double, e.toDouble = .ok x → position.toDouble = .ok p → x.IsModerate → p.IsModerate →
    p.le x = true →
    ∃ pixel reached, e.IsPixel mode pixel ∧ edge = .ok (.int reached) ∧
    (reached - (start + pixel)).natAbs ≤ 1 ∧
      (p.IsWhole → (Double.zero false).le p = true ∨ x.IsWhole → reached = start + pixel)

variable {mode : Rounding}

theorem isPixel_iff {a : Number} {pixel : Int} :
    a.IsPixel mode pixel ↔ ∃ x, a.toDouble = .ok x ∧ (x.toPixel mode).result = .ok pixel := by
  simp only [Number.IsPixel, Number.toPixel, Report.result_bind_eq_ok_iff,
    Report.result_ofNumber_eq_ok_iff]

theorem isPixel_of_isQuanta {a : Number} {x : Double} {n pixel : Int}
    (hpixel : a.IsPixel mode pixel) (hx : a.toDouble = .ok x) (hn : x.IsQuanta n) :
    pixel = pixelOf mode n := by
  obtain ⟨y, hy, hround⟩ := isPixel_iff.mp hpixel
  obtain rfl := Except.ok.inj (hx.symm.trans hy)
  exact Except.ok.inj (hround.symm.trans (hn.toPixel mode))

theorem sub_double_eq_ok_iff {x : Double} {b d : Number} :
    (Number.double x).sub b = .ok d ↔ ∃ y, b.toDouble = .ok y ∧ .double (x - y) = d := by
  have hsub : (Number.double x).sub b = do return .double (x - (← b.toDouble)) := by
    cases h : b.value with
    | inl n => simp only [Number.sub, h]; rfl
    | inr y => simp only [Number.sub, h]; rfl
  rw [hsub, bind_eq_ok_iff]
  simp only [pure_eq_ok, Except.ok.injEq]

/-- One axis of a rectangle whose size is given as an end coordinate. -/
theorem endsNear_of_isPixel {size : Option Expression} (hends : size.any (·.ends) = true)
    {x : Double} {position rest : Number} (hrest : lengthFrom size (.double x) position = .ok rest)
    {left length : Int} (hleft : position.IsPixel mode left) (hlength : rest.IsPixel mode length)
    (start : Int) :
    EndsNear mode (.double x) position start (.ok (.int (start + left + max length 0))) := by
  rw [lengthFrom, if_pos hends] at hrest
  obtain ⟨p, hp, rfl⟩ := sub_double_eq_ok_iff.mp hrest
  intro x' p' hx' hp' hmx hmp hle
  obtain rfl := Except.ok.inj hx'
  obtain rfl := Except.ok.inj (hp.symm.trans hp')
  obtain ⟨a, ha, hba⟩ := hmx.exists_quanta
  obtain ⟨b, hb, hbb⟩ := hmp.exists_quanta
  rw [hb.le ha, decide_eq_true_eq] at hle
  obtain rfl := isPixel_of_isQuanta hleft hp hb
  obtain rfl := isPixel_of_isQuanta hlength rfl (ha.sub_of_le hb hle hba hbb)
  have hpixel : 0 ≤ pixelOf mode (nearestSigned (a - b)) :=
    pixelOf_nonneg (nearestSigned_sub_bounds hle hba hbb).1
  have herror : (pixelOf mode b + pixelOf mode (nearestSigned (a - b)) - pixelOf mode a).natAbs ≤
      1 :=
    pixelOf_add_error ha.isDouble hb.isDouble hle hba hbb
  refine ⟨pixelOf mode a, _, isPixel_iff.mpr ⟨x, rfl, ha.toPixel mode⟩, rfl, by omega,
    fun hwhole hside => ?_⟩
  rw [(Double.isQuanta_zero false).le hb, decide_eq_true_eq] at hside
  have hmeet : pixelOf mode b + pixelOf mode (nearestSigned (a - b)) = pixelOf mode a :=
    pixelOf_add_of_dvd ha.isDouble hle hba hbb (hwhole.dvd hb) (hside.imp_right (·.dvd ha))
  omega

theorem exists_double_of_length {c : Component} {size : Option Expression}
    (hsize : size.isSome = true) {default width height n : Number} {own : Option (Number × Number)}
    (h : c.length size default width height own = .ok n) : ∃ x, n = .double x := by
  obtain ⟨e, rfl⟩ := Option.isSome_iff_exists.mp hsize
  obtain ⟨x, -, hn⟩ := bind_eq_ok_iff.mp h
  exact ⟨x, (Except.ok.inj hn).symm⟩

/-- Where end coordinates put the edges of a free component in a container of whole pixels. -/
theorem renderRect_end {c : Component} (hfree : c.location = none) {x y w h : Int} {r : Rectangle}
    (hr : (c.renderRect (.ofInts x y w h)).result = .ok r) :
    ∃ given px py width height, c.HasLengths (.ofInts x y w h) given px py width height ∧
      (c.width.any (·.ends) = true → EndsNear c.settings.freeRounding given.1 px x r.right) ∧
      (c.height.any (·.ends) = true → EndsNear c.settings.freeRounding given.2 py y r.bottom) := by
  obtain ⟨given, px, py, width, height, hlengths, left, top, pw, ph, hleft, htop, hwidth, hheight,
      hrx, hry, hrw, hrh⟩ :=
    (renderRect_eq_ok_iff hfree).mp hr
  have hright : r.right = .ok (.int (x + left + max pw 0)) := by
    rw [Rectangle.right, ← Except.ok.inj hrx, hrw, Number.add_int]
  have hbottom : r.bottom = .ok (.int (y + top + max ph 0)) := by
    rw [Rectangle.bottom, ← Except.ok.inj hry, hrh, Number.add_int]
  refine ⟨given, px, py, width, height, hlengths, fun hends => ?_, fun hends => ?_⟩
  · obtain ⟨e, he⟩ := exists_double_of_length (Option.isSome_of_any hends) hlengths.givenWidth
    have hrest := hlengths.restWidth
    rw [he] at hrest ⊢
    rw [hright]
    exact endsNear_of_isPixel hends hrest hleft hwidth x
  · obtain ⟨e, he⟩ := exists_double_of_length (Option.isSome_of_any hends) hlengths.givenHeight
    have hrest := hlengths.restHeight
    rw [he] at hrest ⊢
    rw [hbottom]
    exact endsNear_of_isPixel hends hrest htop hheight y

/-- From 60 to 210: the container starts at ten and the component ends two hundred further on. -/
theorem renderRect_end_after_whole_start :
    ∃ c r e, ({} : Component).withGeometry (.text "50") .null (.text "?200") .null = .ok c ∧
      c.length c.width (.int 300) (.int 300) (.int 100) none = .ok e ∧
      (c.renderRect (.ofInts 10 0 300 100)).result = .ok r ∧ r = .ofInts 60 0 150 100 ∧
      ∃ pixel, e.IsPixel c.settings.freeRounding pixel ∧ r.right = .ok (.int (10 + pixel)) := by
  have h : (({} : Component).withGeometry (.text "50") .null (.text "?200") .null).toOption.map
      (fun c =>
      (c.location, c.width.any (·.ends), (c.renderRect (.ofInts 10 0 300 100)).result.toOption,
        [(c.length c.width (.int 300) (.int 300) (.int 100) none).toOption,
          (c.length c.height (.int 100) (.int 300) (.int 100) none).toOption,
          (c.length c.x (.int 0) (.int 300) (.int 100)
            (some (.double (.ofInt 200), .int 100))).toOption])) =
      some (none, true, some (.ofInts 60 0 150 100),
        [some (.double (.ofInt 200)), some (.int 100), some (.double (.ofInt 50))]) := by
          decide +kernel
  obtain ⟨c, hc, hcr⟩ := Option.map_eq_some_iff.mp h
  simp only [Prod.mk.injEq, List.cons.injEq, toOption_eq_some_iff] at hc hcr
  obtain ⟨hfree, hends, hr, hwidth, hheight, hx, -⟩ := hcr
  obtain ⟨given, px, py, width, height, hlengths, hright, -⟩ := renderRect_end hfree hr
  obtain ⟨given, given'⟩ := given
  obtain rfl := Except.ok.inj (hwidth.symm.trans hlengths.givenWidth)
  obtain rfl := Except.ok.inj (hheight.symm.trans hlengths.givenHeight)
  obtain rfl := Except.ok.inj (hx.symm.trans hlengths.valueX)
  obtain ⟨pixel, reached, hpixel, hedge, -, hwhole⟩ :=
    hright hends _ _ rfl rfl ⟨by decide +kernel, by decide +kernel⟩ ⟨by decide +kernel, by
      decide +kernel⟩ (by decide +kernel)
  obtain rfl := hwhole ⟨50, Double.isQuanta_ofInt (by decide)⟩ (.inl (by decide +kernel))
  exact ⟨c, _, _, hc, hwidth, hr, rfl, pixel, hpixel, hedge⟩

/-- From one eighth of a container that is a hundred pixels wide to its right edge: twelve and a
half is rounded up twice, once for the start and once for the size, and the edge comes out one pixel
too far. -/
theorem renderRect_from_one_eighth :
    ∃ c p, ({} : Component).withGeometry (.text "width/8") .null (.text "?width") .null = .ok c ∧
      c.length c.width (.int 100) (.int 100) (.int 80) none = .ok (.double (.ofInt 100)) ∧
      (Number.double (.ofInt 100)).IsPixel c.settings.freeRounding 100 ∧
      c.length c.x (.int 0) (.int 100) (.int 80) (some (.double (.ofInt 100), .int 80)) =
        .ok (.double p) ∧
      p.isFinite = true ∧ p.le (.ofInt 100) = true ∧
      (c.renderRect (.ofInts 0 0 100 80)).result = .ok (.ofInts 13 0 88 80) ∧
      (Rectangle.ofInts 13 0 88 80).right = .ok (.int 101) := by
  have h : (({} : Component).withGeometry (.text "width/8") .null (.text "?width")
      .null).toOption.map (fun c =>
      ((c.length c.width (.int 100) (.int 100) (.int 80) none).toOption,
        ((Number.double (.ofInt 100)).toPixel c.settings.freeRounding).result.toOption,
        (c.length c.x (.int 0) (.int 100) (.int 80)
          (some (.double (.ofInt 100), .int 80))).toOption,
        (c.renderRect (.ofInts 0 0 100 80)).result.toOption)) =
      some (some (.double (.ofInt 100)), some 100, some (.double (.ofRatio 25 2)),
        some (.ofInts 13 0 88 80)) := by
    decide +kernel
  obtain ⟨c, hc, hcr⟩ := Option.map_eq_some_iff.mp h
  simp only [Prod.mk.injEq, toOption_eq_some_iff] at hc hcr
  obtain ⟨hwidth, hpixel, hx, hr⟩ := hcr
  exact ⟨c, _, hc, hwidth, hpixel, hx, by decide +kernel, by decide +kernel, hr, rfl⟩

end Component

end PanelLayout
