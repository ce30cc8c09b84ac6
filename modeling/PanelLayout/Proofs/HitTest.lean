import Mathlib.Data.List.FinRange
import PanelLayout.CommandLine.Outcome
import PanelLayout.Proofs.Double.Range
import PanelLayout.Proofs.Placement.Moving

/-!
# Hit tests

A hit map answers with the clients whose rectangles contain the point, in the order in which they
came in, however the index orders what it finds. So the component that is hit in a panel tree is the
last one of the listing that contains the point, as long as the numbers are in the range of doubles,
where boxes are indexed.
-/

namespace PanelLayout

namespace Rectangle

variable {r : Rectangle} {px py : Int}

def IsWhole (r : Rectangle) : Prop := ∃ x y w h, r = .ofInts x y w h

/-- Whether the corners of a rectangle that is not empty have nearest doubles. -/
def CornersFit (r : Rectangle) : Prop :=
  r.isEmpty = false → r.x.Fits ∧ r.y.Fits ∧ (∀ n, r.right = .ok n → n.Fits) ∧
    ∀ n, r.bottom = .ok n → n.Fits

def Holds (r : Rectangle) (px py : Int) : Prop := r.contains (.int px) (.int py) = .ok true

instance (r : Rectangle) (px py : Int) : Decidable (r.Holds px py) :=
  inferInstanceAs (Decidable (_ = _))

theorem holds_ofInts (x y w h px py : Int) :
    (ofInts x y w h).Holds px py ↔ x ≤ px ∧ px < x + w ∧ y ≤ py ∧ py < y + h := by
  simp [Holds, contains_ofInts]

theorem IsWhole.contains_eq (h : r.IsWhole) (px py : Int) :
    r.contains (.int px) (.int py) = .ok (decide (r.Holds px py)) := by
  obtain ⟨x, y, w, h, rfl⟩ := h
  rw [contains_ofInts]
  simp only [holds_ofInts]

theorem IsWhole.not_isEmpty (hr : r.IsWhole) (h : r.Holds px py) : r.isEmpty = false := by
  obtain ⟨x, y, w, h', rfl⟩ := hr
  rw [holds_ofInts] at h
  simp only [isEmpty_ofInts, Bool.or_eq_false_iff, decide_eq_false_iff_not]
  omega

theorem IsWhole.touches (hr : r.IsWhole) (h : r.Holds px py) :
    r.touches (.int px) (.int py) = true := by
  obtain ⟨x, y, w, h', rfl⟩ := hr
  rw [holds_ofInts] at h
  rw [touches_ofInts, decide_eq_true_iff]
  omega

end Rectangle

theorem Report.Corresponds.of_ok {α β : Type} {R : α → β → Prop} {r : Report α} {s : Report β}
    {a : α} (h : Corresponds R r s) (ha : r.result = .ok a) : ∃ b, s.result = .ok b ∧ R a b := by
  cases h with
  | error ws e => cases ha
  | @ok ws a' b hab =>
    obtain rfl := Except.ok.inj ha
    exact ⟨b, rfl, hab⟩

namespace PlaneIndex

/-- What a hit map relies on, for whole pixels in the range of doubles: a box that is not empty is
taken in, and a query answers with numbers of boxes, each number of a box that the point touches
being there once. -/
structure IsReliable (index : PlaneIndex) : Prop where
  accept {r : Rectangle} (hr : r.IsWhole) (hfit : r.CornersFit)
    (hne : r.isEmpty = false) : index.accept r = .ok ()
  search {n : Nat} {box : Fin n → Rectangle}
    (hbox : ∀ i, (box i).IsWhole ∧ (box i).CornersFit ∧ (box i).isEmpty = false) {px py : Int}
    (hpx : (Number.int px).Fits) (hpy : (Number.int py).Fits) :
    ∃ found, index.search box (.int px) (.int py) = .ok found ∧
      ∀ i, (box i).touches (.int px) (.int py) = true → found.count i = 1

private theorem accept_ofDoubles {r : Rectangle} (hr : r.IsWhole) (hfit : r.CornersFit)
    (hne : r.isEmpty = false) :
    ofDoubles.accept r = .ok () := by
  obtain ⟨⟨a, ha⟩, ⟨b, hb⟩, hright, hbottom⟩ := hfit hne
  obtain ⟨x, y, w, h, hr⟩ := hr
  have hx : r.x = .int x := congrArg Rectangle.x hr
  have hy : r.y = .int y := congrArg Rectangle.y hr
  have hxw : r.right = .ok (.int (x + w)) := by rw [hr, Rectangle.right_ofInts]
  have hyh : r.bottom = .ok (.int (y + h)) := by rw [hr, Rectangle.bottom_ofInts]
  rw [hr, Rectangle.isEmpty_ofInts, Bool.or_eq_false_iff, decide_eq_false_iff_not,
    decide_eq_false_iff_not] at hne
  obtain ⟨c, hc⟩ := hright _ hxw
  obtain ⟨d, hd⟩ := hbottom _ hyh
  have hordered : (if r.x.equals (.int (x + w)) then r.y.le (.int (y + h))
      else r.x.le (.int (x + w))) = true := by
    rw [hx, Number.equals_int, if_neg (by simp only [decide_eq_true_iff]; omega), Number.le_int,
      decide_eq_true_iff]
    omega
  have hrange : [r.x, r.y, .int (x + w), .int (y + h)].forM (fun n => discard n.toDouble) =
      .ok () := by
    change (discard r.x.toDouble >>= fun _ => discard r.y.toDouble >>= fun _ =>
      discard (Number.int (x + w)).toDouble >>= fun _ =>
        discard (Number.int (y + h)).toDouble >>= fun _ => pure ()) = _
    rw [ha, hb, hc, hd]
    rfl
  change r.checkBox = _
  rw [Rectangle.checkBox, hxw, hyh]
  simp only [ok_bind, hrange, hordered, Bool.not_true, Bool.false_eq_true, if_false, pure_eq_ok]

theorem ofDoubles_isReliable : ofDoubles.IsReliable where
  accept := accept_ofDoubles
  search := by
    intro n box hbox px py hpx hpy
    obtain ⟨_, hx⟩ := hpx
    obtain ⟨_, hy⟩ := hpy
    simp only [ofDoubles, hx, hy]
    refine ⟨_, rfl, ?_⟩
    intro i htouches
    apply List.count_eq_one_of_mem
    · exact (List.nodup_finRange n).filter _
    · obtain ⟨⟨x, y, w, h, hr⟩, -, hne⟩ := hbox i
      rw [List.mem_filter, htouches, hr, Rectangle.isSpot_ofInts]
      rw [hr, Rectangle.isEmpty_ofInts, Bool.or_eq_false_iff, decide_eq_false_iff_not,
        decide_eq_false_iff_not] at hne
      have hspot : decide (w + h ≤ 0) = false := by
        rw [decide_eq_false_iff_not]
        omega
      simp [hspot]

end PlaneIndex

namespace HitMap

variable {α : Type} {index : PlaneIndex} {clients : List (α × Rectangle)} {px py : Int}

/-- The clients at a point, as the rectangles themselves tell, in the order in which they came
in. -/
def clientsAt (clients : List (α × Rectangle)) (px py : Int) : List α :=
  (clients.filter fun c => c.2.Holds px py).map Prod.fst

private theorem foldlM_insert (m : HitMap α)
    (h : ∀ c ∈ clients, c.2.isEmpty = false → index.accept c.2 = .ok ()) :
    clients.foldlM (fun m c => m.insert c.1 c.2 index) m =
      .ok ⟨m.entries ++ clients.filter (!·.2.isEmpty)⟩ := by
  induction clients generalizing m with
  | nil => simp
  | cons c clients ih =>
    have hlater := fun m => ih m fun d hd => h d (List.mem_cons_of_mem c hd)
    rw [List.foldlM_cons]
    cases hempty : c.2.isEmpty with
    | true =>
      have hinsert : m.insert c.1 c.2 index = .ok m := by rw [insert, hempty]; rfl
      rw [hinsert, ok_bind, hlater]
      simp [hempty]
    | false =>
      have hinsert : m.insert c.1 c.2 index = .ok ⟨m.entries ++ [c]⟩ := by
        rw [insert, hempty, h c List.mem_cons_self hempty]
        rfl
      rw [hinsert, ok_bind, hlater]
      simp [hempty]

theorem ofList_eq_ok (h : index.IsReliable)
    (hclients : ∀ c ∈ clients, c.2.IsWhole ∧ c.2.CornersFit) :
    ofList clients index = .ok ⟨clients.filter (!·.2.isEmpty)⟩ := by
  apply foldlM_insert
  intro c hc hne
  obtain ⟨hwhole, hfit⟩ := hclients c hc
  exact h.accept hwhole hfit hne

/-- Numbers that hold are the same, whatever else is found, once what is found is sorted. -/
private theorem filter_sorted {n : Nat} {found : List (Fin n)} {p : Fin n → Bool}
    (h : ∀ i, p i = true → found.count i = 1) :
    (found.mergeSort fun i j => decide (i ≤ j)).filter p = (List.finRange n).filter p := by
  have hfound : (found.mergeSort fun i j => decide (i ≤ j)).Pairwise (· ≤ ·) := by
    have hsorted : (found.mergeSort fun i j => decide (i ≤ j)).Pairwise fun i j =>
        decide (i ≤ j) = true := by
      apply List.pairwise_mergeSort
      · simp only [decide_eq_true_iff]
        exact fun i j k => le_trans
      · simp only [Bool.or_eq_true, decide_eq_true_iff]
        exact le_total
    simpa using hsorted
  have hall : (List.finRange n).Pairwise (· ≤ ·) := (List.pairwise_lt_finRange n).imp le_of_lt
  -- both sides are in order, so it is enough that a number that holds is as often on the one as on
  -- the other
  apply List.Perm.eq_of_pairwise (fun i j _ _ => le_antisymm) (hfound.filter p) (hall.filter p)
  apply ((List.mergeSort_perm found _).filter p).trans
  rw [List.perm_iff_count]
  intro i
  cases hp : p i with
  | true =>
    rw [List.count_filter hp, List.count_filter hp, h i hp]
    exact (List.count_eq_one_of_mem (List.nodup_finRange n) (List.mem_finRange i)).symm
  | false => rw [List.count_eq_zero.mpr (by simp [hp]), List.count_eq_zero.mpr (by simp [hp])]

private theorem filterMapM_ok {ε β γ : Type} {f : β → Except ε (Option γ)} {p : β → Bool}
    {g : β → γ} (h : ∀ b, f b = .ok (if p b then some (g b) else none)) (bs : List β) :
    bs.filterMapM f = .ok ((bs.filter p).map g) := by
  induction bs with
  | nil => rfl
  | cons b bs ih =>
    rw [List.filterMapM_cons, h b]
    cases hp : p b with
    | true => simp [ih, hp]
    | false => simp [ih, hp]

theorem allAt_eq_ok (h : index.IsReliable) (m : HitMap α)
    (hentries : ∀ e ∈ m.entries, e.2.IsWhole ∧ e.2.CornersFit ∧ e.2.isEmpty = false)
    (hpx : (Number.int px).Fits) (hpy : (Number.int py).Fits) :
    m.allAt (.int px) (.int py) index = .ok (clientsAt m.entries px py) := by
  have hbox : ∀ i, (m.entries.get i).2.IsWhole ∧ (m.entries.get i).2.CornersFit ∧
      (m.entries.get i).2.isEmpty = false :=
    fun i => hentries _ (List.get_mem m.entries i)
  obtain ⟨found, hsearch, honce⟩ := h.search hbox hpx hpy
  have hhit : ∀ i, m.hit? (.int px) (.int py) i =
      .ok (if decide ((m.entries.get i).2.Holds px py) then some (m.entries.get i).1
        else none) := by
    intro i
    have hcontains := (hbox i).1.contains_eq px py
    unfold hit?
    generalize m.entries.get i = e at hcontains ⊢
    dsimp only
    rw [hcontains]
    rfl
  simp only [allAt, hsearch, ok_bind]
  rw [filterMapM_ok hhit, filter_sorted fun i hi =>
    honce i ((hbox i).1.touches (of_decide_eq_true hi))]
  conv_rhs => rw [clientsAt, ← List.map_get_finRange m.entries]
  rw [List.filter_map, List.map_map]
  rfl

theorem clientsAt_filter (hclients : ∀ c ∈ clients, c.2.IsWhole) (px py : Int) :
    clientsAt (clients.filter (!·.2.isEmpty)) px py = clientsAt clients px py := by
  rw [clientsAt, clientsAt, List.filter_filter]
  congr 1
  apply List.filter_congr
  intro c hc
  by_cases hholds : c.2.Holds px py
  · simp [hholds, (hclients c hc).not_isEmpty hholds]
  · simp [hholds]

theorem ofList_allAt (h : index.IsReliable) (hclients : ∀ c ∈ clients, c.2.IsWhole ∧ c.2.CornersFit)
    (hpx : (Number.int px).Fits) (hpy : (Number.int py).Fits) : ∃ m, ofList clients index = .ok m ∧
      m.allAt (.int px) (.int py) index = .ok (clientsAt clients px py) ∧
      m.at? (.int px) (.int py) index = .ok (clientsAt clients px py).getLast? := by
  refine ⟨_, ofList_eq_ok h hclients, ?_⟩
  have hentries : ∀ e ∈ clients.filter (!·.2.isEmpty), e.2.IsWhole ∧ e.2.CornersFit ∧
      e.2.isEmpty = false := by
    intro e he
    rw [List.mem_filter, Bool.not_eq_true'] at he
    obtain ⟨hwhole, hfit⟩ := hclients e he.1
    exact ⟨hwhole, hfit, he.2⟩
  have hall := allAt_eq_ok h ⟨clients.filter (!·.2.isEmpty)⟩ hentries hpx hpy
  rw [clientsAt_filter fun c hc => (hclients c hc).1] at hall
  refine ⟨hall, ?_⟩
  rw [at?, hall]
  rfl

end HitMap

namespace Element

open Report

variable {index : PlaneIndex} {root : Element} {container : Rectangle}
    {ps : List Placement} {px py : Int}

theorem layout_isWhole (hcontainer : container.IsWhole)
    (h : (root.layout container).result = .ok ps) :
    ∀ p ∈ ps, p.rect.IsWhole := by
  have hstill : ∀ {r s : Rectangle}, r.IsMoved 0 0 s → r.IsWhole := fun hrs => by
    obtain ⟨x, y, w, h, hr, -⟩ := hrs
    exact ⟨x, y, w, h, hr⟩
  have hself : ∀ {r : Rectangle}, r.IsWhole → r.IsMoved 0 0 r := fun hr => by
    obtain ⟨x, y, w, h, rfl⟩ := hr
    exact ⟨x, y, w, h, rfl, by rw [Int.add_zero, Int.add_zero]⟩
  -- moved by nothing the pass corresponds to itself, and only rectangles of whole pixels correspond
  -- to a moved one
  obtain ⟨rect, hrect, hplace⟩ := result_bind_eq_ok_iff.mp h
  obtain ⟨_, -, hmoved⟩ := (root.component.renderRect_moved (hself hcontainer)).of_ok hrect
  obtain ⟨qs, -, hall⟩ := (root.place_moved _ 0 (hself (hstill hmoved))).of_ok hplace
  have hboth : List.Forall₂ (fun p q => p.rect.IsWhole ∧ p.IsMoved 0 0 q) ps qs :=
    hall.imp fun p q hpq => ⟨hstill hpq.rect, hpq⟩
  exact ((List.forall₂_and_left _ _).mp hboth).1

def lastAt (ps : List Placement) (px py : Int) : Option Placement :=
  (ps.filter fun p => 0 < p.depth ∧ p.rect.Holds px py).getLast?

theorem result_hit? (hindex : index.IsReliable) (hcontainer : container.IsWhole)
    (h : (root.layout container).result = .ok ps) (hps : ∀ p ∈ ps, 0 < p.depth → p.rect.CornersFit)
    (hpx : (Number.int px).Fits) (hpy : (Number.int py).Fits) :
    (root.hit? container px py index).result = .ok (lastAt ps px py) := by
  have hwhole := layout_isWhole hcontainer h
  have hheld : ∀ c ∈ (ps.filter (0 < ·.depth)).map fun p => (p, p.rect), c.2.IsWhole ∧
      c.2.CornersFit := by
    intro c hc
    obtain ⟨p, hp, rfl⟩ := List.mem_map.mp hc
    rw [List.mem_filter, decide_eq_true_iff] at hp
    exact ⟨hwhole p hp.1, hps p hp.1 hp.2⟩
  obtain ⟨m, hm, -, hat⟩ := HitMap.ofList_allAt hindex hheld hpx hpy
  have hclients : HitMap.clientsAt ((ps.filter (0 < ·.depth)).map fun p => (p, p.rect)) px py =
      ps.filter fun p => 0 < p.depth ∧ p.rect.Holds px py := by
    rw [HitMap.clientsAt, List.filter_map, List.map_map, List.filter_filter]
    simp [Function.comp_def, Bool.and_comm]
  unfold hit?
  rw [result_bind, h, lastAt, ← hclients]
  simp only [ok_bind, hm, hat]
  rfl

end Element

namespace CommandLine.Outcome

variable {index : PlaneIndex} {o : Options} {content : String} {v : Json} {root : Element}
    {ps : List Placement}
  {px py : Int}

theorem result_ofHit (hindex : index.IsReliable) (path : String)
    (hv : Json.ofText (String.ofList (unifyLines content.toList)) = .ok v)
    (hroot : (Document.loadPanel v).result = .ok root)
    (h : (root.layout o.size.window).result = .ok ps)
    (hps : ∀ p ∈ ps, 0 < p.depth → p.rect.CornersFit) (hpx : (Number.int px).Fits)
    (hpy : (Number.int py).Fits) :
    (ofHit o path content px py index).result =
      match Element.lastAt ps px py with
      | some p => .ok ⟨hitText p, none⟩
      | none => .error .nothingHit := by
  have hwindow : o.size.window.IsWhole := ⟨_, _, _, _, rfl⟩
  have hhit := Element.result_hit? hindex hwindow h hps hpx hpy
  unfold ofHit withRoot
  dsimp only
  rw [hv]
  dsimp only
  unfold after
  rw [hroot]
  dsimp only
  rw [hhit]
  cases Element.lastAt ps px py with
  | none => rfl
  | some p => rfl

end CommandLine.Outcome

namespace PlaneIndex

open CommandLine

variable {index : PlaneIndex}

/-- Hit tests agree with the listing of a layout pass, in the range of doubles. A rectangle of whole
pixels contains the pixels from its left and upper edges up to but not including its right and lower
ones, none if it is empty. A map of clients with such rectangles answers with exactly the clients
whose rectangles contain the point, in order and as often as they came in, and with the last of them
as the top-most one. So the component that is hit in a panel tree is the one that is listed last
among those below the root that contain the point. A command line that asks for it tells that one,
and it fails, with status 1, exactly if there is none. -/
theorem IsReliable.hit_tests_agree (h : index.IsReliable) :
    (∀ x y w h px py : Int, (Rectangle.ofInts x y w h).Holds px py ↔ x ≤ px ∧ px < x + w ∧
      y ≤ py ∧ py < y + h) ∧
    (∀ (α : Type) (clients : List (α × Rectangle)) (px py : Int),
      (∀ c ∈ clients, c.2.IsWhole ∧ c.2.CornersFit) →
      (Number.int px).Fits → (Number.int py).Fits → ∃ m, HitMap.ofList clients index = .ok m ∧
        m.allAt (.int px) (.int py) index =
          .ok ((clients.filter fun c => c.2.Holds px py).map Prod.fst) ∧
        m.at? (.int px) (.int py) index =
          .ok ((clients.filter fun c => c.2.Holds px py).map Prod.fst).getLast?) ∧
    ∀ (root : Element) (ps : List Placement) (px py : Int),
    (∀ p ∈ ps, 0 < p.depth → p.rect.CornersFit) →
      (Number.int px).Fits → (Number.int py).Fits →
      (∀ x y w h : Int, (root.layout (.ofInts x y w h)).result = .ok ps →
        (root.hit? (.ofInts x y w h) px py index).result =
          .ok (ps.filter fun p => 0 < p.depth ∧ p.rect.Holds px py).getLast?) ∧
      ∀ (o : Options) (path content : String) (v : Json),
        Json.ofText (String.ofList (Outcome.unifyLines content.toList)) = .ok v →
        (Document.loadPanel v).result = .ok root → (root.layout o.size.window).result = .ok ps →
        ((Outcome.ofHit o path content px py index).result =
          match (ps.filter fun p => 0 < p.depth ∧ p.rect.Holds px py).getLast? with
          | some p => .ok ⟨Outcome.hitText p, none⟩
          | none => .error .nothingHit) ∧
        ((∃ f : Failure, (Outcome.ofHit o path content px py index).result = .error f ∧
          f.exitCode = 1) ↔
          ∀ p ∈ ps, 0 < p.depth → ¬p.rect.Holds px py) := by
  refine ⟨Rectangle.holds_ofInts, fun α clients px py hclients hpx hpy =>
    HitMap.ofList_allAt h hclients hpx hpy, ?_⟩
  intro root ps px py hps hpx hpy
  refine ⟨fun x y w h' hlayout => Element.result_hit? h ⟨x, y, w, h', rfl⟩ hlayout hps hpx hpy, ?_⟩
  intro o path content v hv hroot hlayout
  have hresult := Outcome.result_ofHit h path hv hroot hlayout hps hpx hpy
  refine ⟨hresult, ?_⟩
  rw [hresult]
  have hnone : Element.lastAt ps px py = none ↔ ∀ p ∈ ps, 0 < p.depth → ¬p.rect.Holds px py := by
    simp [Element.lastAt]
  rw [← hnone]
  cases Element.lastAt ps px py with
  | none => simp [Failure.exitCode]
  | some p => simp

private theorem fits_of_natAbs_le {n : Int} (h : n.natAbs ≤ 1000) : (Number.int n).Fits := by
  have hthousand : (Number.int 1000).Fits := ⟨.ofInt 1000, by decide +kernel⟩
  exact hthousand.of_natAbs_le h

private theorem cornersFit_ofInts {x y w h : Int} (hx : x.natAbs ≤ 1000) (hy : y.natAbs ≤ 1000)
    (hright : (x + w).natAbs ≤ 1000) (hbottom : (y + h).natAbs ≤ 1000) :
    (Rectangle.ofInts x y w h).CornersFit := by
  intro _
  refine ⟨fits_of_natAbs_le hx, fits_of_natAbs_le hy, ?_, ?_⟩
  · intro n hn
    obtain rfl := Except.ok.inj hn
    exact fits_of_natAbs_le hright
  · intro n hn
    obtain rfl := Except.ok.inj hn
    exact fits_of_natAbs_le hbottom

/-- Two boxes that overlap, one of them twice, and one between them that is empty. -/
def overlapping : List (String × Rectangle) :=
  [("a", .ofInts 0 0 10 10), ("none", .ofInts 5 5 0 10), ("b", .ofInts 5 5 10 10),
    ("a", .ofInts 0 0 10 10)]

def overlappingText : String :=
  "\x7b\"children\": [\x7b\"name\": \"a\"\x7d, \x7b\"name\": \"b\", \"x\": \"100\"\x7d]\x7d"

private theorem overlappingText_layout :
    ∃ v root ps, Json.ofText (String.ofList (Outcome.unifyLines overlappingText.toList)) = .ok v ∧
    (Document.loadPanel v).result = .ok root ∧
    (root.layout (Options.size {}).window).result = .ok ps ∧
    ps.map Placement.rect = [.ofInts 0 0 800 600, .ofInts 0 0 800 600, .ofInts 100 0 800 600] ∧
    (Element.lastAt ps 200 100).map Outcome.hitText = some "b\n" ∧
    Element.lastAt ps 900 100 = none := by
  have h : ((Json.ofText (String.ofList (Outcome.unifyLines overlappingText.toList))).toOption.bind
      fun v =>
      (Document.loadPanel v).result.toOption.bind fun root =>
      (root.layout (Options.size {}).window).result.toOption.map fun ps =>
        (ps.map Placement.rect, (Element.lastAt ps 200 100).map Outcome.hitText,
          (Element.lastAt ps 900 100).map Outcome.hitText)) =
      some ([.ofInts 0 0 800 600, .ofInts 0 0 800 600, .ofInts 100 0 800 600],
        some "b\n", none) := by
    decide +kernel
  obtain ⟨v, hv, h⟩ := Option.bind_eq_some_iff.mp h
  obtain ⟨root, hroot, h⟩ := Option.bind_eq_some_iff.mp h
  obtain ⟨ps, hps, h⟩ := Option.map_eq_some_iff.mp h
  simp only [Prod.mk.injEq, Option.map_eq_none_iff] at h
  exact ⟨v, root, ps, toOption_eq_some_iff.mp hv, toOption_eq_some_iff.mp hroot,
    toOption_eq_some_iff.mp hps, h⟩

/-- Two boxes that overlap, in a map and in a panel. -/
theorem hit_tests_agree_overlapping : ofDoubles.IsReliable ∧
    (∃ m, HitMap.ofList overlapping = .ok m ∧ m.allAt (.int 7) (.int 7) = .ok ["a", "b", "a"]) ∧
    (Outcome.ofHit {} "panel.json" overlappingText 200 100).result = .ok ⟨"b\n", none⟩ ∧
    (Outcome.ofHit {} "panel.json" overlappingText 900 100).result = .error .nothingHit := by
  obtain ⟨-, hmap, htree⟩ := ofDoubles_isReliable.hit_tests_agree
  refine ⟨ofDoubles_isReliable, ?_, ?_⟩
  · have hboxes : ∀ c ∈ overlapping, c.2.IsWhole ∧ c.2.CornersFit := by
      simp only [overlapping, List.mem_cons, List.not_mem_nil, or_false]
      rintro _ (rfl | rfl | rfl | rfl)
      all_goals
        exact ⟨⟨_, _, _, _, rfl⟩,
          cornersFit_ofInts (by decide) (by decide) (by decide) (by decide)⟩
    obtain ⟨m, hm, hall, -⟩ := hmap String overlapping 7 7 hboxes (fits_of_natAbs_le (by decide))
      (fits_of_natAbs_le (by decide))
    refine ⟨m, hm, hall.trans ?_⟩
    decide
  · obtain ⟨v, root, ps, hv, hroot, hps, hrects, hfirst, hsecond⟩ := overlappingText_layout
    have hfit : ∀ p ∈ ps, 0 < p.depth → p.rect.CornersFit := by
      intro p hp _
      have hrect : p.rect ∈ ps.map Placement.rect := List.mem_map_of_mem hp
      simp only [hrects, List.mem_cons, List.not_mem_nil, or_false] at hrect
      rcases hrect with hrect | hrect | hrect <;> rw [hrect]
      all_goals exact cornersFit_ofInts (by decide) (by decide) (by decide) (by decide)
    constructor
    · obtain ⟨-, hcommand⟩ :=
        htree root ps 200 100 hfit (fits_of_natAbs_le (by decide)) (fits_of_natAbs_le (by decide))
      obtain ⟨p, hlast, htext⟩ := Option.map_eq_some_iff.mp hfirst
      rw [Element.lastAt] at hlast
      rw [(hcommand {} "panel.json" overlappingText v hv hroot hps).1, hlast]
      dsimp only
      rw [htext]
    · obtain ⟨-, hcommand⟩ :=
        htree root ps 900 100 hfit (fits_of_natAbs_le (by decide)) (fits_of_natAbs_le (by decide))
      rw [Element.lastAt] at hsecond
      rw [(hcommand {} "panel.json" overlappingText v hv hroot hps).1, hsecond]

/-- Beyond the range of doubles no box is taken in, and no point is looked up. -/
theorem hit_tests_fail_beyond_doubles :
    (HitMap.ofList [("a", .ofInts (10 ^ 400) 0 1 1)]).map HitMap.size = .error .tooLarge ∧
    (HitMap.allAt (⟨[]⟩ : HitMap String) (.int (10 ^ 400)) (.int 0)) = .error .tooLarge := by
  decide +kernel

end PlaneIndex

end PanelLayout
