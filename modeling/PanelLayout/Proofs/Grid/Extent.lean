import PanelLayout.Grid.Basic
import PanelLayout.Proofs.Number

/-!
# The extent of some tracks

The least number of tracks that covers some tracks counted from zero, as it is found by a scan and
as it is kept while tracks are taken in and given up.
-/

namespace PanelLayout

def Location.IsWhole (l : Location) (column row : Int) : Prop :=
  l.column.IsWhole column ∧ l.row.IsWhole row

theorem Location.IsWhole.equals_iff {a b : Location} {c r c' r' : Int} (ha : a.IsWhole c r)
    (hb : b.IsWhole c' r') :
    a.equals b = true ↔ c = c' ∧ r = r' := by
  simp [Location.equals, ha.1.equals hb.1, ha.2.equals hb.2]

theorem Location.IsWhole.equals_self {l : Location} {c r : Int} (h : l.IsWhole c r) :
    l.equals l = true :=
  (h.equals_iff h).mpr ⟨rfl, rfl⟩

def Covers (n : Number) (tracks : List Number) : Prop :=
  ∃ w, n = .int w ∧ ∀ t ∈ tracks, ∃ k, t.IsWhole k ∧ 0 ≤ k ∧ k < w

/-- Whether a number of tracks is one more than the largest of some tracks, and zero if there are
none. -/
def IsExtent (n : Number) (tracks : List Number) : Prop :=
  (tracks = [] ∧ n = .int 0) ∨
    ∃ k, n = .int (k + 1) ∧ (∃ t ∈ tracks, t.IsWhole k) ∧ ∀ t ∈ tracks, ∃ j, t.IsWhole j ∧ j ≤ k

section Tracks

variable {m n t u : Number} {k : Int} {ts us : List Number}

theorem covers_nil : Covers (.int 0) [] := ⟨0, rfl, by simp⟩

theorem isExtent_nil : IsExtent (.int 0) [] := .inl ⟨rfl, rfl⟩

theorem Covers.subset (h : Covers n ts) (hsub : us ⊆ ts) : Covers n us := by
  obtain ⟨w, hw, hts⟩ := h
  exact ⟨w, hw, fun t ht => hts t (hsub ht)⟩

private theorem max_succ {w : Int} (ht : t.IsWhole k) :
    (Number.int w).max t.succ = .int (max w (k + 1)) := by
  rw [ht.succ, Number.max_int]

theorem Covers.max_succ (h : Covers n ts) (ht : t.IsWhole k) (hk : 0 ≤ k) :
    Covers (n.max t.succ) (ts ++ [t]) := by
  obtain ⟨w, rfl, hts⟩ := h
  refine ⟨_, PanelLayout.max_succ ht, fun u hu => ?_⟩
  rcases List.mem_append.mp hu with hu | hu
  · obtain ⟨j, hj, hzero, hlt⟩ := hts u hu
    exact ⟨j, hj, hzero, by omega⟩
  · obtain rfl := List.mem_singleton.mp hu
    exact ⟨k, ht, hk, by omega⟩

theorem Covers.max_succ_of_mem (h : Covers n ts) (hu : u ∈ ts) (huk : u.IsWhole k)
    (ht : t.IsWhole k) :
    n.max t.succ = n := by
  obtain ⟨w, rfl, hts⟩ := h
  obtain ⟨j, hj, -, hlt⟩ := hts u hu
  obtain rfl := hj.unique huk
  rw [PanelLayout.max_succ ht, Int.max_eq_left (by omega)]

theorem IsExtent.max_succ (h : IsExtent n ts) (ht : t.IsWhole k) (hk : 0 ≤ k) :
    IsExtent (n.max t.succ) (ts ++ [t]) := by
  refine .inr ?_
  rcases h with ⟨rfl, rfl⟩ | ⟨j, rfl, ⟨u, hu, huj⟩, hts⟩
  · refine ⟨k, ?_, ⟨t, by simp, ht⟩, fun u hu => ⟨k, ?_, Int.le_refl k⟩⟩
    · rw [PanelLayout.max_succ ht, Int.max_eq_right (by omega)]
    · simpa [List.mem_singleton.mp hu] using ht
  · refine ⟨max j k, ?_, ?_, fun v hv => ?_⟩
    · rw [PanelLayout.max_succ ht]
      congr 1
      omega
    · rcases Int.le_total j k with hjk | hjk
      · exact ⟨t, by simp, by rwa [Int.max_eq_right hjk]⟩
      · exact ⟨u, by simp [hu], by rwa [Int.max_eq_left hjk]⟩
    · rcases List.mem_append.mp hv with hv | hv
      · obtain ⟨i, hi, hij⟩ := hts v hv
        exact ⟨i, hi, by omega⟩
      · obtain rfl := List.mem_singleton.mp hv
        exact ⟨k, ht, by omega⟩

theorem IsExtent.unique (hm : IsExtent m ts) (hn : IsExtent n ts) : m = n := by
  rcases hm with ⟨rfl, rfl⟩ | ⟨i, rfl, ⟨t, ht, hti⟩, hi⟩
  · rcases hn with ⟨-, rfl⟩ | ⟨-, -, ⟨t, ht, -⟩, -⟩
    · rfl
    · cases ht
  · rcases hn with ⟨rfl, -⟩ | ⟨j, rfl, ⟨u, hu, huj⟩, hj⟩
    · cases ht
    · obtain ⟨i', hi', hle⟩ := hj t ht
      obtain ⟨j', hj', hge⟩ := hi u hu
      obtain rfl := hi'.unique hti
      obtain rfl := hj'.unique huj
      congr 1
      omega

/-- With its largest track kept, what is left of some tracks has the same extent. -/
theorem IsExtent.of_subset (h : IsExtent (.int (k + 1)) ts) (hsub : us ⊆ ts) (hu : u ∈ us)
    (hk : u.IsWhole k) :
    IsExtent (.int (k + 1)) us := by
  rcases h with ⟨rfl, -⟩ | ⟨j, hj, -, hts⟩
  · cases hsub hu
  · obtain rfl : k = j := by
      have := Number.int.inj hj
      omega
    exact .inr ⟨k, rfl, ⟨u, hu, hk⟩, fun t ht => hts t (hsub ht)⟩

private theorem lastTrack_isWhole {first : Number} {i : Int} (hfirst : first.IsWhole i)
    (hts : ∀ t ∈ ts, ∃ j, t.IsWhole j) :
    ∃ k, (Grid.lastTrack first ts).IsWhole k ∧ i ≤ k ∧ (k = i ∨ ∃ t ∈ ts, t.IsWhole k) ∧
      ∀ t ∈ ts, ∃ j, t.IsWhole j ∧ j ≤ k := by
  induction ts generalizing first i with
  | nil => exact ⟨i, hfirst, Int.le_refl i, .inl rfl, by simp⟩
  | cons t ts ih =>
    obtain ⟨j, hj⟩ := hts t List.mem_cons_self
    obtain ⟨k, hk, hle, hmem, hall⟩ := ih (hfirst.max hj) fun u hu =>
      hts u (List.mem_cons_of_mem _ hu)
    refine ⟨k, hk, by omega, ?_, fun u hu => ?_⟩
    · rcases hmem with hki | ⟨u, hu, huk⟩
      · rcases Int.le_total i j with hij | hij
        · exact .inr ⟨t, List.mem_cons_self, by rwa [hki, Int.max_eq_right hij]⟩
        · exact .inl (by rw [hki, Int.max_eq_left hij])
      · exact .inr ⟨u, List.mem_cons_of_mem _ hu, huk⟩
    · rcases List.mem_cons.mp hu with rfl | hu
      · exact ⟨j, hj, by omega⟩
      · exact hall u hu

theorem Covers.isExtent_extentOf (h : Covers n ts) : IsExtent (Grid.extentOf ts) ts := by
  obtain ⟨w, -, hts⟩ := h
  cases ts with
  | nil => exact isExtent_nil
  | cons t ts =>
    obtain ⟨i, hi, -, -⟩ := hts t List.mem_cons_self
    have hwhole : ∀ u ∈ ts, ∃ j, u.IsWhole j := fun u hu =>
      (hts u (List.mem_cons_of_mem _ hu)).imp fun j hj => hj.1
    obtain ⟨k, hk, hle, hmem, hall⟩ := lastTrack_isWhole hi hwhole
    refine .inr ⟨k, hk.succ, ?_, fun u hu => ?_⟩
    · rcases hmem with rfl | ⟨u, hu, huk⟩
      · exact ⟨t, List.mem_cons_self, hi⟩
      · exact ⟨u, List.mem_cons_of_mem _ hu, huk⟩
    · rcases List.mem_cons.mp hu with rfl | hu
      · exact ⟨i, hi, hle⟩
      · exact hall u hu

theorem Covers.of_isExtent (h : Covers m ts) (hn : IsExtent n ts) : Covers n ts := by
  obtain ⟨w, -, hts⟩ := h
  rcases hn with ⟨rfl, rfl⟩ | ⟨k, rfl, -, hall⟩
  · exact covers_nil
  · refine ⟨k + 1, rfl, fun t ht => ?_⟩
    obtain ⟨i, hi, hzero, -⟩ := hts t ht
    obtain ⟨j, hj, hjk⟩ := hall t ht
    obtain rfl := hi.unique hj
    exact ⟨i, hi, hzero, by omega⟩

/-- Counted from zero, the largest of some tracks is the same whether zero is among them or not. -/
theorem Covers.lastTrack_zero (h : Covers n ts) (hne : ts ≠ []) :
    ∃ k, (Grid.lastTrack (.int 0) ts).IsWhole k ∧ IsExtent (.int (k + 1)) ts := by
  obtain ⟨w, -, hts⟩ := h
  obtain ⟨k, hk, hle, hmem, hall⟩ :=
    lastTrack_isWhole (Number.isWhole_int 0) fun t ht => (hts t ht).imp fun j hj => hj.1
  refine ⟨k, hk, .inr ⟨k, rfl, ?_, hall⟩⟩
  rcases hmem with rfl | hmem
  · obtain ⟨t, ht⟩ := List.exists_mem_of_ne_nil ts hne
    obtain ⟨j, hj, hjk⟩ := hall t ht
    obtain ⟨i, hi, hzero, -⟩ := hts t ht
    obtain rfl := hi.unique hj
    obtain rfl : i = 0 := by omega
    exact ⟨t, ht, hj⟩
  · exact hmem

end Tracks

end PanelLayout
