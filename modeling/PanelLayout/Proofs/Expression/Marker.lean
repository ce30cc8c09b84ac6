import PanelLayout.Proofs.Expression.EndMark
import PanelLayout.Proofs.Expression.Lexing

/-!
# Markers

Which expression a text writes does not depend on where in a source it stands, and no expression
starts with what the settings accept as a marker. So a marker in front of an expression is never a
part of it, and turns it into an end coordinate.
-/

namespace PanelLayout

namespace Scans

variable {afterNumber : Bool} {open_ position : Nat} {cs : List Char} {ts : List Token}

theorem moved (h : Scans afterNumber open_ position cs ts) (start : Nat) :
    ∃ us, Scans afterNumber open_ start cs us ∧ words us = words ts := by
  induction h generalizing start with
  | done afterNumber => exact ⟨[], .done afterNumber start, rfl⟩
  | blank hblank _ ih =>
    obtain ⟨us, hus, hwords⟩ := ih (start + 1)
    exact ⟨us, .blank hblank hus, hwords⟩
  | @word afterNumber open_ inner position w cs ts hw hrefusal hopen _ ih =>
    obtain ⟨us, hus, hwords⟩ := ih (start + w.text.length)
    exact ⟨⟨w, start⟩ :: us, .word hw hrefusal hopen hus, congrArg (w :: ·) hwords⟩

theorem head (h : Scans afterNumber open_ position cs ts) :
    ∀ c ∈ cs.head?, isBlank c = true ∨ startsWord c = true := by
  intro c hc
  cases h with
  | done => cases hc
  | blank hblank _ =>
    obtain rfl := Option.some.inj hc
    exact .inl hblank
  | word hw _ _ _ =>
    obtain ⟨d, ds, htext, hd⟩ := (isWord_of_lexeme? hw).1.text_eq_cons
    rw [htext] at hc
    obtain rfl := Option.some.inj hc
    exact .inr hd

end Scans

namespace Expression

variable {limits : NestingLimits} {extended : Bool} {rules : ReadingRules}
    {source : String} {start : Nat}
  {cs : List Char} {e : Expression}

/-- Whether a text writes an expression, wherever it stands. -/
def Writes (limits : NestingLimits) (extended : Bool) (cs : List Char) (e : Expression) : Prop :=
  ∃ ts d, Scans false 0 0 cs ts ∧ Sentence extended .sum (words ts) e d ∧
    KeepsLimits limits (words ts) d

theorem writes_iff (size : Nat) : Writes limits extended (source.toList.drop start) e ↔
    ∃ ts, tokenize source start = .ok ts ∧ ofTokens limits extended size start ts = .ok e := by
  simp only [tokenize_eq_ok_iff, ofTokens_eq_ok_iff_sentence]
  constructor
  · rintro ⟨ts, d, hscan, hsentence, hlimits⟩
    obtain ⟨us, hus, hwords⟩ := hscan.moved start
    rw [← hwords] at hsentence hlimits
    refine ⟨us, ⟨hus, ?_⟩, d, hsentence, hlimits⟩
    rintro rfl
    obtain ⟨w, rest, hrest, -⟩ := hsentence.wellSpaced.starts
    cases hrest
  · rintro ⟨ts, ⟨hscan, -⟩, d, hsentence, hlimits⟩
    obtain ⟨us, hus, hwords⟩ := hscan.moved 0
    rw [← hwords] at hsentence hlimits
    exact ⟨us, d, hus, hsentence, hlimits⟩

theorem Writes.ends_eq_false (h : Writes limits extended cs e) : e.ends = false := by
  obtain ⟨ts, d, -, hsentence, -⟩ := h
  exact hsentence.isUnmarked.ends_eq_false

/-- Reading a text gives what is written behind the marker, as an end coordinate if the marker is
there. -/
theorem read_eq_ok_iff_writes : read rules source = .ok e ↔
    ∃ f,
    Writes rules.limits rules.extended
      (source.toList.drop ((markerLength? rules source).getD 0)) f ∧
      (if (markerLength? rules source).isSome then f.markEnd else f) = e := by
  simp only [read_eq_ok_iff, writes_iff source.length]
  constructor
  · rintro ⟨ts, f, hts, hf, he⟩
    exact ⟨f, ⟨ts, hts, hf⟩, he⟩
  · rintro ⟨f, ⟨ts, hts, hf⟩, he⟩
    exact ⟨ts, f, hts, hf, he⟩

theorem read_eq_ok_iff_of_unmarked (h : markerLength? rules source = none) :
    read rules source = .ok e ↔ Writes rules.limits rules.extended source.toList e := by
  simp [read_eq_ok_iff_writes, h]

section Marker

variable {marker : String} {m : Char}

theorem markerLength?_singleton (hmarker : marker.toList = [m]) :
    markerLength? { extended, preface := true, marker, limits } source = if source.toList.head? =
      some m then some 1 else none := by
  have hlength : marker.length = 1 := by rw [← String.length_toList, hmarker]; rfl
  have hprefix : [m].isPrefixOf source.toList = true ↔ source.toList.head? = some m := by
    cases source.toList with
    | nil => simp [List.isPrefixOf]
    | cons c cs => simpa [List.isPrefixOf] using eq_comm
  rw [markerLength?, hmarker, hlength]
  simp only [Bool.true_and, hprefix]

theorem Writes.head_ne (h : Writes limits extended cs e) (hm : isMarker m = true) :
    cs.head? ≠ some m := by
  obtain ⟨ts, d, hscan, -⟩ := h
  intro hhead
  rcases hscan.head m hhead with hblank | hstart
  · simp [isMarker, hblank] at hm
  · rw [startsWord_of_isMarker hm] at hstart
    cases hstart

end Marker

theorem exists_of_set_marker {settings accepted : Settings} {marker : String}
    (h : settings.set "preface_marker" (.text marker) = .ok accepted) :
    ∃ m, marker.toList = [m] ∧ isMarker m = true := by
  have hmarker : markerOfJson? (.text marker) ≠ none := by
    intro hnone
    simp [Settings.set, hnone] at h
  rw [markerOfJson?] at hmarker
  split at hmarker
  · rename_i m hm
    split_ifs at hmarker with hmarks
    · exact ⟨m, hm, hmarks⟩
    · exact absurd rfl hmarker
  · exact absurd rfl hmarker

/-- A marker is unambiguous. Where a marker that the settings accept may stand in front of an
expression, every text that is an expression without it is read as the same one, which is no end
coordinate, and with the marker in front of it as the end coordinate that it writes. No other text
is read as an end coordinate. -/
theorem read_marker {settings accepted : Settings} {marker : String}
    (h : settings.set "preface_marker" (.text marker) = .ok accepted) (limits : NestingLimits)
    (extended : Bool) :
    (∀ source e, read { extended, limits } source = .ok e →
      e.ends = false ∧ read { extended, preface := true, marker, limits } source = .ok e ∧
        read { extended, preface := true, marker, limits } (marker ++ source) = .ok e.markEnd) ∧
    ∀ source e, read { extended, preface := true, marker, limits } source = .ok e → e.ends = true →
      ∃ rest f, source = marker ++ rest ∧ read { extended, limits } rest = .ok f ∧
      e = f.markEnd := by
  obtain ⟨m, hmarker, hm⟩ := exists_of_set_marker h
  have hplain (source : String) (e : Expression) :
      read { extended, limits } source = .ok e ↔ Writes limits extended source.toList e :=
    read_eq_ok_iff_of_unmarked (by simp [markerLength?])
  constructor
  · intro source e hread
    have hwrites := (hplain source e).mp hread
    refine ⟨hwrites.ends_eq_false, ?_, ?_⟩
    · -- the marker cannot be the first character of an expression, so nothing is taken off
      refine (read_eq_ok_iff_of_unmarked ?_).mpr hwrites
      rw [markerLength?_singleton hmarker, if_neg (hwrites.head_ne hm)]
    · have hlength : markerLength? { extended, preface := true, marker, limits }
          (marker ++ source) = some 1 := by
        rw [markerLength?_singleton hmarker]
        simp [hmarker]
      refine read_eq_ok_iff_writes.mpr ⟨e, ?_, ?_⟩
      · simpa [hlength, hmarker] using hwrites
      · simp [hlength]
  · intro source e hread hends
    have hmarked := (ends_of_read hread).symm.trans hends
    obtain ⟨f, hwrites, he⟩ := read_eq_ok_iff_writes.mp hread
    rw [if_pos hmarked] at he
    obtain rfl := he
    have hhead : source.toList.head? = some m := by
      by_contra hne
      rw [markerLength?_singleton hmarker, if_neg hne] at hmarked
      cases hmarked
    obtain ⟨rest, hrest⟩ := List.head?_eq_some_iff.mp hhead
    rw [markerLength?_singleton hmarker, if_pos hhead, hrest] at hwrites
    refine ⟨String.ofList rest, f, ?_, (hplain _ f).mpr ?_, rfl⟩
    · apply String.toList_injective
      simp [hmarker, hrest]
    · simpa using hwrites

/-- The section sign is a marker: a width less ten pixels is the same length with and without
markers, and an end coordinate behind one. -/
theorem read_marker_section_sign :
    ∃ accepted e, Settings.set {} "preface_marker" (.text "§") = .ok accepted ∧
    read {} "width - 10" = .ok e ∧
      e.ends = false ∧ read { preface := true, marker := "§" } "width - 10" = .ok e ∧
      read { preface := true, marker := "§" } "§width - 10" = .ok e.markEnd ∧
      ∃ rest f, "§width - 10" = "§" ++ rest ∧ read {} rest = .ok f ∧ e.markEnd = f.markEnd := by
  have hmarker : markerOfJson? (.text "§") = some '§' := by decide +kernel
  have hset : Settings.set {} "preface_marker" (.text "§") = .ok { marker := '§' } := by
    rw [Settings.set, hmarker]
  have hread : read {} "width - 10" = .ok (.operation .sub (.variable ⟨"width", .container⟩ false)
      (.constant (.double (.ofInt 10)) false) false) := by
    rw [← toOption_eq_some_iff]
    decide +kernel
  obtain ⟨hforward, hbackward⟩ := read_marker hset {} false
  obtain ⟨hplain, hwithout, hbehind⟩ := hforward _ _ hread
  exact ⟨_, _, hset, hread, hplain, hwithout, hbehind, hbackward _ _ hbehind rfl⟩

end Expression

end PanelLayout
