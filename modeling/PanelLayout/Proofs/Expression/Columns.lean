import PanelLayout.Expression.Columns
import PanelLayout.Proofs.Expression.Searching
import PanelLayout.Proofs.Expression.Sentence

/-!
# Columns and positions

Each word of a line stands at a column of its own, further to the right than the words before it. So
the table leads from the column where a word starts to the position of this word in the source.
-/

namespace PanelLayout

variable {ts : List Token} {column start : Nat} {kind : Lexeme → Prop}

@[simp] theorem words_lineFrom (start : Nat) (ts : List Token) :
    words (lineFrom start ts) = words ts := by
  induction ts generalizing start with
  | nil => rfl
  | cons t ts ih => rw [lineFrom, words_cons, words_cons, ih]

@[simp] theorem words_line (ts : List Token) : words (line ts) = words ts := words_lineFrom 0 ts

theorem le_of_mem_lineFrom {u : Token} (h : u ∈ lineFrom start ts) : start ≤ u.position := by
  induction ts generalizing start with
  | nil => cases h
  | cons t ts ih =>
    rcases List.mem_cons.mp h with rfl | h
    · exact Nat.le_refl start
    · have := ih h
      omega

private def tableFrom (start : Nat) (ts : List Token) : List (Nat × Nat) :=
  ((lineFrom start ts).map Token.position).zip (ts.map Token.position)

private theorem map_fst_tableFrom (start : Nat) (ts : List Token) :
    (tableFrom start ts).map Prod.fst = (lineFrom start ts).map Token.position := by
  have hlength := congrArg List.length (words_lineFrom start ts)
  simp only [words, List.length_map] at hlength
  exact List.map_fst_zip (by simp [hlength])

private theorem sourcePosition_cons_of_exists {entry : Nat × Nat} {table : List (Nat × Nat)}
    (h : ∃ e ∈ table, e.1 ≤ column) :
    sourcePosition (entry :: table) column = sourcePosition table column := by
  obtain ⟨e, he, hle⟩ := h
  have hfound : (table.reverse.find? (·.1 ≤ column)).isSome = true := by
    rw [List.find?_isSome]
    exact ⟨e, List.mem_reverse.mpr he, by simpa using hle⟩
  rw [sourcePosition, sourcePosition, List.reverse_cons, List.find?_append,
    Option.or_of_isSome hfound]

private theorem sourcePosition_cons_self {position : Nat} {table : List (Nat × Nat)}
    (h : ∀ e ∈ table, column < e.1) :
    sourcePosition ((column, position) :: table) column = position := by
  have hnone : table.reverse.find? (·.1 ≤ column) = none := by
    rw [List.find?_eq_none]
    intro e he
    have := h e (List.mem_reverse.mp he)
    simp only [decide_eq_true_eq]
    omega
  rw [sourcePosition, List.reverse_cons, List.find?_append, hnone]
  simp

private theorem StandsAt.sourcePosition_tableFrom (h : StandsAt (lineFrom start ts) kind column) :
    StandsAt ts kind (sourcePosition (tableFrom start ts) column) := by
  induction ts generalizing start with
  | nil =>
    obtain ⟨u, hu, -⟩ := h
    cases hu
  | cons t ts ih =>
    obtain ⟨u, hu, hkind, rfl⟩ := h
    rcases List.mem_cons.mp hu with rfl | hu
    · -- every later word starts behind this one
      refine ⟨t, List.mem_cons_self, hkind, (sourcePosition_cons_self fun e he => ?_).symm⟩
      obtain ⟨v, hv, hcolumn⟩ := List.mem_map.mp (List.of_mem_zip he).1
      have hle := le_of_mem_lineFrom hv
      dsimp only
      omega
    · obtain ⟨v, hv, hvkind, hposition⟩ := ih ⟨u, hu, hkind, rfl⟩
      refine ⟨v, List.mem_cons_of_mem t hv, hvkind, hposition.trans ?_⟩
      have hcolumn := List.mem_map_of_mem (f := Token.position) hu
      rw [← map_fst_tableFrom, List.mem_map] at hcolumn
      obtain ⟨e, he, hcolumn⟩ := hcolumn
      exact (sourcePosition_cons_of_exists ⟨e, he, hcolumn.le⟩).symm

/-- The table leads from a word of the line to the same word in the source. -/
theorem StandsAt.sourcePosition (h : StandsAt (line ts) kind column) :
    StandsAt ts kind (sourcePosition (columnTable ts) column) :=
  StandsAt.sourcePosition_tableFrom h

theorem wordAt_line_zero (hne : ts ≠ []) : WordAt (line ts) 0 := by
  obtain ⟨t, ts, rfl⟩ := List.exists_cons_of_ne_nil hne
  exact ⟨_, List.mem_cons_self, trivial, rfl⟩

end PanelLayout
