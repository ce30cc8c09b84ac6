import PanelLayout.Proofs.Double.Closeness
import PanelLayout.Proofs.Expression.Numerals

/-!
# Number literals

What becomes of a number literal that is read, written and read again: its value is rounded to
millionths on the way. Where it was the nearest double to some millionths before, or is so large or
so small that these count for nothing, it stays equal.
-/

namespace PanelLayout

namespace Surface

theorem exists_millionths {cs places : List Char} (h : ∀ c ∈ cs, isDecimalDigit c = true)
    (hplaces : places.length ≤ 6) :
    ∃ n, numberValue (cs ++ '.' :: places) = Double.ofDecimal n (-6) := by
  have hzeros :=
    Decimal.toDouble_mul_pow false (digitsValue (cs ++ places)) places.length (6 - places.length)
  rw [show places.length + (6 - places.length) = 6 by omega] at hzeros
  exact ⟨_, (numberValue_fraction h).trans hzeros.symm⟩

/-- The value that is read again is close to the one that was written, under each of three
conditions. -/
theorem isClose_rewritten {m : Magnitude}
    (h : (∃ n, Double.finite false m = .ofDecimal n (-6)) ∨
      (Double.ofInt 512).le (.finite false m) = true ∨
      (Double.finite false m).le (.ofDecimal 1 (-9)) = true) :
    (rewritten m).isClose (.finite false m) = true := by
  rw [rewritten]
  split
  · rename_i hzero
    rwa [Double.isClose_comm]
  · rename_i hzero
    rcases Nat.lt_or_ge m.quanta (512 * quantaPerOne) with hsmall | hlarge
    · rcases h with ⟨n, hn⟩ | h | h
      · rw [Double.millionths_ofDecimal hn.symm hsmall, ← hn]
        exact Double.isClose_self m
      · rw [(Double.isQuanta_ofInt (by decide)).le (Double.isQuanta_finite m), decide_eq_true_eq]
          at h
        change (512 : Int) * quantaPerOne ≤ m.quanta at h
        omega
      · exact absurd (Double.isClose_zero h) hzero
    · exact Double.isClose_millionths hlarge

end Surface

namespace Expression

theorem tokenize_number {cs : List Char} (h : (Lexeme.number cs).IsWord) :
    tokenize (String.ofList cs) = .ok [⟨.number cs, 0⟩] := by
  have hlexeme := h.lexeme?_text fun _ => separates_nil
  have hscan : Scans false 0 0 ((Lexeme.number cs).text ++ []) [⟨.number cs, 0⟩] :=
    .word hlexeme rfl rfl (.done _ _)
  rw [List.append_nil] at hscan
  refine tokenize_eq_ok_iff.mpr ⟨?_, List.cons_ne_nil _ _⟩
  rw [List.drop_zero, String.toList_ofList]
  exact hscan

theorem read_number {cs : List Char} (h : (Lexeme.number cs).IsWord) :
    read {} (String.ofList cs) = .ok (.constant (.double (Surface.numberValue cs)) false) := by
  have hsentence : Sentence false .sum (words [⟨.number cs, 0⟩]) _ 1 := .sum (.product (.number cs))
  have hopen : NestsWithin openLimit (words [⟨.number cs, 0⟩]) := nestsWithin_of_count (by simp)
  rw [read_of_tokenize (tokenize_number h),
    ofTokens_eq_ok_iff_sentence.mpr ⟨_, hsentence, rfl, hopen, by decide⟩]
  rfl

/-- A number literal with a finite value is read as this value, and the text that is written for it
as the value that is rounded to millionths. The two compare as doubles do, and they are equal where
the value was the nearest to some millionths, is 512 or more, or is a billionth or less. -/
theorem read_literal {cs : List Char} (hword : (Lexeme.number cs).IsWord)
    (hfinite : (Surface.numberValue cs).isFinite = true) :
    ∃ m : Magnitude, Surface.numberValue cs = .finite false m ∧
      read {} (String.ofList cs) = .ok (.constant (.double (.finite false m)) false) ∧
      read {} (constant (.double (.finite false m)) false).source =
        .ok (.constant (.double (Surface.rewritten m)) false) ∧
      (constant (.double (Surface.rewritten m)) false).equals
        (.constant (.double (.finite false m)) false) =
        .ok ((Surface.rewritten m).isClose (.finite false m)) ∧
      ((∃ n, Double.finite false m = .ofDecimal n (-6)) ∨
        (Double.ofInt 512).le (.finite false m) = true ∨
        (Double.finite false m).le (.ofDecimal 1 (-9)) = true →
        (constant (.double (Surface.rewritten m)) false).equals
          (.constant (.double (.finite false m)) false) = .ok true) := by
  obtain ⟨m, hm⟩ := Surface.exists_numberValue hfinite
  have hread := read_number hword
  rw [hm] at hread
  have hagain := read_number (isPlain_constantSource m).isWord
  rw [Surface.numberValue_constantSource] at hagain
  refine ⟨m, hm, hread, hagain, rfl, fun h => ?_⟩
  rw [← Surface.isClose_rewritten h]
  rfl

/-- A tenth stays equal. -/
theorem read_literal_tenth :
    ∃ m : Magnitude, read {} "0.1" = .ok (.constant (.double (.finite false m)) false) ∧
      read {} (constant (.double (.finite false m)) false).source =
        .ok (.constant (.double (Surface.rewritten m)) false) ∧
      (constant (.double (Surface.rewritten m)) false).equals
        (.constant (.double (.finite false m)) false) = .ok true := by
  have hzero : ∀ c ∈ ['0'], isDecimalDigit c = true :=
    List.forall_mem_singleton.mpr (isDecimalDigit_of_isDigit rfl)
  have hone : ∀ c ∈ ['1'], isDecimalDigit c = true :=
    List.forall_mem_singleton.mpr (isDecimalDigit_of_isDigit rfl)
  have hword : (Lexeme.number ['0', '.', '1']).IsWord :=
    .fraction (.inl (List.cons_ne_nil '0' [])) hzero hone
  obtain ⟨m, hm, hread, hagain, -, hequal⟩ := read_literal hword (by decide +kernel)
  rw [show String.ofList ['0', '.', '1'] = "0.1" by decide] at hread
  obtain ⟨n, hn⟩ := Surface.exists_millionths hzero (show ['1'].length ≤ 6 by decide)
  exact ⟨m, hread, hagain, hequal (.inl ⟨n, hm.symm.trans hn⟩)⟩

/-- A ten-millionth is written as zero, which is not equal to it. -/
theorem read_ten_millionth :
    ∃ e f, read {} "0.0000001" = .ok e ∧ e.source = "0" ∧ read {} "0" = .ok f ∧
    f.equals e = .ok false := by
  refine ⟨.constant (.double (.ofDecimal 1 (-7))) false, .constant (.double (.zero false)) false,
    ?_, ?_, ?_, ?_⟩
  · exact toOption_eq_some_iff.mp (by decide +kernel)
  · decide +kernel
  · exact toOption_eq_some_iff.mp (by decide +kernel)
  · exact toOption_eq_some_iff.mp (by decide +kernel)

end Expression

end PanelLayout
