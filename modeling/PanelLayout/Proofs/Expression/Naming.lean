import Mathlib
import PanelLayout.Expression.Reader

/-!
# Names

What a written name refers to, told by the names themselves. The reader decides it by letter case;
both agree.
-/

namespace PanelLayout

/-- What a name refers to. A name of the own size refers to nothing where no own size is known;
every name that is not built in belongs to the caller. -/
inductive Names (extended : Bool) : String → Variable → Prop
  | container {name : String} (builtin : name ∈ builtinNames) :
      Names extended name ⟨name, .container⟩
  | own {name : String} (known : extended = true) (builtin : name ∈ builtinNames) :
      Names extended (upperCase name) ⟨name, .own⟩
  | custom {name : String} (lower : name ∉ builtinNames)
    (upper : name ∉ builtinNames.map upperCase) :
      Names extended name ⟨name, .custom⟩

private theorem toUpper_toLower (s : String) : s.toLower.toUpper = s.toUpper := by
  apply String.toList_injective
  simp [String.toUpper, String.toLower]

private theorem builtin_case {name : String} (h : name ∈ builtinNames) :
    name.toUpper = upperCase name ∧ (upperCase name).toLower = name ∧ (upperCase name).toUpper =
      upperCase name ∧ upperCase name ∉ builtinNames := by
  simp only [builtinNames, List.mem_cons, List.not_mem_nil, or_false] at h ⊢
  rcases h with rfl | rfl | rfl | rfl <;> decide +kernel

theorem mem_upper_iff (name : String) :
    (builtinNames.contains name.toLower && name == name.toUpper) = true ↔
    name ∈ builtinNames.map upperCase := by
  simp only [Bool.and_eq_true, List.contains_iff_mem, beq_iff_eq, List.mem_map]
  constructor
  · rintro ⟨hlow, hup⟩
    refine ⟨name.toLower, hlow, ?_⟩
    rw [← (builtin_case hlow).1, toUpper_toLower, ← hup]
  · rintro ⟨b, hb, rfl⟩
    obtain ⟨-, hlow, hup, -⟩ := builtin_case hb
    exact ⟨hlow.symm ▸ hb, hup.symm⟩

theorem mem_lower_iff (name : String) :
    (builtinNames.contains name.toLower && name == name.toLower) = true ↔ name ∈ builtinNames := by
  have hlower : ∀ b ∈ builtinNames, b.toLower = b := by decide +kernel
  simp only [Bool.and_eq_true, List.contains_iff_mem, beq_iff_eq]
  constructor
  · rintro ⟨hlow, hname⟩
    rwa [hname]
  · intro h
    rw [hlower name h]
    exact ⟨h, rfl⟩

/-- A name is looked up exactly as it refers. -/
theorem resolveName_eq_some_iff (extended : Bool) (name : String) (v : Variable) :
    resolveName extended name = some v ↔ Names extended name v := by
  constructor
  · intro h
    unfold resolveName at h
    split at h
    · rename_i hc
      obtain rfl := Option.some.inj h
      exact .container (by simpa using hc)
    · rename_i hc
      split at h
      · rename_i hu
        obtain ⟨b, hb, rfl⟩ := List.mem_map.mp ((mem_upper_iff name).mp hu)
        rw [(builtin_case hb).2.1] at h
        cases extended with
        | false => simp at h
        | true =>
          obtain rfl := Option.some.inj h
          exact .own rfl hb
      · rename_i hu
        obtain rfl := Option.some.inj h
        exact .custom (by simpa using hc) (fun h => hu ((mem_upper_iff name).mpr h))
  · intro h
    cases h with
    | container hb => simp [resolveName, hb]
    | @own b known hb =>
      have hu := (mem_upper_iff (upperCase b)).mpr (List.mem_map_of_mem hb)
      have hc : builtinNames.contains (upperCase b) = false := by
        simpa using (builtin_case hb).2.2.2
      rw [resolveName, hc, hu, known, (builtin_case hb).2.1]
      rfl
    | custom hlower hupper =>
      have hu := mt (mem_upper_iff name).mp hupper
      simp only [resolveName]
      rw [if_neg (by simpa using hlower), if_neg hu]

theorem Names.source_eq {extended : Bool} {name : String} {v : Variable}
    (h : Names extended name v) :
    v.source = name := by
  cases h <;> rfl

end PanelLayout
