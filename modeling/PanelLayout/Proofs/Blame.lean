import PanelLayout.Json.Conversion
import PanelLayout.Proofs.Computation

/-!
# Errors that a layout is blamed for

Computations on a layout that either give a value of some kind or fail with an error that the layout
is blamed for. What is made of such steps is of this sort again. Conversions of JSON values belong
to them where their numbers are in range.
-/

namespace PanelLayout

def ErrorCategory.IsBlamed : ErrorCategory → Prop
  | .parse | .unresolved | .value | .type => True
  | .index | .overflow | .zeroDivision | .attribute | .place | .recursion => False

variable {α β : Type} {p : α → Prop} {q : β → Prop}

/-- Whether a computation gives a value of some kind, or fails with an error that the layout is
blamed for. -/
def Yields (p : α → Prop) : Except LayoutError α → Prop
  | .ok a => p a
  | .error e => e.category.IsBlamed

theorem Yields.mono {p' : α → Prop} {x : Except LayoutError α} (hx : Yields p x)
    (h : ∀ a, p a → p' a) : Yields p' x := by
  cases x with
  | error e => exact hx
  | ok a => exact h a hx

theorem Yields.bind {x : Except LayoutError α} {f : α → Except LayoutError β} (hx : Yields p x)
    (hf : ∀ a, x = .ok a → p a → Yields q (f a)) : Yields q (x >>= f) := by
  cases x with
  | error e => exact hx
  | ok a => exact hf a rfl hx

theorem Yields.foldlM {f : β → α → Except LayoutError β} {xs : List α}
    (hf : ∀ a ∈ xs, ∀ b, q b → Yields q (f b a)) {b : β} (hb : q b) : Yields q (xs.foldlM f b) := by
  induction xs generalizing b with
  | nil => exact hb
  | cons a xs ih =>
    rw [List.foldlM_cons]
    exact (hf a List.mem_cons_self b hb).bind fun b' _ => ih fun a' ha' =>
      hf a' (List.mem_cons_of_mem _ ha')

theorem Report.result_foldlM {f : β → α → Report β} (xs : List α) (b : β) :
    (xs.foldlM f b).result = xs.foldlM (fun b a => (f b a).result) b := by
  induction xs generalizing b with
  | nil => rfl
  | cons a xs ih =>
    rw [List.foldlM_cons, List.foldlM_cons, Report.result_bind]
    exact congrArg _ (funext ih)

theorem yields_conversion {x : Except ConversionError α} (hp : ∀ a, x = .ok a → p a)
    (he : ∀ e, x = .error e → e.category.IsBlamed) : Yields p (x.mapError .conversion) := by
  cases x with
  | error e => exact he e rfl
  | ok a => exact hp a rfl

namespace Json

/-- Whether a value that is a number has a nearest double. -/
def FitsDouble (v : Json) : Prop := ∀ n, v.number? = some n → ∃ x, n.toDouble = .ok x

/-- Whether a value is infinite, so that it has no whole part. -/
def IsInfinite (v : Json) : Prop := ∃ s, v = .number (.double (.infinite s))

theorem toDouble_yields {v : Json} (h : v.FitsDouble) :
    Yields (fun _ => True) (v.toDouble.mapError .conversion) := by
  refine yields_conversion (fun _ _ => trivial) fun e he => ?_
  cases v with
  | number n =>
    obtain ⟨x, hx⟩ := h n rfl
    simp [toDouble, hx] at he
  | bool b =>
    obtain ⟨x, hx⟩ := h (.flag b) rfl
    simp [toDouble, hx] at he
  | text s =>
    simp only [toDouble] at he
    split at he
    · cases he
    · obtain rfl := Except.error.inj he
      exact trivial
  | null | array | object =>
    obtain rfl := Except.error.inj he
    exact trivial

theorem wholeNumeral_yields (s : String) :
    Yields (fun _ => True) ((wholeNumeral s).mapError .conversion) := by
  refine yields_conversion (fun _ _ => trivial) fun e he => ?_
  unfold wholeNumeral at he
  split at he
  · cases he
  · obtain rfl := Except.error.inj he
    exact trivial
  · obtain rfl := Except.error.inj he
    exact trivial

theorem toInt_yields {v : Json} (h : ¬v.IsInfinite) :
    Yields (fun _ => True) (v.toInt.mapError .conversion) := by
  cases v with
  | number n =>
    refine yields_conversion (fun _ _ => trivial) fun e he => ?_
    rcases n with n | (_ | s | ⟨s, m⟩) | b
    · cases he
    · obtain rfl := Except.error.inj he
      exact trivial
    · exact absurd ⟨s, rfl⟩ h
    · cases he
    · cases he
  | bool b => exact trivial
  | text s => exact wholeNumeral_yields s
  | null | array | object => exact trivial

end Json

end PanelLayout
