import Mathlib.Data.List.Forall2
import PanelLayout.Report

/-!
# Computations that may fail

How a computation made of two steps ends, read off from its steps: for results and for reports of
results.
-/

namespace PanelLayout

universe u v w

variable {ε : Type u} {α β : Type v}

@[simp] theorem ok_bind (a : α) (f : α → Except ε β) : (Except.ok a >>= f) = f a := rfl

@[simp] theorem error_bind (e : ε) (f : α → Except ε β) : ((Except.error e : Except ε α) >>= f) =
    .error e := rfl

@[simp] theorem pure_eq_ok (a : α) : (pure a : Except ε α) = .ok a := rfl

theorem bind_eq_ok_iff {x : Except ε α} {f : α → Except ε β} {b : β} :
    (x >>= f) = .ok b ↔ ∃ a, x = .ok a ∧ f a = .ok b := by
  cases x with
  | error e => simp
  | ok a => simp

theorem bind_eq_error_iff {x : Except ε α} {f : α → Except ε β} {e : ε} :
    (x >>= f) = .error e ↔ x = .error e ∨ ∃ a, x = .ok a ∧ f a = .error e := by
  cases x with
  | error e => simp
  | ok a => simp

/-- Whether a computation gives a value of some kind, or fails with an error of some kind. -/
def Settles (q : ε → Prop) (p : α → Prop) : Except ε α → Prop
  | .ok a => p a
  | .error e => q e

theorem Settles.bind {q : ε → Prop} {p : α → Prop} {r : β → Prop} {x : Except ε α}
    {f : α → Except ε β} (hx : Settles q p x) (hf : ∀ a, p a → Settles q r (f a)) :
    Settles q r (x >>= f) := by
  cases x with
  | error e => exact hx
  | ok a => exact hf a hx

theorem mapM_eq_ok_iff {γ : Type v} {f : γ → Except ε α} {xs : List γ} {ys : List α} :
    xs.mapM f = .ok ys ↔ List.Forall₂ (fun x y => f x = .ok y) xs ys := by
  induction xs generalizing ys with
  | nil => simp [eq_comm]
  | cons x xs ih =>
    simp only [List.mapM_cons, bind_eq_ok_iff, ih, pure_eq_ok, Except.ok.injEq,
      List.forall₂_cons_left_iff]
    constructor
    · intro h
      obtain ⟨y, hy, ys', hys, heq⟩ := h
      exact ⟨y, ys', hy, hys, heq.symm⟩
    · intro h
      obtain ⟨y, ys', hy, hys, heq⟩ := h
      exact ⟨y, hy, ys', hys, heq.symm⟩

theorem toOption_eq_some_iff {x : Except ε α} {a : α} : x.toOption = some a ↔ x = .ok a := by
  cases x with
  | error e => simp [Except.toOption]
  | ok b => simp [Except.toOption]

variable {ε' : Type w}

@[simp] theorem mapError_ok (f : ε → ε') (a : α) :
    (Except.ok a : Except ε α).mapError f = .ok a := rfl

@[simp] theorem mapError_error (f : ε → ε') (e : ε) :
    (Except.error e : Except ε α).mapError f = .error (f e) := rfl

theorem mapError_eq_ok_iff {x : Except ε α} {f : ε → ε'} {a : α} :
    x.mapError f = .ok a ↔ x = .ok a := by
  cases x with
  | error e => simp
  | ok b => simp

theorem mapError_eq_error_iff {x : Except ε α} {f : ε → ε'} {e' : ε'} :
    x.mapError f = .error e' ↔ ∃ e, x = .error e ∧ f e = e' := by
  cases x with
  | error e => simp
  | ok b => simp

namespace Report

variable {α β : Type}

@[simp] theorem result_pure (a : α) : (pure a : Report α).result = .ok a := rfl

theorem liftM_ok_bind (a : α) (f : α → Report β) :
    ((liftM (Except.ok a : Except LayoutError α) : Report α) >>= f) = f a := rfl

@[simp] theorem result_liftM (r : Except LayoutError α) : (liftM r : Report α).result = r := rfl

theorem result_ofNumber_eq_ok_iff {r : Except NumberError α} {a : α} :
    (ofNumber r).result = .ok a ↔ r = .ok a :=
  mapError_eq_ok_iff

theorem result_bind (r : Report α) (f : α → Report β) :
    (r >>= f).result = r.result >>= fun a => (f a).result := by
  change (Report.bind r f).result = _
  unfold Report.bind
  cases r.result with
  | error e => rfl
  | ok a => rfl

theorem result_bind_eq_ok_iff {r : Report α} {f : α → Report β} {b : β} :
    (r >>= f).result = .ok b ↔ ∃ a, r.result = .ok a ∧ (f a).result = .ok b := by
  rw [result_bind, bind_eq_ok_iff]

/-- Whether a computation can only fail with errors of certain categories. -/
def FailsOnly (p : ErrorCategory → Prop) (r : Report α) : Prop :=
  ∀ e, r.result = .error e → p e.category

variable {p : ErrorCategory → Prop}

theorem failsOnly_pure {a : α} : FailsOnly p (pure a) := fun _ h => nomatch h

theorem failsOnly_ofNumber {r : Except NumberError α} (hp : ∀ e : NumberError, p e.category) :
    (ofNumber r).FailsOnly p := by
  intro e h
  cases r with
  | error n =>
    obtain rfl := Except.error.inj h
    exact hp n
  | ok a => cases h

theorem FailsOnly.bind {r : Report α} {f : α → Report β} (hr : r.FailsOnly p)
    (hf : ∀ a, (f a).FailsOnly p) :
    (r >>= f).FailsOnly p := by
  intro e h
  change (Report.bind r f).result = .error e at h
  cases ha : r.result with
  | error e' =>
    rw [Report.bind, ha] at h
    obtain rfl := Except.error.inj h
    exact hr e' ha
  | ok a =>
    rw [Report.bind, ha] at h
    exact hf a e h

end Report

end PanelLayout
