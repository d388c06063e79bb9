/-!
# Results

What is known of a computation that may fail once it has a result, and what two of them have in common that fail alike.
-/

namespace Lifecycle

variable {ε ε' α β : Type}

theorem ok_bind (a : α) (f : α → Except ε β) : (Except.ok a >>= f) = f a := rfl

/-- What follows something that may fail yields a value only if both do. -/
theorem bind_ok {x : Except ε α} {f : α → Except ε β} {b : β} (h : (x >>= f) = .ok b) :
    ∃ a, x = .ok a ∧ f a = .ok b := by
  cases x with
  | error e => cases h
  | ok a => exact ⟨a, rfl, h⟩

theorem map_ok {x : Except ε α} {f : α → β} {b : β} (h : x.map f = .ok b) : ∃ a, x = .ok a ∧ f a = b := by
  cases x with
  | error e => cases h
  | ok a => exact ⟨a, rfl, Except.ok.inj h⟩

theorem mapError_ok {x : Except ε α} {f : ε → ε'} {a : α} (h : x.mapError f = .ok a) : x = .ok a := by
  cases x with
  | error e => cases h
  | ok b => exact congrArg _ (Except.ok.inj h)

theorem toOption_ok {x : Except ε α} {a : α} (h : x.toOption = some a) : x = .ok a := by
  cases x with
  | error e => cases h
  | ok b => exact congrArg _ (Option.some.inj h)

/-- The same fault, or values in a relation. -/
inductive Agreed (R : α → β → Prop) : Except ε α → Except ε β → Prop where
  | ok {a : α} {b : β} (h : R a b) : Agreed R (.ok a) (.ok b)
  | error (e : ε) : Agreed R (.error e) (.error e)

namespace Agreed

variable {γ δ : Type} {R : α → β → Prop} {R' : γ → δ → Prop}

theorem refl (x : Except ε α) : Agreed Eq x x := by
  cases x with
  | ok a => exact .ok rfl
  | error e => exact .error e

theorem eq {x y : Except ε α} (h : Agreed Eq x y) : x = y := by
  cases h with
  | ok h => rw [h]
  | error e => rfl

theorem imp {S : α → β → Prop} {x : Except ε α} {y : Except ε β} (h : Agreed R x y) (hS : ∀ a b, R a b → S a b) :
    Agreed S x y := by
  cases h with
  | ok h => exact .ok (hS _ _ h)
  | error e => exact .error e

theorem bind {x : Except ε α} {y : Except ε β} {f : α → Except ε γ} {g : β → Except ε δ} (h : Agreed R x y)
    (hf : ∀ a b, R a b → Agreed R' (f a) (g b)) : Agreed R' (x >>= f) (y >>= g) := by
  cases h with
  | ok h => exact hf _ _ h
  | error e => exact .error e

theorem map {x : Except ε α} {y : Except ε β} {f : α → γ} {g : β → δ} (h : Agreed R x y)
    (hf : ∀ a b, R a b → R' (f a) (g b)) : Agreed R' (x.map f) (y.map g) := by
  cases h with
  | ok h => exact .ok (hf _ _ h)
  | error e => exact .error e

theorem mapError {x : Except ε α} {y : Except ε β} (h : Agreed R x y) (f : ε → ε') :
    Agreed R (x.mapError f) (y.mapError f) := by
  cases h with
  | ok h => exact .ok h
  | error e => exact .error (f e)

end Agreed

end Lifecycle
