/-!
Computations that may fail: one made of steps that answers has steps that answer.
-/

namespace SableFrontend

variable {ε α β : Type} {first : Except ε α} {answer : β}

/-- A chain that answers has a first step that answers. -/
theorem exists_of_bind_eq_ok {next : α → Except ε β} (h : first >>= next = .ok answer) :
    ∃ value, first = .ok value ∧ next value = .ok answer := by
  cases first with
  | error e => cases h
  | ok value => exact ⟨value, rfl, h⟩

theorem exists_of_map_eq_ok {f : α → β} (h : first.map f = .ok answer) :
    ∃ value, first = .ok value ∧ f value = answer := by
  cases first with
  | error e => cases h
  | ok value => exact ⟨value, rfl, Except.ok.inj h⟩

end SableFrontend
