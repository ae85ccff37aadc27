/-!
# Steps that may fail

Where a chain of steps has given a result, each of its steps has.

Main results:

- Theorems `Except.bind_eq_ok`, `Except.map_eq_ok` and `Except.mapError_eq_ok`: a result, and
  the results that it came from.
- Theorem `Except.bind_eq_ok_iff`: exactly the results that two steps give together.
-/

namespace RingRouting
namespace Except

variable {ε ε' α β : Type}

/-- After a result, the next step goes on. -/
theorem ok_bind (a : α) (next : α → Except ε β) : (.ok a : Except ε α) >>= next = next a :=
  rfl

/-- Where one step after another gives a result, the first one has given one too. -/
theorem bind_eq_ok {first : Except ε α} {next : α → Except ε β} {b : β}
    (h : first >>= next = .ok b) : ∃ a, first = .ok a ∧ next a = .ok b := by
  cases first with
  | error e => cases h
  | ok a => exact ⟨a, rfl, h⟩

theorem bind_eq_ok_iff {first : Except ε α} {next : α → Except ε β} {b : β} :
    first >>= next = .ok b ↔ ∃ a, first = .ok a ∧ next a = .ok b := by
  constructor
  · exact bind_eq_ok
  · rintro ⟨a, rfl, hnext⟩
    exact hnext

/-- A result that was converted. -/
theorem map_eq_ok {first : Except ε α} {f : α → β} {b : β} (h : first.map f = .ok b) :
    ∃ a, first = .ok a ∧ f a = b := by
  cases first with
  | error e => cases h
  | ok a => exact ⟨a, rfl, Except.ok.inj h⟩

/-- Only errors are converted. -/
theorem mapError_eq_ok {first : Except ε α} {f : ε → ε'} {a : α}
    (h : first.mapError f = .ok a) : first = .ok a := by
  cases first with
  | error e => cases h
  | ok b => exact congrArg Except.ok (Except.ok.inj h)

theorem mapError_eq_ok_iff {first : Except ε α} {f : ε → ε'} {a : α} :
    first.mapError f = .ok a ↔ first = .ok a := by
  constructor
  · exact mapError_eq_ok
  · intro h
    rw [h]
    rfl

end Except
end RingRouting
