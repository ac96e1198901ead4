/-
Purpose: Sequences of fallible steps that succeed.
-/

namespace Except

universe u v

/-- A sequence of fallible steps succeeds if each of them does. -/
theorem bind_eq_ok_iff {ε : Type u} {α β : Type v} {first : Except ε α} {next : α → Except ε β}
    {result : β} :
    (first >>= next) = .ok result ↔ ∃ value, first = .ok value ∧ next value = .ok result := by
  cases first with
  | error =>
    constructor
    · exact nofun
    · rintro ⟨_, never, -⟩
      cases never
  | ok value =>
    constructor
    · intro continued
      exact ⟨value, rfl, continued⟩
    · rintro ⟨_, same, continued⟩
      rw [Except.ok.inj same]
      exact continued

/-- A result is given if a check is passed and the rest gives it. -/
theorem ite_error_eq_ok_iff {ε : Type u} {α : Type v} {failed : Prop} [Decidable failed] {error : ε}
    {rest : Except ε α} {result : α} :
    (if failed then .error error else rest) = .ok result ↔ ¬ failed ∧ rest = .ok result := by
  by_cases failed <;> simp [*]

end Except
