/-
Purpose: The first of numbered candidates that is not taken.
-/
import Mathlib.Data.List.Nodup
import Mathlib.Data.Nat.Find

namespace WeaveCodex.Library.FreshCandidate

open List

variable {β : Type*} {candidate : Nat → β} {taken : List β} {rounds steps start : Nat}

theorem le_length_of_taken (injective : Function.Injective candidate)
    (all : ∀ step < steps, candidate (start + step) ∈ taken) : steps ≤ taken.length := by
  have distinct : ((range steps).map fun step => candidate (start + step)).Nodup :=
    nodup_range.map fun _ _ same => Nat.add_left_cancel (injective same)
  have inside : (range steps).map (fun step => candidate (start + step)) ⊆ taken := by
    exact forall_mem_map.mpr fun step mem => all step (mem_range.mp mem)
  simpa using distinct.length_le_of_subset inside

variable [DecidableEq β]

/-- The first free one of so many candidates. -/
def freshFrom (candidate : Nat → β) (taken : List β) : Nat → Nat → Option β
  | 0, _ => none
  | rounds + 1, number =>
    if candidate number ∈ taken then freshFrom candidate taken rounds (number + 1)
    else some (candidate number)

theorem freshFrom_eq (free : candidate (start + steps) ∉ taken)
    (before : ∀ step < steps, candidate (start + step) ∈ taken) (enough : steps < rounds) :
    freshFrom candidate taken rounds start = some (candidate (start + steps)) := by
  induction rounds generalizing start steps with
  | zero => omega
  | succ rounds ih =>
    cases steps with
    | zero => exact if_neg free
    | succ steps =>
      have first : candidate start ∈ taken := before 0 (by omega)
      have shift (step : Nat) : start + (step + 1) = start + 1 + step := by omega
      rw [shift] at free ⊢
      rw [freshFrom, if_pos first]
      exact ih free (fun step below => shift step ▸ before (step + 1) (by omega)) (by omega)

/-- One candidate more than are taken is enough, and the one found has the least free number. -/
theorem exists_fresh (taken : List β) (injective : Function.Injective candidate) (start : Nat) :
    ∃ number, freshFrom candidate taken (taken.length + 1) start = some (candidate number) ∧
      candidate number ∉ taken ∧
      ∀ bound, number < bound ↔ ∃ other ≥ start, other < bound ∧ candidate other ∉ taken := by
  have some_free : ∃ step, candidate (start + step) ∉ taken := by
    by_contra none_free
    push Not at none_free
    exact Nat.not_succ_le_self _ (le_length_of_taken injective fun step _ => none_free step)
  have free := Nat.find_spec some_free
  have before : ∀ step < Nat.find some_free, candidate (start + step) ∈ taken :=
    fun step below => not_not.mp (Nat.find_min some_free below)
  have few := le_length_of_taken injective before
  refine ⟨_, freshFrom_eq free before (by omega), free, fun bound =>
    ⟨fun below => ⟨_, by omega, below, free⟩, ?_⟩⟩
  rintro ⟨other, after, below, otherFree⟩
  have least := Nat.find_min' some_free (m := other - start) (by rwa [Nat.add_sub_cancel' after])
  omega

end WeaveCodex.Library.FreshCandidate
