/-
Purpose: The first place where one list stands in another one, and how much of the end of
  a list has to be kept so that a later piece of it completes no match that began before.
-/
import Mathlib.Data.List.Infix

namespace WeaveCodex.Library.SubstringSearch

open List

variable {α : Type*} [DecidableEq α]

/-- The first position at which `needle` stands. -/
def find (needle : List α) : List α → Option Nat
  | [] => if needle = [] then some 0 else none
  | first :: rest =>
    if needle.isPrefixOf (first :: rest) then some 0 else (find needle rest).map (· + 1)

variable {needle text : List α} {position : Nat}

theorem find_cons_of_not {first : α} {rest : List α} (absent : ¬ needle <+: first :: rest) :
    find needle (first :: rest) = (find needle rest).map (· + 1) := by
  rw [find, if_neg (fun leads => absent <| isPrefixOf_iff_prefix.mp leads)]

theorem find_eq_findIdx? (needle text : List α) :
    find needle text = text.tails.findIdx? fun later => needle.isPrefixOf later := by
  induction text with
  | nil => simp [find, findIdx?_cons]
  | cons _ _ ih => rw [find, tails, findIdx?_cons, ih]

theorem find_eq_none_iff : find needle text = none ↔ ∀ later, later <:+ text → ¬ needle <+: later := by
  simp [find_eq_findIdx?, ← Bool.not_eq_true]

/-- The needle stands at the position that is found, and at none before it. -/
theorem find_eq_some_iff : find needle text = some position ↔ position ≤ text.length ∧
    needle <+: text.drop position ∧ ∀ earlier < position, ¬ needle <+: text.drop earlier := by
  simp only [find_eq_findIdx?, findIdx?_eq_some_iff_getElem, getElem_tails, isPrefixOf_iff_prefix,
    length_tails, Nat.lt_succ_iff, exists_and_left, exists_prop, and_left_comm]

section

variable (found : find needle text = some position)
include found

theorem length_le_of_find : position + needle.length ≤ text.length := by
  obtain ⟨_, stands, _⟩ := find_eq_some_iff.mp found
  have shorter := stands.length_le
  rw [length_drop] at shorter
  omega

/-- The text around a match. -/
theorem split_of_find :
    text.take position ++ (needle ++ text.drop (position + needle.length)) = text := by
  obtain ⟨_, ⟨rest, after⟩, _⟩ := find_eq_some_iff.mp found
  rw [← drop_drop, ← after, drop_left, after, take_append_drop]

/-- A match stays the first one when the text goes on. -/
theorem find_append_of_some (later : List α) : find needle (text ++ later) = some position := by
  obtain ⟨within, stands, first⟩ := find_eq_some_iff.mp found
  have short := length_le_of_find found
  refine find_eq_some_iff.mpr ⟨by rw [length_append]; omega, ?_, fun earlier before leads => ?_⟩
  · rw [drop_append_of_le_length within]
    exact stands.trans (prefix_append _ _)
  · rw [drop_append_of_le_length (by omega)] at leads
    apply first earlier before
    exact prefix_of_prefix_length_le leads (prefix_append _ _) (by rw [length_drop]; omega)

end

/-- The search may start behind positions at which the needle does not stand. -/
theorem find_drop {count : Nat} (within : count ≤ text.length)
    (absent : ∀ earlier < count, ¬ needle <+: text.drop earlier) :
    find needle text = (find needle (text.drop count)).map (· + count) := by
  induction count generalizing text with
  | zero =>
    rw [drop_zero]
    cases find needle text with
    | none | some => rfl
  | succ count ih =>
    cases text with
    | nil => exact absurd within (Nat.not_succ_le_zero _)
    | cons _ rest =>
      have later (earlier : Nat) (before : earlier < count) : ¬ needle <+: rest.drop earlier :=
        absent (earlier + 1) (Nat.succ_lt_succ before)
      rw [find_cons_of_not (absent 0 (Nat.succ_pos _)),
        ih (Nat.le_of_succ_le_succ within) later, Option.map_map,
        drop_succ_cons]
      rfl

theorem not_leads_of_find_none (absent : find needle text = none) (earlier : Nat) :
    ¬ needle <+: text.drop earlier :=
  find_eq_none_iff.mp absent _ (drop_suffix earlier text)

theorem find_drop_eq_none (absent : find needle text = none) (count : Nat) :
    find needle (text.drop count) = none :=
  find_eq_none_iff.mpr fun later ends =>
    find_eq_none_iff.mp absent later (ends.trans (drop_suffix count text))

/-! ### Holding back the end of a text -/

/-- The longest beginning of `needle` with at most `count` elements that ends `text`. -/
def longestWithin (text needle : List α) : Nat → Nat
  | 0 => 0
  | count + 1 =>
    if (needle.take (count + 1)).isSuffixOf text then count + 1
    else longestWithin text needle count

/-- The longest beginning of `needle`, but not all of it, that ends `text`. -/
def longestSuffixPrefixLen (text needle : List α) : Nat :=
  longestWithin text needle (min text.length (needle.length - 1))

theorem le_longestWithin {kept count : Nat} (ends : needle.take kept <:+ text)
    (within : kept ≤ count) : kept ≤ longestWithin text needle count := by
  induction count with
  | zero => exact within
  | succ _ ih =>
    rw [longestWithin]
    split
    · exact within
    · rename_i other
      refine ih (Nat.le_of_lt_succ (Nat.lt_of_le_of_ne within ?_))
      rintro rfl
      exact other (isSuffixOf_iff_suffix.mpr ends)

/-- What stands before the part that is held back begins no match, however the text goes
on. -/
theorem find_held_back (absent : find needle text = none) (later : List α) :
    find needle (text ++ later) =
      (find needle (text.drop (text.length - longestSuffixPrefixLen text needle) ++ later)).map
        (· + (text.length - longestSuffixPrefixLen text needle)) := by
  generalize shown : text.length - longestSuffixPrefixLen text needle = count
  have within : count ≤ text.length := by omega
  have moved : find needle (text ++ later) =
      (find needle ((text ++ later).drop count)).map (· + count) := by
    refine find_drop (by rw [length_append]; omega) fun earlier before stands => ?_
    rw [drop_append_of_le_length (by omega)] at stands
    -- The match would begin before the held back part and end after the text.
    have longer : (text.drop earlier).length < needle.length := by
      by_contra short
      exact not_leads_of_find_none absent earlier
        (prefix_of_prefix_length_le stands (prefix_append _ _) (by omega))
    have begins : text.drop earlier <+: needle :=
      prefix_of_prefix_length_le (prefix_append _ _) stands (by omega)
    have ends : needle.take (text.length - earlier) <:+ text := by
      have same := prefix_iff_eq_take.mp begins
      rw [length_drop] at same
      rw [← same]
      exact drop_suffix earlier text
    rw [length_drop] at longer
    have kept : text.length - earlier ≤ longestSuffixPrefixLen text needle :=
      le_longestWithin ends (by omega)
    omega
  rw [moved, drop_append_of_le_length within]

end WeaveCodex.Library.SubstringSearch
