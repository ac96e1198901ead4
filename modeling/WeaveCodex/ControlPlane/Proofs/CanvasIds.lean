/-
Purpose: The ids that `uniquePhaseId` makes are new, and which of them the server's schema accepts.
-/
import Mathlib.Data.List.DropRight
import WeaveCodex.ControlPlane.CanvasModel

namespace WeaveCodex.ControlPlane

open List Library.FreshCandidate Canvas Nat

/-- Texts over `[a-z0-9-]`. -/
def IdText (text : List Char) : Prop :=
  ∀ char ∈ text, isSlugChar char = true ∨ char = '-'

variable {text : List Char}

theorem phaseIdSchema_iff (allowed : IdText text) :
    PhaseIdSchema (String.ofList text) ↔
      2 ≤ text.length ∧ text.length ≤ 48 ∧ text.head?.any isLetter = true := by
  cases text with
  | nil => simp [PhaseIdSchema, LengthWithin]
  | cons first rest =>
    have others : ∀ char ∈ rest, isSlugChar char = true ∨ char = '-' :=
      fun char mem => allowed char (mem_cons_of_mem _ mem)
    simp only [isSlugChar, isLetter, Bool.or_eq_true, Bool.and_eq_true, decide_eq_true_eq] at others
    simp only [PhaseIdSchema, LengthWithin, matchesIdPattern, isLetter, String.length_ofList,
      String.toList_ofList, head?_cons, Option.any_some, Bool.and_eq_true, all_eq_true, Bool.or_eq_true,
      decide_eq_true_eq, beq_iff_eq, and_assoc, and_iff_left others]

theorem idText_dashRuns (inRun : Bool) : IdText (dashRuns inRun text) := by
  induction text generalizing inRun with
  | nil => exact fun _ mem => absurd mem not_mem_nil
  | cons char rest ih =>
    unfold dashRuns
    split_ifs with kept
    · exact forall_mem_cons.mpr ⟨.inl kept, ih false⟩
    · exact ih true
    · exact forall_mem_cons.mpr ⟨.inr rfl, ih true⟩

theorem isDigit_of_mem {number : Nat} {char : Char} (mem : char ∈ toDigits 10 number) :
    char.isDigit = true :=
  isDigit_of_mem_toDigits (by decide) (by decide) mem

theorem idText_ending (number : Nat) : IdText ('-' :: toDigits 10 number) :=
  forall_mem_cons.mpr ⟨.inr rfl, fun _ mem =>
    .inl (Bool.or_eq_true_iff.mpr (.inr (isDigit_of_mem mem)))⟩

/-- The number can be read back from an id that ends in it. -/
theorem numbered_injective (front : Nat → List Char) :
    Function.Injective fun number => String.ofList (front number ++ '-' :: toDigits 10 number) := by
  have digits (number : Nat) :
      (front number ++ '-' :: toDigits 10 number).rtakeWhile Char.isDigit = toDigits 10 number := by
    simp [rtakeWhile, takeWhile_append_of_pos fun char mem => isDigit_of_mem (mem_reverse.mp mem)]
  intro first second same
  have read := congrArg (rtakeWhile Char.isDigit) (String.ofList_injective same)
  rw [digits, digits] at read
  simpa using congrArg (ofDigitChars 10 · 0) read

theorem trimDash_subset : trimDash text ⊆ text := by
  intro char mem
  simp only [trimDash] at mem
  split_ifs at mem
  · exact mem_of_mem_tail (mem_of_mem_dropLast mem)
  · exact mem_of_mem_tail mem
  · exact mem_of_mem_dropLast mem
  · exact mem

theorem idText_node : IdText "node-".toList := by
  simp [IdText]
  decide

variable (lower : List Char → List Char) (stem : String)

theorem idText_base : IdText (base lower stem) := by
  simp only [base]
  split_ifs
  · exact fun char mem => idText_node char (mem_append_left ['-'] mem)
  · exact fun char mem => idText_dashRuns false char (trimDash_subset (mem_of_mem_take mem))

theorem length_base : 1 ≤ (base lower stem).length ∧ (base lower stem).length ≤ 42 := by
  simp only [base]
  split_ifs with empty
  · decide
  · exact ⟨length_pos_iff.mpr empty, length_take_le _ _⟩

/-- A base of one letter is a slug of one letter. -/
theorem two_le_length_base (start : (base lower stem).head?.any isLetter = true) :
    2 ≤ (base lower stem).length ↔ ¬∃ letter, isLetter letter = true ∧ slug lower stem = [letter] := by
  unfold base at start ⊢
  revert start
  rcases slug lower stem with _ | ⟨first, _ | ⟨second, others⟩⟩
  · simp
  · simp
  · simp

theorem firstId_schema : PhaseIdSchema (String.ofList (firstId lower stem)) ↔
    ¬∃ letter, isLetter letter = true ∧ slug lower stem = [letter] := by
  have allowed := idText_base lower stem
  have bounds := length_base lower stem
  unfold firstId
  by_cases start : (base lower stem).head?.any isLetter = true
  · rw [if_pos start, phaseIdSchema_iff allowed, ← two_le_length_base lower stem start]
    exact ⟨And.left, fun long => ⟨long, by omega, start⟩⟩
  · rw [if_neg start, phaseIdSchema_iff (forall_mem_append.mpr ⟨idText_node, allowed⟩), length_append]
    refine iff_of_true ⟨le_add_right_of_le (by decide), Nat.add_le_add (by decide) bounds.2, rfl⟩ ?_
    rintro ⟨letter, isOne, single⟩
    exact start (by simp [base, single, isOne])

/-- A number is added to the base, so the base must start with a letter and leave room. -/
theorem numberedId_schema (counter : Nat) :
    PhaseIdSchema (String.ofList (numberedId lower stem counter)) ↔
      (base lower stem).head?.any isLetter = true ∧ counter < 10 ^ (47 - (base lower stem).length) := by
  have bounds := length_base lower stem
  have first : (base lower stem ++ '-' :: toDigits 10 counter).head? = (base lower stem).head? :=
    head?_append_of_ne_nil _ (length_pos_iff.mp bounds.1)
  rw [numberedId, take_of_length_le bounds.2,
    phaseIdSchema_iff (forall_mem_append.mpr ⟨idText_base lower stem, idText_ending counter⟩), first,
    ← length_toDigits_le_iff (by decide) (by omega), length_append, length_cons]
  constructor
  · exact fun ⟨_, short, start⟩ => ⟨start, by omega⟩
  · exact fun ⟨start, short⟩ => ⟨by omega, by omega, start⟩

theorem numberedId_injective :
    Function.Injective fun counter => String.ofList (numberedId lower stem counter) :=
  numbered_injective _

/-- The id is always new. A first id is refused when the slug is a single letter; a numbered one,
when the base starts with no letter or all numbers that fit are taken. -/
theorem uniquePhaseId_schema (program : PhaseProgram) :
    ∃ id, uniquePhaseId program lower stem = some id ∧ id ∉ program.phases.map Phase.id ∧
      (PhaseIdSchema id ↔ if String.ofList (firstId lower stem) ∈ program.phases.map Phase.id then
        (base lower stem).head?.any isLetter = true ∧
          ∃ counter ≥ 2, counter < 10 ^ (47 - (base lower stem).length) ∧
            String.ofList (numberedId lower stem counter) ∉ program.phases.map Phase.id
      else ¬∃ letter, isLetter letter = true ∧ slug lower stem = [letter]) := by
  by_cases taken : String.ofList (firstId lower stem) ∈ program.phases.map Phase.id
  · obtain ⟨counter, found, free, least⟩ := exists_fresh (program.phases.map Phase.id)
      (numberedId_injective lower stem) 2
    refine ⟨_, (if_pos taken).trans found, free, ?_⟩
    rw [if_pos taken, ← least]
    exact numberedId_schema lower stem counter
  · refine ⟨_, if_neg taken, taken, ?_⟩
    rw [if_neg taken]
    exact firstId_schema lower stem

def numericCanvas : PhaseProgram :=
  { phases := [.work { id := "node-42", name := "Node 42", goal := "Read the files." }] }

/-- The numbered id starts from the digits without the lead, and a single letter is too short. -/
theorem numericCanvas_refused :
    uniquePhaseId numericCanvas (·.map Char.toLower) "42" = some "42-2" ∧ ¬PhaseIdSchema "42-2" ∧
      uniquePhaseId numericCanvas (·.map Char.toLower) "a" = some "a" ∧ ¬PhaseIdSchema "a" := by
  decide

end WeaveCodex.ControlPlane
