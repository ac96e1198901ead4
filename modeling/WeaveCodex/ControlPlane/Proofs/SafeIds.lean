/-
Purpose: The ids that `safe_phase_id` makes are new, and which of them the schema accepts.
-/
import WeaveCodex.ControlPlane.PhaseIds
import WeaveCodex.ControlPlane.Proofs.CanvasIds

namespace WeaveCodex.ControlPlane

open List Library.FreshCandidate Nat SafePhaseId
open Canvas (isLetter isSlugChar dashRuns)

variable {lower : List Char → List Char} {name : String} {text rest : List Char} {letter : Char}

theorem rstrip_cons (start : isLetter letter = true) :
    rstrip (letter :: rest) = letter :: rstrip rest := by
  have other : letter ≠ '-' := by
    rintro rfl
    cases start
  induction rest using reverseRecOn with
  | nil => simp [rstrip, rdropWhile_singleton, other]
  | append_singleton front last ih =>
    simp only [rstrip, ← cons_append, rdropWhile_concat] at ih ⊢
    split
    · exact ih
    · rfl

theorem rstrip_subset : rstrip text ⊆ text :=
  IsPrefix.subset <| rdropWhile_prefix _ _

theorem length_rstrip_take_le (text : List Char) (most : Nat) :
    (rstrip (text.take most)).length ≤ most :=
  (IsPrefix.length_le <| rdropWhile_prefix _ _).trans (length_take_le _ _)

theorem phaseIdSchema_cons (start : isLetter letter = true) (allowed : IdText (letter :: text)) :
    PhaseIdSchema (String.ofList (letter :: text)) ↔ text ≠ [] ∧ text.length ≤ 47 := by
  rw [phaseIdSchema_iff allowed, ← length_pos_iff]
  simp only [length_cons, head?_cons, Option.any_some, start, and_true]
  omega

/-- A numbered id fits the schema exactly if its number leaves room for a letter. -/
theorem candidate_schema (start : isLetter letter = true) (allowed : IdText (letter :: rest))
    (suffix : Nat) :
    PhaseIdSchema (String.ofList (candidate (letter :: rest) suffix)) ↔ suffix < 10 ^ 46 := by
  have size : (ending suffix).length = (toDigits 10 suffix).length + 1 := rfl
  rw [← length_toDigits_le_iff (by decide) (by decide)]
  have inside (most : Nat) : IdText (rstrip ((letter :: rest).take most) ++ ending suffix) :=
    forall_mem_append.mpr ⟨fun char mem => allowed char (mem_of_mem_take (rstrip_subset mem)),
      idText_ending suffix⟩
  constructor
  · intro accepted
    obtain ⟨_, short, first⟩ := (phaseIdSchema_iff (inside _)).mp accepted
    by_contra long
    rw [length_append] at short
    -- no room is left for the base, so the id is the ending alone
    have exactly : (ending suffix).length = 48 := by omega
    rw [exactly] at first
    cases first
  · intro short
    obtain ⟨room, fits⟩ := exists_add_one_eq.mpr (show 0 < 48 - (ending suffix).length by omega)
    have few := length_rstrip_take_le rest room
    have within := inside (room + 1)
    rw [candidate, if_pos (by omega), ← fits]
    rw [take_succ_cons, rstrip_cons start, cons_append] at within ⊢
    rw [phaseIdSchema_cons start within, length_append]
    exact ⟨by simp [ending], by omega⟩

/-- The slug has no two dashes in a row. -/
theorem isChain_dashRuns (text : List Char) (inRun : Bool) :
    (dashRuns inRun text).IsChain (fun left right => left = '-' → right ≠ '-') ∧
      (inRun = true → (dashRuns inRun text).head? ≠ some '-') := by
  induction text generalizing inRun with
  | nil => simp [dashRuns]
  | cons char rest ih =>
    have other (kept : isSlugChar char = true) : char ≠ '-' := by
      rintro rfl
      cases kept
    unfold dashRuns
    split_ifs with kept run
    · refine ⟨isChain_cons.mpr ⟨fun _ _ dash => absurd dash (other kept), (ih false).1⟩, ?_⟩
      simpa using fun _ => other kept
    · exact ⟨(ih true).1, fun _ => (ih true).2 rfl⟩
    · refine ⟨isChain_cons.mpr ⟨?_, (ih true).1⟩, fun again => absurd again run⟩
      exact fun next first _ dash => (ih true).2 rfl (dash ▸ first)

/-- A slug that goes on after a letter does not go on with dashes only. -/
theorem rstrip_rest_slug (found : slug lower name = letter :: rest) :
    rstrip (rest.take 47) = [] ↔ rest = [] := by
  refine ⟨fun dashes => ?_, by rintro rfl; rfl⟩
  have apart := IsChain.infix (isChain_dashRuns (lower name.toList) false).1
    ((IsPrefix.isInfix <| rdropWhile_prefix (· == '-') _).trans (dropWhile_suffix (· == '-')).isInfix)
  have last := rdropWhile_last_not (· == '-')
    ((dashRuns false (lower name.toList)).dropWhile (· == '-'))
  rw [slug, rstrip] at found
  simp only [found] at apart last
  simp only [rstrip, rdropWhile_eq_nil_iff, beq_iff_eq] at dashes
  rcases rest with _ | ⟨second, _ | ⟨third, others⟩⟩
  · rfl
  · simp [dashes second (by simp)] at last
  · have next := (isChain_cons_cons.mp apart.tail).1 (dashes second (by simp))
    exact absurd (dashes third (by simp)) next

/-- The base of an id starts with a letter and holds allowed characters only. -/
theorem base_eq (lower : List Char → List Char) (name : String) :
    ∃ first rest, base lower name = first :: rstrip (rest.take 47) ∧ isLetter first = true ∧
      IdText (first :: rest) ∧ (rstrip (rest.take 47) = [] ↔
        ∃ letter, isLetter letter = true ∧ slug lower name = [letter]) := by
  have allowed : IdText (slug lower name) := fun char mem =>
    idText_dashRuns false char ((dropWhile_suffix _).subset (rstrip_subset mem))
  have phase : IdText "phase-".toList := by
    simp [IdText]
    decide
  unfold base
  cases found : slug lower name with
  | nil =>
    refine ⟨'p', "hase".toList, rfl, rfl, fun char mem => phase char ?_, by simp [rstrip]⟩
    exact mem_append_left ['-'] mem
  | cons first others =>
    rw [found] at allowed
    by_cases start : isLetter first = true
    · refine ⟨first, others, ?_, start, allowed, ?_⟩
      · simp [start, rstrip_cons start]
      · rw [rstrip_rest_slug found]
        simp [start]
    · refine ⟨'p', "hase-".toList ++ first :: others, ?_, rfl,
        forall_mem_append.mpr ⟨phase, allowed⟩, ?_⟩
      · simp [start, rstrip_cons (show isLetter 'p' = true from rfl)]
      · simp [start, rstrip]

/-- The id is always new. The schema refuses it when the name leaves a single letter that is free,
or when all numbers that fit are taken. -/
theorem safePhaseId_schema (lower : List Char → List Char) (name : String) (existing : List String) :
    ∃ id, safePhaseId lower name existing = some id ∧ id ∉ existing ∧
      (PhaseIdSchema id ↔ if String.ofList (base lower name) ∈ existing then
        ∃ suffix ≥ 2, suffix < 10 ^ 46 ∧
          String.ofList (candidate (base lower name) suffix) ∉ existing
      else ¬∃ letter, isLetter letter = true ∧ slug lower name = [letter]) := by
  obtain ⟨letter, rest, is, start, allowed, single⟩ := base_eq lower name
  have inside : IdText (letter :: rstrip (rest.take 47)) := forall_mem_cons.mpr
    ⟨allowed _ mem_cons_self, fun char mem =>
      allowed char (mem_cons_of_mem _ (mem_of_mem_take (rstrip_subset mem)))⟩
  by_cases taken : String.ofList (base lower name) ∈ existing
  · have injective : Function.Injective fun suffix =>
        String.ofList (candidate (base lower name) suffix) := numbered_injective _
    obtain ⟨suffix, found, free, least⟩ := exists_fresh existing injective 2
    refine ⟨_, (if_pos taken).trans found, free, ?_⟩
    rw [if_pos taken, ← least, is]
    exact candidate_schema start inside suffix
  · refine ⟨_, if_neg taken, taken, ?_⟩
    rw [if_neg taken, is, phaseIdSchema_cons start inside, ← single]
    exact and_iff_left (length_rstrip_take_le rest 47)

/-- A name of one letter and a sign gives an id of one letter, which is too short. -/
theorem singleLetter_refused : LengthWithin 2 80 "A!" ∧
    safePhaseId (·.map Char.toLower) "A!" [] = some "a" ∧ ¬PhaseIdSchema "a" := by
  decide

end WeaveCodex.ControlPlane
