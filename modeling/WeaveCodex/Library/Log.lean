/-
Purpose: Append-only logs: facts about every entry and what stood before it.
-/
import Mathlib.Data.List.Induction

namespace WeaveCodex.Library.Log

open List

universe u

variable {α : Type u}

/-- An entry of a log with one more entry is the new one, or it was there before. -/
theorem split_concat {log before after : List α} {last entry : α}
    (split : log ++ [last] = before ++ entry :: after) :
    (log = before ∧ last = entry ∧ after = []) ∨
      ∃ shorter, after = shorter ++ [last] ∧ log = before ++ entry :: shorter := by
  cases after using reverseRecOn with
  | nil =>
    obtain ⟨sameLog, sameLast⟩ := append_inj' split rfl
    exact .inl ⟨sameLog, (cons.inj sameLast).1, rfl⟩
  | append_singleton shorter final =>
    have resplit : log ++ [last] = (before ++ entry :: shorter) ++ [final] := by
      rw [split]
      simp
    obtain ⟨sameLog, sameLast⟩ := append_inj' resplit rfl
    rw [(cons.inj sameLast).1]
    exact .inr ⟨shorter, rfl, sameLog⟩

/-- Every entry of the log stood in this relation to the entries before it. -/
def AtEach (Holds : List α → α → Prop) (log : List α) : Prop :=
  ∀ before entry after, log = before ++ entry :: after → Holds before entry

variable {Holds : List α → α → Prop} {log : List α}

theorem AtEach.nil : AtEach Holds [] := by
  intro before entry after split
  simp at split

theorem AtEach.concat {entry : α} (each : AtEach Holds log) (last : Holds log entry) :
    AtEach Holds (log ++ [entry]) := by
  intro before other after split
  rcases split_concat split with ⟨rfl, rfl, -⟩ | ⟨shorter, -, splitLog⟩
  · exact last
  · exact each before other shorter splitLog

theorem AtEach.append {news : List α} (each : AtEach Holds log)
    (later : ∀ before entry after, news = before ++ entry :: after → Holds (log ++ before) entry) :
    AtEach Holds (log ++ news) := by
  induction news using reverseRecOn with
  | nil => simpa using each
  | append_singleton news last ih =>
    rw [← append_assoc]
    refine (ih fun before entry after split => ?_).concat (later news last [] rfl)
    exact later before entry (after ++ [last]) (by simp [split])

theorem AtEach.of_append {more : List α} (each : AtEach Holds (log ++ more)) : AtEach Holds log := by
  intro before entry after split
  apply each before entry (after ++ more)
  rw [split]
  simp

/-- Some entry began what no later entry has ended. -/
def Standing (Begins : List α → α → Prop) (Ends : α → Prop) (log : List α) : Prop :=
  ∃ before entry after, log = before ++ entry :: after ∧ Begins before entry ∧
    ∀ later ∈ after, ¬ Ends later

variable {Begins : List α → α → Prop} {Ends : α → Prop}

theorem not_standing_nil : ¬ Standing Begins Ends [] := by
  rintro ⟨_, _, _, split, -⟩
  simp at split

/-- The last entry begins it, or it stood before and the last entry does not end it. -/
theorem standing_concat_iff {last : α} : Standing Begins Ends (log ++ [last]) ↔
    Begins log last ∨ (Standing Begins Ends log ∧ ¬ Ends last) := by
  constructor
  · rintro ⟨before, entry, _, split, begins, silent⟩
    rcases split_concat split with ⟨rfl, rfl, rfl⟩ | ⟨shorter, rfl, rfl⟩
    · exact .inl begins
    · obtain ⟨silentBefore, silentLast⟩ := forall_mem_append.mp silent
      exact .inr ⟨⟨before, entry, shorter, rfl, begins, silentBefore⟩,
        silentLast last (mem_singleton_self last)⟩
  · rintro (begins | ⟨⟨before, entry, after, rfl, begins, silent⟩, quiet⟩)
    · exact ⟨log, last, [], rfl, begins, forall_mem_nil _⟩
    · refine ⟨before, entry, after ++ [last], by simp, begins, ?_⟩
      exact forall_mem_append.mpr ⟨silent, forall_mem_singleton.mpr quiet⟩

/-- What stands behind entries that begin nothing stood before them, and they did not end it. -/
theorem Standing.of_append {news : List α} (standing : Standing Begins Ends (log ++ news))
    (quiet : ∀ entry ∈ news, ∀ before, ¬ Begins before entry) :
    Standing Begins Ends log ∧ ∀ entry ∈ news, ¬ Ends entry := by
  induction news using reverseRecOn with
  | nil => simpa using standing
  | append_singleton _ last ih =>
    obtain ⟨quietBefore, quietLast⟩ := forall_mem_append.mp quiet
    rw [← append_assoc, standing_concat_iff] at standing
    rcases standing with begins | ⟨standing, unended⟩
    · exact absurd begins (quietLast last (mem_singleton_self last) _)
    · obtain ⟨stood, silent⟩ := ih standing quietBefore
      exact ⟨stood, forall_mem_append.mpr ⟨silent, forall_mem_singleton.mpr unended⟩⟩

end WeaveCodex.Library.Log
