/-
Purpose: A machine that is fed characters and hands every completed line to a handler.
  What it does depends only on the characters, not on how they were cut into pieces, and
  is given by the lines that they complete.
-/
import Mathlib.Data.List.Basic

namespace WeaveCodex.Library.LineStream

open List

variable {σ ε : Type*}

/-- One character after the other: a newline ends the line in the buffer. -/
def feed (handle : σ → List Char → Except ε σ) : List Char × σ → List Char → Except ε (List Char × σ)
  | current, [] => .ok current
  | (buffer, state), char :: chars =>
    if char = '\n' then
      match handle state buffer with
      | .error error => .error error
      | .ok state => feed handle ([], state) chars
    else feed handle (buffer ++ [char], state) chars

variable (handle : σ → List Char → Except ε σ)

/-- Feeding two pieces is feeding their concatenation. -/
theorem feed_append (current : List Char × σ) (front back : List Char) :
    feed handle current (front ++ back) =
      (feed handle current front).bind fun middle => feed handle middle back := by
  induction front generalizing current with
  | nil => rfl
  | cons char _ ih =>
    obtain ⟨buffer, state⟩ := current
    rw [cons_append, feed, feed]
    split
    · cases handle state buffer with
      | error => rfl
      | ok state => exact ih ([], state)
    · exact ih (buffer ++ [char], state)

/-- The lines that the characters complete, and what is left in the buffer. -/
def cut (buffer : List Char) : List Char → List (List Char) × List Char
  | [] => ([], buffer)
  | char :: chars =>
    if char = '\n' then
      let later := cut [] chars
      (buffer :: later.1, later.2)
    else cut (buffer ++ [char]) chars

/-- The handler on one line after the other. -/
def handleAll (handle : σ → List Char → Except ε σ) : σ → List (List Char) → Except ε σ
  | state, [] => .ok state
  | state, line :: lines =>
    match handle state line with
    | .error error => .error error
    | .ok state => handleAll handle state lines

variable {lines : List (List Char)} {buffer text : List Char}

theorem handleAll_cons_ok {handle : σ → List Char → Except ε σ} {state final : σ} {line : List Char} :
    handleAll handle state (line :: lines) = .ok final ↔
      ∃ middle, handle state line = .ok middle ∧ handleAll handle middle lines = .ok final := by
  rw [handleAll]
  cases handle state line with
  | error | ok => simp

theorem feed_eq_cut (buffer : List Char) (state : σ) (chars : List Char) :
    feed handle (buffer, state) chars = (handleAll handle state (cut buffer chars).1).map fun final =>
        ((cut buffer chars).2, final) := by
  induction chars generalizing buffer state with
  | nil => rfl
  | cons char _ ih =>
    rw [feed, cut]
    split
    · rw [handleAll]
      cases handle state buffer with
      | error => rfl
      | ok state => exact ih [] state
    · exact ih (buffer ++ [char]) state

theorem handleAll_append (state : σ) (front back : List (List Char)) :
    handleAll handle state (front ++ back) =
      (handleAll handle state front).bind fun middle => handleAll handle middle back := by
  induction front generalizing state with
  | nil => rfl
  | cons line _ ih =>
    rw [cons_append, handleAll, handleAll]
    cases handle state line with
    | error => rfl
    | ok state => exact ih state

/-- Characters without a newline stay in the buffer. -/
theorem cut_text (single : '\n' ∉ text) : cut buffer text = ([], buffer ++ text) := by
  induction text generalizing buffer with
  | nil => simp [cut]
  | cons _ _ ih =>
    rw [mem_cons, not_or] at single
    rw [cut, if_neg (Ne.symm single.1), ih single.2, append_assoc, singleton_append]

/-- A line and its newline complete the line. -/
theorem cut_line (single : '\n' ∉ text) (rest : List Char) : cut buffer (text ++ '\n' :: rest) =
    ((buffer ++ text) :: (cut [] rest).1, (cut [] rest).2) := by
  induction text generalizing buffer with
  | nil => simp [cut]
  | cons _ _ ih =>
    rw [mem_cons, not_or] at single
    rw [cons_append, cut, if_neg (Ne.symm single.1), ih single.2, append_assoc, singleton_append]

/-- The lines with their newlines and the buffer are the text. -/
theorem cut_text_eq (buffer chars : List Char) :
    (cut buffer chars).1.flatMap (· ++ ['\n']) ++ (cut buffer chars).2 = buffer ++ chars := by
  induction chars generalizing buffer with
  | nil => simp [cut]
  | cons _ _ ih =>
    rw [cut]
    split
    · rename_i ended
      have later := ih []
      rw [nil_append] at later
      simp [later, ended]
    · rw [ih, append_assoc, singleton_append]

/-- No completed line contains a newline, and neither does the buffer. -/
theorem cut_single (single : '\n' ∉ buffer) (chars : List Char) :
    (∀ line ∈ (cut buffer chars).1, '\n' ∉ line) ∧ '\n' ∉ (cut buffer chars).2 := by
  induction chars generalizing buffer with
  | nil => exact ⟨fun _ mem => absurd mem not_mem_nil, single⟩
  | cons _ _ ih =>
    rw [cut]
    split
    · have nothing : '\n' ∉ ([] : List Char) := not_mem_nil
      obtain ⟨lines, rest⟩ := ih nothing
      exact ⟨forall_mem_cons.mpr ⟨single, lines⟩, rest⟩
    · rename_i ordinary
      apply ih
      rw [mem_append, mem_singleton, not_or]
      exact ⟨single, Ne.symm ordinary⟩

/-- Without a completed line, everything is in the buffer. -/
theorem cut_unterminated {chars : List Char} (none : (cut buffer chars).1 = []) :
    (cut buffer chars).2 = buffer ++ chars := by
  have whole := cut_text_eq buffer chars
  rw [none, flatMap_nil, nil_append] at whole
  exact whole

/-- Text that does not end with a newline leaves its last character in the buffer. -/
theorem cut_concat (buffer text : List Char) {char : Char} (ordinary : char ≠ '\n') :
    ∃ front, (cut buffer (text ++ [char])).2 = front ++ [char] := by
  induction text generalizing buffer with
  | nil =>
    rw [nil_append, cut_text (by simpa using ordinary.symm)]
    exact ⟨buffer, rfl⟩
  | cons first _ ih =>
    rw [cons_append, cut]
    split
    · exact ih []
    · exact ih (buffer ++ [first])

/-- Joining lines with newlines and cutting the text gives the lines back. -/
theorem cut_intercalate {last : List Char} (single : ∀ line ∈ lines, '\n' ∉ line)
    (unterminated : '\n' ∉ last) :
    cut [] (intercalate ['\n'] (lines ++ [last])) = (lines, last) := by
  induction lines with
  | nil => rw [nil_append, intercalate_singleton, cut_text unterminated, nil_append]
  | cons _ _ ih =>
    rw [forall_mem_cons] at single
    rw [cons_append, intercalate_cons_of_ne_nil (by simp), append_assoc,
      singleton_append, cut_line single.1, ih single.2, nil_append]

end WeaveCodex.Library.LineStream
