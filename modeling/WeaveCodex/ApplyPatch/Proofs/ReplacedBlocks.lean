/-
Purpose: Where the chunks of an update are found, and in which order their replacements lie.
  With normalized line endings the replacements are made in place, unless a chunk at the end of
  the file reaches back over an earlier one, lines are inserted before a final empty line that
  another chunk replaces, or a chunk is found only without its final empty line and loses a new
  one.
-/
import WeaveCodex.ApplyPatch.FileUpdate
import WeaveCodex.Library.Fallible

namespace WeaveCodex.ApplyPatch

open List Nat

universe u

variable {α : Type u}

def Replacement.stop (replacement : Replacement) : Nat :=
  replacement.start + replacement.oldLength

/-- The first replacement ends where the second one begins, or before. -/
abbrev Replacement.Before (first second : Replacement) : Prop := first.stop ≤ second.start

/-- The replacements made from the first to the last, on the lines from `index` on; `written`
is a line of the file with a new text. -/
def spliced (written : String → α) (lines : List α) (index : Nat) : List Replacement → List α
  | [] => lines.drop index
  | replacement :: later =>
    (lines.drop index).take (replacement.start - index) ++
      (replacement.newLines.map written ++ spliced written lines replacement.stop later)

/-! ### Places -/

/-- The lines at the index are those of the pattern, as one of the passes sees them. -/
def Matched (lines pattern : List String) (index : Nat) : Prop :=
  ∃ key ∈ seekKeys, matchesAt key lines pattern index = true

/-- The lines do not match the pattern anywhere from the line on where a search for it begins. -/
def Missing (mode : UpdateMode) (lines pattern : List String) (start : Nat) (eof : Bool) : Prop :=
  ∀ index, searchStart lines pattern start eof mode ≤ index →
    index + pattern.length ≤ lines.length → ¬ Matched lines pattern index

/-- A chunk and its place: the line where the search for it begins, the line where it is found,
and whether it is found without its last old line. -/
structure Spot where
  chunk : UpdateFileChunk
  start : Nat
  index : Nat
  shortened : Bool

/-- The old lines that are found. -/
def Spot.pattern (spot : Spot) : List String :=
  if spot.shortened then spot.chunk.oldLines.dropLast else spot.chunk.oldLines

/-- The new lines that go there. -/
def Spot.newSlice (spot : Spot) : List String :=
  if spot.shortened && endsEmpty spot.chunk.newLines then spot.chunk.newLines.dropLast
  else spot.chunk.newLines

def Spot.stop (spot : Spot) : Nat :=
  spot.index + spot.pattern.length

/-- The line at which the search goes on. -/
def Spot.next (spot : Spot) : Nat :=
  if spot.chunk.oldLines = [] then spot.start else spot.stop

def Spot.replacements (spot : Spot) : UpdateMode → List Replacement
  | .normalizeToLf => [⟨spot.index, spot.pattern.length, spot.newSlice⟩]
  | .preserveLineEndings =>
    if spot.chunk.oldLines = [] then [⟨spot.index, 0, spot.chunk.newLines⟩]
    else piecesFrom spot.index spot.pattern spot.newSlice 0 0 spot.chunk.contextLineIndices

/-- The chunk is there with its old lines; without a final empty one, if they are missing.  A chunk
without old lines is where lines are inserted. -/
structure Spot.Found (mode : UpdateMode) (lines : List String) (spot : Spot) : Prop where
  missing : spot.shortened = true ↔ endsEmpty spot.chunk.oldLines = true ∧
    Missing mode lines spot.chunk.oldLines spot.start spot.chunk.isEndOfFile
  inserted : spot.chunk.oldLines = [] → spot.index = insertionIndex mode lines
  located : spot.chunk.oldLines ≠ [] →
    seekSequence lines spot.pattern spot.start spot.chunk.isEndOfFile mode = some spot.index

/-- The chunks are found one after the other, each behind its change context if it has one. -/
def Spots (mode : UpdateMode) (lines : List String) (path : String) : Nat → List Spot → Prop
  | _, [] => True
  | lineIndex, spot :: later =>
    seekContext mode lines path lineIndex spot.chunk = .ok spot.start ∧ spot.Found mode lines ∧
      Spots mode lines path spot.next later

variable {lines pattern : List String} {path : String} {lineIndex start index next : Nat} {eof : Bool}
  {mode : UpdateMode} {chunks : List UpdateFileChunk} {replacements : List Replacement}

/-! ### Searching -/

theorem seekSequence_eq_none_iff : seekSequence lines pattern start eof mode = none ↔
    pattern ≠ [] ∧ Missing mode lines pattern start eof := by
  unfold seekSequence Missing Matched
  by_cases empty : pattern = []
  · simp [empty]
  by_cases long : lines.length < pattern.length
  · simp only [empty, long, if_true, if_false, true_iff, ne_eq, not_false_eq_true, true_and]
    intro index _ within
    omega
  · simp only [empty, long, if_false, findSome?_eq_none_iff, find?_eq_none, mem_range'_1, ne_eq,
      not_false_eq_true, true_and, not_exists, not_and]
    constructor
    · intro none index after within key isKey
      exact none key isKey index (by omega)
    · intro none key isKey index range
      exact none index range.1 (by omega) key isKey

/-- What is found lies where the search begins or behind, or at the end of the file. -/
theorem seekSequence_eq_some (inside : start ≤ lines.length)
    (located : seekSequence lines pattern start eof mode = some index) :
    index + pattern.length ≤ lines.length ∧ Matched lines pattern index ∧ (start ≤ index ∨
      mode = .normalizeToLf ∧ eof = true ∧ index + pattern.length = lines.length) := by
  rw [seekSequence] at located
  split at located
  · rename_i empty
    cases located
    exact ⟨by simpa [empty] using inside, ⟨id, by simp [seekKeys], by simp [matchesAt, empty]⟩,
      .inl le_rfl⟩
  split at located
  · cases located
  obtain ⟨key, isKey, first⟩ := exists_of_findSome?_eq_some located
  have range := mem_range'_1.mp (mem_of_find?_eq_some first)
  refine ⟨by omega, ⟨key, isKey, find?_some first⟩, ?_⟩
  unfold searchStart at range
  cases eof with
  | false => exact .inl range.1
  | true =>
    cases mode with
    | preserveLineEndings => exact .inl ((le_max_right _ _).trans range.1)
    | normalizeToLf =>
      simp only [if_true] at range
      exact .inr ⟨rfl, rfl, by omega⟩

variable {chunk : UpdateFileChunk} {spot : Spot} {spots : List Spot} {found : List Replacement}

theorem locate_eq_some {newSlice : List String} (given : chunk.oldLines ≠ [])
    (located : locate mode lines start chunk = some (index, pattern, newSlice)) :
    ∃ shortened, Spot.Found mode lines ⟨chunk, start, index, shortened⟩ ∧
      pattern = Spot.pattern ⟨chunk, start, index, shortened⟩ ∧
      newSlice = Spot.newSlice ⟨chunk, start, index, shortened⟩ := by
  rw [locate] at located
  split at located
  · rename_i whole
    cases located
    refine ⟨false, ⟨⟨nofun, fun missing => ?_⟩, fun none => absurd none given, fun _ => whole⟩, rfl, rfl⟩
    cases (seekSequence_eq_none_iff.mpr ⟨given, missing.2⟩).symm.trans whole
  · rename_i none
    split at located
    · rename_i padded
      obtain ⟨_, again, same⟩ := Option.map_eq_some_iff.mp located
      cases same
      refine ⟨true, ⟨⟨fun _ => ⟨padded, (seekSequence_eq_none_iff.mp none).2⟩, fun _ => rfl⟩,
        fun none => absurd none given, fun _ => again⟩, rfl, ?_⟩
      simp [Spot.newSlice]
    · cases located

/-- The replacements of a chunk are those of the place where it is found. -/
theorem chunkReplacements_eq_ok
    (computed : chunkReplacements mode lines path lineIndex chunk = .ok (found, next)) :
    ∃ spot : Spot, spot.chunk = chunk ∧ seekContext mode lines path lineIndex chunk = .ok spot.start ∧
      spot.Found mode lines ∧ found = spot.replacements mode ∧ next = spot.next := by
  rw [chunkReplacements, Except.bind_eq_ok_iff] at computed
  obtain ⟨start, context, computed⟩ := computed
  split at computed
  · rename_i none
    cases computed
    refine ⟨⟨chunk, _, insertionIndex mode lines, false⟩, rfl, context,
      ⟨by simp [none, endsEmpty], fun _ => rfl, fun some => absurd none some⟩, ?_, (if_pos none).symm⟩
    cases mode <;> simp [Spot.replacements, Spot.pattern, Spot.newSlice, none]
  · rename_i some
    split at computed
    · cases computed
    · rename_i located
      cases computed
      obtain ⟨shortened, found, rfl, rfl⟩ := locate_eq_some some located
      refine ⟨_, rfl, context, found, ?_, (if_neg some).symm⟩
      cases mode with
      | normalizeToLf => rfl
      | preserveLineEndings => exact (if_neg some).symm

theorem replacementsFrom_eq_ok
    (computed : replacementsFrom mode lines path lineIndex chunks = .ok found) :
    ∃ spots, spots.map Spot.chunk = chunks ∧ Spots mode lines path lineIndex spots ∧
      found = spots.flatMap (·.replacements mode) := by
  induction chunks generalizing lineIndex found with
  | nil =>
    cases computed
    exact ⟨[], rfl, trivial, rfl⟩
  | cons chunk _ ih =>
    rw [replacementsFrom, Except.bind_eq_ok_iff] at computed
    obtain ⟨⟨own, _⟩, first, computed⟩ := computed
    obtain ⟨_, rest, computed⟩ := Except.bind_eq_ok_iff.mp computed
    cases computed
    obtain ⟨spot, rfl, context, found, rfl, rfl⟩ := chunkReplacements_eq_ok first
    obtain ⟨spots, rfl, later, rfl⟩ := ih rest
    exact ⟨spot :: spots, rfl, ⟨context, found, later⟩, rfl⟩

/-! ### Order -/

/-- Where a chunk lies that is searched from inside of the lines. -/
theorem Spot.Found.bounds (found : spot.Found mode lines) (inside : spot.start ≤ lines.length) :
    spot.stop ≤ lines.length ∧ spot.start ≤ spot.next ∧ spot.next ≤ lines.length ∧
      (spot.chunk.oldLines = [] ∧ spot.index = insertionIndex mode lines ∧ spot.stop = spot.index ∨
        spot.chunk.oldLines ≠ [] ∧ spot.next = spot.stop ∧ (spot.start ≤ spot.index ∨
          mode = .normalizeToLf ∧ spot.chunk.isEndOfFile = true ∧ spot.stop = lines.length)) := by
  by_cases none : spot.chunk.oldLines = []
  · have stops : spot.stop = spot.index := by simp [stop, pattern, none]
    have inserted := found.inserted none
    have most : insertionIndex mode lines ≤ lines.length := by
      unfold insertionIndex
      split
      · split <;> omega
      · exact le_rfl
    rw [next, if_pos none]
    exact ⟨by omega, le_rfl, inside, .inl ⟨none, inserted, stops⟩⟩
  · obtain ⟨within, -, after⟩ := seekSequence_eq_some inside (found.located none)
    have goesOn : spot.next = spot.stop := if_neg none
    rw [← stop] at within after
    refine ⟨within, ?_, goesOn ▸ within, .inr ⟨none, goesOn, after⟩⟩
    have : spot.index ≤ spot.stop := le_add_right _ _
    omega

theorem seekContext_eq_ok (inside : lineIndex ≤ lines.length)
    (context : seekContext mode lines path lineIndex chunk = .ok next) :
    lineIndex ≤ next ∧ next ≤ lines.length := by
  rw [seekContext] at context
  split at context
  · cases context
    exact ⟨le_rfl, inside⟩
  split at context
  · rename_i index located
    cases context
    obtain ⟨within, -, after | ⟨-, eof, -⟩⟩ := seekSequence_eq_some inside located
    · exact ⟨after.trans (le_succ index), within⟩
    · cases eof
  · cases context

/-- The searches begin one behind the other. -/
theorem Spots.ordered (located : Spots mode lines path lineIndex spots)
    (inside : lineIndex ≤ lines.length) :
    (∀ spot ∈ spots, lineIndex ≤ spot.start ∧ spot.start ≤ lines.length ∧ spot.Found mode lines) ∧
      spots.Pairwise fun first second => first.next ≤ second.start := by
  induction spots generalizing lineIndex with
  | nil => exact ⟨by simp, .nil⟩
  | cons spot _ ih =>
    obtain ⟨context, found, later⟩ := located
    obtain ⟨after, within⟩ := seekContext_eq_ok inside context
    obtain ⟨-, goesOn, nextWithin, -⟩ := found.bounds within
    obtain ⟨all, order⟩ := ih later nextWithin
    refine ⟨forall_mem_cons.mpr ⟨⟨after, within, found⟩, ?_⟩, pairwise_cons.mpr ⟨?_, order⟩⟩
    · intro other mem
      obtain ⟨starts, rest⟩ := all other mem
      exact ⟨by omega, rest⟩
    · exact fun other mem => (all other mem).1

/-- The first replacement comes before the second one, or a sort by the start puts the second
one before it; they do not overlap. -/
def Apart (first second : Replacement) : Prop :=
  first.stop ≤ second.start ∨ second.start < first.start ∧ second.stop ≤ first.start

/-- A stable sort puts replacements one after the other exactly if they are apart. -/
theorem pairwise_insertionSort_iff :
    (found.insertionSort fun first second => first.start ≤ second.start).Pairwise Replacement.Before ↔
      found.Pairwise Apart := by
  have inserted (new : Replacement) (sorted : List Replacement) :
      (sorted.orderedInsert (fun first second => first.start ≤ second.start) new).Pairwise Replacement.Before ↔
        (∀ other ∈ sorted, Apart new other) ∧ sorted.Pairwise Replacement.Before := by
    induction sorted with
    | nil => simp
    | cons head tail ih =>
      have ordered (replacement : Replacement) : replacement.start ≤ replacement.stop := le_add_right _ _
      rw [orderedInsert]
      split
      · rename_i least
        rw [pairwise_cons]
        refine and_congr_left fun order => forall₂_congr fun other mem => ?_
        have above : head.start ≤ other.start := by
          rcases mem_cons.mp mem with rfl | later
          · exact le_rfl
          · exact (ordered head).trans ((pairwise_cons.mp order).1 other later)
        unfold Apart
        omega
      · rename_i later
        have := ordered new
        have first : Replacement.Before head new ↔ Apart new head := by
          unfold Apart
          omega
        rw [pairwise_cons, ih, pairwise_cons, forall_mem_cons]
        simp only [mem_orderedInsert, or_imp, forall_and, forall_eq, first]
        tauto
  induction found with
  | nil => simp
  | cons replacement later ih =>
    rw [insertionSort_cons, inserted, pairwise_cons]
    simp only [mem_insertionSort]
    exact and_congr_right fun _ => ih

/-! ### Application -/

/-- From the last to the first or from the first to the last: in order, it is the same. -/
theorem applyReplacements_eq (index : Nat) (after : ∀ replacement ∈ replacements,
      index ≤ replacement.start ∧ replacement.stop ≤ lines.length)
    (order : replacements.Pairwise Replacement.Before) :
    applyReplacements lines replacements = lines.take index ++ spliced id lines index replacements := by
  induction replacements generalizing index with
  | nil => exact (take_append_drop index lines).symm
  | cons replacement later ih =>
    obtain ⟨⟨above, _⟩, bounds⟩ := forall_mem_cons.mp after
    obtain ⟨behind, order'⟩ := pairwise_cons.mp order
    have rest := ih replacement.stop (fun other mem => ⟨behind other mem, (bounds other mem).2⟩) order'
    have ordered : replacement.start ≤ replacement.stop := le_add_right _ _
    have length : (lines.take replacement.stop).length = replacement.stop := by
      rw [length_take]
      omega
    have kept : (applyReplacements lines later).take replacement.start =
        lines.take index ++ (lines.drop index).take (replacement.start - index) := by
      rw [rest, take_append_of_le_length (by omega), take_take, min_eq_left ordered,
        ← take_add, Nat.add_sub_cancel' above]
    have left : (applyReplacements lines later).drop replacement.stop =
        spliced id lines replacement.stop later := by
      rw [rest, drop_left' length]
    change (applyReplacements lines later).take replacement.start ++ replacement.newLines ++
      (applyReplacements lines later).drop replacement.stop = _
    rw [kept, left, spliced, map_id]
    simp only [append_assoc]

theorem newLines_inside (replacement : Replacement) (mem : replacement ∈ replacements)
    (index : Nat) : replacement.newLines <:+: spliced id lines index replacements := by
  induction replacements generalizing index with
  | nil => cases mem
  | cons _ _ ih =>
    rw [spliced, map_id]
    rcases mem_cons.mp mem with rfl | inLater
    · exact ⟨_, _, append_assoc _ _ _⟩
    · exact (ih inLater _).trans ((suffix_append _ _).trans (suffix_append _ _)).isInfix

/-! ### Normalized line endings -/

/-- The block of the chunk is replaced by these lines. -/
def Spot.replacedBy (spot : Spot) (newLines : List String) : Replacement :=
  ⟨spot.index, spot.pattern.length, newLines⟩

/-- The replacement that is made. -/
abbrev Spot.made (spot : Spot) : Replacement := spot.replacedBy spot.newSlice

/-- The replacement with all new lines of the chunk. -/
abbrev Spot.intended (spot : Spot) : Replacement := spot.replacedBy spot.chunk.newLines

/-- The block of the chunk has the last line. -/
def Spot.CoversEnd (lines : List String) (spot : Spot) : Prop :=
  spot.index < lines.length ∧ spot.stop = lines.length

/-- The second chunk is at the end of the file and reaches back over the first one.  Or one of them
inserts its lines before a final empty line, which the other one replaces: the second one in any
case, the first one if it comes with the lines before it. -/
def Conflict (lines : List String) (first second : Spot) : Prop :=
  if second.chunk.oldLines = [] then endsEmpty lines = true ∧ first.CoversEnd lines
  else if first.chunk.oldLines = [] then
    endsEmpty lines = true ∧ second.CoversEnd lines ∧ second.index + 1 < lines.length
  else second.chunk.isEndOfFile = true ∧ second.index < first.stop ∧ first.index < lines.length

/-- Two chunks replace different lines exactly if they do not conflict. -/
theorem apart_iff_not_conflict {first second : Spot} (firstFound : first.Found .normalizeToLf lines)
    (secondFound : second.Found .normalizeToLf lines) (inside : second.start ≤ lines.length)
    (order : first.next ≤ second.start) (begins : first.start ≤ lines.length) :
    Apart first.made second.made ↔ ¬ Conflict lines first second := by
  obtain ⟨_, _, _, one⟩ := firstFound.bounds begins
  obtain ⟨_, _, _, two⟩ := secondFound.bounds inside
  have ordered : first.index ≤ first.stop := le_add_right _ _
  have ordered' : second.index ≤ second.stop := le_add_right _ _
  change (first.stop ≤ second.index ∨ second.index < first.index ∧ second.stop ≤ first.index) ↔ _
  have place : endsEmpty lines = true ∧ 0 < lines.length ∧
        insertionIndex .normalizeToLf lines = lines.length - 1 ∨
      endsEmpty lines = false ∧ insertionIndex .normalizeToLf lines = lines.length := by
    unfold insertionIndex
    cases padded : endsEmpty lines with
    | false => simp
    | true =>
      cases lines with
      | nil => cases padded
      | cons => simp
  unfold Conflict Spot.CoversEnd
  rcases two with ⟨none, at2, stop2⟩ | ⟨some, next2, place2⟩
  · -- The second one inserts its lines.
    rw [if_pos none]
    rcases place with ⟨padded, _, place⟩ | ⟨padded, place⟩
    · simp only [padded, true_and]
      omega
    · simp only [padded, Bool.false_eq_true, false_and, not_false_eq_true, iff_true]
      omega
  rw [if_neg some]
  rcases one with ⟨none, at1, stop1⟩ | ⟨some, next1, place1⟩
  · rw [if_pos none]
    rcases place with ⟨padded, _, place⟩ | ⟨padded, place⟩
    · simp only [padded, true_and]
      omega
    · simp only [padded, Bool.false_eq_true, false_and, not_false_eq_true, iff_true]
      omega
  · rw [if_neg some]
    rcases place2 with after | ⟨-, eof, atEnd⟩
    · exact iff_of_true (.inl (by omega)) (by omega)
    · simp only [eof, true_and]
      omega

theorem Spot.newSlice_begins (spot : Spot) : spot.newSlice <+: spot.chunk.newLines := by
  unfold Spot.newSlice
  split
  · exact dropLast_prefix _
  · exact prefix_refl _

/-- A chunk loses a new line if it is found without its last old line and its last new line is
empty. -/
theorem Spot.newSlice_eq_iff (spot : Spot) : spot.newSlice = spot.chunk.newLines ↔
    (spot.shortened = true → endsEmpty spot.chunk.newLines = false) := by
  unfold Spot.newSlice
  cases spot.shortened with
  | false => simp
  | true =>
    cases padded : endsEmpty spot.chunk.newLines with
    | false => simp
    | true =>
      refine iff_of_false (fun same => ?_) (by simp)
      have lengths := congrArg length same
      cases none : spot.chunk.newLines with
      | nil =>
        rw [none] at padded
        cases padded
      | cons =>
        rw [none] at lengths
        simp at lengths

theorem length_spliced (spot : Spot) (newLines : List String) (later : List Replacement)
    (index : Nat) : (spliced id lines index (spot.replacedBy newLines :: later)).length =
      ((lines.drop index).take (spot.index - index)).length +
        (newLines.length + (spliced id lines spot.stop later).length) := by
  simp [spliced, Spot.replacedBy, Spot.stop, Replacement.stop]

/-- Lines that are lost make the result shorter. -/
theorem spliced_made (spots : List Spot) (index : Nat) :
    (spliced id lines index (spots.map Spot.made)).length ≤
        (spliced id lines index (spots.map Spot.intended)).length ∧
      ((spliced id lines index (spots.map Spot.made)).length =
          (spliced id lines index (spots.map Spot.intended)).length →
        ∀ spot ∈ spots, spot.newSlice = spot.chunk.newLines) := by
  induction spots generalizing index with
  | nil => exact ⟨le_rfl, by simp⟩
  | cons spot _ ih =>
    have here := (Spot.newSlice_begins spot).length_le
    obtain ⟨shorter, whole⟩ := ih spot.stop
    simp only [map_cons, length_spliced]
    refine ⟨by omega, fun same => forall_mem_cons.mpr ⟨?_, whole (by omega)⟩⟩
    exact (Spot.newSlice_begins spot).eq_of_length (by omega)

/-- The places from the first line on; of two insertions at one place the earlier one comes first. -/
def inOrder (spots : List Spot) : List Spot :=
  spots.insertionSort fun first second => first.index ≤ second.index

theorem map_made_inOrder (spots : List Spot) : (inOrder spots).map Spot.made =
    (spots.map Spot.made).insertionSort fun first second => first.start ≤ second.start :=
  map_insertionSort _ _ Spot.made spots fun _ _ _ _ => Iff.rfl

/-- The lines with the block of every chunk replaced in place by the new lines of the chunk. -/
def inPlace (lines : List String) (spots : List Spot) : List String :=
  spliced id lines 0 ((inOrder spots).map Spot.intended)

theorem pairwise_made_iff (located : Spots .normalizeToLf lines path 0 spots) :
    ((inOrder spots).map Spot.made).Pairwise Replacement.Before ↔
      spots.Pairwise (¬ Conflict lines · ·) := by
  obtain ⟨found, order⟩ := located.ordered (zero_le _)
  have alike : spots.Pairwise fun first second =>
      (Apart first.made second.made ↔ ¬ Conflict lines first second) := by
    refine order.imp_of_mem fun {first second} isFirst isSecond next => ?_
    obtain ⟨-, begins, firstFound⟩ := found first isFirst
    obtain ⟨-, inside, secondFound⟩ := found second isSecond
    exact apart_iff_not_conflict firstFound secondFound inside next begins
  rw [map_made_inOrder, pairwise_insertionSort_iff, pairwise_map]
  exact ⟨alike.imp₂ (fun _ _ same => same.mp), alike.imp₂ (fun _ _ same => same.mpr)⟩

/-- Replacements that do not overlap are made in place, exactly if no new line is lost. -/
theorem applyReplacements_made_eq_iff (located : Spots .normalizeToLf lines path 0 spots)
    (order : ((inOrder spots).map Spot.made).Pairwise Replacement.Before) :
    applyReplacements lines ((inOrder spots).map Spot.made) = inPlace lines spots ↔
      ∀ spot ∈ spots, spot.newSlice = spot.chunk.newLines := by
  have inside : ∀ replacement ∈ (inOrder spots).map Spot.made,
      0 ≤ replacement.start ∧ replacement.stop ≤ lines.length := by
    intro _ mem
    obtain ⟨spot, isSpot, rfl⟩ := mem_map.mp mem
    obtain ⟨-, begins, found⟩ :=
      (located.ordered (zero_le _)).1 spot ((mem_insertionSort _).mp isSpot)
    exact ⟨zero_le _, (found.bounds begins).1⟩
  rw [applyReplacements_eq 0 inside order, take_zero, nil_append, inPlace]
  constructor
  · intro same spot mem
    exact (spliced_made _ 0).2 (congrArg length same) spot ((mem_insertionSort _).mpr mem)
  · intro whole
    refine congrArg _ (map_congr_left fun spot mem => congrArg spot.replacedBy ?_)
    exact whole spot ((mem_insertionSort _).mp mem)

/-- The chunks are found one after the other, and each one makes one replacement.  These do not
overlap and are made in place, with all new lines of every chunk, exactly if no two chunks conflict
and no chunk that is found only without its final empty line has new lines that end in an empty one. -/
theorem normalizedUpdate_inPlace_iff (lines : List String) (path : String)
    (chunks : List UpdateFileChunk) (replacements : List Replacement)
    (computed : computeReplacements lines path chunks .normalizeToLf = .ok replacements) :
    ∃ spots, spots.map Spot.chunk = chunks ∧ Spots .normalizeToLf lines path 0 spots ∧
      replacements = (inOrder spots).map Spot.made ∧
      ((replacements.Pairwise Replacement.Before ∧
          applyReplacements lines replacements = inPlace lines spots ∧
          ∀ chunk ∈ chunks, chunk.newLines <:+: applyReplacements lines replacements) ↔
        spots.Pairwise (¬ Conflict lines · ·) ∧ ∀ spot ∈ spots, endsEmpty spot.chunk.oldLines = true →
          Missing .normalizeToLf lines spot.chunk.oldLines spot.start spot.chunk.isEndOfFile →
            endsEmpty spot.chunk.newLines = false) := by
  rw [computeReplacements, Except.bind_eq_ok_iff] at computed
  obtain ⟨_, all, computed⟩ := computed
  obtain ⟨spots, rfl, located, rfl⟩ := replacementsFrom_eq_ok all
  cases computed
  have single : spots.flatMap (·.replacements .normalizeToLf) = spots.map Spot.made :=
    map_eq_flatMap.symm
  rw [single, ← map_made_inOrder]
  refine ⟨spots, rfl, located, rfl, ?_⟩
  rw [pairwise_made_iff located]
  refine and_congr_right fun clear => ?_
  have whole : (∀ spot ∈ spots, spot.newSlice = spot.chunk.newLines) ↔
      ∀ spot ∈ spots, endsEmpty spot.chunk.oldLines = true →
        Missing .normalizeToLf lines spot.chunk.oldLines spot.start spot.chunk.isEndOfFile →
          endsEmpty spot.chunk.newLines = false := by
    refine forall₂_congr fun spot mem => ?_
    obtain ⟨-, -, found⟩ := (located.ordered (zero_le _)).1 spot mem
    rw [Spot.newSlice_eq_iff, found.missing, and_imp]
  rw [← whole, ← applyReplacements_made_eq_iff located ((pairwise_made_iff located).mpr clear)]
  refine and_iff_left_of_imp fun same chunk mem => ?_
  obtain ⟨spot, isSpot, rfl⟩ := mem_map.mp mem
  rw [same]
  exact newLines_inside spot.intended (mem_map_of_mem ((mem_insertionSort _).mpr isSpot)) 0

/-- A change and, behind it, a change at the end of the file, with an empty line that the file may
have at its end. -/
def twoChanges : List UpdateFileChunk :=
  [{ oldLines := ["x"], newLines := ["y"] },
    { oldLines := ["x", ""], newLines := ["z"], isEndOfFile := true }]

/-- The second change is found without the empty line, behind the first one. -/
theorem twoChanges_inPlace :
    ∃ spots, spots.map Spot.chunk = twoChanges ∧ Spots .normalizeToLf ["x", "x"] "f" 0 spots ∧
      applyReplacements ["x", "x"] [⟨0, 1, ["y"]⟩, ⟨1, 1, ["z"]⟩] = inPlace ["x", "x"] spots := by
  have computed : computeReplacements ["x", "x"] "f" twoChanges .normalizeToLf =
      .ok [⟨0, 1, ["y"]⟩, ⟨1, 1, ["z"]⟩] := rfl
  obtain ⟨spots, chunks, located, made, same⟩ := normalizedUpdate_inPlace_iff _ "f" twoChanges _ computed
  refine ⟨spots, chunks, located, (same.mpr ⟨?_, ?_⟩).2.1⟩
  · obtain ⟨first, _, rfl, isFirst, rest⟩ := map_eq_cons_iff.mp chunks
    obtain ⟨second, _, rfl, isSecond, rest⟩ := map_eq_cons_iff.mp rest
    cases map_eq_nil_iff.mp rest
    rw [map_made_inOrder] at made
    simp only [map_cons, map_nil, insertionSort_cons, insertionSort_nil, orderedInsert] at made
    split at made <;> simp only [cons.injEq, Replacement.mk.injEq, Spot.replacedBy] at made
    · obtain ⟨⟨begins, stops, -⟩, ⟨ends, -⟩, -⟩ := made
      simp [Conflict, Spot.stop, isFirst, isSecond, ← begins, ← stops, ← ends]
    · obtain ⟨⟨-, -, other⟩, -⟩ := made
      have lost := Spot.newSlice_begins second
      rw [← other, isSecond] at lost
      exact absurd lost (by decide)
  · intro spot mem _ _
    have unpadded : ∀ chunk ∈ twoChanges, endsEmpty chunk.newLines = false := by decide
    exact unpadded spot.chunk (chunks ▸ mem_map_of_mem mem)

/-- On one line both chunks replace it, and the second change is lost. -/
theorem twoChanges_overlap : computeReplacements ["x"] "f" twoChanges .normalizeToLf =
      .ok [⟨0, 1, ["y"]⟩, ⟨0, 1, ["z"]⟩] ∧
    applyReplacements ["x"] [⟨0, 1, ["y"]⟩, ⟨0, 1, ["z"]⟩] = ["y"] :=
  ⟨rfl, rfl⟩

/-- A change that is found without its final empty line does not write the new one. -/
theorem paddedChange_loses_line : computeReplacements ["a", "c"] "f"
      [{ oldLines := ["a", ""], newLines := ["b", ""] }] .normalizeToLf = .ok [⟨0, 1, ["b"]⟩] ∧
    applyReplacements ["a", "c"] [⟨0, 1, ["b"]⟩] = ["b", "c"] :=
  ⟨rfl, rfl⟩

end WeaveCodex.ApplyPatch
