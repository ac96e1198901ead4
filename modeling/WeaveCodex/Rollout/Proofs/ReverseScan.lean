/-
Purpose: Whatever the size of the chunks, the calls of a scanner return one outcome for each line
  that is neither blank nor too long, the last line first.
-/
import WeaveCodex.Rollout.ReverseScanner

namespace WeaveCodex.Rollout.ScanSetting

open List

variable {Value Error : Type*} (scan : ScanSetting Value Error)

/-! ### The lines, from last to first -/

/-- The outcome of a line, parsed from its bytes; none for a line that is blank or longer than the
limit. -/
def lineOutcome (line : List UInt8) : Option (ScanOutcome Value Error) :=
  if line.all isAsciiWhitespace then none
  else if scan.maxRecordBytes.all (line.length ≤ ·) then
    match scan.fromSlice line with
    | .ok value => some (.parsed value)
    | .error error => some (.rejected error)
  else none

/-- The outcomes of the lines of a text, from the last line to the first. -/
def outcomes (text : List UInt8) : List (ScanOutcome Value Error) :=
  (text.splitOn newline).reverse.filterMap scan.lineOutcome

/-- The scanner that has read `tail` of a line. It keeps it, unless it is too long already. -/
def scannerAt (stop : Nat) (chunk tail : List UInt8) : ReverseJsonlScanner :=
  let long := scan.tooLong tail.length
  ⟨stop, chunk, if long then [] else tail.reverse, long⟩

variable {scan} {stop rounds : Nat} {chunk tail : List UInt8}

/-- A record that is finished, and was not discarded, has the outcome of its line. -/
theorem lineOutcome_eq (line : List UInt8) :
    scan.lineOutcome line = if scan.tooLong line.length then none else scan.finishRecord line := by
  have long : scan.tooLong line.length = !scan.maxRecordBytes.all (line.length ≤ ·) := by
    cases limit : scan.maxRecordBytes <;> simp [tooLong, limit, ← decide_not]
  rw [long, lineOutcome, finishRecord]
  cases scan.maxRecordBytes.all (line.length ≤ ·) with
  | true => rfl
  | false => exact ite_self none

/-- The last line of a text without a newline is the whole text. -/
theorem outcomes_line (single : newline ∉ tail) :
    scan.outcomes tail = (scan.lineOutcome tail).toList := by
  have one : tail.splitOn newline = [tail] :=
    splitOnP_eq_singleton fun byte mem => by simpa using ne_of_mem_of_not_mem mem single
  rw [outcomes, one, reverse_singleton, filterMap_cons]
  cases scan.lineOutcome tail <;> rfl

theorem outcomes_append (front : List UInt8) (single : newline ∉ tail) :
    scan.outcomes (front ++ newline :: tail) =
      (scan.lineOutcome tail).toList ++ scan.outcomes front := by
  have cut : (front ++ newline :: tail).splitOn newline =
      front.splitOn newline ++ tail.splitOn newline := splitOnP_append_cons _ _ (by simp)
  rw [outcomes, cut, reverse_append, filterMap_append, ← outcomes_line single]
  rfl

theorem tooLong_zero : scan.tooLong 0 = false := by simp [tooLong]

theorem tooLong_mono {shorter longer : Nat} (within : shorter ≤ longer)
    (long : scan.tooLong shorter = true) : scan.tooLong longer = true := by
  unfold tooLong at *
  cases limit : scan.maxRecordBytes with
  | none => simp [limit] at long
  | some =>
    simp_all
    omega

theorem extend_scannerAt (fragment : List UInt8) : scan.extend (scan.scannerAt stop chunk tail) fragment =
    scan.scannerAt stop chunk (fragment ++ tail) := by
  cases long : scan.tooLong tail.length with
  | true =>
    have longer := tooLong_mono (Nat.le_add_left _ fragment.length) long
    simp [extend, scannerAt, long, longer]
  | false =>
    rw [extend, if_neg (by simp [scannerAt, long])]
    cases longer : scan.tooLong (fragment.length + tail.length) <;>
      simp [scannerAt, long, longer, Nat.add_comm tail.length]

/-- The line ends here: its outcome, and no line is begun. -/
theorem completeRecord_scannerAt : scan.completeRecord (scan.scannerAt stop chunk tail) =
    ((scan.lineOutcome tail).map some, scan.scannerAt stop chunk []) := by
  cases long : scan.tooLong tail.length <;>
    simp [completeRecord, scannerAt, lineOutcome_eq, long, tooLong_zero]

theorem round_end : scan.round (scan.scannerAt 0 [] tail) =
    (some (scan.lineOutcome tail), scan.scannerAt 0 [] []) := by
  cases long : scan.tooLong tail.length <;>
    simp [round, scannerAt, lineOutcome_eq, long, tooLong_zero]

theorem readChunk_scannerAt (scan : ScanSetting Value Error) (tail : List UInt8)
    (unfinished : ¬ (chunk = [] ∧ stop = 0)) :
    ∃ start bytes, scan.readChunk (scan.scannerAt stop chunk tail) = scan.scannerAt start bytes tail ∧
      scan.file.take start ++ bytes = scan.file.take stop ++ chunk ∧
      start + bytes.length ≤ stop + chunk.length ∧ start < stop + chunk.length := by
  have positive := scan.positive
  by_cases empty : chunk = []
  · subst empty
    refine ⟨_, _, if_pos rfl, ?_, ?_⟩
    · rw [append_nil]
      refine .trans ?_ (take_append_drop (stop - min stop scan.readChunkSize) (scan.file.take stop))
      rw [take_take, min_eq_left (Nat.sub_le _ _)]
      rfl
    · simp only [true_and, length_nil, length_drop, length_take, scannerAt] at unfinished ⊢
      omega
  · have := length_pos_iff.mpr empty
    exact ⟨_, _, if_neg empty, rfl, le_rfl, by omega⟩

/-- A round reads on to the newline before, or to the start of the chunk. -/
theorem round_scannerAt (single : newline ∉ tail) (unfinished : ¬ (chunk = [] ∧ stop = 0)) :
    ∃ start front line, newline ∉ line ∧ start + front.length < stop + chunk.length ∧
      (scan.round (scan.scannerAt stop chunk tail) = (none, scan.scannerAt start front line) ∧
        scan.file.take stop ++ chunk ++ tail = scan.file.take start ++ front ++ line ∨
      scan.round (scan.scannerAt stop chunk tail) =
          scan.completeRecord (scan.scannerAt start front line) ∧
        scan.file.take stop ++ chunk ++ tail = scan.file.take start ++ front ++ newline :: line) := by
  obtain ⟨start, bytes, filled, same, within, started⟩ := scan.readChunk_scannerAt tail unfinished
  have whole : bytes.rdropWhile (· ≠ newline) ++ bytes.rtakeWhile (· ≠ newline) = bytes :=
    rdropWhile_append_rtakeWhile
  have singles : newline ∉ bytes.rtakeWhile (· ≠ newline) ++ tail := by
    rw [mem_append, not_or]
    exact ⟨fun mem => by simpa using mem_rtakeWhile_imp mem, single⟩
  have step : scan.round (scan.scannerAt stop chunk tail) = _ := if_neg unfinished
  simp only [filled, extend_scannerAt] at step
  rw [← same]
  by_cases none : bytes.rdropWhile (· ≠ newline) = []
  · refine ⟨start, [], _, singles, started, .inl ⟨step.trans (if_pos none), ?_⟩⟩
    rw [none, nil_append] at whole
    rw [whole, append_nil, append_assoc]
  · have last := rdropWhile_last_not (· ≠ newline) bytes none
    rw [decide_eq_true_eq, not_not] at last
    have ends := dropLast_append_getLast none
    rw [last] at ends
    rw [← ends] at whole
    refine ⟨start, (bytes.rdropWhile (· ≠ newline)).dropLast, _, singles, ?_,
      .inr ⟨step.trans (if_neg none), ?_⟩⟩
    · have lengths := congrArg length whole
      simp only [length_append, length_singleton] at lengths
      omega
    · conv_lhs => rw [← whole]
      simp

/-- Enough rounds return the first of the outcomes and leave the others. -/
theorem scanRounds_scannerAt (single : newline ∉ tail) (enough : stop + chunk.length < rounds) :
    ∃ start bytes, scan.scanRounds rounds (scan.scannerAt stop chunk tail) =
        some ((scan.outcomes (scan.file.take stop ++ chunk ++ tail)).head?,
          scan.scannerAt start bytes []) ∧
      scan.outcomes (scan.file.take start ++ bytes) =
        (scan.outcomes (scan.file.take stop ++ chunk ++ tail)).tail := by
  induction rounds generalizing stop chunk tail with
  | zero => exact absurd enough (Nat.not_lt_zero _)
  | succ rounds ih =>
    rw [scanRounds]
    by_cases ended : chunk = [] ∧ stop = 0
    · obtain ⟨rfl, rfl⟩ := ended
      rw [round_end, take_zero, nil_append, nil_append, outcomes_line single]
      have nothing : scan.outcomes [] = [] := by simp [outcomes, lineOutcome]
      refine ⟨0, [], ?_⟩
      cases scan.lineOutcome tail <;> exact ⟨rfl, nothing⟩
    · obtain ⟨start, front, line, singles, shorter, ⟨step, text⟩ | ⟨step, text⟩⟩ :=
        scan.round_scannerAt single ended
      · rw [step, text]
        exact ih singles (by omega)
      · rw [step, text, completeRecord_scannerAt, outcomes_append _ singles]
        cases scan.lineOutcome line with
        | none =>
          have rest := @ih start front [] not_mem_nil (by omega)
          rwa [append_nil] at rest
        | some outcome => exact ⟨start, front, rfl, rfl⟩

theorem nthCall_scannerAt (count : Nat) : scan.nthCall count (scan.scannerAt stop chunk []) =
    some (scan.outcomes (scan.file.take stop ++ chunk))[count]? := by
  induction count generalizing stop chunk with
  | zero =>
    obtain ⟨start, bytes, returned, -⟩ :=
      scan.scanRounds_scannerAt not_mem_nil (Nat.lt_succ_self (stop + chunk.length))
    rw [append_nil, head?_eq_getElem?] at returned
    exact congrArg (Option.map Prod.fst) returned
  | succ count ih =>
    obtain ⟨start, bytes, returned, others⟩ :=
      scan.scanRounds_scannerAt not_mem_nil (Nat.lt_succ_self (stop + chunk.length))
    rw [append_nil] at others
    rw [← getElem?_tail, ← others, ← ih]
    exact congrArg (Option.bind · fun called => scan.nthCall count called.2) returned

/-- One call after the other returns the outcomes of the lines, and then nothing. -/
theorem nthCall_newAt (stop : Nat) :
    scan.newAt stop = .error "reverse JSONL scan end is past the file" ∧ scan.file.length < stop ∨
      ∃ scanner, scan.newAt stop = .ok scanner ∧ ∀ count,
        scan.nthCall count scanner = some (scan.outcomes (scan.file.take stop))[count]? := by
  by_cases past : scan.file.length < stop
  · exact .inl ⟨if_pos past, past⟩
  · have start : scan.scannerAt stop [] [] = ⟨stop, [], [], false⟩ := by
      simp [scannerAt, tooLong_zero]
    refine .inr ⟨_, if_neg past, fun count => ?_⟩
    rw [← start, nthCall_scannerAt, append_nil]

end WeaveCodex.Rollout.ScanSetting
