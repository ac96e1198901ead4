/-
Purpose: However a text is cut into deltas, the parser of tagged lines gives the segments
  that the lines of the whole text mean, up to the places where text is cut.
-/
import WeaveCodex.StreamParser.TaggedLines

namespace WeaveCodex.StreamParser

open ApplyPatch (isWhitespace)
open TaggedLineParser List Option

variable {T : Type*}

/-! ### Segments character by character -/

/-- A segment with its text cut into characters. -/
def TaggedLineSegment.atoms : TaggedLineSegment T → List (TaggedLineSegment T)
  | .normal text => text.map fun char => .normal [char]
  | .tagDelta tag text => text.map fun char => .tagDelta tag [char]
  | .tagStart tag => [.tagStart tag]
  | .tagEnd tag => [.tagEnd tag]

def atomsOf (segments : List (TaggedLineSegment T)) : List (TaggedLineSegment T) :=
  segments.flatMap TaggedLineSegment.atoms

theorem atomsOf_append (first second : List (TaggedLineSegment T)) :
    atomsOf (first ++ second) = atomsOf first ++ atomsOf second :=
  flatMap_append ..

variable (segment : TaggedLineSegment T)

theorem atomsOf_cons (segments : List (TaggedLineSegment T)) :
    atomsOf (segment :: segments) = segment.atoms ++ atomsOf segments :=
  flatMap_cons ..

theorem atomsOf_singleton : atomsOf [segment] = segment.atoms := by
  rw [atomsOf_cons, atomsOf, flatMap_nil, append_nil]

theorem atoms_textSegment (activeTag : Option T) (text : List Char) :
    (textSegment activeTag text).atoms = text.map fun char => textSegment activeTag [char] := by
  cases activeTag with
  | none | some => rfl

/-- A list with its last element. -/
theorem eq_dropLast_append {segments : List (TaggedLineSegment T)}
    {last : TaggedLineSegment T} (is : segments.getLast? = some last) :
    segments = segments.dropLast ++ [last] :=
  (dropLast_append_getLast? last is).symm

variable {specs : List (TagSpec T)} {activeTag : Option T}

theorem isTagPrefix_of_leads {spec : TagSpec T} {slug : List Char} (mem : spec ∈ specs)
    (leads : trimEnd slug <+: spec.opening ∨ trimEnd slug <+: spec.closing) :
    isTagPrefix specs slug = true := by
  refine any_eq_true.mpr ⟨spec, mem, ?_⟩
  rw [Bool.or_eq_true, isPrefixOf_iff_prefix, isPrefixOf_iff_prefix]
  exact leads

variable [DecidableEq T] (segments : List (TaggedLineSegment T))

/-- Joining texts changes no character. -/
theorem atomsOf_pushSegment :
    atomsOf (pushSegment segments segment) = atomsOf segments ++ segment.atoms := by
  cases segment with
  | normal =>
    rw [pushSegment]
    split
    · rename_i empty
      rw [empty]
      exact (append_nil _).symm
    · split
      · rename_i is
        nth_rewrite 2 [eq_dropLast_append is]
        simp [atomsOf_append, atomsOf_singleton, TaggedLineSegment.atoms]
      · rw [atomsOf_append, atomsOf_singleton]
  | tagDelta =>
    rw [pushSegment]
    split
    · rename_i empty
      rw [empty]
      exact (append_nil _).symm
    · split
      · rename_i is
        split
        · rename_i same
          subst same
          nth_rewrite 2 [eq_dropLast_append is]
          simp [atomsOf_append, atomsOf_singleton, TaggedLineSegment.atoms]
        · rw [atomsOf_append, atomsOf_singleton]
      · rw [atomsOf_append, atomsOf_singleton]
  | tagStart | tagEnd => rw [pushSegment, atomsOf_append, atomsOf_singleton]

/-- A text may be pushed in parts. -/
theorem pushSegment_text_append (activeTag : Option T) (first second : List Char) :
    pushSegment segments (textSegment activeTag (first ++ second)) =
      pushSegment (pushSegment segments (textSegment activeTag first))
        (textSegment activeTag second) := by
  by_cases firstEmpty : first = []
  · subst firstEmpty
    cases activeTag with
    | none | some => simp [textSegment, pushSegment]
  · by_cases secondEmpty : second = []
    · subst secondEmpty
      rw [append_nil]
      cases activeTag with
      | none | some => simp [textSegment, pushSegment]
    · cases activeTag with
      | none =>
        simp only [textSegment, pushSegment, firstEmpty, secondEmpty, append_eq_nil_iff,
          and_self, if_false]
        split <;> simp
      | some =>
        simp only [textSegment, pushSegment, firstEmpty, secondEmpty, append_eq_nil_iff,
          and_self, if_false]
        split
        · split
          · rename_i same
            simp [same]
          · simp
        · simp

theorem pushSegment_eq_foldl :
    pushSegment segments segment = segment.atoms.foldl pushSegment segments := by
  have text (activeTag : Option T) (chars : List Char) :
      pushSegment segments (textSegment activeTag chars) =
        (chars.map fun char => textSegment activeTag [char]).foldl pushSegment segments := by
    induction chars generalizing segments with
    | nil =>
      cases activeTag with
      | none | some => rfl
    | cons _ _ ih =>
      rw [← singleton_append, pushSegment_text_append, ih]
      rfl
  cases segment with
  | normal delta => exact text none delta
  | tagDelta tag delta => exact text (some tag) delta
  | tagStart | tagEnd => rfl

theorem mergeSegments_eq : mergeSegments segments = (atomsOf segments).foldl pushSegment [] := by
  have general (start : List (TaggedLineSegment T)) :
      segments.foldl pushSegment start = (atomsOf segments).foldl pushSegment start := by
    induction segments generalizing start with
    | nil => rfl
    | cons _ _ ih =>
      rw [foldl_cons, atomsOf_cons, foldl_append, ih, pushSegment_eq_foldl]
  exact general []

/-! ### Lines -/

theorem flatten_splitLines (text : List Char) : (splitLines text).flatten = text := by
  induction text with
  | nil => rfl
  | cons _ _ ih =>
    rw [splitLines]
    split
    · rename_i newline
      rw [newline, flatten_cons, ih]
      rfl
    · split
      · rename_i none
        rw [none] at ih
        rw [← ih]
        rfl
      · rename_i are
        rw [are] at ih
        rw [← ih]
        rfl

variable {text : List Char}

theorem splitLines_single (nonempty : text ≠ []) (single : '\n' ∉ text) : splitLines text = [text] := by
  induction text with
  | nil => contradiction
  | cons _ chars ih =>
    rw [mem_cons, not_or] at single
    rw [splitLines, if_neg (Ne.symm single.1)]
    cases chars with
    | nil => rfl
    | cons => rw [ih (cons_ne_nil _ _) single.2]

theorem splitLines_newline (single : '\n' ∉ text) (later : List Char) :
    splitLines (text ++ '\n' :: later) = (text ++ ['\n']) :: splitLines later := by
  induction text with
  | nil => rw [nil_append, nil_append, splitLines, if_pos rfl]
  | cons _ _ ih =>
    rw [mem_cons, not_or] at single
    rw [cons_append, splitLines, if_neg (Ne.symm single.1), ih single.2]
    rfl

/-! ### Lines that cannot be tags -/

theorem trimEnd_leads (first second : List Char) : trimEnd first <+: trimEnd (first ++ second) := by
  induction second using reverseRecOn with
  | nil => simp
  | append_singleton _ char ih =>
    rw [← append_assoc]
    unfold trimEnd at *
    by_cases blank : isWhitespace char = true
    · rw [rdropWhile_concat_pos _ _ _ blank]
      exact ih
    · rw [rdropWhile_concat_neg _ _ _ blank, append_assoc]
      refine .trans ?_ (prefix_append _ _)
      exact rdropWhile_prefix _ _

/-- The newline at the end of a line does not count. -/
theorem trim_newline (text : List Char) :
    trimEnd (trimStart (text ++ ['\n'])) = trimEnd (trimStart text) := by
  rw [trimStart, dropWhile_append]
  split
  · rename_i blank
    rw [trimStart, isEmpty_iff.mp blank]
    rfl
  · exact rdropWhile_concat_pos _ _ _ rfl

theorem withoutNewline_single (single : '\n' ∉ text) : withoutNewline text = text := by
  rw [withoutNewline]
  apply if_neg
  intro last
  exact single (mem_of_getLast? last)

/-- However the line goes on, it is no marker. -/
def Unmarked (specs : List (TagSpec T)) (text : List Char) : Prop :=
  ∀ (activeTag : Option T) (later : List Char), lineMarker specs activeTag (text ++ later) = none

/-- A line that begins like no tag is none, however it goes on. -/
theorem unmarked_of_not_isTagPrefix (nonempty : trimStart text ≠ [])
    (other : isTagPrefix specs (trimStart text) = false) : Unmarked specs text := by
  intro activeTag later
  have begins : trimStart (text ++ later) = trimStart text ++ later := by
    rw [trimStart, dropWhile_append, ← trimStart, if_neg (fun empty => nonempty (isEmpty_iff.mp empty))]
  have leads := trimEnd_leads (trimStart text) later
  have refuted {spec : TagSpec T} (mem : spec ∈ specs)
      (is : trimEnd (trimStart text) <+: spec.opening ∨
        trimEnd (trimStart text) <+: spec.closing) : False := by
    rw [isTagPrefix_of_leads mem is] at other
    cases other
  cases activeTag with
  | none =>
    rw [lineMarker, begins, map_eq_none_iff, matchOpen, map_eq_none_iff, find?_eq_none]
    intro spec mem same
    rw [← of_decide_eq_true same] at leads
    exact refuted mem (.inl leads)
  | some =>
    rw [lineMarker, begins]
    apply if_neg
    intro closes
    obtain ⟨_, found, _⟩ := map_eq_some_iff.mp closes
    have same := find?_some found
    rw [← of_decide_eq_true same] at leads
    exact refuted (mem_of_find?_eq_some found) (.inr leads)

/-! ### Going on from a state -/

/-- What is left of a line that is text, and then the lines after it. -/
def restOfLine (specs : List (TagSpec T)) (activeTag : Option T) :
    List Char → List (TaggedLineSegment T)
  | [] => atomsOf (lineSegments specs activeTag [])
  | char :: chars =>
    textSegment activeTag [char] ::
      if char = '\n' then atomsOf (lineSegments specs activeTag (splitLines chars))
      else restOfLine specs activeTag chars

variable {line : List Char}

theorem lineSegments_text (unmarked : lineMarker specs activeTag line = none)
    (lines : List (List Char)) :
    atomsOf (lineSegments specs activeTag (line :: lines)) =
      (line.map fun char => textSegment activeTag [char]) ++
        atomsOf (lineSegments specs activeTag lines) := by
  rw [lineSegments, unmarked, atomsOf_cons, atoms_textSegment]

/-- A line that cannot be a marker is text up to its end. -/
theorem lineSegments_unmarked (nonempty : text ≠ []) (single : '\n' ∉ text)
    (unmarked : Unmarked specs text) (later : List Char) :
    atomsOf (lineSegments specs activeTag (splitLines (text ++ later))) =
      (text.map fun char => textSegment activeTag [char]) ++ restOfLine specs activeTag later := by
  induction later generalizing text with
  | nil =>
    have alone := unmarked activeTag []
    rw [append_nil] at alone
    rw [append_nil, splitLines_single nonempty single, lineSegments_text alone, restOfLine]
  | cons char _ ih =>
    rw [restOfLine]
    by_cases newline : char = '\n'
    · rw [newline, splitLines_newline single, lineSegments_text (unmarked activeTag _),
        if_pos rfl, map_append, append_assoc]
      rfl
    · have longer : Unmarked specs (text ++ [char]) := by
        intro activeTag later
        rw [append_assoc]
        exact unmarked activeTag _
      have still : '\n' ∉ text ++ [char] := by
        rw [mem_append, not_or, mem_singleton]
        exact ⟨single, Ne.symm newline⟩
      have rest := ih (by simp) still longer
      rw [append_assoc, singleton_append] at rest
      rw [rest, if_neg newline, map_append, append_assoc]
      rfl

/-- What a parser still has to give for a text that goes on. -/
def remaining (parser : TaggedLineParser T) (later : List Char) : List (TaggedLineSegment T) :=
  if parser.detectTag then
    atomsOf (lineSegments parser.specs parser.activeTag (splitLines (parser.lineBuffer ++ later)))
  else restOfLine parser.specs parser.activeTag later

/-- The buffer holds the beginning of one line, and nothing once the line is text. -/
structure Buffered (parser : TaggedLineParser T) : Prop where
  single : '\n' ∉ parser.lineBuffer
  empty : parser.detectTag = false → parser.lineBuffer = []

variable (parser : TaggedLineParser T)

section

variable (trimmed : trimEnd (trimStart (withoutNewline line)) = trimEnd (trimStart line))
  (segments : List (TaggedLineSegment T))
include trimmed

/-- The marker that `handleLine` looks for is that of the line. -/
theorem handleLine_marker : parser.handleLine line segments =
    match lineMarker parser.specs parser.activeTag line with
    | some (segment, activeTag) => ({ parser with activeTag }, pushSegment segments segment)
    | none => (parser, parser.pushText line segments) := by
  rw [handleLine, trimmed]
  cases active : parser.activeTag with
  | none =>
    rw [lineMarker]
    cases matchOpen parser.specs (trimEnd (trimStart line)) with
    | some => rfl
    | none =>
      cases matchClose parser.specs (trimEnd (trimStart line)) with
      | none | some => rfl
  | some current =>
    rw [lineMarker]
    cases matchOpen parser.specs (trimEnd (trimStart line)) with
    | some | none =>
      cases matchClose parser.specs (trimEnd (trimStart line)) with
      | none => rfl
      | some other =>
        by_cases same : current = other
        · subst same
          simp
        · simp [same, Ne.symm same]

/-- The line that a handled line was, and then the lines after it. -/
theorem handleLine_atoms (lines : List (List Char)) :
    atomsOf segments ++ atomsOf (lineSegments parser.specs parser.activeTag (line :: lines)) =
      atomsOf (parser.handleLine line segments).2 ++
        atomsOf (lineSegments parser.specs (parser.handleLine line segments).1.activeTag lines) := by
  rw [handleLine_marker parser trimmed]
  cases marked : lineMarker parser.specs parser.activeTag line with
  | none =>
    rw [lineSegments_text marked, pushText, atomsOf_pushSegment, atoms_textSegment, append_assoc]
  | some =>
    rw [lineSegments, marked, atomsOf_cons, atomsOf_pushSegment, append_assoc]

end

theorem handleLine_fields (line : List Char) (segments : List (TaggedLineSegment T)) :
    (parser.handleLine line segments).1.specs = parser.specs ∧
      (parser.handleLine line segments).1.detectTag = parser.detectTag ∧
      (parser.handleLine line segments).1.lineBuffer = parser.lineBuffer := by
  rw [handleLine]
  split
  · exact ⟨rfl, rfl, rfl⟩
  · split
    · split <;> exact ⟨rfl, rfl, rfl⟩
    · exact ⟨rfl, rfl, rfl⟩

/-! ### The loop -/

/-- What the loop has given, with the text that it still gathers. -/
def given (loop : TaggedLineParser.Loop T) : List (TaggedLineSegment T) :=
  atomsOf loop.segments ++ loop.run.map fun char => textSegment loop.parser.activeTag [char]

/-- Text is gathered only behind the beginning of a line that is no tag. -/
structure Running (specs : List (TagSpec T)) (loop : TaggedLineParser.Loop T) : Prop where
  specs : loop.parser.specs = specs
  buffered : Buffered loop.parser
  gathered : loop.parser.detectTag = true → loop.run = []

theorem atomsOf_pushText (text : List Char) (segments : List (TaggedLineSegment T)) :
    atomsOf (parser.pushText text segments) =
      atomsOf segments ++ text.map fun char => textSegment parser.activeTag [char] := by
  rw [pushText, atomsOf_pushSegment, atoms_textSegment]

variable {loop : TaggedLineParser.Loop T}

/-- After a character the loop still runs, and gives with what remains what it gave before. -/
def Takes (specs : List (TagSpec T)) (loop : TaggedLineParser.Loop T) (char : Char) : Prop :=
  Running specs (TaggedLineParser.parseChar loop char) ∧
    ∀ later, given loop ++ remaining loop.parser (char :: later) =
      given (TaggedLineParser.parseChar loop char) ++
        remaining (TaggedLineParser.parseChar loop char).parser later

section

variable (running : Running specs loop)
include running

/-- One character of a line that may be a tag. -/
theorem parseChar_detect (detects : loop.parser.detectTag = true)
    (char : Char) : Takes specs loop char := by
  have nothing := running.gathered detects
  have before : given loop = atomsOf loop.segments := by
    rw [given, nothing]
    exact append_nil _
  have single := running.buffered.single
  rw [Takes, parseChar, if_pos detects, if_pos nothing]
  by_cases newline : char = '\n'
  · subst newline
    rw [if_pos rfl]
    have fields := handleLine_fields { loop.parser with lineBuffer := [], detectTag := true }
      (loop.parser.lineBuffer ++ ['\n']) loop.segments
    have trimmed : trimEnd (trimStart (withoutNewline (loop.parser.lineBuffer ++ ['\n']))) =
        trimEnd (trimStart (loop.parser.lineBuffer ++ ['\n'])) := by
      rw [withoutNewline, getLast?_concat, if_pos rfl, dropLast_concat, trim_newline]
    refine ⟨⟨fields.1.trans running.specs, ⟨?_, fun _ => fields.2.2⟩, fun _ => rfl⟩, fun later => ?_⟩
    · rw [finishLine, fields.2.2]
      exact not_mem_nil
    · have handled := handleLine_atoms
        { loop.parser with lineBuffer := [], detectTag := true } trimmed loop.segments
        (splitLines later)
      rw [before, remaining, if_pos detects, splitLines_newline single]
      rw [handled, remaining, given, finishLine]
      rw [fields.2.1, if_pos rfl, fields.2.2, fields.1, nil_append, map_nil, append_nil]
  · have still : '\n' ∉ loop.parser.lineBuffer ++ [char] := by
      rw [mem_append, not_or, mem_singleton]
      exact ⟨single, Ne.symm newline⟩
    rw [if_neg newline]
    dsimp only
    split
    · refine ⟨⟨running.specs, ⟨still, fun undetected => ?_⟩, fun _ => rfl⟩, fun later => ?_⟩
      · rw [detects] at undetected
        cases undetected
      · rw [before, remaining, remaining, given]
        rw [if_pos detects, if_pos detects, append_cons, map_nil, append_nil]
    · rename_i text
      rw [not_or, Bool.not_eq_true] at text
      have unmarked := unmarked_of_not_isTagPrefix text.1 text.2
      refine ⟨⟨running.specs, ⟨not_mem_nil, fun _ => rfl⟩, nofun⟩, fun later => ?_⟩
      rw [before, remaining, if_pos detects, remaining, given, if_neg Bool.false_ne_true,
        atomsOf_pushText, append_cons, lineSegments_unmarked (by simp) still unmarked]
      simp

/-- One character of a line that is text. -/
theorem parseChar_text (text : loop.parser.detectTag = false)
    (char : Char) : Takes specs loop char := by
  have undetected : ¬ loop.parser.detectTag = true := by
    rw [text]
    exact Bool.false_ne_true
  have empty := running.buffered.empty text
  rw [Takes, parseChar, if_neg undetected]
  split
  · rename_i newline
    refine ⟨⟨running.specs, ⟨running.buffered.single, nofun⟩, fun _ => rfl⟩, fun later => ?_⟩
    rw [remaining, if_neg undetected, restOfLine, if_pos newline, remaining, if_pos rfl, given,
      given, atomsOf_pushText, empty]
    simp
  · rename_i other
    refine ⟨⟨running.specs, running.buffered, fun detects => absurd detects undetected⟩,
      fun later => ?_⟩
    rw [remaining, if_neg undetected, restOfLine, if_neg other, remaining, if_neg undetected,
      given, given]
    simp

theorem parseChar_atoms (char : Char) : Takes specs loop char := by
  cases detects : loop.parser.detectTag with
  | true => exact parseChar_detect running detects char
  | false => exact parseChar_text running detects char

theorem foldl_parseChar_atoms (delta later : List Char) : Running specs (delta.foldl parseChar loop) ∧
    given loop ++ remaining loop.parser (delta ++ later) = given (delta.foldl parseChar loop) ++
        remaining (delta.foldl parseChar loop).parser later := by
  induction delta generalizing loop with
  | nil => exact ⟨running, rfl⟩
  | cons char _ ih =>
    obtain ⟨runningAfter, same⟩ := parseChar_atoms running char
    obtain ⟨runningLast, rest⟩ := ih runningAfter
    refine ⟨runningLast, ?_⟩
    rw [cons_append, same, rest, foldl_cons]

end

/-- A delta gives a beginning of what the whole text gives. -/
theorem parse_atoms {parser : TaggedLineParser T} (buffered : Buffered parser)
    (delta later : List Char) :
    Buffered (parser.parse delta).1 ∧ (parser.parse delta).1.specs = parser.specs ∧
      remaining parser (delta ++ later) =
        atomsOf (parser.parse delta).2 ++ remaining (parser.parse delta).1 later := by
  have initially : Running parser.specs ({ parser } : TaggedLineParser.Loop T) :=
    ⟨rfl, buffered, fun _ => rfl⟩
  obtain ⟨running, same⟩ := foldl_parseChar_atoms initially delta later
  refine ⟨running.buffered, running.specs, same.trans ?_⟩
  rw [parse, given]
  congr 1
  split
  · rename_i nothing
    rw [nothing]
    exact append_nil _
  · rw [atomsOf_pushText]

/-- The finish gives what is left. -/
theorem finish_atoms {parser : TaggedLineParser T} (buffered : Buffered parser) :
    remaining parser [] = atomsOf parser.finish.2 := by
  have closing (activeTag : Option T) (segments : List (TaggedLineSegment T)) :
      atomsOf segments ++ atomsOf (lineSegments parser.specs activeTag []) =
        atomsOf (activeTag.elim segments fun tag => pushSegment segments (.tagEnd tag)) := by
    cases activeTag with
    | none => exact append_nil _
    | some => rw [lineSegments, elim_some, atomsOf_pushSegment, atomsOf_singleton]
  have finished : parser.finish.2 =
      let handled :=
        if parser.lineBuffer = [] then (parser, [])
        else { parser with lineBuffer := [] }.handleLine parser.lineBuffer []
      handled.1.activeTag.elim handled.2 fun tag => pushSegment handled.2 (.tagEnd tag) := by
    rw [finish]
    dsimp only
    generalize (if parser.lineBuffer = [] then (parser, []) else _) = handled
    cases handled.1.activeTag with
    | none | some => rfl
  rw [finished]
  rw [← closing]
  by_cases empty : parser.lineBuffer = []
  · rw [if_pos empty, remaining, empty]
    split <;> rfl
  · have detects : parser.detectTag = true := by
      cases is : parser.detectTag with
      | true => rfl
      | false => exact absurd (buffered.empty is) empty
    have handled := handleLine_atoms { parser with lineBuffer := [] }
      (congrArg (fun line => trimEnd (trimStart line)) (withoutNewline_single buffered.single))
      [] []
    rw [if_neg empty, remaining, if_pos detects, append_nil,
      splitLines_single empty buffered.single, ← handled]
    rfl

end WeaveCodex.StreamParser
