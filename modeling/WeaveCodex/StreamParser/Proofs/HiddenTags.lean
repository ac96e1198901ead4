/-
Purpose: However a text is cut into chunks, the parser of inline tags shows and hands out
  what the parts of the whole text say, and these parts are the text.
-/
import WeaveCodex.StreamParser.InlineHiddenTag

namespace WeaveCodex.StreamParser

open Library.SubstringSearch StreamTextChunk Option
open List hiding append_assoc

variable {T : Type*}

/-! ### Chunks -/

namespace StreamTextChunk

theorem append_assoc (first second third : StreamTextChunk T) :
    first ++ second ++ third = first ++ (second ++ third) :=
  congrArg₂ mk (List.append_assoc ..) (List.append_assoc ..)

theorem empty_append (chunk : StreamTextChunk T) : ({} : StreamTextChunk T) ++ chunk = chunk := rfl

end StreamTextChunk

variable (spec : InlineTagSpec T)

/-- What the parts of a text hand out. -/
def chunkOf (parts : List Piece) : StreamTextChunk (ExtractedInlineTag T) :=
  { visibleText := visibleOf parts
    extracted := (bodiesOf parts).map fun body => { tag := spec.tag, content := body } }

theorem chunkOf_visible (text : List Char) (parts : List Piece) :
    chunkOf spec (.visible text :: parts) = { visibleText := text } ++ chunkOf spec parts := rfl

theorem chunkOf_hidden (body : List Char) (closed : Bool) (parts : List Piece) :
    chunkOf spec (.hidden body closed :: parts) =
      { extracted := [{ tag := spec.tag, content := body }] } ++ chunkOf spec parts := rfl

/-! ### Parts -/

section Parts

variable {spec : InlineTagSpec T} {text body : List Char} {position : Nat}

/-- Outside a tag the text is visible up to the first opening. -/
theorem pieces_none (spec : InlineTagSpec T) (text : List Char) : pieces spec none text =
    match find spec.opening text with
    | none => [.visible text]
    | some position => .visible (text.take position) ::
        pieces spec (some []) (text.drop (position + spec.opening.length)) := by
  conv => lhs; rw [pieces]
  split <;> rename_i found <;> simp only [found]

/-- Inside a tag it is hidden up to the first closing. -/
theorem pieces_some (spec : InlineTagSpec T) (body text : List Char) : pieces spec (some body) text =
    match find spec.closing text with
    | none => [.hidden (body ++ text) false]
    | some position => .hidden (body ++ text.take position) true ::
        pieces spec none (text.drop (position + spec.closing.length)) := by
  conv => lhs; rw [pieces]
  split <;> rename_i found <;> simp only [found]

variable {front back : List Char}

/-- Text in which no tag begins is shown before the rest. -/
theorem chunkOf_pieces_none (moved : find spec.opening (front ++ back) =
      (find spec.opening back).map (· + front.length)) :
    chunkOf spec (pieces spec none (front ++ back)) =
      { visibleText := front } ++ chunkOf spec (pieces spec none back) := by
  cases found : find spec.opening back with
  | none =>
    rw [found] at moved
    rw [pieces_none, pieces_none, found, moved, map_none, chunkOf_visible, chunkOf_visible,
      ← append_assoc]
    rfl
  | some =>
    rw [found, map_some, Nat.add_comm] at moved
    rw [pieces_none, pieces_none, found, moved, chunkOf_visible, chunkOf_visible, ← append_assoc,
      take_length_add_append, Nat.add_assoc, drop_length_add_append]
    rfl

/-- Text in which no closing tag begins belongs to the body. -/
theorem pieces_some_append (moved : find spec.closing (front ++ back) =
      (find spec.closing back).map (· + front.length)) :
    pieces spec (some body) (front ++ back) = pieces spec (some (body ++ front)) back := by
  cases found : find spec.closing back with
  | none =>
    rw [found] at moved
    simp only [pieces_some, found, moved, List.append_assoc, map_none]
  | some =>
    rw [found, map_some, Nat.add_comm] at moved
    simp only [pieces_some, found, moved, take_length_add_append, Nat.add_assoc,
      drop_length_add_append, List.append_assoc]

/-- The parts of a text are the text; inside of a tag its opening tag and the body so far
come first. -/
theorem source_pieces (spec : InlineTagSpec T) (state : Option (List Char)) (text : List Char) :
    (pieces spec state text).flatMap (Piece.source spec) =
      (state.elim [] fun body => spec.opening ++ body) ++ text := by
  fun_induction pieces spec state text with
  | case1 | case3 => simp [Piece.source]
  | case2 _ _ found _ ih | case4 _ _ _ found _ ih =>
    rw [flatMap_cons, ih]
    simpa [Piece.source] using split_of_find found

end Parts

/-! ### The parser -/

/-- The parser has one tag, and its pending text ends in no match. -/
structure Waiting (spec : InlineTagSpec T) (parser : InlineHiddenTagParser T) : Prop where
  specs : parser.specs = [spec]
  opened : ∀ active, parser.active = some active →
    active.tag = spec.tag ∧ active.closing = spec.closing ∧ find spec.closing parser.pending = none
  closed : parser.active = none → find spec.opening parser.pending = none

theorem findNextOpen_single (spec : InlineTagSpec T) (pending : List Char) :
    findNextOpen pending [spec] = (find spec.opening pending).map fun position => (position, spec) := by
  rw [findNextOpen, findNextOpen]
  cases find spec.opening pending with
  | none | some => rfl

/-- The part of a text before the end that is held back, and that end. -/
theorem find_split {needle pending : List Char} (absent : find needle pending = none)
    (later : List Char) {shown held : List Char}
    (isShown : shown = pending.take (pending.length - longestSuffixPrefixLen pending needle))
    (isHeld : held = pending.drop (pending.length - longestSuffixPrefixLen pending needle)) :
    pending ++ later = shown ++ (held ++ later) ∧ find needle held = none ∧
      find needle (shown ++ (held ++ later)) =
        (find needle (held ++ later)).map (· + shown.length) := by
  have whole : pending ++ later = shown ++ (held ++ later) := by
    rw [isShown, isHeld, ← List.append_assoc, take_append_drop]
  have length : shown.length = pending.length - longestSuffixPrefixLen pending needle := by
    rw [isShown, length_take]
    omega
  refine ⟨whole, ?_, ?_⟩
  · rw [isHeld]
    exact find_drop_eq_none absent _
  · rw [← whole, find_held_back absent later, length, isHeld]

/-- The loop hands out a beginning of what the whole text hands out, however it goes on. -/
theorem drain_pieces (spec : InlineTagSpec T) (active : Option (ActiveTag T))
    (pending : List Char) (out : StreamTextChunk (ExtractedInlineTag T))
    (own : ∀ tag, active = some tag → tag.tag = spec.tag ∧ tag.closing = spec.closing) :
    Waiting spec (drain [spec] active pending out).1 ∧
      ∀ later, out ++ chunkOf spec (pieces spec (active.map ActiveTag.content) (pending ++ later)) =
        (drain [spec] active pending out).2 ++
          chunkOf spec (pieces spec ((drain [spec] active pending out).1.active.map
            ActiveTag.content) ((drain [spec] active pending out).1.pending ++ later)) := by
  fun_induction drain [spec] active pending out with
  | case1 _ out active _ found _ ih =>
    obtain ⟨_, _, _, _⟩ := active
    obtain ⟨rfl, rfl⟩ := own _ rfl
    have within := length_le_of_find found
    obtain ⟨waiting, same⟩ := ih nofun
    refine ⟨waiting, fun later => ?_⟩
    rw [← same later, map_some, pieces_some, find_append_of_some found later,
      chunkOf_hidden, take_append_of_le_length (by omega),
      drop_append_of_le_length within, ← append_assoc]
    exact congrArg (· ++ _) (congrArg (mk · _) (append_nil out.visibleText))
  | case2 _ _ active found =>
    obtain ⟨tag, _, _, _⟩ := active
    obtain ⟨rfl, rfl⟩ := own _ rfl
    refine ⟨⟨rfl, fun tag is => ?_, nofun⟩, fun later => ?_⟩
    · cases some.inj is
      exact ⟨rfl, rfl, (find_split found [] rfl rfl).2.1⟩
    · obtain ⟨whole, _, moved⟩ := find_split found later rfl rfl
      rw [whole, map_some, map_some, pieces_some_append moved]
  | case3 _ out _ _ isNext _ ih =>
    rw [findNextOpen_single] at isNext
    obtain ⟨_, found, same⟩ := map_eq_some_iff.mp isNext
    cases same
    have within := length_le_of_find found
    obtain ⟨waiting, same⟩ := ih fun tag is => by
      cases is
      exact ⟨rfl, rfl⟩
    refine ⟨waiting, fun later => ?_⟩
    rw [← same later, map_none, pieces_none, find_append_of_some found later,
      chunkOf_visible, take_append_of_le_length (by omega),
      drop_append_of_le_length within, ← append_assoc]
    exact congrArg (· ++ _) (congrArg (mk _) (append_nil out.extracted))
  | case4 _ out isNext =>
    rw [findNextOpen_single] at isNext
    have found := map_eq_none_iff.mp isNext
    refine ⟨⟨rfl, nofun, fun _ => (find_split found [] rfl rfl).2.1⟩, fun later => ?_⟩
    obtain ⟨whole, _, moved⟩ := find_split found later rfl rfl
    rw [whole, map_none, chunkOf_pieces_none moved, ← append_assoc]
    exact congrArg (· ++ _) (congrArg (mk _) (append_nil out.extracted))

variable {parser : InlineHiddenTagParser T} {spec : InlineTagSpec T}

theorem finish_pieces (waiting : Waiting spec parser) : parser.finish.2 =
    chunkOf spec (pieces spec (parser.active.map ActiveTag.content) parser.pending) := by
  rw [InlineHiddenTagParser.finish]
  cases is : parser.active with
  | none =>
    rw [map_none, pieces_none, waiting.closed is]
    exact congrArg (mk · _) (append_nil _).symm
  | some active =>
    obtain ⟨ownTag, _, absent⟩ := waiting.opened active is
    rw [map_some, pieces_some, absent, chunkOf_hidden, ← ownTag]
    rfl

/-- A push hands out a beginning of what the whole text hands out. -/
theorem pushStr_pieces (waiting : Waiting spec parser) (chunk : List Char) :
    Waiting spec (parser.pushStr chunk).1 ∧
      ∀ later, chunkOf spec (pieces spec (parser.active.map ActiveTag.content)
          (parser.pending ++ (chunk ++ later))) =
        (parser.pushStr chunk).2 ++ chunkOf spec
          (pieces spec ((parser.pushStr chunk).1.active.map ActiveTag.content)
            ((parser.pushStr chunk).1.pending ++ later)) := by
  have drained := drain_pieces spec parser.active (parser.pending ++ chunk) {}
    fun tag is => ⟨(waiting.opened tag is).1, (waiting.opened tag is).2.1⟩
  simpa only [InlineHiddenTagParser.pushStr, waiting.specs, empty_append,
    List.append_assoc] using drained

end WeaveCodex.StreamParser
