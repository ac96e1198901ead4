/-
Purpose: The parser that hides inline tags of streamed text and hands out their contents,
  and the whole-text meaning that it is compared with: the text cut at the leftmost
  opening tag, the body up to the leftmost closing tag, and so on.
Trusted boundary: translation of `utils/stream-parser/src/stream_text.rs` and
  `inline_hidden_tag.rs`; texts are lists of characters, where the source counts bytes
-/
import WeaveCodex.Library.SubstringSearch

namespace WeaveCodex.StreamParser

open Library.SubstringSearch

variable {T : Type*}

/-- What one push of a parser hands out. -/
structure StreamTextChunk (T : Type*) where
  visibleText : List Char := []
  extracted : List T := []
deriving DecidableEq, Repr

namespace StreamTextChunk

/-- One chunk after the other. -/
def append (first second : StreamTextChunk T) : StreamTextChunk T :=
  { visibleText := first.visibleText ++ second.visibleText
    extracted := first.extracted ++ second.extracted }

instance : Append (StreamTextChunk T) := ⟨append⟩

def isEmpty (chunk : StreamTextChunk T) : Bool :=
  chunk.visibleText.isEmpty && chunk.extracted.isEmpty

end StreamTextChunk

structure ExtractedInlineTag (T : Type*) where
  tag : T
  content : List Char
deriving DecidableEq, Repr

/-- A tag with its delimiters, which `new` requires not to be empty. -/
structure InlineTagSpec (T : Type*) where
  tag : T
  opening : List Char
  closing : List Char
  opening_ne : opening ≠ []
  closing_ne : closing ≠ []

structure ActiveTag (T : Type*) where
  tag : T
  closing : List Char
  content : List Char
  closing_ne : closing ≠ []

structure InlineHiddenTagParser (T : Type*) where
  specs : List (InlineTagSpec T)
  pending : List Char := []
  active : Option (ActiveTag T) := none

/-- The spec whose opening tag comes first; of two at one place the longer one, and of two
of one length the earlier spec. -/
def findNextOpen (pending : List Char) : List (InlineTagSpec T) → Option (Nat × InlineTagSpec T)
  | [] => none
  | spec :: specs =>
    match find spec.opening pending, findNextOpen pending specs with
    | none, later => later
    | some position, none => some (position, spec)
    | some position, some later =>
      if later.1 < position ∨
          later.1 = position ∧ spec.opening.length < later.2.opening.length then some later
      else some (position, spec)

/-- The longest end of the text that could begin an opening tag. -/
def maxOpenPrefixSuffixLen (pending : List Char) (specs : List (InlineTagSpec T)) : Nat :=
  ((specs.map fun spec => longestSuffixPrefixLen pending spec.opening).max?).getD 0

theorem find_of_findNextOpen {pending : List Char} {specs : List (InlineTagSpec T)}
    {position : Nat} {spec : InlineTagSpec T}
    (found : findNextOpen pending specs = some (position, spec)) :
    find spec.opening pending = some position := by
  induction specs with
  | nil => cases found
  | cons _ _ ih =>
    rw [findNextOpen] at found
    split at found
    · exact ih found
    · rename_i here _
      cases Option.some.inj found
      exact here
    · rename_i here later
      split at found
      · rw [Option.some.inj found] at later
        exact ih later
      · cases Option.some.inj found
        exact here

/-- What is left behind a match is shorter. -/
theorem length_drop_lt {needle pending : List Char} {position : Nat} (nonempty : needle ≠ [])
    (found : find needle pending = some position) :
    (pending.drop (position + needle.length)).length < pending.length := by
  have within := length_le_of_find found
  have positive := List.length_pos_iff.mpr nonempty
  rw [List.length_drop]
  omega

/-- The loop of `push_str`, on the open tag, the pending text and the chunk to hand out. -/
def drain (specs : List (InlineTagSpec T)) (active : Option (ActiveTag T)) (pending : List Char)
    (out : StreamTextChunk (ExtractedInlineTag T)) :
    InlineHiddenTagParser T × StreamTextChunk (ExtractedInlineTag T) :=
  match active with
  | some active =>
    match found : find active.closing pending with
    | some closeIdx =>
      have := length_drop_lt active.closing_ne found
      drain specs none (pending.drop (closeIdx + active.closing.length))
        { out with
          extracted := out.extracted ++
            [{ tag := active.tag, content := active.content ++ pending.take closeIdx }] }
    | none =>
      let take := pending.length - longestSuffixPrefixLen pending active.closing
      ({ specs
         pending := pending.drop take
         active := some { active with content := active.content ++ pending.take take } }, out)
  | none =>
    match found : findNextOpen pending specs with
    | some (openIdx, spec) =>
      have := length_drop_lt spec.opening_ne (find_of_findNextOpen found)
      drain specs (some
          { tag := spec.tag
            closing := spec.closing
            content := []
            closing_ne := spec.closing_ne })
        (pending.drop (openIdx + spec.opening.length))
        { out with visibleText := out.visibleText ++ pending.take openIdx }
    | none =>
      let take := pending.length - maxOpenPrefixSuffixLen pending specs
      ({ specs, pending := pending.drop take, active := none },
        { out with visibleText := out.visibleText ++ pending.take take })
termination_by pending.length
decreasing_by all_goals assumption

namespace InlineHiddenTagParser

def pushStr (parser : InlineHiddenTagParser T) (chunk : List Char) :
    InlineHiddenTagParser T × StreamTextChunk (ExtractedInlineTag T) :=
  drain parser.specs parser.active (parser.pending ++ chunk) {}

def finish (parser : InlineHiddenTagParser T) :
    InlineHiddenTagParser T × StreamTextChunk (ExtractedInlineTag T) :=
  match parser.active with
  | some active =>
    ({ parser with pending := [], active := none },
      { extracted := [{ tag := active.tag, content := active.content ++ parser.pending }] })
  | none => ({ parser with pending := [] }, { visibleText := parser.pending })

end InlineHiddenTagParser

/-! ### The whole text -/

/-- A part of a text: shown, or the body of a tag, which may miss its closing tag. -/
inductive Piece where
  | visible (text : List Char)
  | hidden (body : List Char) (closed : Bool)
deriving DecidableEq, Repr

/-- The characters that a part stands for. -/
def Piece.source (spec : InlineTagSpec T) : Piece → List Char
  | .visible text => text
  | .hidden body closed => spec.opening ++ body ++ if closed then spec.closing else []

/-- The parts of a text: up to the leftmost opening tag, from there up to the leftmost
closing tag, and so on, without nesting. Inside of a tag the body so far is given. -/
def pieces (spec : InlineTagSpec T) : Option (List Char) → List Char → List Piece
  | none, text =>
    match found : find spec.opening text with
    | none => [.visible text]
    | some position =>
      have := length_drop_lt spec.opening_ne found
      .visible (text.take position) ::
        pieces spec (some []) (text.drop (position + spec.opening.length))
  | some body, text =>
    match found : find spec.closing text with
    | none => [.hidden (body ++ text) false]
    | some position =>
      have := length_drop_lt spec.closing_ne found
      .hidden (body ++ text.take position) true ::
        pieces spec none (text.drop (position + spec.closing.length))
termination_by _ text => text.length
decreasing_by all_goals assumption

/-- What is shown of the parts. -/
def visibleOf (parts : List Piece) : List Char :=
  parts.flatMap fun
    | .visible text => text
    | .hidden .. => []

/-- The bodies of the tags, in order. -/
def bodiesOf (parts : List Piece) : List (List Char) :=
  parts.filterMap fun
    | .visible _ => none
    | .hidden body _ => some body

end WeaveCodex.StreamParser
