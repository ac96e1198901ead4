/-
Purpose: The parser of streamed assistant text: citations are hidden, and in plan mode the
  lines of proposed plans are taken out of what is left. Beside it stands what a whole
  text means.
Trusted boundary: translation of `utils/stream-parser/src/citation.rs`, `proposed_plan.rs` and
  `assistant_text.rs`
-/
import WeaveCodex.StreamParser.InlineHiddenTag
import WeaveCodex.StreamParser.TaggedLines

namespace WeaveCodex.StreamParser

/-! ### Citations -/

inductive CitationTag where
  | citation
deriving DecidableEq, Repr

def citationSpec : InlineTagSpec CitationTag where
  tag := .citation
  opening := "<oai-mem-citation>".toList
  closing := "</oai-mem-citation>".toList
  opening_ne := by decide
  closing_ne := by decide

structure CitationStreamParser where
  inner : InlineHiddenTagParser CitationTag := { specs := [citationSpec] }

namespace CitationStreamParser

/-- A chunk with the contents of the tags alone. -/
def contents (chunk : StreamTextChunk (ExtractedInlineTag CitationTag)) : StreamTextChunk (List Char) :=
  { visibleText := chunk.visibleText
    extracted := chunk.extracted.map ExtractedInlineTag.content }

def pushStr (parser : CitationStreamParser) (chunk : List Char) :
    CitationStreamParser × StreamTextChunk (List Char) :=
  let pushed := parser.inner.pushStr chunk
  ({ inner := pushed.1 }, contents pushed.2)

def finish (parser : CitationStreamParser) : CitationStreamParser × StreamTextChunk (List Char) :=
  let finished := parser.inner.finish
  ({ inner := finished.1 }, contents finished.2)

end CitationStreamParser

/-! ### Proposed plans -/

inductive PlanTag where
  | proposedPlan
deriving DecidableEq, Repr

def openTag : List Char := "<proposed_plan>".toList

def closeTag : List Char := "</proposed_plan>".toList

def planSpec : TagSpec PlanTag := { opening := openTag, closing := closeTag, tag := .proposedPlan }

inductive ProposedPlanSegment where
  | normal (text : List Char)
  | proposedPlanStart
  | proposedPlanDelta (text : List Char)
  | proposedPlanEnd
deriving DecidableEq, Repr

def ProposedPlanSegment.ofTagged : TaggedLineSegment PlanTag → ProposedPlanSegment
  | .normal text => .normal text
  | .tagStart .proposedPlan => .proposedPlanStart
  | .tagDelta .proposedPlan text => .proposedPlanDelta text
  | .tagEnd .proposedPlan => .proposedPlanEnd

/-- The segment that is mapped to this one. -/
def ProposedPlanSegment.toTagged : ProposedPlanSegment → TaggedLineSegment PlanTag
  | .normal text => .normal text
  | .proposedPlanStart => .tagStart .proposedPlan
  | .proposedPlanDelta text => .tagDelta .proposedPlan text
  | .proposedPlanEnd => .tagEnd .proposedPlan

def ProposedPlanSegment.visibleText : ProposedPlanSegment → List Char
  | .normal text => text
  | _ => []

def mapSegments (segments : List (TaggedLineSegment PlanTag)) : StreamTextChunk ProposedPlanSegment :=
  let extracted := segments.map ProposedPlanSegment.ofTagged
  { visibleText := extracted.flatMap ProposedPlanSegment.visibleText, extracted }

structure ProposedPlanParser where
  parser : TaggedLineParser PlanTag := { specs := [planSpec] }

namespace ProposedPlanParser

def pushStr (plan : ProposedPlanParser) (chunk : List Char) :
    ProposedPlanParser × StreamTextChunk ProposedPlanSegment :=
  let parsed := plan.parser.parse chunk
  ({ parser := parsed.1 }, mapSegments parsed.2)

def finish (plan : ProposedPlanParser) : ProposedPlanParser × StreamTextChunk ProposedPlanSegment :=
  let finished := plan.parser.finish
  ({ parser := finished.1 }, mapSegments finished.2)

end ProposedPlanParser

/-! ### Assistant text -/

structure AssistantTextChunk where
  visibleText : List Char := []
  citations : List (List Char) := []
  planSegments : List ProposedPlanSegment := []
deriving DecidableEq, Repr

structure AssistantTextStreamParser where
  planMode : Bool
  citations : CitationStreamParser := {}
  plan : ProposedPlanParser := {}

namespace AssistantTextStreamParser

def parseVisibleText (parser : AssistantTextStreamParser) (visibleText : List Char) :
    AssistantTextStreamParser × AssistantTextChunk :=
  if !parser.planMode then (parser, { visibleText })
  else
    let planChunk := parser.plan.pushStr visibleText
    ({ parser with plan := planChunk.1 },
      { visibleText := planChunk.2.visibleText, planSegments := planChunk.2.extracted })

def pushStr (parser : AssistantTextStreamParser) (chunk : List Char) :
    AssistantTextStreamParser × AssistantTextChunk :=
  let citationChunk := parser.citations.pushStr chunk
  let out := { parser with citations := citationChunk.1 }.parseVisibleText citationChunk.2.visibleText
  (out.1, { out.2 with citations := citationChunk.2.extracted })

def finish (parser : AssistantTextStreamParser) : AssistantTextStreamParser × AssistantTextChunk :=
  let citationChunk := parser.citations.finish
  let out := { parser with citations := citationChunk.1 }.parseVisibleText citationChunk.2.visibleText
  let out :=
    if out.1.planMode then
      let tail := out.1.plan.finish
      ({ out.1 with plan := tail.1 }, if tail.2.isEmpty then out.2
        else
          { out.2 with
            visibleText := out.2.visibleText ++ tail.2.visibleText
            planSegments := out.2.planSegments ++ tail.2.extracted })
    else out
  (out.1, { out.2 with citations := citationChunk.2.extracted })

/-- All pushes and the finish, with what they hand out put together. -/
def run (parser : AssistantTextStreamParser) : List (List Char) → AssistantTextChunk
  | [] => parser.finish.2
  | chunk :: chunks =>
    let pushed := parser.pushStr chunk
    let rest := run pushed.1 chunks
    { visibleText := pushed.2.visibleText ++ rest.visibleText
      citations := pushed.2.citations ++ rest.citations
      planSegments := pushed.2.planSegments ++ rest.planSegments }

end AssistantTextStreamParser

/-! ### The whole text -/

/-- The segments of the lines of a text: an opening tag alone on a line starts a plan, a
closing tag alone on a line of a plan ends it, and so does the end of the text. -/
def planLines : Bool → List (List Char) → List ProposedPlanSegment
  | false, [] => []
  | true, [] => [.proposedPlanEnd]
  | false, line :: lines =>
    if trimEnd (trimStart line) = openTag then .proposedPlanStart :: planLines true lines
    else .normal line :: planLines false lines
  | true, line :: lines =>
    if trimEnd (trimStart line) = closeTag then .proposedPlanEnd :: planLines false lines
    else .proposedPlanDelta line :: planLines true lines

/-- Segments with adjacent texts joined. -/
def mergePlanSegments (segments : List ProposedPlanSegment) : List ProposedPlanSegment :=
  (mergeSegments (segments.map ProposedPlanSegment.toTagged)).map ProposedPlanSegment.ofTagged

/-- What a whole text means: its parts around the citations, the lines of what these leave,
and the segments of these lines. -/
structure Reference where
  parts : List Piece
  lines : List (List Char)
  visibleText : List Char
  citations : List (List Char)
  planSegments : List ProposedPlanSegment

def reference (planMode : Bool) (text : List Char) : Reference :=
  let parts := pieces citationSpec none text
  let lines := splitLines (visibleOf parts)
  let planSegments := if planMode then planLines false lines else []
  { parts
    lines
    visibleText :=
      if planMode then planSegments.flatMap ProposedPlanSegment.visibleText else visibleOf parts
    citations := bodiesOf parts
    planSegments }

end WeaveCodex.StreamParser
