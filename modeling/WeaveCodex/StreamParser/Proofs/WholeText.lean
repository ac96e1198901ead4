/-
Purpose: However assistant text is cut into chunks, the parser hands out what the whole
  text means.
-/
import WeaveCodex.StreamParser.AssistantText
import WeaveCodex.StreamParser.Proofs.HiddenTags
import WeaveCodex.StreamParser.Proofs.TaggedBlocks

namespace WeaveCodex.StreamParser

open ProposedPlanSegment (ofTagged toTagged)
open ExtractedInlineTag List

theorem toTagged_ofTagged (segment : TaggedLineSegment PlanTag) :
    toTagged (ofTagged segment) = segment := by
  cases segment with
  | _ => rfl

theorem map_toTagged_mapSegments (segments : List (TaggedLineSegment PlanTag)) :
    (mapSegments segments).extracted.map toTagged = segments := by
  rw [mapSegments, map_map]
  exact (map_congr_left fun segment _ => toTagged_ofTagged segment).trans (map_id _)

/-- The text that is shown depends on the characters alone. -/
theorem visibleText_atomsOf (segments : List ProposedPlanSegment) :
    (atomsOf (segments.map toTagged)).flatMap (fun segment => (ofTagged segment).visibleText) =
      segments.flatMap ProposedPlanSegment.visibleText := by
  induction segments with
  | nil => rfl
  | cons segment _ ih =>
    rw [map_cons, atomsOf_cons, flatMap_append, ih, flatMap_cons]
    congr 1
    cases segment with
    | normal | proposedPlanDelta => simp [toTagged, TaggedLineSegment.atoms, ofTagged, flatMap_map,
        ProposedPlanSegment.visibleText]
    | _ => rfl

theorem map_toTagged_planLines (lines : List (List Char)) :
    (planLines false lines).map toTagged = lineSegments [planSpec] none lines ∧
      (planLines true lines).map toTagged = lineSegments [planSpec] (some .proposedPlan) lines := by
  induction lines with
  | nil => exact ⟨rfl, rfl⟩
  | cons line _ ih =>
    constructor
    · by_cases opens : trimEnd (trimStart line) = openTag
      · simp [planLines, lineSegments, lineMarker, matchOpen, planSpec, opens, toTagged, ih.2]
      · simp [planLines, lineSegments, lineMarker, matchOpen, planSpec, opens, Ne.symm opens,
          toTagged, textSegment, ih.1]
    · by_cases closes : trimEnd (trimStart line) = closeTag
      · simp [planLines, lineSegments, lineMarker, matchClose, planSpec, closes, toTagged, ih.1]
      · simp [planLines, lineSegments, lineMarker, matchClose, planSpec, closes,
          Ne.symm closes, toTagged, textSegment, ih.2]

/-! ### Runs -/

section Runs

open AssistantTextStreamParser

variable (parser : AssistantTextStreamParser)

/-- What the citations of a text leave and hand out, from the state of their parser on. -/
def citationsFrom (text : List Char) : StreamTextChunk (ExtractedInlineTag CitationTag) :=
  chunkOf citationSpec (pieces citationSpec
    (parser.citations.inner.active.map ActiveTag.content) (parser.citations.inner.pending ++ text))

theorem finish_text (mode : parser.planMode = false) : parser.finish.2 =
    { visibleText := parser.citations.inner.finish.2.visibleText
      citations := parser.citations.inner.finish.2.extracted.map content } := by
  simp [finish, parseVisibleText, mode, CitationStreamParser.finish, CitationStreamParser.contents]

theorem finish_plan (mode : parser.planMode = true) : parser.finish.2 =
    let parsed := parser.plan.parser.parse parser.citations.inner.finish.2.visibleText
    let chunk := mapSegments (parsed.2 ++ parsed.1.finish.2)
    { visibleText := chunk.visibleText
      citations := parser.citations.inner.finish.2.extracted.map content
      planSegments := chunk.extracted } := by
  simp only [finish, parseVisibleText, mode, CitationStreamParser.finish,
    CitationStreamParser.contents, ProposedPlanParser.pushStr, ProposedPlanParser.finish,
    mapSegments, Bool.not_true, Bool.false_eq_true, if_false, if_true]
  split
  · simp_all [StreamTextChunk.isEmpty]
  · simp

theorem pushStr_text (mode : parser.planMode = false) (chunk : List Char) : parser.pushStr chunk =
    let pushed := parser.citations.inner.pushStr chunk
    ({ parser with citations := { inner := pushed.1 } },
      { visibleText := pushed.2.visibleText
        citations := pushed.2.extracted.map content }) := by
  simp [pushStr, parseVisibleText, mode, CitationStreamParser.pushStr, CitationStreamParser.contents]

theorem pushStr_plan (mode : parser.planMode = true) (chunk : List Char) : parser.pushStr chunk =
    let pushed := parser.citations.inner.pushStr chunk
    let parsed := parser.plan.parser.parse pushed.2.visibleText
    ({ parser with citations := { inner := pushed.1 }, plan := { parser := parsed.1 } },
      { visibleText := (mapSegments parsed.2).visibleText
        citations := pushed.2.extracted.map content
        planSegments := (mapSegments parsed.2).extracted }) := by
  simp [pushStr, parseVisibleText, mode, CitationStreamParser.pushStr,
    CitationStreamParser.contents, ProposedPlanParser.pushStr]

/-- Outside of plan mode the text without its citations is shown. -/
theorem run_text (mode : parser.planMode = false)
    (waiting : Waiting citationSpec parser.citations.inner) (chunks : List (List Char)) :
    parser.run chunks =
      { visibleText := (citationsFrom parser chunks.flatten).visibleText
        citations := (citationsFrom parser chunks.flatten).extracted.map
          content } := by
  induction chunks generalizing parser with
  | nil =>
    rw [run, finish_text parser mode, finish_pieces waiting, citationsFrom, flatten_nil, append_nil]
  | cons chunk _ ih =>
    obtain ⟨waitingAfter, same⟩ := pushStr_pieces waiting chunk
    rw [run, pushStr_text parser mode chunk]
    rw [ih { parser with citations := { inner := (parser.citations.inner.pushStr chunk).1 } }
      mode waitingAfter, citationsFrom, citationsFrom, flatten_cons, same]
    exact congrArg (AssistantTextChunk.mk _ · _) map_append.symm

/-- In plan mode the text without its citations goes through the parser of plans. -/
theorem run_plan (mode : parser.planMode = true) (waiting : Waiting citationSpec parser.citations.inner)
    (buffered : Buffered parser.plan.parser) (chunks : List (List Char)) :
    (parser.run chunks).citations = (citationsFrom parser chunks.flatten).extracted.map content ∧
      (parser.run chunks).visibleText =
        (parser.run chunks).planSegments.flatMap ProposedPlanSegment.visibleText ∧
      atomsOf ((parser.run chunks).planSegments.map toTagged) =
        remaining parser.plan.parser (citationsFrom parser chunks.flatten).visibleText := by
  induction chunks generalizing parser with
  | nil =>
    rw [run, finish_plan parser mode, finish_pieces waiting, citationsFrom, flatten_nil, append_nil]
    refine ⟨rfl, rfl, ?_⟩
    generalize (chunkOf citationSpec _).visibleText = text
    obtain ⟨bufferedAfter, _, same⟩ := parse_atoms buffered text []
    rw [append_nil] at same
    rw [map_toTagged_mapSegments, atomsOf_append, same, finish_atoms bufferedAfter]
  | cons chunk chunks ih =>
    obtain ⟨waitingAfter, same⟩ := pushStr_pieces waiting chunk
    have pushed := pushStr_plan parser mode chunk
    have after (later : List Char) :=
      parse_atoms buffered (parser.citations.inner.pushStr chunk).2.visibleText later
    obtain ⟨citations, visible, atoms⟩ := ih (parser.pushStr chunk).1
      (by rw [pushed]; exact mode) (by rw [pushed]; exact waitingAfter)
      (by rw [pushed]; exact (after []).1)
    have whole : citationsFrom parser (chunk :: chunks).flatten =
        (parser.citations.inner.pushStr chunk).2 ++
          citationsFrom (parser.pushStr chunk).1 chunks.flatten := by
      rw [pushed, citationsFrom, flatten_cons, same]
      rfl
    rw [whole, run]
    rw [citations, visible, map_append, atomsOf_append, atoms]
    generalize (citationsFrom (parser.pushStr chunk).1 chunks.flatten) = later
    rw [pushed]
    rw [map_toTagged_mapSegments, ← (after later.visibleText).2.2, flatMap_append]
    exact ⟨map_append.symm, rfl, rfl⟩

end Runs

theorem map_content (bodies : List (List Char)) :
    (bodies.map fun body => ({ tag := .citation, content := body } :
      ExtractedInlineTag CitationTag)).map ExtractedInlineTag.content = bodies := by
  rw [map_map]
  exact map_id bodies

/-- All pushes of a new parser and its finish show the text, hand out the citations and,
with adjacent texts joined, the plan segments that the whole text means, however it is cut
into chunks. The parts that this meaning is made of are the text, and its lines are what
the citations leave. -/
theorem assistantText_whole (planMode : Bool) (chunks : List (List Char)) :
    let out := ({ planMode } : AssistantTextStreamParser).run chunks
    let whole := reference planMode chunks.flatten
    out.visibleText = whole.visibleText ∧ out.citations = whole.citations ∧
      mergePlanSegments out.planSegments = mergePlanSegments whole.planSegments ∧
      whole.parts.flatMap (Piece.source citationSpec) = chunks.flatten ∧
      whole.lines.flatten = visibleOf whole.parts := by
  have waiting : Waiting citationSpec ({ planMode } : AssistantTextStreamParser).citations.inner :=
    ⟨rfl, nofun, fun _ => rfl⟩
  have parts := source_pieces citationSpec none chunks.flatten
  have lines := flatten_splitLines (visibleOf (pieces citationSpec none chunks.flatten))
  cases planMode with
  | false =>
    rw [run_text _ rfl waiting chunks]
    exact ⟨rfl, map_content _, rfl, parts, lines⟩
  | true =>
    obtain ⟨citations, visible, atoms⟩ := run_plan _ rfl waiting ⟨not_mem_nil, fun _ => rfl⟩ chunks
    have same : atomsOf ((AssistantTextStreamParser.run { planMode := true }
          chunks).planSegments.map toTagged) =
        atomsOf ((reference true chunks.flatten).planSegments.map toTagged) := by
      rw [atoms]
      exact congrArg atomsOf (map_toTagged_planLines _).1.symm
    refine ⟨?_, citations.trans (map_content _), ?_, parts, lines⟩
    · rw [visible, ← visibleText_atomsOf, same, visibleText_atomsOf]
      rfl
    · rw [mergePlanSegments, mergeSegments_eq, same, ← mergeSegments_eq, mergePlanSegments]

end WeaveCodex.StreamParser
