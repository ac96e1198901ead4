/-
Purpose: The settings and the context that a rollout without compactions gives back are
  those of the newest turn that rollbacks leave, counted in turns. They describe the newest
  turn with a message in the history exactly if no rollback leaves a part of a turn.
-/
import Mathlib.Data.List.Nodup
import WeaveCodex.Rollout.SettledTurns

namespace WeaveCodex.Rollout

open SettledTurn ReverseScan List HistoryTools Nat
open Option hiding map_map any_eq_true

universe u

variable {Json : Type u} {tools : HistoryTools Json}

/-! ### The history -/

variable {item : RolloutItem Json}

theorem rolledBack_of_addsOnly (adds : addsOnly item = true) : rolledBack item = 0 := by
  cases item with
  | eventMsg event =>
    cases event with
    | threadRolledBack => cases adds
    | _ => rfl
  | _ => rfl

/-- One item of the replay, and the starts of turns that are kept. -/
theorem boundaries_replayItem_kept (replay : Replay Json)
    (kept : List (Option (SettledTurn Json) × ResponseItemEnvelope Json))
    (are : boundaries tools replay.history.items = kept.map Prod.snd)
    {item : Option (SettledTurn Json) × RolloutItem Json} (plain : isCompacted item.2 = false) :
    boundaries tools (replay.replayItem tools item.2).history.items =
      (keepStarts tools kept item).map Prod.snd := by
  by_cases adds : addsOnly item.2 = true
  · rw [items_replayItem replay adds, boundaries_append, are,
      keepStarts, rolledBack_of_addsOnly adds, Nat.sub_zero, take_length, map_append,
      map_map]
    congr 1
    exact (map_id _).symm
  · obtain ⟨_, item⟩ := item
    cases item with
    | compacted => cases plain
    | eventMsg event =>
      cases event with
      | threadRolledBack =>
        rw [Replay.replayItem]
        rw [boundaries_dropLastNUserTurns, are, length_map, ← map_take]
        exact congrArg (map Prod.snd) (append_nil _).symm
      | _ => contradiction
    | _ => contradiction

/-- The starts of turns in the history are those that are kept. -/
theorem boundaries_kept (tools : HistoryTools Json)
    (items : List (Option (SettledTurn Json) × RolloutItem Json))
    (replay : Replay Json)
    (kept : List (Option (SettledTurn Json) × ResponseItemEnvelope Json))
    (are : boundaries tools replay.history.items = kept.map Prod.snd)
    (plain : ∀ item ∈ items, isCompacted item.2 = false) :
    boundaries tools (replay.replayItems tools (items.map Prod.snd)).history.items =
      (items.foldl (keepStarts tools) kept).map Prod.snd := by
  induction items generalizing replay kept with
  | nil => exact are
  | cons _ _ ih =>
    obtain ⟨here, rest⟩ := forall_mem_cons.mp plain
    exact ih _ _ (boundaries_replayItem_kept replay kept are here) rest

/-! ### Going back through the starts of turns -/

/-- Going back over items, newest first, the turn of the first start that the rollbacks
leave. -/
def newestStartAfter (tools : HistoryTools Json) :
    Nat → List (Option (SettledTurn Json) × RolloutItem Json) → Option (Option (SettledTurn Json))
  | _, [] => none
  | pending, item :: older =>
    if pending < (startsOf tools item.2).length then some item.1
    else
      newestStartAfter tools (pending - (startsOf tools item.2).length + rolledBack item.2) older

/-- Dropping the last starts that are kept leads to the same turn as going back. -/
theorem getLast_kept (tools : HistoryTools Json)
    (older : List (Option (SettledTurn Json) × RolloutItem Json)) (pending : Nat) :
    (((older.reverse.foldl (keepStarts tools) []).take
        ((older.reverse.foldl (keepStarts tools) []).length - pending)).getLast?).map Prod.fst =
      newestStartAfter tools pending older := by
  induction older generalizing pending with
  | nil => simp [newestStartAfter]
  | cons item older ih =>
    rw [reverse_cons, foldl_append, foldl_cons, foldl_nil, newestStartAfter]
    generalize older.reverse.foldl (keepStarts tools) [] = kept at ih ⊢
    rw [keepStarts, length_append, length_map, length_take]
    split
    · rw [← getLast?_map, map_take, map_append, take_append, map_map]
      have labels : (startsOf tools item.2).map (Prod.fst ∘ fun start => (item.1, start)) =
          replicate (startsOf tools item.2).length item.1 := map_const'
      rw [labels, take_replicate, getLast?_append, getLast?_replicate, if_neg, some_or]
      rw [length_map, length_take]
      omega
    · rw [← ih, take_append_of_le_length, take_take]
      · congr 3
        omega
      · rw [length_take]
        omega

/-! ### The reverse scan -/

section Scan

variable {whole : List (RolloutItem Json)}

/-- Going back over entries, newest first, the first turn with a message that the rollbacks
leave, if each of them drops as many turns with messages as it counts. -/
def newestTurnAfter (tools : HistoryTools Json) : Nat → List (Entry Json) → Option (SettledTurn Json)
  | _, [] => none
  | pending, .outside item :: older => newestTurnAfter tools (pending + rolledBack item) older
  | pending, .turn turn :: older =>
    let pending := pending + (turn.items.map rolledBack).sum
    if (turn.messages tools).isEmpty then newestTurnAfter tools pending older
    else if pending = 0 then some turn
    else newestTurnAfter tools (pending - 1) older

/-- The number of turns that the scan still drops is the right one, or both are so large
that none of the turns left can end the scan. -/
def Tracks (pending exact left : Nat) : Prop :=
  pending = exact ∨ left ≤ pending ∧ left ≤ exact

variable {pending exact left : Nat}

theorem Tracks.add (tracks : Tracks pending exact left) (fits : left ≤ u64Max) (count : Nat) :
    Tracks (saturatingAdd pending count) (exact + count) left := by
  unfold Tracks saturatingAdd at *
  omega

section

variable (tracks : Tracks pending exact (left + 1))
include tracks

theorem Tracks.drop : Tracks (pending - 1) (exact - 1) left := by
  unfold Tracks at *
  omega

theorem Tracks.older : Tracks pending exact left := by
  unfold Tracks at *
  omega

theorem Tracks.pos_iff : 0 < pending ↔ exact ≠ 0 := by
  unfold Tracks at *
  omega

end

/-- The item makes its segment count as a turn of the user. -/
def countsItem (tools : HistoryTools Json) : RolloutItem Json → Bool
  | .eventMsg .userMessage => true
  | .responseItem envelope => isUserTurnBoundary tools envelope.item
  | .interAgentCommunication _ => true
  | _ => false

variable {turn : SettledTurn Json} {counts : Bool} {context found : Option TurnContextItem}
  {start scan next : ReverseScan Json} {states : List (RolloutItem Json)}

/-- The scan inside a turn that began at `start`: what its segment holds, with the context
once it is reached. -/
def inside (turn : SettledTurn Json) (counts : Bool) (context : Option TurnContextItem)
    (states : List (RolloutItem Json)) (start : ReverseScan Json) (pending : Nat) : ReverseScan Json :=
  { start with
    pendingRollbackTurns := pending
    activeSegment := some
      { turnId := some turn.turnId
        countsAsUserTurn := counts
        previousTurnSettings := context.map TurnContextItem.settings
        referenceContextItem := context.elim .neverSet .latest
        worldStateReplay := states } }

/-- One item of a turn beside its context. -/
theorem inside_scanItem (tools : HistoryTools Json) (tracks : Tracks pending exact left)
    (fits : left ≤ u64Max) (newer : List (RolloutItem Json)) (stands : standsInTurn item = true) :
    ∃ states' pending', (inside turn counts context states start pending).scanItem tools newer item =
        inside turn (counts || countsItem tools item) context states' start pending' ∧
      Tracks pending' (exact + rolledBack item) left := by
  cases item with
  | compacted | turnContext => cases stands
  | worldState worldState =>
    refine ⟨states ++ [.worldState worldState], pending, ?_, tracks⟩
    cases counts <;> rfl
  | eventMsg event =>
    cases event with
    | threadRolledBack numTurns =>
      refine ⟨states, saturatingAdd pending numTurns.toNat, ?_, tracks.add fits _⟩
      cases counts <;> rfl
    | userMessage | other =>
      refine ⟨states, pending, ?_, tracks⟩
      cases counts <;> rfl
    | _ => cases stands
  | _ =>
    refine ⟨states, pending, ?_, tracks⟩
    cases counts <;> rfl

/-- The context of the turn itself. -/
theorem inside_scanContext (tools : HistoryTools Json) (own : turn.context.turnId = some turn.turnId)
    (newer : List (RolloutItem Json)) :
    (inside turn counts none states start pending).scanItem tools newer (.turnContext turn.context) =
      inside turn counts (some turn.context) states start pending := by
  simp [ReverseScan.scanItem, ReverseScan.updateSegment, ActiveReplaySegment.seeTurnContext,
    ActiveReplaySegment.setTurnId, inside, own, turnIdsAreCompatible, TurnContextItem.settings]

/-- Without a base the scan does not end early. -/
theorem scanBack_cons {newer older : List (RolloutItem Json)}
    (step : scan.scanItem tools newer item = next) (unbased : next.baseReplacementHistory = none) :
    scan.scanBack tools newer (item :: older) = next.scanBack tools (item :: newer) older := by
  rw [scanBack, step]
  apply if_neg
  rw [isComplete, unbased]
  exact Bool.false_ne_true

theorem inside_scanBack {first : RolloutItem Json} {newer items : List (RolloutItem Json)}
    (began : scan.scanItem tools newer first = inside turn counts context states start pending)
    (unbased : start.baseReplacementHistory = none) (tracks : Tracks pending exact left)
    (fits : left ≤ u64Max) (stand : ∀ item ∈ items, standsInTurn item = true)
    (older : List (RolloutItem Json)) :
    ∃ newer' states' pending', scan.scanBack tools newer (first :: (items ++ older)) =
        (inside turn (counts || items.any (countsItem tools)) context states' start
          pending').scanBack tools newer' older ∧
      Tracks pending' (exact + (items.map rolledBack).sum) left := by
  rw [scanBack_cons began unbased]
  induction items generalizing scan first counts states pending exact newer with
  | nil =>
    rw [any_nil, Bool.or_false]
    exact ⟨first :: newer, states, pending, rfl, tracks⟩
  | cons item _ ih =>
    obtain ⟨here, rest⟩ := forall_mem_cons.mp stand
    obtain ⟨_, _, step, tracksAfter⟩ := inside_scanItem tools tracks fits (first :: newer) here
    rw [cons_append, scanBack_cons step unbased, any_cons, ← Bool.or_assoc, map_cons, sum_cons,
      ← add_assoc]
    exact ih step tracksAfter rest

/-- The scan between turns, with the context of the newest turn it found. -/
def between (whole : List (RolloutItem Json)) (found : Option TurnContextItem)
    (states : List (RolloutItem Json)) (pending : Nat) : ReverseScan Json :=
  { rolloutSuffix := whole
    previousTurnSettings := found.map TurnContextItem.settings
    referenceContextItem := found.elim .neverSet .latest
    worldStateReplay := states
    pendingRollbackTurns := pending }

variable {earlier : List (RolloutItem Json)} {before : Nat}

/-- The start of a turn, where its segment is closed. -/
theorem scanStarted (tools : HistoryTools Json) (tracks : Tracks pending exact (left + 1))
    (newer : List (RolloutItem Json)) :
    ∃ states' pending', (inside turn counts (some turn.context) states
        (between whole found earlier before) pending).scanItem tools newer
          (.eventMsg (.turnStarted turn.turnId)) =
        between whole (found.or (if counts = true ∧ exact = 0 then some turn.context else none))
          states' pending' ∧
      Tracks pending' (if counts = true then exact - 1 else exact) left := by
  by_cases dropped : exact = 0
  · -- No rollback is left: the segment is read.
    have kept := tracks.pos_iff
    obtain rfl : pending = 0 := by omega
    refine ⟨earlier ++ states, 0, ?_, .inl (by simp [dropped])⟩
    cases found <;> cases counts <;>
      simp [ReverseScan.scanItem, turnIdsAreCompatible, ReverseScan.finalize,
        finalizeActiveSegment, inside, between, dropped]
  · have rolled : 0 < pending := tracks.pos_iff.mpr dropped
    cases counts with
    | true =>
      refine ⟨earlier, pending - 1, ?_, tracks.drop⟩
      simp [ReverseScan.scanItem, turnIdsAreCompatible, ReverseScan.finalize,
        finalizeActiveSegment, inside, between, dropped, rolled]
    | false =>
      refine ⟨earlier, pending, ?_, tracks.older⟩
      simp [ReverseScan.scanItem, turnIdsAreCompatible, ReverseScan.finalize,
        finalizeActiveSegment, inside, between, rolled]

/-! ### Turns with messages -/

theorem startsOf_responseItem (envelope : ResponseItemEnvelope Json) :
    startsOf tools (.responseItem envelope) ≠ [] ↔ isUserTurnBoundary tools envelope.item = true := by
  rcases envelope with ⟨item, _⟩
  rw [startsOf, recordedItems]
  cases item with
  | message _ role =>
    by_cases system : role = "system"
    · simp [isApiMessage, system, boundaries, isUserTurnBoundary]
    · simp [isApiMessage, system, boundaries, processItem]
  | plain kind =>
    cases kind with
    | compactionTrigger | other => simp [isApiMessage, boundaries, isUserTurnBoundary]
    | _ => simp [isApiMessage, boundaries, processItem, isUserTurnBoundary]
  | _ => simp [isApiMessage, boundaries, processItem, isUserTurnBoundary]

/-- An item counts if it starts a turn in the history; the event of a message counts too. -/
theorem countsItem_iff (item : RolloutItem Json) : countsItem tools item = true ↔
    startsOf tools item ≠ [] ∨ item = .eventMsg .userMessage := by
  cases item with
  | responseItem =>
    rw [startsOf_responseItem, countsItem]
    simp
  | interAgentCommunication =>
    simp [countsItem, startsOf, recordedItems, boundaries, isUserTurnBoundary,
      InterAgentCommunication.toModelInputItem]
  | eventMsg event =>
    cases event with
    | userMessage => simp [countsItem]
    | _ => simp [countsItem, startsOf, recordedItems, boundaries]
  | _ => simp [countsItem, startsOf, recordedItems, boundaries]

/-- A turn counts for the scan if it has messages. -/
theorem any_countsItem (recorded : turn.Recorded tools) :
    turn.items.any (countsItem tools) = !(turn.messages tools).isEmpty := by
  have has : turn.items.any (countsItem tools) = true ↔ turn.messages tools ≠ [] := by
    rw [any_eq_true]
    constructor
    · rintro ⟨item, mem, counts⟩
      rcases (countsItem_iff item).mp counts with starts | rfl
      · rw [SettledTurn.messages, Ne, flatMap_eq_nil_iff]
        exact fun none => starts (none item mem)
      · apply recorded.messages
        simpa [items] using mem
    · intro messages
      rw [SettledTurn.messages, Ne, flatMap_eq_nil_iff] at messages
      simp only [not_forall] at messages
      obtain ⟨item, mem, starts⟩ := messages
      exact ⟨item, mem, (countsItem_iff item).mpr (.inl starts)⟩
  rw [Bool.eq_iff_iff, has]
  simp

theorem reverse_items (turn : SettledTurn Json) :
    turn.items.reverse = .eventMsg (.turnComplete turn.turnId) :: (turn.after.reverse ++
      (.turnContext turn.context :: (turn.before.reverse ++
        [.eventMsg (.turnStarted turn.turnId)]))) := by
  simp [items, body]

theorem sum_rolledBack (turn : SettledTurn Json) : (turn.items.map rolledBack).sum =
    (turn.after.reverse.map rolledBack).sum + (turn.before.reverse.map rolledBack).sum := by
  simp [items, body, rolledBack, add_comm]

theorem any_countsItem_items (turn : SettledTurn Json) : turn.items.any (countsItem tools) =
    (turn.after.reverse.any (countsItem tools) || turn.before.reverse.any (countsItem tools)) := by
  simp [items, body, countsItem, Bool.or_comm]

variable (whole found states)

/-- The scan of a whole turn. -/
theorem scanTurn (recorded : turn.Recorded tools) (tracks : Tracks pending exact (left + 1))
    (fits : left + 1 ≤ u64Max) (newer older : List (RolloutItem Json)) :
    ∃ newer' states' pending',
      (between whole found states pending).scanBack tools newer (turn.items.reverse ++ older) =
        (between whole (found.or
          (if (!(turn.messages tools).isEmpty) = true ∧ exact + (turn.items.map rolledBack).sum = 0
            then some turn.context else none)) states' pending').scanBack tools newer' older ∧
      Tracks pending'
        (if (!(turn.messages tools).isEmpty) = true then exact + (turn.items.map rolledBack).sum - 1
          else exact + (turn.items.map rolledBack).sum) left := by
  have opened : (between whole found states pending).scanItem tools newer
      (.eventMsg (.turnComplete turn.turnId)) =
        inside turn false none [] (between whole found states pending) pending := rfl
  -- The items after the context, the context, and the items before it.
  obtain ⟨newerContext, own, reached, scanned, tracksAfter⟩ := inside_scanBack opened rfl tracks fits
    (fun item mem => recorded.after item (mem_reverse.mp mem))
    (.turnContext turn.context :: (turn.before.reverse ++
      (.eventMsg (.turnStarted turn.turnId) :: older)))
  rw [Bool.false_or] at scanned
  have context : (inside turn (turn.after.reverse.any (countsItem tools)) none own
      (between whole found states pending) reached).scanItem tools newerContext
        (.turnContext turn.context) = inside _ _ _ _ _ _ :=
    inside_scanContext tools recorded.context newerContext
  obtain ⟨newerStart, _, _, scannedStart, tracksStart⟩ := inside_scanBack context rfl tracksAfter fits
    (fun item mem => recorded.before item (mem_reverse.mp mem))
    (.eventMsg (.turnStarted turn.turnId) :: older)
  rw [← any_countsItem_items, any_countsItem recorded] at scannedStart
  rw [add_assoc, ← sum_rolledBack] at tracksStart
  obtain ⟨states', pending', closed, tracksClosed⟩ := scanStarted tools tracksStart newerStart
  refine ⟨.eventMsg (.turnStarted turn.turnId) :: newerStart, states', pending', ?_, tracksClosed⟩
  rw [reverse_items, cons_append, append_assoc, cons_append, append_assoc, singleton_append,
    scanned, scannedStart, scanBack_cons closed rfl]

/-- An item between turns. -/
theorem scanOutside (tools : HistoryTools Json) (outside : standsOutside item = true)
    (tracks : Tracks pending exact left) (fits : left ≤ u64Max) (newer : List (RolloutItem Json)) :
    ∃ pending', (between whole found states pending).scanItem tools newer item =
        between whole found states pending' ∧ Tracks pending' (exact + rolledBack item) left := by
  cases item with
  | eventMsg event =>
    cases event with
    | threadRolledBack => exact ⟨_, rfl, tracks.add fits _⟩
    | other => exact ⟨pending, rfl, tracks⟩
    | _ => cases outside
  | sessionMeta | interAgentCommunicationMetadata | securityRiskScore => exact ⟨pending, rfl, tracks⟩
  | _ => cases outside

theorem turns_cons (turn : SettledTurn Json) (older : List (Entry Json)) :
    (.turn turn :: older).filterMap Entry.asTurn = turn :: older.filterMap Entry.asTurn := rfl

/-- The scan finds the newest turn with a message that is left, counted in turns. -/
theorem scan_newestTurn (tools : HistoryTools Json) {older : List (Entry Json)}
    (turns : ∀ turn, .turn turn ∈ older → turn.Recorded tools)
    (outside : ∀ item, .outside item ∈ older → standsOutside item = true)
    (tracks : Tracks pending exact (older.filterMap Entry.asTurn).length)
    (fits : (older.filterMap Entry.asTurn).length ≤ u64Max) (newer : List (RolloutItem Json)) :
    ∃ states' pending', (between whole found states pending).scanBack tools newer
        (older.flatMap fun entry => entry.items.reverse) =
      between whole (found.or ((newestTurnAfter tools exact older).map SettledTurn.context)) states'
        pending' := by
  induction older generalizing found states pending exact newer with
  | nil =>
    rw [newestTurnAfter, map_none, or_none]
    exact ⟨states, pending, rfl⟩
  | cons entry older ih =>
    have restTurns turn (mem : .turn turn ∈ older) := turns turn (mem_cons_of_mem _ mem)
    have restOutside item (mem : .outside item ∈ older) :=
      outside item (mem_cons_of_mem _ mem)
    rw [flatMap_cons]
    cases entry with
    | outside item =>
      rw [filterMap_cons_none rfl] at tracks fits
      obtain ⟨_, step, tracksAfter⟩ := scanOutside whole found states tools
        (outside item mem_cons_self) tracks fits newer
      have continued := ih found states restTurns restOutside tracksAfter fits (item :: newer)
      rw [newestTurnAfter]
      exact scanBack_cons step rfl ▸ continued
    | turn turn =>
      rw [turns_cons, length_cons] at tracks fits
      obtain ⟨newer', states', _, scanned, tracksAfter⟩ := scanTurn whole found states
        (turns turn mem_cons_self) tracks fits newer (older.flatMap fun entry => entry.items.reverse)
      obtain ⟨last, dropped, continued⟩ := ih (found.or (if (!(turn.messages tools).isEmpty) = true ∧
        exact + (turn.items.map rolledBack).sum = 0 then some turn.context else none)) states' restTurns
          restOutside tracksAfter (by omega) newer'
      refine ⟨last, dropped, scanned.trans (continued.trans ?_)⟩
      rw [newestTurnAfter]
      generalize exact + (turn.items.map rolledBack).sum = rolled
      cases (turn.messages tools).isEmpty with
      | true => simp
      | false => cases rolled <;> simp

end Scan

/-! ### Both ways to count -/

variable {items : List (RolloutItem Json)} {pending : Nat} {turn : SettledTurn Json}

theorem messagesLeft_eq_some {left : Nat} (found : messagesLeft tools pending items = some left) :
    left + (items.flatMap (startsOf tools)).length = pending + (items.map rolledBack).sum := by
  induction items generalizing pending with
  | nil => exact (Option.some.inj found).symm
  | cons _ _ ih =>
    rw [messagesLeft] at found
    split at found
    · cases found
    · have rest := ih found
      rw [flatMap_cons, length_append, map_cons, sum_cons]
      omega

theorem messagesLeft_of_none (none : items.flatMap (startsOf tools) = []) (pending : Nat) :
    messagesLeft tools pending items = some (pending + (items.map rolledBack).sum) := by
  induction items generalizing pending with
  | nil => rfl
  | cons _ _ ih =>
    rw [flatMap_cons, append_eq_nil_iff] at none
    rw [messagesLeft, none.1, length_nil, if_neg (not_lt_zero _),
      ih none.2, map_cons, sum_cons, Nat.sub_zero, add_assoc]

/-- The messages of a turn, newest first, and then what is older. -/
theorem newestStartAfter_turn (turn : SettledTurn Json) (items : List (RolloutItem Json))
    (older : List (Option (SettledTurn Json) × RolloutItem Json)) (pending : Nat) :
    newestStartAfter tools pending ((items.map fun item => (some turn, item)) ++ older) =
      match messagesLeft tools pending items with
      | none => some (some turn)
      | some left => newestStartAfter tools left older := by
  induction items generalizing pending with
  | nil => rfl
  | cons _ _ ih =>
    rw [map_cons, cons_append, newestStartAfter, messagesLeft]
    split
    · rfl
    · exact ih _

theorem newestTurnAfter_mem {older : List (Entry Json)}
    (found : newestTurnAfter tools pending older = some turn) :
    turn ∈ older.filterMap Entry.asTurn := by
  induction older generalizing pending with
  | nil => cases found
  | cons entry _ ih =>
    cases entry with
    | outside => exact ih found
    | turn =>
      rw [newestTurnAfter] at found
      rw [turns_cons]
      split at found
      · exact mem_cons_of_mem _ (ih found)
      · split at found
        · rw [Option.some.inj found]
          exact mem_cons_self
        · exact mem_cons_of_mem _ (ih found)

theorem startsOf_outside (tools : HistoryTools Json) (outside : standsOutside item = true) :
    startsOf tools item = [] := by
  cases item with
  | responseItem | interAgentCommunication => cases outside
  | _ => rfl

/-- The entries, newest first, with their items newest first. -/
def markedBack (older : List (Entry Json)) : List (Option (SettledTurn Json) × RolloutItem Json) :=
  older.flatMap fun entry => entry.marked.reverse

/-- Counting turns and counting messages lead to the same turn if no turn is dropped of
which a message is left. -/
theorem agree_iff (tools : HistoryTools Json) {older : List (Entry Json)} {turns messages : Nat}
    (outside : ∀ item, .outside item ∈ older → standsOutside item = true)
    (distinct : (older.filterMap Entry.asTurn).Nodup) (fewer : messages ≤ turns) :
    newestTurnAfter tools turns older = (newestStartAfter tools messages (markedBack older)).bind id ↔
      allDropped tools turns messages older = true := by
  induction older generalizing turns messages with
  | nil => simp [newestTurnAfter, newestStartAfter, markedBack, allDropped]
  | cons entry older ih =>
    have restOutside item (mem : .outside item ∈ older) :=
      outside item (mem_cons_of_mem _ mem)
    rw [markedBack, flatMap_cons, ← markedBack]
    cases entry with
    | outside item =>
      have quiet := startsOf_outside tools (outside item mem_cons_self)
      rw [newestTurnAfter, allDropped, Entry.marked, reverse_singleton,
        singleton_append, newestStartAfter]
      rw [quiet, length_nil, if_neg (not_lt_zero _), Nat.sub_zero]
      exact ih restOutside distinct (Nat.add_le_add_right fewer _)
    | turn turn =>
      rw [turns_cons, nodup_cons] at distinct
      obtain ⟨fresh, restDistinct⟩ := distinct
      have reversed : (Entry.turn turn).marked.reverse =
          turn.items.reverse.map fun item => (some turn, item) :=
        map_reverse.symm
      have counted {left : Nat} (found : messagesLeft tools messages turn.items.reverse = some left) :
          left + (turn.messages tools).length = messages + (turn.items.map rolledBack).sum := by
        have total := messagesLeft_eq_some found
        rw [map_reverse, sum_reverse, length_flatMap, map_reverse,
          sum_reverse, ← length_flatMap] at total
        exact total
      rw [reversed, newestStartAfter_turn, newestTurnAfter, allDropped]
      by_cases empty : turn.messages tools = []
      · have none : turn.items.reverse.flatMap (startsOf tools) = [] := by
          rw [flatMap_eq_nil_iff]
          intro item mem
          exact flatMap_eq_nil_iff.mp empty item (mem_reverse.mp mem)
        rw [messagesLeft_of_none none, map_reverse, sum_reverse,
          if_pos (isEmpty_iff.mpr empty), if_pos (isEmpty_iff.mpr empty)]
        exact ih restOutside restDistinct (Nat.add_le_add_right fewer _)
      · have positive := length_pos_iff.mpr empty
        have nonempty : ¬ (turn.messages tools).isEmpty = true :=
          fun is => empty (isEmpty_iff.mp is)
        rw [if_neg nonempty, if_neg nonempty]
        cases found : messagesLeft tools messages turn.items.reverse with
        | none =>
          split
          · exact iff_of_true rfl rfl
          · refine iff_of_false (fun same => ?_) Bool.false_ne_true
            exact fresh (newestTurnAfter_mem same)
        | some =>
          have total := counted found
          rw [if_neg (by omega), if_neg (by omega)]
          exact ih restOutside restDistinct (by omega)

/-! ### The metadata of a rollout -/

theorem marked_items (entry : Entry Json) : entry.marked.map Prod.snd = entry.items := by
  cases entry with
  | turn =>
    rw [Entry.marked, Entry.items, map_map]
    exact map_id _
  | outside => rfl

theorem isCompacted_of_standsInTurn (stands : standsInTurn item = true) : isCompacted item = false := by
  cases item with
  | compacted => cases stands
  | _ => rfl

theorem isCompacted_of_mem_items (recorded : turn.Recorded tools) (mem : item ∈ turn.items) :
    isCompacted item = false := by
  simp only [items, body, mem_append, mem_cons, not_mem_nil, or_false] at mem
  rcases mem with (rfl | before | rfl | after) | rfl
  · rfl
  · exact isCompacted_of_standsInTurn (recorded.before item before)
  · rfl
  · exact isCompacted_of_standsInTurn (recorded.after item after)
  · rfl

variable {entries : List (Entry Json)}

theorem Settled.isCompacted (settled : Settled tools entries)
    (mem : item ∈ entries.flatMap Entry.items) : isCompacted item = false := by
  obtain ⟨entry, listed, mem⟩ := mem_flatMap.mp mem
  cases entry with
  | turn turn => exact isCompacted_of_mem_items (settled.turns turn listed) mem
  | outside other =>
    rw [Entry.items, mem_singleton] at mem
    have outside := settled.outside other listed
    rw [mem]
    cases other with
    | compacted => cases outside
    | _ => rfl

section

variable (entries : List (Entry Json))

theorem turns_length_le :
    (entries.filterMap Entry.asTurn).length ≤ (entries.flatMap Entry.items).length := by
  induction entries with
  | nil => exact le_refl _
  | cons entry =>
    rw [flatMap_cons, length_append]
    cases entry with
    | turn =>
      rw [turns_cons, length_cons, Entry.items, items]
      simp only [cons_append, length_cons]
      omega
    | outside =>
      rw [filterMap_cons_none rfl]
      omega

theorem reverse_flatMap_items : (entries.flatMap Entry.items).reverse =
    entries.reverse.flatMap fun entry => entry.items.reverse :=
  reverse_flatMap ..

theorem markedBack_reverse : markedBack entries.reverse = (entries.flatMap Entry.marked).reverse :=
  (reverse_flatMap ..).symm

theorem map_snd_marked : (entries.flatMap Entry.marked).map Prod.snd = entries.flatMap Entry.items := by
  rw [map_flatMap]
  exact flatMap_congr fun entry _ => marked_items entry

end

/-- The starts of turns in the rebuilt history are those that are kept. -/
theorem Settled.history (settled : Settled tools entries) :
    boundaries tools (reconstructHistoryFromRollout tools (entries.flatMap Entry.items)).history =
      (keptStarts tools entries).map Prod.snd := by
  rw [history_eq_replayForward, replayForward, ← map_snd_marked]
  · refine boundaries_kept tools _ {} [] rfl fun item mem => settled.isCompacted ?_
    rw [← map_snd_marked]
    exact mem_map_of_mem mem
  · intro item mem
    have plain := settled.isCompacted mem
    cases item with
    | compacted => cases plain
    | _ => rfl

/-- The newest turn that is kept, going back through the rollout. -/
theorem newestKeptTurn_eq (tools : HistoryTools Json) (entries : List (Entry Json)) :
    newestKeptTurn tools entries = (newestStartAfter tools 0 (markedBack entries.reverse)).bind id := by
  have last := getLast_kept tools (markedBack entries.reverse) 0
  rw [markedBack_reverse, reverse_reverse, Nat.sub_zero, take_length] at last
  rw [newestKeptTurn, keptStarts, markedBack_reverse, ← last]
  cases ((entries.flatMap Entry.marked).foldl (keepStarts tools) []).getLast? with
  | none | some => rfl

/-- No item is a compaction: none is seen. -/
theorem sawLegacyCompaction_replayItems (tools : HistoryTools Json) (replay : Replay Json)
    (plain : ∀ item ∈ items, isCompacted item = false) :
    (replay.replayItems tools items).sawLegacyCompaction = replay.sawLegacyCompaction := by
  induction items generalizing replay with
  | nil => rfl
  | cons item _ ih =>
    obtain ⟨here, rest⟩ := forall_mem_cons.mp plain
    rw [Replay.replayItems, foldl_cons, ← Replay.replayItems, ih _ rest]
    cases item with
    | compacted => cases here
    | eventMsg event =>
      cases event with
      | _ => rfl
    | _ => rfl

/-- The settings and the context are those of the newest turn that is left, counted in
turns. -/
theorem Settled.metadata (settled : Settled tools entries)
    (fits : (entries.flatMap Entry.items).length ≤ u64Max) :
    (reconstructHistoryFromRollout tools (entries.flatMap Entry.items)).previousTurnSettings =
        ((newestTurnAfter tools 0 entries.reverse).map SettledTurn.context).map
          TurnContextItem.settings ∧
      (reconstructHistoryFromRollout tools (entries.flatMap Entry.items)).referenceContextItem =
        (newestTurnAfter tools 0 entries.reverse).map SettledTurn.context := by
  have few : (entries.reverse.filterMap Entry.asTurn).length ≤ u64Max := by
    rw [filterMap_reverse, length_reverse]
    exact (turns_length_le entries).trans fits
  obtain ⟨states, pending, scanned⟩ := scan_newestTurn (entries.flatMap Entry.items) none []
    tools (fun turn mem => settled.turns turn (mem_reverse.mp mem))
    (fun item mem => settled.outside item (mem_reverse.mp mem)) (.inl rfl) few []
  rw [← reverse_flatMap_items, none_or] at scanned
  have finalized : scanRollout tools (entries.flatMap Entry.items) = between (entries.flatMap
      Entry.items) ((newestTurnAfter tools 0 entries.reverse).map SettledTurn.context) states pending :=
    congrArg ReverseScan.finalize scanned
  rw [reconstructHistoryFromRollout, finalized]
  refine ⟨rfl, ?_⟩
  simp only [between, sawLegacyCompaction_replayItems tools _ fun _ mem => settled.isCompacted mem]
  cases newestTurnAfter tools 0 entries.reverse with
  | none | some => rfl

/-- Two turns of a rollout with one context are one turn. -/
theorem Settled.context_injective (settled : Settled tools entries)
    {first second : SettledTurn Json} (firstMem : first ∈ entries.filterMap Entry.asTurn)
    (secondMem : second ∈ entries.filterMap Entry.asTurn) (same : first.context = second.context) :
    first = second := by
  have recorded {turn : SettledTurn Json} (mem : turn ∈ entries.filterMap Entry.asTurn) :
      turn.Recorded tools := by
    obtain ⟨entry, listed, is⟩ := mem_filterMap.mp mem
    cases entry with
    | turn other =>
      rw [← Option.some.inj is]
      exact settled.turns other listed
    | outside => cases is
  have ids : first.turnId = second.turnId := by
    apply Option.some.inj
    rw [← (recorded firstMem).context, ← (recorded secondMem).context, same]
  exact inj_on_of_nodup_map settled.distinct firstMem secondMem ids

/-- The newest kept turn is one of the turns. -/
theorem newestKeptTurn_mem (found : newestKeptTurn tools entries = some turn) :
    turn ∈ entries.filterMap Entry.asTurn := by
  have listed {label : Option (SettledTurn Json)} {older} {pending : Nat}
      (reached : newestStartAfter tools pending older = some label) :
      ∃ item, (label, item) ∈ older := by
    induction older generalizing pending with
    | nil => cases reached
    | cons item _ ih =>
      rw [newestStartAfter] at reached
      split at reached
      · rw [← Option.some.inj reached]
        exact ⟨item.2, mem_cons_self⟩
      · obtain ⟨other, mem⟩ := ih reached
        exact ⟨other, mem_cons_of_mem _ mem⟩
  rw [newestKeptTurn_eq, bind_eq_some_iff] at found
  obtain ⟨_, reached, rfl⟩ := found
  obtain ⟨_, mem⟩ := listed reached
  rw [markedBack_reverse, mem_reverse, mem_flatMap] at mem
  obtain ⟨entry, within, marked⟩ := mem
  refine mem_filterMap.mpr ⟨entry, within, ?_⟩
  cases entry with
  | turn =>
    obtain ⟨_, _, same⟩ := mem_map.mp marked
    exact congrArg Prod.fst same
  | outside =>
    have same := congrArg Prod.fst (mem_singleton.mp marked)
    cases same

/-- The messages that are left in the history of a rollout are known with their turns. The
settings and the context that it gives back are those of the newest of these turns exactly
if no rollback drops a turn, counted in turns, of which a message is left, counted in
messages. The length of a slice is a `usize`. -/
theorem metadata_describes_history_iff (tools : HistoryTools Json) (entries : List (Entry Json))
    (settled : Settled tools entries) (fits : (entries.flatMap Entry.items).length ≤ u64Max) :
    boundaries tools (reconstructHistoryFromRollout tools (entries.flatMap Entry.items)).history =
      (keptStarts tools entries).map Prod.snd ∧
    (DescribesNewestKept tools entries ↔ allDropped tools 0 0 entries.reverse = true) := by
  refine ⟨settled.history, ?_⟩
  have distinct : (entries.reverse.filterMap Entry.asTurn).Nodup := by
    rw [filterMap_reverse, nodup_reverse]
    exact settled.distinct.of_map _
  have agree := agree_iff tools
    (fun item member => settled.outside item (mem_reverse.mp member)) distinct
    (le_refl 0)
  rw [← newestKeptTurn_eq] at agree
  obtain ⟨settings, reference⟩ := settled.metadata fits
  rw [← agree, DescribesNewestKept, settings, reference]
  constructor
  · rintro ⟨_, same⟩
    cases counted : newestTurnAfter tools 0 entries.reverse with
    | none =>
      rw [counted] at same
      exact (map_eq_none_iff.mp same.symm).symm
    | some =>
      rw [counted, map_some] at same
      obtain ⟨_, found, contexts⟩ := map_eq_some_iff.mp same.symm
      have member := newestTurnAfter_mem counted
      rw [filterMap_reverse, mem_reverse] at member
      rw [found, settled.context_injective (newestKeptTurn_mem found) member contexts]
  · intro same
    rw [same, Option.map_map]
    exact ⟨rfl, rfl⟩

/-! ### A steered turn -/

/-- A message of the user, as it is recorded. -/
def recordedMessage (text : String) : List (RolloutItem Unit) :=
  [.responseItem (userEnvelope text), .eventMsg .userMessage]

/-- A turn with these messages. -/
def turnOf (turnId : String) (texts : List String) : SettledTurn Unit :=
  { turnId
    context := { turnId := some turnId, model := turnId, compHash := none, realtimeActive := none }
    after := texts.flatMap recordedMessage }

theorem turnOf_recorded : (turnOf "first" ["one"]).Recorded plain ∧
    (turnOf "second" ["two", "three"]).Recorded plain := by
  refine ⟨⟨by decide, by decide, rfl, fun _ => by decide +kernel⟩,
    ⟨by decide, by decide, rfl, fun _ => by decide +kernel⟩⟩

/-- Two turns, the second one steered, and rollbacks after them. -/
def steeredTurn (numTurns : UInt32) : List (Entry Unit) :=
  [.turn (turnOf "first" ["one"]), .turn (turnOf "second" ["two", "three"]),
    .outside (.eventMsg (.threadRolledBack numTurns))]

theorem steeredTurn_settled (numTurns : UInt32) : Settled plain (steeredTurn numTurns) := by
  refine ⟨?_, ?_, ?_⟩
  · intro turn mem
    simp only [steeredTurn, mem_cons, Entry.turn.injEq, reduceCtorEq, not_mem_nil, or_false] at mem
    rcases mem with rfl | rfl
    · exact turnOf_recorded.1
    · exact turnOf_recorded.2
  · intro item mem
    simp only [steeredTurn, mem_cons, Entry.outside.injEq, reduceCtorEq, not_mem_nil,
      or_false, false_or] at mem
    rw [mem]
    rfl
  · change (["first", "second"] : List String).Nodup
    decide

/-- A rollback of three turns drops the two turns, and the three messages. -/
theorem wholeRollback_described : boundaries HistoryTools.plain
        (reconstructHistoryFromRollout HistoryTools.plain
          ((steeredTurn 3).flatMap Entry.items)).history =
      (keptStarts HistoryTools.plain (steeredTurn 3)).map Prod.snd ∧
    DescribesNewestKept HistoryTools.plain (steeredTurn 3) := by
  obtain ⟨starts, described⟩ := metadata_describes_history_iff HistoryTools.plain (steeredTurn 3)
    (steeredTurn_settled 3) (by decide)
  exact ⟨starts, described.mpr (by decide +kernel)⟩

/-- A rollback of one turn drops the second message of the second turn from the history,
and the settings of that turn. -/
theorem steeredTurn_not_described : Settled HistoryTools.plain (steeredTurn 1) ∧
    ((steeredTurn 1).flatMap Entry.items).length ≤ u64Max ∧
    ¬ DescribesNewestKept HistoryTools.plain (steeredTurn 1) := by
  refine ⟨steeredTurn_settled 1, by decide, ?_⟩
  rintro ⟨settings, _⟩
  revert settings
  decide +kernel

end WeaveCodex.Rollout
