/-
Purpose: Delivery of human feedback.  Along a whole run every work or verify turn is given
  the slot of its time, and so all feedback is delivered if and only if none is overwritten.
-/
import WeaveCodex.ControlPlane.Proofs.PhaseRuns

namespace WeaveCodex.ControlPlane

open Option
open Library.EarlyExit
open Library.Log Interaction Setting List

/-- A work or verify phase, whose prompts have a place for human feedback. -/
def Phase.TakesFeedback (phase : Phase) : Prop :=
  phase.kind = .work ∨ phase.kind = .verify

instance (phase : Phase) : Decidable phase.TakesFeedback :=
  inferInstanceAs (Decidable (_ ∨ _))

/-- A turn of such a phase. -/
def Interaction.TakesFeedback : Interaction → Prop
  | .turn taken => taken.phase.TakesFeedback
  | .stage _ _ _ | .checkpoint _ _ => False

instance : DecidablePred Interaction.TakesFeedback
  | .turn taken => inferInstanceAs (Decidable taken.phase.TakesFeedback)
  | .stage _ _ _ | .checkpoint _ _ => inferInstanceAs (Decidable False)

/-- The human accepted at a checkpoint. -/
def Interaction.Accepted : Interaction → Prop
  | .checkpoint _ resolution => resolution.decision.accepts = true
  | .stage _ _ _ | .turn _ => False

/-- The non-empty feedback given with an accepting decision. -/
def Interaction.given? : Interaction → Option String
  | .checkpoint _ resolution =>
    if resolution.decision.accepts = true ∧ resolution.feedback ≠ "" then
      some resolution.feedback
    else none
  | .stage _ _ _ | .turn _ => none

variable (setting : Setting) (log : List Interaction)

/-- None of these exchanges is a work or verify turn. -/
def Undelivered : Prop :=
  ∀ exchange ∈ log, ¬ exchange.TakesFeedback

instance (log : List Interaction) : Decidable (Undelivered log) :=
  inferInstanceAs (Decidable (∀ exchange ∈ log, ¬ exchange.TakesFeedback))

/-- `part` is contained in `whole`. -/
def ContainsText (whole part : String) : Prop :=
  ∃ before after, whole = before ++ part ++ after

/-- Every feedback text reaches the first work or verify turn after its checkpoint, and
every feedback text in a prompt was given since the work or verify turn before. -/
structure FeedbackDelivered (setting : Setting) (log : List Interaction) : Prop where
  delivered : ∀ before given between turn after feedback,
    log = before ++ given :: (between ++ .turn turn :: after) → given.given? = some feedback →
    Undelivered between → turn.phase.TakesFeedback →
      turn.carried = some feedback ∧ ContainsText turn.request.prompt feedback
  fresh : ∀ before turn after text, log = before ++ .turn turn :: after →
    turn.carried = some text → text ≠ "" →
      ∃ earlier given between, before = earlier ++ given :: between ∧
        given.given? = some text ∧ Undelivered between
  prompts : ∀ turn ∈ turnsOf log, turn.phase.TakesFeedback →
    ∃ text, turn.carried = some text ∧ PromptCarries setting turn text

/-- When a work or verify turn runs, every feedback given since the work or verify turn
before is also what the last accepted checkpoint gave. -/
def NothingOverwritten : Prop :=
  ∀ before given between next rest turn after feedback,
    log = before ++ given :: (between ++ next :: (rest ++ .turn turn :: after)) →
    given.given? = some feedback → next.Accepted → Undelivered between → Undelivered rest →
    (∀ exchange ∈ rest, ¬ exchange.Accepted) → turn.phase.TakesFeedback →
      next.given? = some feedback

/-- Every run relays the slot. -/
theorem relays_executePhaseProgram (setting : Setting) :
    Relays setting setting.executePhaseProgram.state := by
  unfold executePhaseProgram
  cases setting.manifest.phaseProgram with
  | none => exact .initial
  | some program =>
    dsimp only
    cases orderedPhases program with
    | error => exact .initial
    | ok =>
      exact loop_state_invariant (Relays setting) Relays.initial
        fun phase _ run => (executePhase_traced setting run phase).2

/-! ### Delivery -/

section Delivery

variable {setting : Setting} {log : List Interaction} {turn : Turn}

/-- In a relayed record, the turns that were given feedback are the work and verify
turns. -/
theorem TurnRelays.takesFeedback_iff {slot : String} (relays : TurnRelays setting slot turn) :
    turn.phase.TakesFeedback ↔ turn.carried = some slot := by
  rcases relays with ⟨carried, ofCommand⟩ | ⟨carried, prompt⟩
  · simp [Phase.TakesFeedback, ofCommand, carried]
  · simp only [carried, iff_true]
    unfold PromptCarries at prompt
    cases own : turn.phase with
    | work => exact .inl rfl
    | verify => exact .inr rfl
    | command | checkpoint => simp [own] at prompt

theorem Undelivered.append {first second : List Interaction} (left : Undelivered first)
    (right : Undelivered second) : Undelivered (first ++ second) :=
  forall_mem_append.mpr ⟨left, right⟩

/-- A non-empty slot was given at an accepted checkpoint, with no work or verify turn
since. -/
theorem standing_slotOf (relayed : LogRelays setting log) (pending : slotOf log ≠ "") :
    Standing (fun _ given => given.given? = some (slotOf log)) Interaction.TakesFeedback log := by
  induction log using reverseRecOn with
  | nil => contradiction
  | append_singleton log last ih =>
    rw [slotOf_concat] at pending ⊢
    rw [standing_concat_iff]
    -- The slot is either left alone by the last exchange or given by it.
    have carriedOver : last.slotAfter (slotOf log) = slotOf log →
        Standing (fun _ given => given.given? = some (last.slotAfter (slotOf log)))
          Interaction.TakesFeedback log := by
      intro unchanged
      rw [unchanged] at pending ⊢
      exact ih relayed.of_append pending
    cases last with
    | stage => exact .inr ⟨carriedOver rfl, id⟩
    | turn turn =>
      have relays := relayed log (.turn turn) [] rfl
      cases carried : turn.carried with
      | some => simp [slotAfter, carried] at pending
      | none =>
        refine .inr ⟨carriedOver (by simp [slotAfter, carried]), fun takes => ?_⟩
        rw [relays.takesFeedback_iff.mp takes] at carried
        cases carried
    | checkpoint phase resolution =>
      by_cases accepted : resolution.decision.accepts = true
      · simp only [slotAfter, if_pos accepted] at pending ⊢
        exact .inl (if_pos ⟨accepted, pending⟩)
      · exact .inr ⟨carriedOver (if_neg accepted), id⟩

variable {between earlier rest after before : List Interaction} {given : Interaction}

/-- Without an accepted checkpoint or a work or verify turn, the slot stays. -/
theorem slotOf_append_of_undelivered (log : List Interaction)
    (relayed : LogRelays setting (log ++ between)) (undelivered : Undelivered between)
    (noCheckpoint : ∀ exchange ∈ between, ¬ exchange.Accepted) :
    slotOf (log ++ between) = slotOf log := by
  induction between using reverseRecOn with
  | nil => rw [append_nil]
  | append_singleton between last ih =>
    rw [← append_assoc] at relayed ⊢
    have before := ih relayed.of_append
      (fun exchange mem => undelivered exchange (mem_append_left _ mem))
      (fun exchange mem => noCheckpoint exchange (mem_append_left _ mem))
    have lastIn : last ∈ between ++ [last] := by simp
    rw [slotOf_concat, before]
    cases last with
    | stage => rfl
    | turn turn =>
      have relays := relayed (log ++ between) (.turn turn) [] rfl
      cases carried : turn.carried with
      | none => simp [slotAfter, carried]
      | some =>
        rcases relays with ⟨carriedNone, -⟩ | ⟨carriedSlot, prompt⟩
        · rw [carriedNone] at carried
          cases carried
        · exact absurd (TurnRelays.takesFeedback_iff
            (.inr ⟨carriedSlot, prompt⟩) |>.mpr carriedSlot) (undelivered _ lastIn)
    | checkpoint => exact if_neg (noCheckpoint _ lastIn)

variable {feedback : String}

theorem containsText_workPrompt (manifest : HarnessManifest) (phase : WorkPhase)
    (selectedExcerpts : List String) (firstWorkPhase : Bool) (nonempty : feedback ≠ "") :
    ContainsText (workPrompt manifest phase selectedExcerpts firstWorkPhase feedback)
      feedback := by
  refine ⟨workPromptHead manifest phase selectedExcerpts firstWorkPhase,
    workPromptTail phase firstWorkPhase, ?_⟩
  rw [workPrompt, feedbackSection, if_neg nonempty]

theorem containsText_verifyPrompt (python : PythonText) (phase : VerifyPhase) (answer : Json)
    (nonempty : feedback ≠ "") :
    ContainsText (verifyPrompt python phase answer feedback) feedback := by
  refine ⟨verifyPromptHead python phase answer ++ "\n\nLatest human checkpoint feedback:\n",
    verifyPromptTail, ?_⟩
  rw [verifyPrompt, feedbackContext, if_neg nonempty]
  simp only [String.append_assoc]

/-- A prompt contains the feedback it was given. -/
theorem PromptCarries.contains (prompt : PromptCarries setting turn feedback)
    (nonempty : feedback ≠ "") : ContainsText turn.request.prompt feedback := by
  obtain ⟨phase, _, _, _, _⟩ := turn
  cases phase with
  | work phase =>
    obtain ⟨firstWorkPhase, same⟩ := prompt
    rw [same]
    exact containsText_workPrompt _ phase _ firstWorkPhase nonempty
  | verify phase =>
    obtain ⟨answer, same⟩ := prompt
    rw [same]
    exact containsText_verifyPrompt _ phase answer nonempty
  | command | checkpoint => contradiction

/-- The slot that an accepted checkpoint with feedback leaves. -/
theorem slotOf_given (log : List Interaction) (gave : given.given? = some feedback) :
    slotOf (log ++ [given]) = feedback ∧ feedback ≠ "" := by
  rw [slotOf_concat]
  cases given with
  | stage | turn => cases gave
  | checkpoint =>
    simp only [given?] at gave
    split at gave
    · rename_i accepted
      rw [← some.inj gave]
      exact ⟨if_pos accepted.1, accepted.2⟩
    · cases gave

/-- The slot that an accepted checkpoint leaves is the feedback it gave. -/
theorem given_of_accepted {next : Interaction} (log : List Interaction)
    (accepted : next.Accepted) (nonempty : slotOf (log ++ [next]) ≠ "") :
    next.given? = some (slotOf (log ++ [next])) := by
  rw [slotOf_concat] at nonempty ⊢
  cases next with
  | stage | turn => contradiction
  | checkpoint phase resolution =>
    have slot : slotAfter (slotOf log) (.checkpoint phase resolution) =
        resolution.feedback := if_pos accepted
    rw [slot] at nonempty ⊢
    exact if_pos ⟨accepted, nonempty⟩

/-- A work or verify turn is given the slot that the last accepted checkpoint left. -/
theorem LogRelays.carried_eq (relayed : LogRelays setting (earlier ++ rest ++ .turn turn :: after))
    (undelivered : Undelivered rest) (noCheckpoint : ∀ exchange ∈ rest, ¬ exchange.Accepted)
    (takes : turn.phase.TakesFeedback) :
    turn.carried = some (slotOf earlier) ∧ PromptCarries setting turn (slotOf earlier) := by
  have relays : TurnRelays setting (slotOf (earlier ++ rest)) turn :=
    relayed (earlier ++ rest) (.turn turn) after rfl
  rw [slotOf_append_of_undelivered earlier relayed.of_append undelivered noCheckpoint] at relays
  rcases relays with ⟨-, ofCommand⟩ | carries
  · simp [Phase.TakesFeedback, ofCommand] at takes
  · exact carries

/-- Either no checkpoint was accepted, or there is a last accepted one. -/
theorem standing_accepted (log : List Interaction) : (∀ exchange ∈ log, ¬ exchange.Accepted) ∨
    Standing (fun _ next => next.Accepted) Interaction.Accepted log := by
  induction log using reverseRecOn with
  | nil => exact .inl (forall_mem_nil _)
  | append_singleton _ last ih =>
    rw [standing_concat_iff, forall_mem_append, forall_mem_singleton]
    by_cases accepted : last.Accepted
    · exact .inr (.inl accepted)
    · rcases ih with none | standing
      · exact .inl ⟨none, accepted⟩
      · exact .inr (.inr ⟨standing, accepted⟩)

/-- The last accepted checkpoint's feedback reaches the next work or verify turn. -/
theorem LogRelays.delivers_last
    (relayed : LogRelays setting (earlier ++ given :: (rest ++ .turn turn :: after)))
    (gave : given.given? = some feedback) (undelivered : Undelivered rest)
    (noCheckpoint : ∀ exchange ∈ rest, ¬ exchange.Accepted) (takes : turn.phase.TakesFeedback) :
    turn.carried = some feedback ∧ ContainsText turn.request.prompt feedback := by
  have resplit : earlier ++ given :: (rest ++ .turn turn :: after) =
      (earlier ++ [given]) ++ rest ++ .turn turn :: after := by simp
  rw [resplit] at relayed
  obtain ⟨carried, prompt⟩ := relayed.carried_eq undelivered noCheckpoint takes
  obtain ⟨slot, nonempty⟩ := slotOf_given earlier gave
  rw [slot] at carried prompt
  exact ⟨carried, prompt.contains nonempty⟩

/-- Feedback in a prompt was given since the work or verify turn before. -/
theorem LogRelays.fresh {text : String} (relayed : LogRelays setting (before ++ .turn turn :: after))
    (carried : turn.carried = some text) (nonempty : text ≠ "") :
    ∃ earlier given between, before = earlier ++ given :: between ∧
      given.given? = some text ∧ Undelivered between := by
  rcases relayed before (.turn turn) after rfl with ⟨carriedNone, -⟩ | ⟨carriedSlot, -⟩
  · rw [carriedNone] at carried
    cases carried
  · rw [carriedSlot] at carried
    rw [← some.inj carried] at nonempty ⊢
    exact standing_slotOf relayed.of_append nonempty

section

variable (relayed : LogRelays setting log)
include relayed

/-- What is delivered was not overwritten: the slot holds one text, and the turn that takes
it finds the last one. -/
theorem LogRelays.nothingOverwritten
    (delivered : FeedbackDelivered setting log) : NothingOverwritten log := by
  intro before given between next rest turn after feedback split gave accepted
    undeliveredBefore undeliveredAfter noCheckpoint takes
  have notNext : ¬ next.TakesFeedback := by
    cases next with
    | stage => exact id
    | turn => contradiction
    | checkpoint => exact id
  have undelivered : Undelivered (between ++ next :: rest) := by
    apply undeliveredBefore.append
    exact forall_mem_cons.mpr ⟨notNext, undeliveredAfter⟩
  obtain ⟨carried, -⟩ := delivered.delivered before given (between ++ next :: rest) turn after
    feedback (by rw [split]; simp) gave undelivered takes
  have resplit : log = (before ++ given :: between ++ [next]) ++ rest ++ .turn turn :: after := by
    rw [split]
    simp
  rw [resplit] at relayed
  obtain ⟨carriedSlot, -⟩ := relayed.carried_eq undeliveredAfter noCheckpoint takes
  have slot : slotOf (before ++ given :: between ++ [next]) = feedback :=
    some.inj (carriedSlot.symm.trans carried)
  rw [← slot]
  apply given_of_accepted _ accepted
  rw [slot]
  exact (slotOf_given before gave).2

/-- Where nothing is overwritten, the last accepted checkpoint gave the same text, and that
text arrives. -/
theorem LogRelays.delivers (kept : NothingOverwritten log)
    (split : log = before ++ given :: (between ++ .turn turn :: after))
    (gave : given.given? = some feedback) (undelivered : Undelivered between)
    (takes : turn.phase.TakesFeedback) :
    turn.carried = some feedback ∧ ContainsText turn.request.prompt feedback := by
  rcases standing_accepted between with
    noCheckpoint | ⟨left, next, right, rfl, accepted, noCheckpoint⟩
  · rw [split] at relayed
    exact relayed.delivers_last gave undelivered noCheckpoint takes
  · have resplit : log = (before ++ given :: left) ++ next :: (right ++ .turn turn :: after) := by
      rw [split]
      simp
    obtain ⟨undeliveredLeft, undeliveredRest⟩ := forall_mem_append.mp undelivered
    have undeliveredRight : Undelivered right := (forall_mem_cons.mp undeliveredRest).2
    have same := kept before given left next right turn after feedback
      (by rw [split]; simp) gave accepted undeliveredLeft undeliveredRight noCheckpoint takes
    rw [resplit] at relayed
    exact relayed.delivers_last same undeliveredRight noCheckpoint takes

/-- A relayed record delivers all feedback if and only if nothing is overwritten in it. -/
theorem LogRelays.delivered_iff : FeedbackDelivered setting log ↔ NothingOverwritten log := by
  constructor
  · exact relayed.nothingOverwritten
  · intro kept
    refine ⟨?_, ?_, ?_⟩
    · intro before given between turn after feedback split gave undelivered takes
      exact relayed.delivers kept split gave undelivered takes
    · intro before turn after text split carried nonempty
      rw [split] at relayed
      exact relayed.fresh carried nonempty
    · intro turn mem takes
      obtain ⟨before, after, split⟩ := append_of_mem (mem_turnsOf.mp mem)
      rcases relayed before (.turn turn) after split with ⟨-, ofCommand⟩ | carries
      · simp [Phase.TakesFeedback, ofCommand] at takes
      · exact ⟨slotOf before, carries⟩

end

end Delivery

end WeaveCodex.ControlPlane
