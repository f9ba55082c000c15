/- Path: KiroRs/Stream/SliceSafety
   source: src/anthropic/stream.rs
   digest: A stream whose texts are cut at checked byte positions runs to its end and sends what
   the stream sends. -/

import KiroRs.Stream.Context
import KiroRs.Stream.FilterSlices
import KiroRs.Stream.TagSearch

set_option autoImplicit false
set_option relaxedAutoImplicit false

namespace KiroRs.Stream.SliceSafety

open KiroRs.Lib.Bytes
open KiroRs.Lib.Emits
open KiroRs.Lib.Slices
open KiroRs.Lib.Text
open KiroRs.Stream.Context
open KiroRs.Stream.Context.StreamContext
open KiroRs.Stream.Events
open KiroRs.Stream.FilterSlices
open KiroRs.Stream.TagSearch
open KiroRs.Stream.ThinkingTags
open KiroRs.Stream.XmlFilter

variable (env : StreamEnv) (c : StreamContext)

/-- One step, and a checked one from the context it leaves. -/
def andThenChecked (r : Sent) (next : StreamContext → Run Sent) : Run Sent := do
  let later ← next r.2
  pure (r.andThen fun _ => later)

def checkedStripLeadingNewline : Run StreamContext :=
  if c.stripThinkingLeadingNewline then
    if "\n".toList.isPrefixOf c.thinkingBuffer then do
      let rest ← startFrom c.thinkingBuffer 1
      pure { c with thinkingBuffer := rest, stripThinkingLeadingNewline := false }
    else if !c.thinkingBuffer.isEmpty then pure { c with stripThinkingLeadingNewline := false }
    else pure c
  else pure c

/-- A round before thinking, and whether the loop goes on. -/
def startRound : Run (Sent × Bool) := do
  match ← checkedFindRealThinkingStartTag c.thinkingBuffer with
  | some startPos =>
    let before ← upTo c.thinkingBuffer startPos
    let first :=
      if !before.isEmpty && !(trimChars before).isEmpty then c.createTextDeltaEvents env before
      else quiet c
    let after ← startFrom first.2.thinkingBuffer (startPos + byteLength thinkingStartTag)
    pure (first.andThen fun c => c.enterThinking env after, true)
  | none =>
    let targetLen := byteLength c.thinkingBuffer - byteLength thinkingStartTag
    let safeLen := findCharBoundary c.thinkingBuffer targetLen
    if 0 < safeLen then
      let safe ← upTo c.thinkingBuffer safeLen
      if !safe.isEmpty && !(trimChars safe).isEmpty then
        let first := c.createTextDeltaEvents env safe
        let kept ← startFrom first.2.thinkingBuffer safeLen
        pure (first.andThen fun c => quiet { c with thinkingBuffer := kept }, false)
      else pure (quiet c, false)
    else pure (quiet c, false)

/-- A round within thinking. -/
def thinkingRound : Run (Sent × Bool) := do
  let c ← checkedStripLeadingNewline c
  match ← checkedFindRealThinkingEndTagWithBoundary c.thinkingBuffer with
  | some (endPos, afterTag) =>
    let thinking ← upTo c.thinkingBuffer endPos
    let first := c.endThinking thinking
    let after ← startFrom first.2.thinkingBuffer afterTag
    pure (first.andThen fun c => quiet { c with thinkingBuffer := after }, true)
  | none =>
    let targetLen := byteLength c.thinkingBuffer - byteLength thinkingEndTag
    let safeLen := findCharBoundary c.thinkingBuffer targetLen
    if 0 < safeLen then
      let safe ← upTo c.thinkingBuffer safeLen
      let first := if safe.isEmpty then quiet c else c.sendThinking safe
      let kept ← startFrom first.2.thinkingBuffer safeLen
      pure (first.andThen fun c => quiet { c with thinkingBuffer := kept }, false)
    else pure (quiet c, false)

def contentRound : Run (Sent × Bool) :=
  if !c.inThinkingBlock && !c.thinkingExtracted then startRound env c
  else if c.inThinkingBlock then thinkingRound c
  else pure (c.emitExtracted env, false)

/-- The loop of `process_content_with_thinking`. -/
def contentRounds : Nat → StreamContext → Run Sent
  | 0, _ => exhausted
  | rounds + 1, c => do
    let (sent, more) ← contentRound env c
    if more then andThenChecked sent (contentRounds rounds) else pure sent

def checkedProcessContentWithThinking (content : Text) : Run Sent :=
  contentRounds env 3 { c with thinkingBuffer := c.thinkingBuffer ++ content }

def checkedProcessFiltered (content : Text) : Run Sent :=
  if c.thinkingEnabled then checkedProcessContentWithThinking env c content
  else pure (c.createTextDeltaEvents env content)

def checkedProcessAssistantResponse (content : Text) : Run Sent := do
  let (content, filter) ← checkedFilter c.toolUseXmlFilter content
  let c := { c with toolUseXmlFilter := filter }
  if content.isEmpty then pure (quiet c)
  else checkedProcessFiltered env (c.addOutputTokens content) content

/-- What is sent for an end tag there, if there is one. -/
def endAtBufferEnd : Run (Option Sent) := do
  match ← checkedFindRealThinkingEndTagAtBufferEnd c.thinkingBuffer with
  | some endPos =>
    let thinking ← upTo c.thinkingBuffer endPos
    let first := c.endThinking thinking
    let after ← startFrom first.2.thinkingBuffer (endPos + byteLength thinkingEndTag)
    pure (some (first.andThen fun c => c.emitRest env after))
  | none => pure none

def checkedSettleThinking : Run Sent :=
  if c.thinkingEnabled && c.inThinkingBlock then do
    match ← endAtBufferEnd env c with
    | some sent => pure sent
    | none => pure (quiet c)
  else pure (quiet c)

def checkedProcessToolUse (e : ToolUseEvent) : Run Sent := do
  let settled ← checkedSettleThinking env
    { c with stateManager := c.stateManager.setHasToolUse true }
  pure ((settled.andThen fun c => c.flushWaiting env).andThen fun c => c.collectToolUse env e)

def checkedFlushBuffer : Run Sent :=
  if c.thinkingEnabled && !c.thinkingBuffer.isEmpty then do
    let sent ←
      if c.inThinkingBlock then do
        match ← endAtBufferEnd env c with
        | some sent => pure sent
        | none => pure ((c.sendThinking c.thinkingBuffer).andThen stopThinking)
      else
        let content :=
          if c.stripTextAfterThinkingBoundary then trimStart c.thinkingBuffer
          else c.thinkingBuffer
        let c := { c with
          stripTextAfterThinkingBoundary := c.stripTextAfterThinkingBoundary && content.isEmpty }
        pure (if content.isEmpty then quiet c else c.createTextDeltaEvents env content)
    pure (sent.andThen fun c => quiet { c with thinkingBuffer := [] })
  else pure (quiet c)

/-- Events of the other kinds cut no text. -/
def checkedProcessKiroEvent : Event → Run Sent
  | .assistantResponse content =>
    andThenChecked c.closeReasoningIfOpen fun c => checkedProcessAssistantResponse env c content
  | .code content =>
    andThenChecked c.closeReasoningIfOpen fun c => checkedProcessAssistantResponse env c content
  | .toolUse e => andThenChecked c.closeReasoningIfOpen fun c => checkedProcessToolUse env c e
  | event => pure (c.processKiroEvent env event)

def checkedFinishFilter : Run Sent := do
  let remaining ← checkedFinish c.toolUseXmlFilter
  let c := { c with toolUseXmlFilter := {} }
  if remaining.isEmpty then pure (quiet c)
  else checkedProcessFiltered env (c.addOutputTokens remaining) remaining

def checkedGenerateFinalEvents : Run Sent := do
  let finished ← andThenChecked (c.finishTools env) fun c => checkedFinishFilter env c
  andThenChecked finished fun c =>
    match c.toolJsonError with
    | some err =>
      pure ((c.closeReasoningIfOpen.andThen fun c => c.sendFinal env).andThen fun c =>
        ([.error err.errorType err.message], c))
    | none => do
      let flushed ← andThenChecked c.closeReasoningIfOpen fun c => checkedFlushBuffer env c
      pure ((flushed.andThen fun c => c.padThinkingOnly env).andThen fun c => c.sendFinal env)

def checkedEvents : List Event → StreamContext → Run Sent
  | [], c => pure (quiet c)
  | event :: rest, c => do
    let sent ← checkedProcessKiroEvent env c event
    andThenChecked sent (checkedEvents rest)

/-- A whole stream: its beginning, its events and its end. -/
def checkedStreamed (events : List Event) : Run Sent := do
  let sent ← andThenChecked (c.generateInitialEvents env) (checkedEvents env events)
  andThenChecked sent fun c => checkedGenerateFinalEvents env c

theorem andThenChecked_of {r later : Sent} {next : StreamContext → Run Sent}
    (ran : next r.2 = pure later) : andThenChecked r next = pure (r.andThen fun _ => later) := by
  rw [andThenChecked, ran, pure_bind]

theorem andThenChecked_eq {next : StreamContext → Run Sent} {step : StreamContext → Sent}
    (goes : ∀ c, next c = pure (step c)) (r : Sent) :
    andThenChecked r next = pure (r.andThen step) :=
  andThenChecked_of (goes r.2)

variable {env : StreamEnv} {c : StreamContext}

theorem createText_buffer (text : Text) :
    (c.createTextDeltaEvents env text).2.thinkingBuffer = c.thinkingBuffer := by
  obtain ⟨m, t, eq⟩ := createTextDeltaEvents_frame env c text
  rw [eq]

theorem endThinking_buffer (text : Text) :
    (c.endThinking text).2.thinkingBuffer = c.thinkingBuffer := by
  obtain ⟨m, eq⟩ := endThinking_frame c text
  rw [eq]

theorem startFrom_newline {text : Text} (starts : "\n".toList.isPrefixOf text = true) :
    startFrom text 1 = pure (stripNewline text) := by
  obtain ⟨rest, rfl⟩ := List.isPrefixOf_iff_prefix.mp starts
  exact startFrom_append ['\n'] rest

theorem stripNewline_of_other {text : Text} (other : ¬ "\n".toList.isPrefixOf text = true) :
    stripNewline text = text := by
  unfold stripNewline
  split
  · next rest =>
    exact absurd (List.isPrefixOf_iff_prefix.mpr (List.prefix_append ['\n'] rest)) other
  · rfl

theorem checkedStripLeadingNewline_eq (c : StreamContext) :
    checkedStripLeadingNewline c = pure c.stripLeadingNewline := by
  unfold checkedStripLeadingNewline stripLeadingNewline
  by_cases flag : c.stripThinkingLeadingNewline = true
  · rw [if_pos flag, flag, Bool.true_and]
    by_cases starts : "\n".toList.isPrefixOf c.thinkingBuffer = true
    · have nonempty : (!c.thinkingBuffer.isEmpty) = true := by
        obtain ⟨rest, eq⟩ := List.isPrefixOf_iff_prefix.mp starts
        rw [← eq]
        rfl
      rw [if_pos starts, startFrom_newline starts, pure_bind, if_pos nonempty]
    · rw [if_neg starts, stripNewline_of_other starts]
      split_ifs
      · rfl
      · rfl
  · rw [if_neg flag, if_neg]
    simp [flag]

theorem visible_eq (text : Text) :
    (!text.isEmpty && !(trimChars text).isEmpty) = !isBlank text := by
  rw [isEmpty_trimChars]
  cases text with
  | nil => rfl
  | cons first rest => exact Bool.true_and _

section Keep

variable {n : Nat} (text : Text)

theorem upTo_splitKeep : upTo text (byteLength (splitKeep n text).1) = pure (splitKeep n text).1 := by
  have sliced := upTo_append (splitKeep n text).1 (splitKeep n text).2
  rwa [splitKeep_append] at sliced

theorem startFrom_splitKeep :
    startFrom text (byteLength (splitKeep n text).1) = pure (splitKeep n text).2 := by
  have sliced := startFrom_append (splitKeep n text).1 (splitKeep n text).2
  rwa [splitKeep_append] at sliced

end Keep

theorem byteLength_pos_iff {text : Text} : 0 < byteLength text ↔ text ≠ [] := by
  constructor
  · rintro some rfl
    exact absurd some (Nat.lt_irrefl 0)
  · intro nonempty
    exact (List.length_pos_iff.mpr nonempty).trans_le (length_le_byteLength text)

theorem startRound_none (none_found : findRealThinkingStartTag c.thinkingBuffer = none) :
    startRound env c = pure (c.scanStart env, false) := by
  have tag : byteLength thinkingStartTag = thinkingStartTag.length := by decide
  have keeps : 0 < thinkingStartTag.length := by decide
  unfold startRound scanStart
  rw [checkedFindRealThinkingStartTag_eq, none_found, tag]
  dsimp only [Option.map_none]
  rw [pure_bind]
  dsimp only
  rw [findCharBoundary_eq keeps]
  by_cases safe : (splitKeep thinkingStartTag.length c.thinkingBuffer).1 = []
  · rw [safe]
    rfl
  · rw [if_pos (byteLength_pos_iff.mpr safe), upTo_splitKeep, pure_bind, visible_eq]
    cases blank : isBlank (splitKeep thinkingStartTag.length c.thinkingBuffer).1 with
    | true => rfl
    | false =>
      rw [if_pos (by decide), createText_buffer, startFrom_splitKeep, pure_bind]
      rfl

theorem startRound_some {before after : Text}
    (found : findRealThinkingStartTag c.thinkingBuffer = some (before, after)) :
    startRound env c = pure ((if isBlank before then quiet c
      else c.createTextDeltaEvents env before).andThen fun c => c.enterThinking env after, true) := by
  obtain ⟨split, -⟩ := findTag_eq_some found
  unfold startRound
  rw [checkedFindRealThinkingStartTag_eq, found]
  dsimp only [Option.map_some]
  rw [pure_bind]
  dsimp only
  have sliced : upTo c.thinkingBuffer (byteLength before) = pure before := by
    rw [split, List.append_assoc, upTo_append]
  have behind : startFrom c.thinkingBuffer (byteLength before + byteLength thinkingStartTag) =
      pure after := by
    rw [split, startFrom_tag]
  rw [sliced, pure_bind, visible_eq]
  cases blank : isBlank before with
  | true =>
    show startFrom c.thinkingBuffer _ >>= _ = _
    rw [behind]
    rfl
  | false =>
    show startFrom (c.createTextDeltaEvents env before).2.thinkingBuffer _ >>= _ = _
    rw [createText_buffer, behind]
    rfl

theorem sendThinking_buffer (kept text : Text) :
    ({ c with thinkingBuffer := kept }).sendThinking text =
      (c.sendThinking text).andThen fun c => quiet { c with thinkingBuffer := kept } := by
  refine Prod.ext ?_ ?_
  · show (sendThinking _ text).1 = (c.sendThinking text).1 ++ []
    rw [List.append_nil]
    unfold sendThinking
    dsimp only
    cases c.thinkingBlockIndex with
    | none => rfl
    | some index => rfl
  · show (sendThinking _ text).2 = { (c.sendThinking text).2 with thinkingBuffer := kept }
    rw [sendThinking_frame, sendThinking_frame]

theorem thinkingRound_none
    (none_found : findRealThinkingEndTagWithBoundary c.stripLeadingNewline.thinkingBuffer = none) :
    thinkingRound c = pure (c.scanThinking env, false) := by
  have tag : byteLength thinkingEndTag = thinkingEndTag.length := by decide
  have keeps : 0 < thinkingEndTag.length := by decide
  unfold thinkingRound scanThinking
  dsimp only
  rw [checkedStripLeadingNewline_eq, pure_bind, checkedFindRealThinkingEndTagWithBoundary_eq,
    none_found, tag]
  dsimp only [Option.map_none]
  rw [pure_bind]
  dsimp only
  rw [findCharBoundary_eq keeps]
  by_cases safe : (splitKeep thinkingEndTag.length c.stripLeadingNewline.thinkingBuffer).1 = []
  · rw [safe]
    rfl
  · have visible : ¬ (splitKeep thinkingEndTag.length
        c.stripLeadingNewline.thinkingBuffer).1.isEmpty = true := by
      rw [List.isEmpty_iff]
      exact safe
    rw [if_pos (byteLength_pos_iff.mpr safe), upTo_splitKeep, pure_bind, if_neg visible,
      if_neg visible, sendThinking_frame, startFrom_splitKeep, pure_bind]
    exact congrArg (fun sent => pure (sent, false)) (sendThinking_buffer _ _).symm

/-- The text behind an end tag is a tail of the buffer. -/
theorem suffix_of_endTag {buffer thinking after : Text}
    (found : findRealThinkingEndTagWithBoundary buffer = some (thinking, after)) :
    (∃ rest, buffer = thinking ++ rest) ∧ after <:+ buffer := by
  obtain ⟨⟨thinking', behind⟩, tagged, eq⟩ := Option.map_eq_some_iff.mp found
  obtain ⟨split, -⟩ := findTag_eq_some tagged
  cases eq
  refine ⟨⟨thinkingEndTag ++ behind, by rw [split, List.append_assoc]⟩, ?_⟩
  rw [split]
  refine List.IsSuffix.trans ?_ (List.suffix_append _ _)
  unfold skipBoundary
  split_ifs
  · exact List.nil_suffix
  · exact List.drop_suffix _ _
  · exact List.drop_suffix _ _
  · exact List.drop_suffix _ _
  · exact List.drop_suffix _ _
  · exact List.suffix_refl _

theorem thinkingRound_some {thinking after : Text}
    (found : findRealThinkingEndTagWithBoundary c.stripLeadingNewline.thinkingBuffer =
      some (thinking, after)) :
    thinkingRound c = pure ((c.stripLeadingNewline.endThinking thinking).andThen fun c =>
      quiet { c with thinkingBuffer := after }, true) := by
  obtain ⟨⟨rest, split⟩, behind⟩ := suffix_of_endTag found
  have sliced : upTo c.stripLeadingNewline.thinkingBuffer (byteLength thinking) =
      pure thinking := by
    rw [split, upTo_append]
  unfold thinkingRound
  rw [checkedStripLeadingNewline_eq, pure_bind, checkedFindRealThinkingEndTagWithBoundary_eq,
    found]
  dsimp only [Option.map_some]
  rw [pure_bind]
  dsimp only
  rw [sliced, pure_bind, endThinking_buffer, startFrom_behind behind, pure_bind]

theorem contentRounds_extracted (untagged : c.inThinkingBlock = false)
    (extracted : c.thinkingExtracted = true) (rounds : Nat) :
    contentRounds env (rounds + 1) c = pure (c.emitExtracted env) := by
  have round : contentRound env c = pure (c.emitExtracted env, false) := by
    rw [contentRound, untagged, extracted]
    rfl
  rw [contentRounds, round, pure_bind]
  rfl

theorem contentRounds_thinking (tagged : c.inThinkingBlock = true) (rounds : Nat) :
    contentRounds env (rounds + 2) c = pure (c.scanThinking env) := by
  have round : contentRound env c = thinkingRound c := by
    rw [contentRound, tagged]
    rfl
  rw [contentRounds, round]
  cases found : findRealThinkingEndTagWithBoundary c.stripLeadingNewline.thinkingBuffer with
  | none =>
    rw [thinkingRound_none found, pure_bind]
    rfl
  | some p =>
    obtain ⟨thinking, after⟩ := p
    obtain ⟨m, ended⟩ := endThinking_frame c.stripLeadingNewline thinking
    rw [thinkingRound_some found, pure_bind]
    dsimp only
    rw [if_pos rfl]
    refine (andThenChecked_of (contentRounds_extracted ?_ ?_ rounds)).trans ?_
    · show (c.stripLeadingNewline.endThinking thinking).2.inThinkingBlock = false
      rw [ended]
    · show (c.stripLeadingNewline.endThinking thinking).2.thinkingExtracted = true
      rw [ended]
    · unfold scanThinking
      dsimp only
      rw [found, andThen_assoc]
      rfl

theorem contentRounds_start (untagged : c.inThinkingBlock = false)
    (waiting : c.thinkingExtracted = false) (rounds : Nat) :
    contentRounds env (rounds + 3) c = pure (c.scanStart env) := by
  have round : contentRound env c = startRound env c := by
    rw [contentRound, untagged, waiting]
    rfl
  rw [contentRounds, round]
  cases found : findRealThinkingStartTag c.thinkingBuffer with
  | none =>
    rw [startRound_none found, pure_bind]
    rfl
  | some p =>
    obtain ⟨before, after⟩ := p
    rw [startRound_some found, pure_bind]
    dsimp only
    rw [if_pos rfl]
    refine (andThenChecked_of (contentRounds_thinking ?_ rounds)).trans ?_
    · rfl
    · unfold scanStart
      rw [found]
      rfl

/-- The loop ends in its third round at the latest. -/
theorem contentRounds_eq (c : StreamContext) : contentRounds env 3 c =
    pure (if !c.inThinkingBlock && !c.thinkingExtracted then c.scanStart env
      else if c.inThinkingBlock then c.scanThinking env
      else c.emitExtracted env) := by
  by_cases tagged : c.inThinkingBlock = true
  · rw [contentRounds_thinking tagged 1, tagged]
    rfl
  · rw [Bool.not_eq_true] at tagged
    cases extracted : c.thinkingExtracted with
    | true =>
      rw [contentRounds_extracted tagged extracted 2, tagged]
      rfl
    | false =>
      rw [contentRounds_start tagged extracted 0, tagged]
      rfl

theorem checkedProcessContentWithThinking_eq (c : StreamContext) (content : Text) :
    checkedProcessContentWithThinking env c content =
      pure (c.processContentWithThinking env content) :=
  contentRounds_eq _

theorem checkedProcessFiltered_eq (c : StreamContext) (content : Text) :
    checkedProcessFiltered env c content = pure (c.processFiltered env content) := by
  unfold checkedProcessFiltered processFiltered
  split_ifs with enabled
  · exact checkedProcessContentWithThinking_eq c content
  · rfl

theorem checkedProcessAssistantResponse_eq (c : StreamContext) (content : Text) :
    checkedProcessAssistantResponse env c content =
      pure (c.processAssistantResponse env content) := by
  unfold checkedProcessAssistantResponse processAssistantResponse
  rw [checkedFilter_eq, pure_bind]
  dsimp only
  split_ifs with empty
  · rfl
  · exact checkedProcessFiltered_eq _ _

theorem endAtBufferEnd_eq (c : StreamContext) : endAtBufferEnd env c =
    pure ((findRealThinkingEndTagAtBufferEnd c.thinkingBuffer).map fun p =>
      (c.endThinking p.1).andThen fun c => c.emitRest env p.2) := by
  unfold endAtBufferEnd
  rw [checkedFindRealThinkingEndTagAtBufferEnd_eq, pure_bind]
  cases found : findRealThinkingEndTagAtBufferEnd c.thinkingBuffer with
  | none => rfl
  | some p =>
    obtain ⟨thinking, after⟩ := p
    obtain ⟨split, -⟩ := findTag_eq_some found
    have sliced : upTo c.thinkingBuffer (byteLength thinking) = pure thinking := by
      rw [split, List.append_assoc, upTo_append]
    have behind : startFrom c.thinkingBuffer (byteLength thinking + byteLength thinkingEndTag) =
        pure after := by
      rw [split, startFrom_tag]
    dsimp only [Option.map_some]
    rw [sliced, pure_bind, endThinking_buffer, behind, pure_bind]

theorem checkedProcessToolUse_eq (c : StreamContext) (e : ToolUseEvent) :
    checkedProcessToolUse env c e = pure (c.processToolUse env e) := by
  have settled : ∀ c : StreamContext, checkedSettleThinking env c = pure (c.settleThinking env) := by
    intro c
    unfold checkedSettleThinking settleThinking
    split_ifs with tagged
    · rw [endAtBufferEnd_eq, pure_bind]
      cases findRealThinkingEndTagAtBufferEnd c.thinkingBuffer with
      | none => rfl
      | some p => rfl
    · rfl
  rw [checkedProcessToolUse, settled, pure_bind]
  rfl

theorem checkedProcessKiroEvent_eq (c : StreamContext) (event : Event) :
    checkedProcessKiroEvent env c event = pure (c.processKiroEvent env event) := by
  have answered : ∀ content, (andThenChecked c.closeReasoningIfOpen fun c =>
      checkedProcessAssistantResponse env c content) =
        pure (c.closeReasoningIfOpen.andThen fun c => c.processAssistantResponse env content) :=
    fun content => andThenChecked_eq (fun c => checkedProcessAssistantResponse_eq c content) _
  cases event with
  | assistantResponse content => exact answered content
  | code content => exact answered content
  | toolUse e => exact andThenChecked_eq (fun c => checkedProcessToolUse_eq c e) _
  | _ => rfl

theorem checkedFinishFilter_eq (c : StreamContext) :
    checkedFinishFilter env c = pure (c.finishFilter env) := by
  unfold checkedFinishFilter finishFilter
  rw [checkedFinish_eq, pure_bind]
  dsimp only
  split_ifs with empty
  · rfl
  · exact checkedProcessFiltered_eq _ _

theorem checkedFlushBuffer_eq (c : StreamContext) :
    checkedFlushBuffer env c = pure (c.flushBuffer env) := by
  unfold checkedFlushBuffer flushBuffer
  by_cases flushes : (c.thinkingEnabled && !c.thinkingBuffer.isEmpty) = true
  · rw [if_pos flushes, if_pos flushes]
    by_cases tagged : c.inThinkingBlock = true
    · rw [if_pos tagged, if_pos tagged, endAtBufferEnd_eq, pure_bind]
      cases findRealThinkingEndTagAtBufferEnd c.thinkingBuffer with
      | none => rfl
      | some p => rfl
    · rw [if_neg tagged, if_neg tagged]
      rfl
  · rw [if_neg flushes, if_neg flushes]

theorem checkedGenerateFinalEvents_eq (c : StreamContext) :
    checkedGenerateFinalEvents env c = pure (c.generateFinalEvents env) := by
  rw [checkedGenerateFinalEvents, andThenChecked_eq checkedFinishFilter_eq, pure_bind]
  refine andThenChecked_eq (fun c => ?_) _
  cases c.toolJsonError with
  | some err => rfl
  | none => rw [andThenChecked_eq checkedFlushBuffer_eq, pure_bind]

theorem checkedEvents_eq (events : List Event) (c : StreamContext) :
    checkedEvents env events c = pure (emitAll (processKiroEvent env) events c) := by
  induction events generalizing c with
  | nil => rfl
  | cons event rest ih =>
    rw [checkedEvents, checkedProcessKiroEvent_eq, pure_bind, andThenChecked_eq ih]
    rfl

/-- Whatever the texts of a stream, no cut in them stops it, and no loop keeps it. -/
theorem checkedStreamed_eq (env : StreamEnv) (c : StreamContext) (events : List Event) :
    (checkedStreamed env c events).run = some (.ok (c.streamed env events)) := by
  have begun : andThenChecked (c.generateInitialEvents env) (checkedEvents env events) =
      pure ((c.generateInitialEvents env).andThen (emitAll (processKiroEvent env) events)) :=
    andThenChecked_eq (checkedEvents_eq events) _
  rw [checkedStreamed, begun, pure_bind, andThenChecked_eq checkedGenerateFinalEvents_eq]
  rfl

end KiroRs.Stream.SliceSafety
