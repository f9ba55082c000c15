/- Path: KiroRs/Stream/Relay
   source: src/anthropic/stream.rs
   digest: What a stream tells the client where its text has neither thinking tags nor leaks: the
   text, the thinking, the redacted thinking and the stop reason, event by event and at its end. -/

import KiroRs.Stream.Telling

set_option autoImplicit false
set_option relaxedAutoImplicit false

namespace KiroRs.Stream.Relay

open KiroRs.Lib
open KiroRs.Lib.Emits
open KiroRs.Lib.Segments
open KiroRs.Lib.Slots
open KiroRs.Lib.Text
open KiroRs.Converter.ToolNames (ToolNameMap)
open KiroRs.Stream.XmlFilter
open KiroRs.Stream.Events
open KiroRs.Stream.StateManager
open KiroRs.Stream.ThinkingTags
open KiroRs.Stream.ToolJson
open KiroRs.Stream.Context
open KiroRs.Stream.Context.StreamContext
open KiroRs.Stream.Replies
open KiroRs.Stream.ReplyOps
open KiroRs.Stream.ToolCalls
open KiroRs.Stream.CallReplies
open KiroRs.Stream.TextFlow
open KiroRs.Stream.Telling
open KiroRs.Stream.BlockOrder (newContext)

variable {env : StreamEnv} {c c' : StreamContext} {r : Sent} {text : Text}
variable {log sent : List SseEvent} {m m' : SseStateManager}

/-- What the events of the upstream come to: the text and the thinking, the data of the redacted
thinking, whether some thinking was no such data, whether there was a call, and the stop reason that
was set last. -/
structure Heard where
  text : Text := []
  thinking : Text := []
  redacted : List String := []
  reasoned : Bool := false
  called : Bool := false
  reason : Option String := none

/-- A context outside of thinking in a text that knows what was heard. -/
structure Sits (enabled : Bool) (h : Heard) (c : StreamContext) : Prop where
  enabled : c.thinkingEnabled = enabled
  outside : c.inThinkingBlock = false
  unstripped : c.stripTextAfterThinkingBoundary = false
  index : c.thinkingBlockIndex.isSome = h.reasoned
  reasoning : c.reasoningBlockOpen = true → h.reasoned = true
  reason : c.stateManager.stopReason = h.reason
  called : c.stateManager.hasToolUse = h.called
  unsent : c.stateManager.messageDeltaSent = false

/-- The client was told what was heard, and a text of an answer with thinking was started only
where there is text. -/
structure Answers (enabled : Bool) (h : Heard) (log : List SseEvent) (c : StreamContext) : Prop where
  known : Known (received log) c
  aims : Aims (received log) c
  sits : Sits enabled h c
  text : contentOf .text (received log) = h.text
  thinking : contentOf .thinking (received log) = h.thinking
  redacted : (told log).redacted = h.redacted
  started : enabled = true → (told log).started = !h.text.isEmpty

variable {enabled : Bool} {h h' : Heard}

theorem Sits.keeps (sits : Sits enabled h c) (keeps : Keeps c c') : Sits enabled h c' where
  enabled := keeps.enabled.trans sits.enabled
  outside := keeps.inside.trans sits.outside
  unstripped := keeps.strips.trans sits.unstripped
  index := (congrArg Option.isSome keeps.index).trans sits.index
  reasoning := fun still => sits.reasoning (keeps.reasoning still)
  reason := keeps.manager.reason.trans sits.reason
  called := keeps.manager.tooled.trans sits.called
  unsent := keeps.manager.unsent.trans sits.unsent

theorem Sits.saying (sits : Sits enabled h c) (reasoned : h'.reasoned = h.reasoned)
    (called : h'.called = h.called) (reason : h'.reason = h.reason) : Sits enabled h' c := by
  obtain ⟨on, outside, unstripped, index, reasoning, last, noted, unsent⟩ := sits
  rw [← reasoned] at index reasoning
  rw [← reason] at last
  rw [← called] at noted
  exact ⟨on, outside, unstripped, index, reasoning, last, noted, unsent⟩

theorem Answers.mute {touched : BlockType → Bool} (a : Answers enabled h log c)
    (does : Does touched (received log) r) (mute : Mute r.1)
    (aims : Fits (after (received log) r.1) → Aims (after (received log) r.1) r.2)
    (sits : Sits enabled h' r.2) (text : h'.text = h.text) (thinking : h'.thinking = h.thinking)
    (redacted : h'.redacted = h.redacted) : Upto (Answers enabled h') log r := by
  intro fits
  have split : received (log ++ r.1) = after (received log) r.1 := after_append ..
  have same : told (log ++ r.1) = told log := by
    rw [told_append, mute.told, Told.join_empty]
  rw [split] at fits
  refine ⟨?_, ?_, sits, ?_, ?_, ?_, ?_⟩
  · rw [split]
    exact (does fits).known
  · rw [split]
    exact aims fits
  · rw [split, contentOf_mute mute, text]
    exact a.text
  · rw [split, contentOf_mute mute, thinking]
    exact a.thinking
  · rw [same, redacted]
    exact a.redacted
  · rw [same, text]
    exact a.started

theorem Answers.same (a : Answers enabled h log c) (keeps : Keeps c c')
    (blocks : c'.stateManager.activeBlocks = c.stateManager.activeBlocks)
    (next : c'.stateManager.nextBlockIndex = c.stateManager.nextBlockIndex)
    (index : c'.textBlockIndex = c.textBlockIndex)
    (tools : c'.toolBlockIndices = c.toolBlockIndices) : Answers enabled h log c' :=
  { a with
    known := a.known.same blocks next index keeps.index tools
    aims := a.aims.same index keeps.index
    sits := a.sits.keeps keeps }

theorem Answers.createText (env : StreamEnv) (a : Answers enabled h log c) (nonempty : text ≠ []) :
    Upto (Answers enabled { h with text := h.text ++ text }) log
      (c.createTextDeltaEvents env text) := by
  intro fits
  have split : received (log ++ (c.createTextDeltaEvents env text).1) =
      after (received log) (c.createTextDeltaEvents env text).1 := after_append ..
  have fits_after := fits
  rw [split] at fits_after
  have effect := does_createText env a.known text fits_after
  have known := effect.known
  obtain ⟨content, aims⟩ := aims_createText env a.known a.aims text fits_after
  rw [← split] at known aims
  obtain ⟨started, said⟩ := told_createText env a.known text fits_after
  refine ⟨known, aims, ?_, ?_, ?_, ?_, ?_⟩
  · exact (a.sits.keeps (keeps_createText env c text)).saying rfl rfl rfl
  · rw [split, content, a.text]
  · rw [split, contentOf_kept effect rfl]
    exact a.thinking
  · rw [told_append, said]
    exact (List.append_nil _).trans a.redacted
  · intro _
    obtain ⟨i, index⟩ := textBlockIndex_createText env c text
    rw [started_of_has (known.text i index)]
    cases both : h.text ++ text with
    | nil => exact absurd (List.append_eq_nil_iff.mp both).2 nonempty
    | cons head rest => rfl

theorem Answers.sendThinking (a : Answers enabled h log c) (reasoned : h.reasoned = true)
    (text : Text) :
    Upto (Answers enabled { h with thinking := h.thinking ++ text }) log (c.sendThinking text) := by
  intro fits
  have split : received (log ++ (c.sendThinking text).1) =
      after (received log) (c.sendThinking text).1 := after_append ..
  rw [split] at fits
  have effect := does_sendThinking a.known text fits
  have known := effect.known
  obtain ⟨i, index⟩ := Option.isSome_iff_exists.mp (a.sits.index.trans reasoned)
  obtain ⟨content, aims⟩ := aims_sendThinking a.known a.aims index text
  rw [← split] at known aims
  have said : told (c.sendThinking text).1 = { thinking := text } := by
    unfold StreamContext.sendThinking
    rw [index]
    exact Told.join_empty _
  refine ⟨known, aims, ?_, ?_, ?_, ?_, ?_⟩
  · rw [sendThinking_frame]
    exact a.sits.saying rfl rfl rfl
  · rw [split, contentOf_kept effect rfl]
    exact a.text
  · rw [split, content, a.thinking]
  · rw [told_append, said]
    exact (List.append_nil _).trans a.redacted
  · rw [told_append, said]
    exact fun on => (Bool.or_false _).trans (a.started on)

theorem Answers.closeReasoning (a : Answers enabled h log c) :
    Upto (Answers enabled h) log c.closeReasoningIfOpen :=
  a.mute (does_closeReasoning a.known) (mute_closeReasoning c) (fun _ => aims_closeReasoning a.aims)
    (a.sits.keeps (keeps_closeReasoning c)) rfl rfl rfl

theorem Answers.closeText (a : Answers enabled h log c) :
    Upto (Answers enabled h) log c.closeTextIfOpen :=
  a.mute (does_closeText a.known) (mute_closeText c) (aims_closeText a.known a.aims)
    (a.sits.keeps (keeps_closeText c)) rfl rfl rfl

theorem Answers.emit (env : StreamEnv) (a : Answers enabled h log c) (called : h.called = true)
    (t : CompletedToolUse) : Upto (Answers enabled h) log (c.emitCompletedToolUse env t) :=
  a.mute (does_emit env a.known t) (mute_emit env c t) (aims_emit env a.known a.aims t)
    (a.sits.keeps (keeps_emit env c t (a.sits.called.trans called))) rfl rfl rfl

theorem Answers.emitAll (env : StreamEnv) (a : Answers enabled h log c) (called : h.called = true)
    (pending : List CompletedToolUse) :
    Upto (Answers enabled h) log (Emits.emitAll (emitCompletedToolUse env) pending c) := by
  induction pending generalizing log c with
  | nil => exact upto_quiet a
  | cons t rest ih => exact (a.emit env called t).andThen ih

theorem openReasoning_frame (env : StreamEnv) (c : StreamContext) :
    ∃ m i, Steady c.stateManager m ∧ (c.openReasoning env).2 = { c with
      stateManager := m
      thinkingBlockIndex := some i
      reasoningBlockOpen := true
      inThinkingBlock := false
      thinkingExtracted := true } := by
  have closed := (keeps_closeText c).manager
  obtain ⟨m, eq⟩ := closeTextIfOpen_frame c
  rw [eq] at closed
  unfold openReasoning Emit.andThen
  dsimp only
  rw [eq]
  dsimp only
  cases reused : c.thinkingBlockIndex.filter fun i => m.isBlockOpenOfType i .thinking with
  | some i =>
    refine ⟨_, i, ?_, rfl⟩
    exact closed.trans (steady_start env m i .thinking fun never => by cases never)
  | none =>
    refine ⟨_, m.takeIndex.1, ?_, rfl⟩
    have taken : Steady m m.takeIndex.2 := ⟨rfl, rfl, rfl⟩
    exact (closed.trans taken).trans
      (steady_start env m.takeIndex.2 m.takeIndex.1 .thinking fun never => by cases never)

theorem Answers.openReasoning (env : StreamEnv) (a : Answers enabled h log c) :
    Upto (Answers enabled { h with reasoned := true }) log (c.openReasoning env) := by
  refine a.mute (does_openReasoning env a.known) (mute_openReasoning env c)
    (aims_openReasoning env a.known a.aims) ?_ rfl rfl rfl
  obtain ⟨m, i, steady, eq⟩ := openReasoning_frame env c
  rw [eq]
  exact ⟨a.sits.enabled, rfl, a.sits.unstripped, rfl, fun _ => rfl,
    steady.reason.trans a.sits.reason, steady.tooled.trans a.sits.called,
    steady.unsent.trans a.sits.unsent⟩

theorem told_sendRedacted (env : StreamEnv) {blocks : List Reply} (k : Known blocks c)
    (redacted : String) (fits : Fits (after blocks (sendRedacted env redacted c).1)) :
    told (sendRedacted env redacted c).1 = { redacted := [redacted] } := by
  unfold sendRedacted at fits ⊢
  rw [after_andThen] at fits
  obtain ⟨m', eq, -⟩ := startBlock_next env k.tracks
    (d := { c with stateManager := c.stateManager.takeIndex.2 }) rfl
    (.redactedThinking redacted) (fun same => by cases same) fits.before
  unfold Emit.andThen
  rw [eq]
  dsimp only
  rw [told_append]
  show Told.join _ (told (m'.handleContentBlockStop c.stateManager.takeIndex.1).1) = _
  rw [(mute_stop m' c.stateManager.takeIndex.1).told, Told.join_empty]
  rfl

theorem Answers.sendRedacted (env : StreamEnv) (a : Answers enabled h log c) (redacted : String) :
    Upto (Answers enabled { h with redacted := h.redacted ++ [redacted] }) log
      (ReplyOps.sendRedacted env redacted c) := by
  intro fits
  have split : received (log ++ (ReplyOps.sendRedacted env redacted c).1) =
      after (received log) (ReplyOps.sendRedacted env redacted c).1 := after_append ..
  rw [split] at fits
  have effect := does_sendRedacted env a.known redacted fits
  have known := effect.known
  have aims := aims_sendRedacted env a.known a.aims redacted fits
  rw [← split] at known aims
  have said := told_sendRedacted env a.known redacted fits
  refine ⟨known, aims, ?_, ?_, ?_, ?_, ?_⟩
  · exact (a.sits.keeps (keeps_sendRedacted env redacted c)).saying rfl rfl rfl
  · rw [split, contentOf_kept effect rfl]
    exact a.text
  · rw [split, contentOf_kept effect rfl]
    exact a.thinking
  · rw [told_append, said, ← a.redacted]
    rfl
  · rw [told_append, said]
    exact fun on => (Bool.or_false _).trans (a.started on)

/-- What an event for reasoning comes to where thinking is asked for: its data if it has any, and
its text otherwise. -/
def Heard.think (h : Heard) (e : ReasoningContentEvent) : Heard :=
  match e.redactedContent.filter fun s => !s.isEmpty with
  | some redacted => { h with redacted := h.redacted ++ [redacted] }
  | none => { h with thinking := h.thinking ++ e.text, reasoned := true }

theorem Answers.processReasoning (env : StreamEnv) (a : Answers true h log c)
    (e : ReasoningContentEvent) :
    Upto (Answers true (h.think e)) log (c.processReasoningContent env e) := by
  unfold processReasoningContent Heard.think
  rw [a.sits.enabled, if_neg (by decide)]
  cases e.redactedContent.filter fun s => !s.isEmpty with
  | some redacted =>
    dsimp only
    rw [processRedacted_eq]
    refine ((a.closeReasoning.andThen Answers.closeText).andThen
      fun closed => closed.sendRedacted env redacted).andThen fun sent => upto_quiet ?_
    exact sent.same ⟨rfl, rfl, rfl, rfl, id, Steady.refl _⟩ rfl rfl rfl rfl
  | none =>
    dsimp only
    have opened : Upto (Answers true { h with reasoned := true }) log
        (if c.reasoningBlockOpen then quiet c else c.openReasoning env) := by
      split_ifs with already
      · have reasoned := a.sits.reasoning already
        have same : { h with reasoned := true } = h := by
          rw [← reasoned]
        rw [same]
        exact upto_quiet a
      · exact a.openReasoning env
    refine opened.andThen fun ready => ?_
    generalize (if c.reasoningBlockOpen then quiet c else c.openReasoning env) = r at ready ⊢
    split_ifs with none
    · rw [List.isEmpty_iff] at none
      rw [none, List.append_nil]
      exact upto_quiet ready
    · refine Answers.sendThinking (h := { h with reasoned := true }) ?_ rfl e.text
      exact ready.same ⟨rfl, rfl, rfl, rfl, id, Steady.refl _⟩ rfl rfl rfl rfl

structure Gathers (enabled : Bool) (h : Heard) (log : List SseEvent) (c : StreamContext) : Prop where
  answers : ∃ out, Answers enabled { h with text := out } log c ∧ out ++ c.thinkingBuffer = h.text
  unbuffered : enabled = false → c.thinkingBuffer = []

/-- What was heard is told, but for the text in the buffer and what the leak filter holds. -/
structure Follows (enabled : Bool) (h : Heard) (log : List SseEvent) (c : StreamContext) : Prop where
  gathers : ∃ passed, Gathers enabled { h with text := passed } log c ∧
    passed ++ c.toolUseXmlFilter.buffer = h.text
  held : FilterRuns.Held c.toolUseXmlFilter.buffer
  passing : c.toolUseXmlFilter.stripping = false

theorem Follows.step (f : Follows enabled h log c) (text : h'.text = h.text)
    (buffer : r.2.thinkingBuffer = c.thinkingBuffer)
    (filter : r.2.toolUseXmlFilter = c.toolUseXmlFilter)
    (step : ∀ out, Answers enabled { h with text := out } log c →
      Upto (Answers enabled { h' with text := out }) log r) : Upto (Follows enabled h') log r := by
  obtain ⟨⟨passed, ⟨⟨out, answers, told_so_far⟩, unbuffered⟩, joined⟩, held, passing⟩ := f
  intro fits
  refine ⟨⟨passed, ⟨⟨out, step out answers fits, ?_⟩, ?_⟩, ?_⟩, ?_, ?_⟩
  · rw [buffer]
    exact told_so_far
  · rw [buffer]
    exact unbuffered
  · rw [filter, text]
    exact joined
  · rw [filter]
    exact held
  · rw [filter]
    exact passing

theorem Answers.gathers (a : Answers enabled h log c) (empty : c.thinkingBuffer = []) :
    Gathers enabled h log c :=
  ⟨⟨h.text, a, by rw [empty, List.append_nil]⟩, fun _ => empty⟩

theorem Gathers.emitExtracted (env : StreamEnv) {out : Text}
    (a : Answers enabled { h with text := out } log c) (joined : out ++ c.thinkingBuffer = h.text) :
    Upto (Gathers enabled h) log (c.emitExtracted env) := by
  have emptied : Answers enabled { h with text := out } log { c with
      thinkingBuffer := []
      stripTextAfterThinkingBoundary :=
        c.stripTextAfterThinkingBoundary && c.thinkingBuffer.isEmpty } := by
    refine a.same ⟨rfl, rfl, ?_, rfl, id, Steady.refl _⟩ rfl rfl rfl rfl
    dsimp only
    rw [a.sits.unstripped, Bool.false_and]
  unfold StreamContext.emitExtracted
  rw [a.sits.unstripped] at emptied ⊢
  dsimp only
  rw [if_neg Bool.false_ne_true]
  split_ifs with none
  · rw [List.isEmpty_iff] at none
    rw [none, List.append_nil] at joined
    exact upto_quiet ⟨⟨out, emptied, (List.append_nil out).trans joined⟩, fun _ => rfl⟩
  · rw [List.isEmpty_iff] at none
    have sent := emptied.createText env none
    dsimp only at sent
    rw [joined] at sent
    intro fits
    obtain ⟨m, t, eq⟩ := createTextDeltaEvents_frame env { c with
      thinkingBuffer := []
      stripTextAfterThinkingBoundary := false && c.thinkingBuffer.isEmpty } c.thinkingBuffer
    refine (sent fits).gathers ?_
    rw [eq]

/-- Without a start tag in it the text of the buffer goes on to wait, or all goes out of it that
cannot be a part of the tag. -/
theorem Gathers.scanStart (env : StreamEnv) {out : Text} (a : Answers true { h with text := out } log c)
    (joined : out ++ c.thinkingBuffer = h.text) (untagged : ¬ thinkingStartTag <:+: h.text) :
    Upto (Gathers true h) log (c.scanStart env) := by
  have none : findRealThinkingStartTag c.thinkingBuffer = none := by
    cases found : findRealThinkingStartTag c.thinkingBuffer with
    | none => rfl
    | some p =>
      have split := (findTag_eq_some found).1
      refine absurd ⟨out ++ p.1, p.2, ?_⟩ untagged
      rw [← joined, split, List.append_assoc, List.append_assoc, List.append_assoc]
  unfold StreamContext.scanStart
  rw [none]
  dsimp only
  have whole := splitKeep_append thinkingStartTag.length c.thinkingBuffer
  generalize splitKeep thinkingStartTag.length c.thinkingBuffer = parts at whole ⊢
  obtain ⟨safe, kept⟩ := parts
  dsimp only at whole ⊢
  split_ifs with blank
  · exact upto_quiet ⟨⟨out, a, joined⟩, fun never => by cases never⟩
  · have nonempty : safe ≠ [] := by
      rintro rfl
      exact blank rfl
    refine (a.createText env nonempty).andThen fun sent => upto_quiet ⟨⟨out ++ safe, ?_, ?_⟩, ?_⟩
    · exact sent.same ⟨rfl, rfl, rfl, rfl, id, Steady.refl _⟩ rfl rfl rfl rfl
    · show out ++ safe ++ kept = h.text
      rw [List.append_assoc, whole, joined]
    · exact fun never => by cases never

theorem Gathers.processFiltered (env : StreamEnv) {passed : Text}
    (g : Gathers enabled { h with text := passed } log c) (content : Text) (nonempty : content ≠ [])
    (untagged : enabled = true → ¬ thinkingStartTag <:+: passed ++ content) :
    Upto (Gathers enabled { h with text := passed ++ content }) log
      (c.processFiltered env content) := by
  obtain ⟨⟨out, a, joined⟩, unbuffered⟩ := g
  dsimp only at a joined
  unfold StreamContext.processFiltered
  rw [a.sits.enabled]
  cases enabled with
  | false =>
    have empty := unbuffered rfl
    rw [empty, List.append_nil] at joined
    rw [if_neg Bool.false_ne_true, ← joined]
    intro fits
    obtain ⟨m, t, eq⟩ := createTextDeltaEvents_frame env c content
    refine (a.createText env nonempty fits).gathers ?_
    rw [eq]
    exact empty
  | true =>
    have buffered : Answers true { h with text := out } log
        { c with thinkingBuffer := c.thinkingBuffer ++ content } :=
      a.same ⟨rfl, rfl, rfl, rfl, id, Steady.refl _⟩ rfl rfl rfl rfl
    have joined' : out ++ (c.thinkingBuffer ++ content) = passed ++ content := by
      rw [← List.append_assoc, joined]
    rw [if_pos rfl]
    unfold processContentWithThinking
    dsimp only
    split_ifs with outside inside
    · exact Gathers.scanStart env (h := { h with text := passed ++ content }) buffered joined'
        (untagged rfl)
    · rw [a.sits.outside] at inside
      cases inside
    · exact Gathers.emitExtracted env (h := { h with text := passed ++ content }) buffered joined'

def reasonIn (env : StreamEnv) : Event → Option String
  | .contextUsage percentage =>
    if env.isFull percentage then some "model_context_window_exceeded" else none
  | .exception exceptionType _ =>
    if exceptionType = "ContentLengthExceededException" then some "max_tokens" else none
  | _ => none

def Heard.hear (env : StreamEnv) (enabled : Bool) (h : Heard) : Event → Heard
  | .assistantResponse content | .code content => { h with text := h.text ++ content }
  | .reasoningContent e => if enabled then h.think e else h
  | .toolUse _ => { h with called := true }
  | event => { h with reason := (reasonIn env event).or h.reason }

theorem Follows.closeReasoning (f : Follows enabled h log c) :
    Upto (Follows enabled h) log c.closeReasoningIfOpen := by
  obtain ⟨m, extracted, eq⟩ := closeReasoningIfOpen_frame c
  refine f.step rfl ?_ ?_ fun out a => a.closeReasoning
  · rw [eq]
  · rw [eq]

theorem Follows.processAssistantResponse (env : StreamEnv) (f : Follows enabled h log c)
    (content : Text) (unleaked : ¬ toolUseXmlPrefix <:+: h.text ++ content)
    (untagged : enabled = true → ¬ thinkingStartTag <:+: h.text ++ content) :
    Upto (Follows enabled { h with text := h.text ++ content }) log
      (c.processAssistantResponse env content) := by
  obtain ⟨⟨passed, gathers, joined⟩, held, passing⟩ := f
  generalize before : c.toolUseXmlFilter = filter at joined held passing
  obtain ⟨buffer, stripping⟩ := filter
  dsimp only at joined held passing
  subst passing
  have none : Search.splitFind toolUseXmlPrefix (buffer ++ content) = none := by
    rw [Search.splitFind_eq_none FilterRuns.prefix_ne_nil]
    intro inside
    rw [← joined, List.append_assoc] at unleaked
    exact unleaked (inside.trans (List.suffix_append passed _).isInfix)
  have rejoined := Search.splitPartial_append toolUseXmlPrefix (buffer ++ content)
  have held' := FilterRuns.held_splitPartial none
  unfold StreamContext.processAssistantResponse
  rw [before, FilterRuns.filter_passing, FilterRuns.filterLoop_of_none none]
  dsimp only
  generalize (Search.splitPartial toolUseXmlPrefix (buffer ++ content)).1 = out at rejoined ⊢
  generalize (Search.splitPartial toolUseXmlPrefix (buffer ++ content)).2 = kept
    at rejoined held' ⊢
  have all : passed ++ out ++ kept = h.text ++ content := by
    rw [List.append_assoc, rejoined, ← joined, List.append_assoc]
  obtain ⟨⟨front, a, waits⟩, unbuffered⟩ := gathers
  have filtered (tokens : Int) : Gathers enabled { h with text := passed } log
      { c with
        toolUseXmlFilter := { buffer := kept, stripping := false }
        outputTokens := tokens } :=
    ⟨⟨front, a.same ⟨rfl, rfl, rfl, rfl, id, Steady.refl _⟩ rfl rfl rfl rfl, waits⟩, unbuffered⟩
  split_ifs with nothing
  · rw [List.isEmpty_iff] at nothing
    rw [nothing, List.append_nil] at all
    exact upto_quiet ⟨⟨passed, filtered c.outputTokens, all⟩, held', rfl⟩
  · rw [List.isEmpty_iff] at nothing
    have untagged_out : enabled = true → ¬ thinkingStartTag <:+: passed ++ out := by
      intro on inside
      refine untagged on (inside.trans ?_)
      rw [← all]
      exact (List.prefix_append _ kept).isInfix
    intro fits
    have frame := textFrame_processFiltered env (addOutputTokens
      { c with toolUseXmlFilter := { buffer := kept, stripping := false } } out) out
    refine ⟨⟨passed ++ out, (filtered _).processFiltered env out nothing untagged_out fits, ?_⟩,
      ?_, ?_⟩
    · rw [frame.filter]
      exact all
    · rw [frame.filter]
      exact held'
    · rw [frame.filter]
      rfl

/-- The thinking of the events does not touch the text that waits. -/
theorem processReasoning_frame (env : StreamEnv) (c : StreamContext) (e : ReasoningContentEvent) :
    (c.processReasoningContent env e).2.thinkingBuffer = c.thinkingBuffer ∧
      (c.processReasoningContent env e).2.toolUseXmlFilter = c.toolUseXmlFilter := by
  unfold processReasoningContent
  by_cases disabled : (!c.thinkingEnabled) = true
  · rw [if_pos disabled]
    exact ⟨rfl, rfl⟩
  · rw [if_neg disabled]
    cases e.redactedContent.filter fun s => !s.isEmpty with
    | some redacted =>
      dsimp only
      rw [processRedacted_eq]
      obtain ⟨m, extracted, closed⟩ := closeReasoningIfOpen_frame c
      obtain ⟨m', text_closed⟩ := closeTextIfOpen_frame c.closeReasoningIfOpen.2
      show c.closeReasoningIfOpen.2.closeTextIfOpen.2.thinkingBuffer = _ ∧
        c.closeReasoningIfOpen.2.closeTextIfOpen.2.toolUseXmlFilter = _
      rw [text_closed, closed]
      exact ⟨rfl, rfl⟩
    | none =>
      dsimp only
      have opened :
          (if c.reasoningBlockOpen then quiet c else c.openReasoning env).2.thinkingBuffer =
            c.thinkingBuffer ∧
          (if c.reasoningBlockOpen then quiet c else c.openReasoning env).2.toolUseXmlFilter =
            c.toolUseXmlFilter := by
        split_ifs
        · exact ⟨rfl, rfl⟩
        · obtain ⟨m, i, -, eq⟩ := openReasoning_frame env c
          rw [eq]
          exact ⟨rfl, rfl⟩
      generalize (if c.reasoningBlockOpen then quiet c else c.openReasoning env) = r at opened ⊢
      unfold Emit.andThen
      dsimp only
      split_ifs
      · exact opened
      · rw [sendThinking_frame]
        exact opened

theorem Follows.processReasoning (env : StreamEnv) (f : Follows enabled h log c)
    (e : ReasoningContentEvent) : Upto (Follows enabled (if enabled then h.think e else h)) log
      (c.processReasoningContent env e) := by
  cases enabled with
  | false =>
    obtain ⟨_, ⟨⟨_, a, _⟩, _⟩, _⟩ := f.gathers
    unfold processReasoningContent
    rw [a.sits.enabled]
    exact upto_quiet f
  | true =>
    obtain ⟨buffer, filter⟩ := processReasoning_frame env c e
    rw [if_pos rfl]
    refine f.step ?_ buffer filter fun out a => ?_
    · unfold Heard.think
      split <;> rfl
    · have step := a.processReasoning env e
      unfold Heard.think at step ⊢
      split at step
      · exact step
      · exact step

theorem Follows.flushWaiting (env : StreamEnv) (f : Follows enabled h log c) :
    Upto (Follows enabled h) log (c.flushWaiting env) := by
  unfold StreamContext.flushWaiting
  split_ifs with waits
  · obtain ⟨⟨passed, ⟨⟨out, a, gathered⟩, -⟩, joined⟩, held, passing⟩ := f
    dsimp only at a gathered
    simp only [Bool.and_eq_true, Bool.not_eq_true'] at waits
    have nonempty : c.thinkingBuffer ≠ [] := by
      intro none
      rw [none] at waits
      exact absurd waits.2 (by decide)
    have emptied : Answers enabled { h with text := out } log { c with thinkingBuffer := [] } :=
      a.same ⟨rfl, rfl, rfl, rfl, id, Steady.refl _⟩ rfl rfl rfl rfl
    have sent := emptied.createText env nonempty
    dsimp only at sent
    rw [gathered] at sent
    intro fits
    obtain ⟨m, t, eq⟩ := createTextDeltaEvents_frame env { c with thinkingBuffer := [] }
      c.thinkingBuffer
    have all := sent fits
    rw [eq] at all ⊢
    exact ⟨⟨passed, all.gathers rfl, joined⟩, held, passing⟩
  · exact upto_quiet f

theorem Follows.collect (env : StreamEnv) (f : Follows enabled h log c) (called : h.called = true)
    {e : ToolUseEvent} (parses : (c.toolJsonAccumulator.push env e c.toolNameMap).1.isOk = true) :
    Upto (Follows enabled h) log (c.collectToolUse env e) := by
  unfold StreamContext.collectToolUse
  generalize c.toolJsonAccumulator.push env e c.toolNameMap = pushed at parses ⊢
  obtain ⟨result, accumulator⟩ := pushed
  have kept (out : Text) (a : Answers enabled { h with text := out } log c) :
      Answers enabled { h with text := out } log { c with toolJsonAccumulator := accumulator } :=
    a.same ⟨rfl, rfl, rfl, rfl, id, Steady.refl _⟩ rfl rfl rfl rfl
  cases result with
  | error err => cases parses
  | ok completed =>
    cases completed with
    | none =>
      dsimp only
      exact f.step rfl rfl rfl fun out a => upto_quiet (kept out a)
    | some t =>
      dsimp only
      obtain ⟨m, indices, tokens, eq⟩ := emit_frame env
        { c with toolJsonAccumulator := accumulator } t
      refine f.step rfl ?_ ?_ fun out a => (kept out a).emit env called t
      · rw [eq]
      · rw [eq]

theorem Follows.processToolUse (env : StreamEnv) (f : Follows enabled h log c) {e : ToolUseEvent}
    (parses : (c.toolJsonAccumulator.push env e c.toolNameMap).1.isOk = true) :
    Upto (Follows enabled { h with called := true }) log (c.processToolUse env e) := by
  obtain ⟨_, ⟨⟨_, a, _⟩, _⟩, _⟩ := f.gathers
  have settled : { c with stateManager := c.stateManager.setHasToolUse true }.settleThinking env =
      quiet { c with stateManager := c.stateManager.setHasToolUse true } := by
    unfold StreamContext.settleThinking
    rw [if_neg]
    rw [a.sits.outside, Bool.and_false]
    exact Bool.false_ne_true
  have noted : Upto (Follows enabled { h with called := true }) log
      (quiet { c with stateManager := c.stateManager.setHasToolUse true }) := by
    refine f.step rfl rfl rfl fun out a => ?_
    have does : Does notTools (received log)
        (quiet { c with stateManager := c.stateManager.setHasToolUse true }) :=
      does_quiet (a.known.same rfl rfl rfl rfl rfl)
    exact a.mute does mute_nil (fun _ => a.aims.same rfl rfl) { a.sits with called := rfl }
      rfl rfl rfl
  unfold StreamContext.processToolUse
  rw [settled]
  refine (noted.andThen fun ready => ready.flushWaiting env).andThen fun flushed => ?_
  refine flushed.collect env rfl ?_
  have frame := toolFrame_flushWaiting env
    (quiet (ε := SseEvent) { c with stateManager := c.stateManager.setHasToolUse true }).2
  show ((StreamContext.flushWaiting env _).2.toolJsonAccumulator.push env e
    (StreamContext.flushWaiting env _).2.toolNameMap).1.isOk = true
  rw [frame.accumulator, frame.names]
  exact parses

theorem Follows.note (f : Follows enabled h log c) (c' : StreamContext) (reason : Option String)
    (eq : c' = { c with
      contextInputTokens := c'.contextInputTokens
      stateManager := { c.stateManager with stopReason := reason.or c.stateManager.stopReason } }) :
    Upto (Follows enabled { h with reason := reason.or h.reason }) log (quiet c') := by
  rw [eq]
  refine f.step rfl rfl rfl fun out a => ?_
  have does : Does notTools (received log) (quiet { c with
      contextInputTokens := c'.contextInputTokens
      stateManager :=
        { c.stateManager with stopReason := reason.or c.stateManager.stopReason } }) :=
    does_quiet (a.known.same rfl rfl rfl rfl rfl)
  refine a.mute does mute_nil (fun _ => a.aims.same rfl rfl) ?_ rfl rfl rfl
  refine { a.sits with reason := ?_ }
  show reason.or c.stateManager.stopReason = reason.or h.reason
  rw [a.sits.reason]

theorem Follows.processKiroEvent (env : StreamEnv) (f : Follows enabled h log c) (event : Event)
    (unleaked : ¬ toolUseXmlPrefix <:+: (h.hear env enabled event).text)
    (untagged : enabled = true → ¬ thinkingStartTag <:+: (h.hear env enabled event).text)
    (parses : ∀ e, fragmentOf event = some e →
      (c.toolJsonAccumulator.push env e c.toolNameMap).1.isOk = true) :
    Upto (Follows enabled (h.hear env enabled event)) log (c.processKiroEvent env event) := by
  cases event with
  | assistantResponse content | code content =>
    exact f.closeReasoning.andThen fun closed =>
      closed.processAssistantResponse env content unleaked untagged
  | toolUse e =>
    have frame := toolFrame_closeReasoning c
    refine f.closeReasoning.andThen fun closed => closed.processToolUse env ?_
    rw [frame.accumulator, frame.names]
    exact parses e rfl
  | reasoningContent e => exact f.processReasoning env e
  | contextUsage percentage =>
    refine f.note _ (reasonIn env (.contextUsage percentage)) ?_
    by_cases full : env.isFull percentage = true
    · have reason : reasonIn env (.contextUsage percentage) =
          some "model_context_window_exceeded" := if_pos full
      rw [reason, if_pos full]
      rfl
    · have reason : reasonIn env (.contextUsage percentage) = none := if_neg full
      rw [reason, if_neg full]
      rfl
  | exception exceptionType message =>
    unfold StreamContext.processKiroEvent Heard.hear
    dsimp only
    by_cases full : exceptionType = "ContentLengthExceededException"
    · have reason : reasonIn env (.exception exceptionType message) = some "max_tokens" :=
        if_pos full
      rw [reason, if_pos full]
      exact f.note _ (some "max_tokens") rfl
    · have reason : reasonIn env (.exception exceptionType message) = none := if_neg full
      rw [reason, if_neg full]
      exact f.note c none rfl
  | metering _ | error _ _ | unknown => exact f.note c none rfl

structure Collects (map : ToolNameMap) (acc : ToolJsonAccumulator) (c : StreamContext) : Prop where
  names : c.toolNameMap = map
  accumulator : c.toolJsonAccumulator = acc
  error : c.toolJsonError = none

variable {map : ToolNameMap} {acc : ToolJsonAccumulator}

theorem Collects.frame (collects : Collects map acc c) (frame : ToolFrame c c') :
    Collects map acc c' :=
  ⟨frame.names.trans collects.names, frame.accumulator.trans collects.accumulator,
    frame.error.trans collects.error⟩

theorem Collects.collect (env : StreamEnv) (collects : Collects map acc c) {e : ToolUseEvent}
    (parses : (acc.push env e map).1.isOk = true) :
    Collects map (acc.push env e map).2 (c.collectToolUse env e).2 := by
  obtain ⟨rfl, rfl, error⟩ := collects
  unfold StreamContext.collectToolUse
  generalize c.toolJsonAccumulator.push env e c.toolNameMap = pushed at parses ⊢
  obtain ⟨result, kept⟩ := pushed
  cases result with
  | error err => cases parses
  | ok completed =>
    cases completed with
    | none => exact ⟨rfl, rfl, error⟩
    | some t =>
      obtain ⟨m, indices, tokens, eq⟩ := emit_frame env { c with toolJsonAccumulator := kept } t
      dsimp only
      rw [eq]
      exact ⟨rfl, rfl, error⟩

theorem Collects.event (env : StreamEnv) {blocks : List Reply} (known : Known blocks c)
    (collects : Collects map acc c) (event : Event)
    (parses : failed env map acc (fragments [event]) = false) :
    Collects map (left env map acc (fragments [event])) (c.processKiroEvent env event).2 := by
  by_cases other : fragmentOf event = none
  · have nothing : fragments [event] = [] := List.filterMap_cons_none other
    rw [nothing]
    exact collects.frame (does_processKiroEvent env known other).2
  · cases event with
    | toolUse e =>
      have one : fragments [.toolUse e] = [e] := rfl
      rw [one] at parses ⊢
      unfold failed at parses
      rw [Bool.or_eq_false_iff, Bool.not_eq_false'] at parses
      refine Collects.collect env (collects.frame ?_) parses.1
      refine (toolFrame_closeReasoning c).trans ?_
      refine ToolFrame.trans ?_ (toolFrame_flushWaiting env _)
      refine ToolFrame.trans ?_ (toolFrame_settleThinking env _)
      exact ⟨rfl, rfl, rfl, rfl⟩
    | assistantResponse _ | code _ | metering _ | contextUsage _ | reasoningContent _ | unknown
    | error _ _ | exception _ _ => exact absurd rfl other

theorem text_hear (env : StreamEnv) (h : Heard) (event : Event) :
    (h.hear env enabled event).text = h.text ++ textOf event := by
  cases event with
  | assistantResponse content | code content => rfl
  | reasoningContent e =>
    have same : (h.think e).text = h.text := by
      unfold Heard.think
      split <;> rfl
    show (if enabled then h.think e else h).text = h.text ++ []
    rw [List.append_nil]
    split_ifs
    · exact same
    · rfl
  | toolUse _ | contextUsage _ | exception _ _ | metering _ | error _ _ | unknown =>
    exact (List.append_nil _).symm

/-- Behind its events a context follows them, and its collector holds what they left. -/
theorem follows_emitAll (env : StreamEnv) (events : List Event) (f : Follows enabled h log c)
    (collects : Collects map acc c) (parses : failed env map acc (fragments events) = false)
    (unleaked : ¬ toolUseXmlPrefix <:+: h.text ++ spoken events)
    (untagged : enabled = true → ¬ thinkingStartTag <:+: h.text ++ spoken events) :
    Upto (fun log c => Follows enabled (events.foldl (Heard.hear env enabled) h) log c ∧
      Collects map (left env map acc (fragments events)) c) log
        (Emits.emitAll (processKiroEvent env) events c) := by
  induction events generalizing h log c acc with
  | nil => exact upto_quiet ⟨f, collects⟩
  | cons event rest ih =>
    have cons : fragments (event :: rest) = fragments [event] ++ fragments rest :=
      List.filterMap_append (l := [event])
    have text : (h.hear env enabled event).text ++ spoken rest = h.text ++ spoken (event :: rest) := by
      rw [text_hear, List.append_assoc]
      rfl
    have front : (h.hear env enabled event).text <:+: h.text ++ spoken (event :: rest) := by
      rw [← text]
      exact (List.prefix_append _ _).isInfix
    obtain ⟨_, ⟨⟨_, a, _⟩, _⟩, _⟩ := f.gathers
    rw [cons, failed_append, Bool.or_eq_false_iff] at parses
    rw [cons, left_append]
    refine Upto.andThen (R := fun log c =>
      Follows enabled (h.hear env enabled event) log c ∧
        Collects map (left env map acc (fragments [event])) c) (fun fits => ⟨?_, ?_⟩) fun both => ?_
    · refine f.processKiroEvent env event (fun inside => unleaked (inside.trans front))
        (fun on inside => untagged on (inside.trans front)) ?_ fits
      intro e fragment
      have one := parses.1
      rw [show fragments [event] = [e] from List.filterMap_cons_some fragment] at one
      unfold failed at one
      rw [Bool.or_eq_false_iff, Bool.not_eq_false'] at one
      rw [collects.accumulator, collects.names]
      exact one.1
    · exact collects.event env a.known event parses.1
    · refine ih both.1 both.2 parses.2 ?_ ?_
      · rw [text]
        exact unleaked
      · rw [text]
        exact untagged

theorem Follows.finishTools (env : StreamEnv) (f : Follows enabled h log c)
    (collects : Collects map acc c) (whole : (acc.finish env map).1.isOk = true)
    (noted : acc.buffers = [] ∨ h.called = true) :
    Upto (fun log c => Follows enabled h log c ∧ c.toolJsonError = none) log
      (c.finishTools env) := by
  obtain ⟨rfl, rfl, error⟩ := collects
  have none_pending : c.toolJsonAccumulator.buffers = [] →
      (c.toolJsonAccumulator.finish env c.toolNameMap).1 = .ok [] := fun empty => by
    rw [finish_empty env empty]
  have no_error : ¬ c.toolJsonError.isSome = true := by
    rw [error]
    exact Bool.false_ne_true
  unfold StreamContext.finishTools
  rw [if_neg no_error]
  generalize c.toolJsonAccumulator.finish env c.toolNameMap = finish at whole none_pending ⊢
  obtain ⟨result, accumulator⟩ := finish
  cases result with
  | error err => cases whole
  | ok pending =>
    dsimp only at none_pending ⊢
    obtain ⟨m, indices, tokens, eq⟩ := emitAll_frame env
      { c with toolJsonAccumulator := accumulator } pending
    intro fits
    refine ⟨f.step rfl ?_ ?_ (fun out a => ?_) fits, ?_⟩
    · rw [eq]
    · rw [eq]
    · have kept : Answers enabled { h with text := out } log
          { c with toolJsonAccumulator := accumulator } :=
        a.same ⟨rfl, rfl, rfl, rfl, id, Steady.refl _⟩ rfl rfl rfl rfl
      rcases noted with empty | called
      · cases none_pending empty
        exact upto_quiet kept
      · exact kept.emitAll env called pending
    · rw [eq]
      exact error

theorem Follows.finishFilter (env : StreamEnv) (f : Follows enabled h log c)
    (untagged : enabled = true → ¬ thinkingStartTag <:+: h.text) :
    Upto (Gathers enabled h) log (c.finishFilter env) := by
  obtain ⟨⟨passed, ⟨⟨out, a, gathered⟩, unbuffered⟩, joined⟩, held, passing⟩ := f
  have rest : c.toolUseXmlFilter.finish = c.toolUseXmlFilter.buffer :=
    FilterRuns.finish_of_held held _
  have kept (tokens : Int) : Gathers enabled { h with text := passed } log
      { c with toolUseXmlFilter := {}, outputTokens := tokens } :=
    ⟨⟨out, a.same ⟨rfl, rfl, rfl, rfl, id, Steady.refl _⟩ rfl rfl rfl rfl, gathered⟩, unbuffered⟩
  unfold StreamContext.finishFilter
  rw [rest]
  dsimp only
  split_ifs with none
  · rw [List.isEmpty_iff] at none
    rw [none, List.append_nil] at joined
    have same : { h with text := passed } = h := by
      rw [joined]
    rw [← same]
    exact upto_quiet (kept c.outputTokens)
  · rw [List.isEmpty_iff] at none
    rw [← joined] at untagged
    have sent := (kept (wrapI32 (c.outputTokens +
      estimateTokens c.toolUseXmlFilter.buffer))).processFiltered env c.toolUseXmlFilter.buffer none
        untagged
    have same : { h with text := passed ++ c.toolUseXmlFilter.buffer } = h := by
      rw [joined]
    rw [← same]
    exact sent

theorem Gathers.closeReasoning (g : Gathers enabled h log c) :
    Upto (Gathers enabled h) log c.closeReasoningIfOpen := by
  obtain ⟨⟨out, a, gathered⟩, unbuffered⟩ := g
  obtain ⟨m, extracted, eq⟩ := closeReasoningIfOpen_frame c
  intro fits
  have closed := a.closeReasoning fits
  rw [eq] at closed ⊢
  exact ⟨⟨out, closed, gathered⟩, unbuffered⟩

theorem Gathers.flushBuffer (env : StreamEnv) (g : Gathers enabled h log c) :
    Upto (Answers enabled h) log (c.flushBuffer env) := by
  obtain ⟨⟨out, a, gathered⟩, unbuffered⟩ := g
  have same : { h with text := out ++ c.thinkingBuffer } = h := by
    rw [gathered]
  rw [← same]
  unfold StreamContext.flushBuffer
  by_cases flushes : (c.thinkingEnabled && !c.thinkingBuffer.isEmpty) = true
  · have nonempty : ¬ c.thinkingBuffer.isEmpty = true := by
      rw [Bool.and_eq_true, Bool.not_eq_true'] at flushes
      rw [flushes.2]
      exact Bool.false_ne_true
    have outside : ¬ c.inThinkingBlock = true := by
      rw [a.sits.outside]
      exact Bool.false_ne_true
    have unstripped : ¬ c.stripTextAfterThinkingBoundary = true := by
      rw [a.sits.unstripped]
      exact Bool.false_ne_true
    rw [if_pos flushes, if_neg outside, if_neg unstripped]
    dsimp only
    rw [if_neg nonempty]
    have kept : Answers enabled { h with text := out } log { c with
        stripTextAfterThinkingBoundary :=
          c.stripTextAfterThinkingBoundary && c.thinkingBuffer.isEmpty } := by
      refine a.same ⟨rfl, rfl, ?_, rfl, id, Steady.refl _⟩ rfl rfl rfl rfl
      show (c.stripTextAfterThinkingBoundary && _) = c.stripTextAfterThinkingBoundary
      rw [a.sits.unstripped, Bool.false_and]
    rw [List.isEmpty_iff] at nonempty
    refine (kept.createText env nonempty).andThen fun sent => upto_quiet ?_
    exact sent.same ⟨rfl, rfl, rfl, rfl, id, Steady.refl _⟩ rfl rfl rfl rfl
  · rw [if_neg flushes]
    have none : c.thinkingBuffer = [] := by
      rw [a.sits.enabled] at flushes
      cases enabled with
      | false => exact unbuffered rfl
      | true =>
        rw [Bool.true_and, Bool.not_eq_true', Bool.not_eq_false, List.isEmpty_iff] at flushes
        exact flushes
    rw [none, List.append_nil]
    exact upto_quiet a

/-- What is told at the end: an answer of nothing but thinking gets a blank for its text, and is
said to have run out of tokens. -/
def Heard.last (enabled : Bool) (h : Heard) : Heard :=
  if enabled && h.reasoned && h.text.isEmpty && h.redacted.isEmpty && !h.called then
    { h with text := [' '], reason := some "max_tokens" }
  else h

theorem Answers.padThinkingOnly (env : StreamEnv) (a : Answers enabled h log c)
    (calls : log.any isCall = h.called) :
    Upto (Answers enabled (h.last enabled)) log (c.padThinkingOnly env) := by
  have others : enabled = true → c.stateManager.hasNonThinkingBlocks =
      (!h.text.isEmpty || !h.redacted.isEmpty || h.called) := by
    intro on
    rw [hasNonThinkingBlocks_eq a.known.tracks, a.started on, a.redacted, calls]
  have same : (c.thinkingEnabled && c.thinkingBlockIndex.isSome &&
      !c.stateManager.hasNonThinkingBlocks) =
      (enabled && h.reasoned && h.text.isEmpty && h.redacted.isEmpty && !h.called) := by
    rw [a.sits.enabled, a.sits.index]
    cases enabled with
    | false => rfl
    | true =>
      rw [others rfl]
      cases h.text.isEmpty <;> cases h.redacted.isEmpty <;> cases h.called <;>
        cases h.reasoned <;> rfl
  unfold StreamContext.padThinkingOnly Heard.last
  rw [same]
  split_ifs with pads
  · simp only [Bool.and_eq_true, List.isEmpty_iff] at pads
    have noted : Answers enabled { h with reason := some "max_tokens" } log
        { c with stateManager := c.stateManager.setStopReason "max_tokens" } :=
      { a with
        known := a.known.same rfl rfl rfl rfl rfl
        aims := a.aims.same rfl rfl
        sits := { a.sits with reason := rfl } }
    have blank : [' '] ≠ [] := List.cons_ne_nil ' ' []
    have sent := noted.createText env blank
    dsimp only at sent
    rw [pads.1.1.2] at sent
    exact sent
  · exact upto_quiet a

def stopReasonIn (sent : List SseEvent) : Option String :=
  (sent.filterMap fun e => match e with
    | .messageDelta reason _ => some reason
    | _ => none).getLast?

/-- The stop reason of what was heard: the last that was set, or that of a call. -/
def Heard.stopReason (h : Heard) : String :=
  h.reason.getD (if h.called then "tool_use" else "end_turn")

theorem Sits.getStopReason (sits : Sits enabled h c) :
    c.stateManager.getStopReason = h.stopReason := by
  unfold SseStateManager.getStopReason Heard.stopReason
  rw [sits.reason, sits.called]
  cases h.reason <;> rfl

theorem Sits.stopReasonIn_sendFinal (env : StreamEnv) (sits : Sits enabled h c)
    (log : List SseEvent) : stopReasonIn (log ++ (c.sendFinal env).1) = some h.stopReason := by
  have final : ∃ stops usage last, (c.sendFinal env).1 =
      stops ++ [.messageDelta h.stopReason usage] ++ last ∧
        (last = [] ∨ last = [.messageStop]) := by
    unfold StreamContext.sendFinal manage SseStateManager.generateFinalEvents Emit.andThen
    dsimp only
    generalize stopped : c.stateManager.stopOpen env (fun _ => true) = stops
    have same : Steady c.stateManager stops.2 := by
      rw [← stopped]
      exact ⟨rfl, rfl, rfl⟩
    unfold SseStateManager.sendMessageDelta
    rw [same.unsent, sits.unsent, if_neg Bool.false_ne_true]
    have reason : stops.2.getStopReason = h.stopReason := by
      rw [← sits.getStopReason]
      unfold SseStateManager.getStopReason
      rw [same.reason, same.tooled]
    rw [reason]
    refine ⟨stops.1, _, _, rfl, ?_⟩
    unfold SseStateManager.sendMessageStop
    split_ifs
    · exact .inl rfl
    · exact .inr rfl
  obtain ⟨stops, usage, last, eq, end_of⟩ := final
  rw [eq]
  unfold stopReasonIn
  rw [List.filterMap_append, List.filterMap_append, List.filterMap_append]
  rcases end_of with rfl | rfl
  · simp
  · simp

structure Conveys (h : Heard) (sent : List SseEvent) : Prop where
  text : contentOf .text (received sent) = h.text
  thinking : contentOf .thinking (received sent) = h.thinking
  redacted : (told sent).redacted = h.redacted
  reason : stopReasonIn sent = some h.stopReason

theorem text_foldl (env : StreamEnv) (events : List Event) (h : Heard) :
    (events.foldl (Heard.hear env enabled) h).text = h.text ++ spoken events := by
  induction events generalizing h with
  | nil => exact (List.append_nil _).symm
  | cons event rest ih =>
    rw [List.foldl_cons, ih, text_hear, List.append_assoc]
    rfl

theorem called_foldl (env : StreamEnv) (events : List Event) (h : Heard) :
    (events.foldl (Heard.hear env enabled) h).called = (h.called || !(fragments events).isEmpty) := by
  induction events generalizing h with
  | nil => exact (Bool.or_false _).symm
  | cons event rest ih =>
    rw [List.foldl_cons, ih]
    cases event with
    | toolUse e =>
      show (true || !(fragments rest).isEmpty) = (h.called || true)
      rw [Bool.true_or, Bool.or_true]
    | reasoningContent e =>
      have same : (h.think e).called = h.called := by
        unfold Heard.think
        split <;> rfl
      show ((if enabled then h.think e else h).called || _) = _
      split_ifs
      · rw [same]
        rfl
      · rfl
    | assistantResponse _ | code _ | contextUsage _ | exception _ _ | metering _ | error _ _
    | unknown => rfl

theorem delivered_eq_nil (env : StreamEnv) (map : ToolNameMap) {frags : List ToolUseEvent}
    (whole : ¬ HasBroken env frags) : delivered env map frags = [] ↔ frags = [] := by
  constructor
  · intro nothing
    cases frags with
    | nil => rfl
    | cons e rest =>
      have own : (delivered env map (e :: rest)).filter (fun t => t.id = e.toolUseId) =
          expected env map e.toolUseId (e :: rest) := delivered_of_unbroken whole e.toolUseId
      rw [nothing, List.filter_nil] at own
      have listed : e ∈ fragmentsOf e.toolUseId (e :: rest) :=
        List.mem_filter.mpr ⟨List.mem_cons_self, decide_eq_true rfl⟩
      have joined : (callsOf e.toolUseId (e :: rest)).flatten = fragmentsOf e.toolUseId (e :: rest) :=
        flatten_segments _
      rw [← joined] at listed
      obtain ⟨call, mem, -⟩ := List.mem_flatten.mp listed
      have lost := List.filterMap_eq_nil_iff.mp own.symm call mem
      exact absurd ⟨_, call, mem, (delivery_eq_none env map _ _).mp lost⟩ whole
  · rintro rfl
    unfold delivered finished
    rw [show left env map {} [] = {} from rfl, finish_empty env rfl]
    rfl

variable {model messageId : String} {inputTokens : Int} {usage : CacheUsage}

theorem follows_start (env : StreamEnv) :
    Upto (fun log c => Follows enabled {} log c ∧ Collects map {} c) []
      ((newContext model messageId inputTokens enabled map usage).generateInitialEvents env) := by
  intro fits
  have known := (inv_initial env fits).known
  rw [List.nil_append]
  cases enabled with
  | true =>
    have aims : Aims [] ((newContext model messageId inputTokens true map
        usage).generateInitialEvents env).2 :=
      ⟨fun _ never => (by cases never), fun _ never => (by cases never)⟩
    refine ⟨⟨⟨[], ⟨⟨[], ⟨known, aims, ?_, rfl, rfl, rfl, fun _ => rfl⟩, rfl⟩, fun _ => rfl⟩, rfl⟩,
      FilterRuns.held_nil, rfl⟩, rfl, rfl, rfl⟩
    exact ⟨rfl, rfl, rfl, rfl, (fun never => by cases never), rfl, rfl, rfl⟩
  | false =>
    have aims : Aims [Slot.fresh 0 .text] ((newContext model messageId inputTokens false map
        usage).generateInitialEvents env).2 := by
      constructor
      · intro i own
        cases own
        have first : IsLast .text ([] ++ [Slot.fresh 0 .text]) 0 := isLast_fresh .text
        exact first
      · intro i never
        cases never
    refine ⟨⟨⟨[], ⟨⟨[], ⟨known, aims, ?_, rfl, rfl, rfl, fun never => by cases never⟩, rfl⟩,
      fun _ => rfl⟩, rfl⟩, FilterRuns.held_nil, rfl⟩, rfl, rfl, rfl⟩
    exact ⟨rfl, rfl, rfl, rfl, (fun never => by cases never), rfl, rfl, rfl⟩

def filtered (env : StreamEnv) (c : StreamContext) (events : List Event) : Sent :=
  ((c.running env events).andThen fun c => c.finishTools env).andThen fun c => c.finishFilter env

def flushed (env : StreamEnv) (c : StreamContext) (events : List Event) : Sent :=
  ((filtered env c events).andThen closeReasoningIfOpen).andThen fun c => c.flushBuffer env

def ending (env : StreamEnv) (c : StreamContext) : Sent :=
  match c.toolJsonError with
  | some err =>
    (c.closeReasoningIfOpen.andThen fun c => c.sendFinal env).andThen fun c =>
      ([.error err.errorType err.message], c)
  | none =>
    ((c.closeReasoningIfOpen.andThen fun c => c.flushBuffer env).andThen fun c =>
      c.padThinkingOnly env).andThen fun c => c.sendFinal env

theorem streamed_filtered (env : StreamEnv) (c : StreamContext) (events : List Event) :
    c.streamed env events = (filtered env c events).andThen (ending env) := by
  unfold filtered
  rw [andThen_assoc, andThen_assoc]
  have run : c.streamed env events = (c.running env events).andThen
      fun c => c.generateFinalEvents env := rfl
  rw [run]
  exact congrArg _ (funext fun c => andThen_assoc ..)

theorem streamed_flushed (env : StreamEnv) (c : StreamContext) (events : List Event)
    (no_error : (filtered env c events).2.toolJsonError = none) :
    c.streamed env events = (flushed env c events).andThen fun c =>
      (c.padThinkingOnly env).andThen fun c => c.sendFinal env := by
  rw [streamed_filtered]
  unfold flushed
  generalize filtered env c events = r at no_error ⊢
  rw [andThen_assoc, andThen_assoc]
  unfold Emit.andThen ending
  dsimp only
  rw [no_error]
  dsimp only [Emit.andThen]
  rw [List.append_assoc, List.append_assoc]

theorem upto_filtered (env : StreamEnv) (events : List Event)
    (whole : ¬ HasBroken env (fragments events))
    (unleaked : ¬ toolUseXmlPrefix <:+: spoken events)
    (untagged : enabled = true → ¬ thinkingStartTag <:+: spoken events) :
    Upto (fun log c => Gathers enabled (events.foldl (Heard.hear env enabled) {}) log c ∧
      c.toolJsonError = none) []
        (filtered env (newContext model messageId inputTokens enabled map usage) events) := by
  rw [hasBroken_iff env map, not_or, Bool.not_eq_true, Bool.not_eq_false] at whole
  have noted : (left env map {} (fragments events)).buffers = [] ∨
      (events.foldl (Heard.hear env enabled) {}).called = true := by
    rw [called_foldl]
    cases fragments events with
    | nil => exact .inl rfl
    | cons e rest => exact .inr rfl
  refine Upto.andThen (R := fun log c =>
    Follows enabled (events.foldl (Heard.hear env enabled) {}) log c ∧ c.toolJsonError = none)
    ?_ fun both fits => ⟨both.1.finishFilter env ?_ fits, ?_⟩
  · refine Upto.andThen (R := fun log c =>
      Follows enabled (events.foldl (Heard.hear env enabled) {}) log c ∧
        Collects map (left env map {} (fragments events)) c) ?_ fun both =>
          both.1.finishTools env both.2 whole.2 noted
    exact (follows_start env).andThen fun both =>
      follows_emitAll env events both.1 both.2 whole.1 unleaked untagged
  · rw [text_foldl]
    exact untagged
  · exact (toolFrame_finishFilter env _).error.trans both.2

theorem any_isCall_streamed (env : StreamEnv) (events : List Event)
    (whole : ¬ HasBroken env (fragments events))
    (fits : Fits (received
      (streamed env (newContext model messageId inputTokens enabled map usage) events).1)) :
    (streamed env (newContext model messageId inputTokens enabled map usage) events).1.any isCall =
      !(fragments events).isEmpty := by
  have calls := congrArg List.length (callReplies_streamed env events fits)
  generalize (streamed env (newContext model messageId inputTokens enabled map usage) events).1 =
    sent at calls ⊢
  have count := length_ofType_after [] sent
  unfold callReplies received at calls
  rw [List.length_map, List.length_map, count] at calls
  have none_first : (ofType .toolUse ([] : List Reply)).length = 0 := rfl
  rw [none_first, Nat.zero_add] at calls
  have any : sent.any isCall = true ↔ ¬ fragments events = [] := by
    rw [← delivered_eq_nil env map whole, List.any_eq_true, ← List.countP_pos_iff, calls,
      List.length_pos_iff]
    cases delivered env map (fragments events) with
    | nil => exact Iff.rfl
    | cons t rest => exact ⟨fun _ => List.cons_ne_nil _ _, fun _ => List.cons_ne_nil _ _⟩
  rw [Bool.eq_iff_iff, any, Bool.not_eq_true', Bool.eq_false_iff, ne_eq, List.isEmpty_iff]

/-- A stream without thinking tags and leaks, every call of which can be read, tells what its events
come to. -/
theorem conveys_streamed (env : StreamEnv) (events : List Event)
    (whole : ¬ HasBroken env (fragments events))
    (unleaked : ¬ toolUseXmlPrefix <:+: spoken events)
    (untagged : enabled = true → ¬ thinkingStartTag <:+: spoken events)
    (fits : Fits (received
      (streamed env (newContext model messageId inputTokens enabled map usage) events).1)) :
    Conveys ((events.foldl (Heard.hear env enabled) {}).last enabled)
      (streamed env (newContext model messageId inputTokens enabled map usage) events).1 := by
  have calls := any_isCall_streamed env events whole fits
  have heard : (events.foldl (Heard.hear env enabled) {}).called = _ := called_foldl env events {}
  rw [Bool.false_or, ← calls] at heard
  have front : Upto (fun log c =>
      Gathers enabled (events.foldl (Heard.hear env enabled) {}) log c ∧ c.toolJsonError = none) []
        (filtered env (newContext model messageId inputTokens enabled map usage) events) :=
    upto_filtered env events whole unleaked untagged
  generalize newContext model messageId inputTokens enabled map usage = c at *
  generalize events.foldl (Heard.hear env enabled) {} = h at *
  have fits_front : Fits (received (filtered env c events).1) := by
    rw [streamed_filtered] at fits
    unfold received at fits ⊢
    rw [after_andThen] at fits
    exact fits.before
  have no_error := (front fits_front).2
  rw [streamed_flushed env c events no_error] at calls heard fits ⊢
  unfold received at fits
  rw [after_andThen] at fits
  have fits_flushed := fits.before
  rw [after_andThen] at fits
  have flushes : Upto (Answers enabled h) [] (flushed env c events) :=
    (front.andThen fun both => both.1.closeReasoning).andThen fun gathers => gathers.flushBuffer env
  have a := flushes fits_flushed
  rw [List.nil_append] at a
  generalize flushed env c events = r at a fits calls heard ⊢
  obtain ⟨log, c'⟩ := r
  have none (sent : List SseEvent) (no_calls : NoCalls sent) : sent.any isCall = false :=
    List.any_eq_false.mpr fun e mem => by rw [no_calls e mem]; exact Bool.false_ne_true
  have called : log.any isCall = h.called := by
    rw [heard]
    unfold Emit.andThen
    dsimp only
    rw [List.any_append, List.any_append,
      none _ (noCalls_of_does (does_padThinkingOnly env a.known).ofText fits.before),
      none _ (noCalls_sendFinal env _), Bool.or_false, Bool.or_false]
  have fits_pad : Fits (received (log ++ (c'.padThinkingOnly env).1)) := by
    unfold received
    rw [after_append]
    exact fits.before
  have padded := a.padThinkingOnly env called fits_pad
  have final := mute_sendFinal env (c'.padThinkingOnly env).2
  have same : told (log ++ ((c'.padThinkingOnly env).1 ++
      ((c'.padThinkingOnly env).2.sendFinal env).1)) = told (log ++ (c'.padThinkingOnly env).1) := by
    rw [← List.append_assoc, told_append, final.told, Told.join_empty]
  have content (type : BlockType) : contentOf type (received (log ++
      ((c'.padThinkingOnly env).1 ++ ((c'.padThinkingOnly env).2.sendFinal env).1))) =
        contentOf type (received (log ++ (c'.padThinkingOnly env).1)) := by
    rw [← List.append_assoc]
    unfold received
    rw [after_append, contentOf_mute final]
  refine ⟨?_, ?_, ?_, ?_⟩
  · exact (content .text).trans padded.text
  · exact (content .thinking).trans padded.thinking
  · exact (congrArg Told.redacted same).trans padded.redacted
  · have reason := padded.sits.stopReasonIn_sendFinal env (log ++ (c'.padThinkingOnly env).1)
    rw [List.append_assoc] at reason
    exact reason

end KiroRs.Stream.Relay
