/- Path: KiroRs/Stream/TextFlow
   source: src/anthropic/stream.rs
   digest: The text of a stream with tool calls: the streams in which nothing of it is lost or
   overtaken by a call, and one in which a call overtakes it. -/

import KiroRs.Stream.CallReplies
import KiroRs.Stream.FilterRuns

set_option autoImplicit false
set_option relaxedAutoImplicit false

namespace KiroRs.Stream.TextFlow

open KiroRs.Lib
open KiroRs.Lib.Emits
open KiroRs.Lib.Slots
open KiroRs.Lib.Text
open KiroRs.Converter.ToolNames (ToolNameMap)
open KiroRs.Stream.XmlFilter
open KiroRs.Stream.Events
open KiroRs.Stream.StateManager
open KiroRs.Stream.ThinkingTags
open KiroRs.Stream.ToolJson
open KiroRs.Stream.Context
open KiroRs.Stream.Context.StreamContext
open KiroRs.Stream.Replies
open KiroRs.Stream.ReplyOps
open KiroRs.Stream.CallReplies
open KiroRs.Stream.BlockOrder (newContext pendingTools)

def textOf : Event → Text
  | .assistantResponse content | .code content => content
  | _ => []

def spoken (events : List Event) : Text := events.flatMap textOf

def deltaText : SseEvent → Text
  | .contentBlockDelta _ (.textDelta text) => text
  | .contentBlockDelta _ (.thinkingDelta thinking) => thinking
  | _ => []

def shown (sent : List SseEvent) : Text := sent.flatMap deltaText

/-- A text and what is left of it without the tags of its thinking: none is recognised, or the start
tag, or both. The flags are those of the context inside of thinking and behind it. -/
inductive Untagged : Bool → Bool → Text → Text → Prop where
  | whole (text : Text) : Untagged false false text text
  | inside (before thinking : Text) :
    Untagged true false (before ++ thinkingStartTag ++ thinking) (before ++ thinking)
  | behind (before thinking after : Text) :
    Untagged false true
      (before ++ thinkingStartTag ++ thinking ++ thinkingEndTag ++ after)
      (before ++ thinking ++ after)

/-- What is sent shows each character of a text once and in order, but for white space and the tags
of its thinking. -/
def Shows (text : Text) (sent : List SseEvent) : Prop :=
  ∃ inside extracted said, Untagged inside extracted text said ∧ solid (shown sent) = solid said

def isTextOrTool : Event → Bool
  | .assistantResponse _ | .code _ | .toolUse _ => true
  | _ => false

/-- Where the block of a call starts, all text from before the call is shown already. -/
def Timely (env : StreamEnv) (c : StreamContext) (events : List Event)
    (sent : List SseEvent) : Prop :=
  ∀ before e after front index name back, events = before ++ .toolUse e :: after →
    sent = front ++ .contentBlockStart index (.toolUse e.toolUseId name) :: back →
    (c.running env before).1 <+: front →
      ∃ arrived, spoken before <+: arrived ∧ arrived <+: spoken events ∧ Shows arrived front

/-- The text of a stream is shown, and none of it behind a later call. -/
structure Conserves (env : StreamEnv) (c : StreamContext) (events : List Event) : Prop where
  text : Shows (spoken events) (c.streamed env events).1
  order : Timely env c events (c.streamed env events).1

def heldText (c : StreamContext) : Text := c.thinkingBuffer ++ c.toolUseXmlFilter.buffer

/-- Nothing is held back that a tool use would not let out first. -/
def Unheld (c : StreamContext) : Prop :=
  c.toolUseXmlFilter.buffer = [] ∧ (c.inThinkingBlock = true →
    isBlank c.thinkingBuffer = true ∨
      (findRealThinkingEndTagAtBufferEnd c.thinkingBuffer).isSome = true)

def Completes (env : StreamEnv) (c : StreamContext) (e : ToolUseEvent) : Prop :=
  Dicts.get c.toolBlockIndices e.toolUseId = none ∧
    ∃ t, (c.toolJsonAccumulator.push env e c.toolNameMap).1 = .ok (some t)

def Calm (env : StreamEnv) (c : StreamContext) : Event → Prop
  | .toolUse e => Completes env c e → Unheld c
  | _ => True

/-- Some tool input could not be parsed, or is cut off at the end. -/
def Fails (env : StreamEnv) (c : StreamContext) : Prop :=
  c.toolJsonError.isSome = true ∨
    ∃ err, (c.toolJsonAccumulator.finish env c.toolNameMap).1 = .error err

def sinceTool (events : List Event) : Text :=
  spoken (events.rtakeWhile fun event => (fragmentOf event).isNone)

/-- At the end, what is held back is younger than the calls that are still sent, and there is
nothing of it where a tool input failed before the end of thinking. -/
structure CalmEnd (env : StreamEnv) (c : StreamContext) (events : List Event) : Prop where
  calls : (∃ t ∈ pendingTools env c, Dicts.get c.toolBlockIndices t.id = none) →
    solid (heldText c) <:+ solid (sinceTool events)
  failed : Fails env c → c.thinkingExtracted = false → solid (heldText c) = []

/-- A run whose steps are calm. -/
def CalmRun (env : StreamEnv) (c : StreamContext) (events : List Event) : Prop :=
  Guarded (processKiroEvent env) (Calm env) events (c.generateInitialEvents env).2 ∧
    CalmEnd env (c.running env events).2 events

variable {env : StreamEnv} {blocks : List Reply} {c c' : StreamContext} {r : Sent}
variable {front text piece : Text} {log sent : List SseEvent}

theorem shown_append (first later : List SseEvent) :
    shown (first ++ later) = shown first ++ shown later := List.flatMap_append

theorem spoken_append (first later : List Event) :
    spoken (first ++ later) = spoken first ++ spoken later := List.flatMap_append

def Silent (sent : List SseEvent) : Prop := ∀ e ∈ sent, deltaText e = []

theorem Silent.shown (silent : Silent sent) : shown sent = [] :=
  List.flatMap_eq_nil_iff.mpr silent

theorem silent_nil : Silent [] := fun _ mem => absurd mem List.not_mem_nil

theorem silent_single {e : SseEvent} (none : deltaText e = []) : Silent [e] :=
  List.forall_mem_singleton.mpr none

theorem Silent.append {later : List SseEvent} (first : Silent sent) (second : Silent later) :
    Silent (sent ++ later) := List.forall_mem_append.mpr ⟨first, second⟩

theorem silent_stop (m : SseStateManager) (index : Int) :
    Silent (m.handleContentBlockStop index).1 := by
  unfold SseStateManager.handleContentBlockStop
  split
  · split_ifs
    · exact silent_nil
    · exact silent_single rfl
  · exact silent_nil

theorem silent_stopOpen (env : StreamEnv) (m : SseStateManager) (which : BlockType → Bool) :
    Silent (m.stopOpen env which).1 := by
  intro e mem
  obtain ⟨index, -, rfl⟩ := List.mem_map.mp mem
  rfl

theorem silent_begin (index : Int) (content : ContentBlock) (m : SseStateManager) :
    Silent (m.beginBlock index content).1 := by
  unfold SseStateManager.beginBlock
  split
  · split_ifs
    · exact silent_nil
    · exact silent_single rfl
  · exact silent_single rfl

theorem silent_start (env : StreamEnv) (m : SseStateManager) (index : Int)
    (content : ContentBlock) : Silent (m.handleContentBlockStart env index content).1 := by
  unfold SseStateManager.handleContentBlockStart
  split_ifs
  · exact (silent_stopOpen env _ _).append (silent_begin index content _)
  · exact silent_begin index content m

theorem delta_of_open {m : SseStateManager} {index : Int} {b : BlockState}
    (found : m.block index = some b) (started : b.started = true) (running : b.stopped = false)
    (d : Delta) : m.handleContentBlockDelta index d = ([.contentBlockDelta index d], m) := by
  unfold SseStateManager.handleContentBlockDelta
  rw [found]
  simp only [started, running, Bool.not_true, Bool.or_self, Bool.false_eq_true, if_false]

private def sendText (text : Text) (c : StreamContext) : Sent :=
  match c.textBlockIndex with
  | some index => c.manage (c.stateManager.handleContentBlockDelta index (.textDelta text))
  | none => quiet c

theorem shown_sendText {i : Int} {b : BlockState} (index : c.textBlockIndex = some i)
    (found : c.stateManager.block i = some b) (started : b.started = true)
    (running : b.stopped = false) (text : Text) : shown (sendText text c).1 = text := by
  unfold sendText
  rw [index]
  show shown (c.stateManager.handleContentBlockDelta i (.textDelta text)).1 = text
  rw [delta_of_open found started running]
  exact List.append_nil text

/-- Text is shown at once, whether its block is still open or a new one. -/
theorem shown_createText (env : StreamEnv) (h : Known blocks c) (text : Text)
    (fits : Fits (after blocks (c.createTextDeltaEvents env text).1)) :
    shown (c.createTextDeltaEvents env text).1 = text := by
  have joined : c.createTextDeltaEvents env text = (c.ensureText env).andThen (sendText text) := rfl
  rw [joined] at fits ⊢
  rw [after_andThen] at fits
  have fits_start := fits.before
  unfold Emit.andThen
  dsimp only
  rw [shown_append]
  unfold ensureText at fits_start ⊢
  cases found : c.openTextIndex with
  | some i =>
    have kept := Option.eq_some_of_filter_eq_some found
    obtain ⟨-, is_open⟩ := Option.filter_eq_some_iff.mp found
    unfold SseStateManager.isBlockOpenOfType at is_open
    cases at_index : c.stateManager.block i with
    | none =>
      rw [at_index] at is_open
      cases is_open
    | some b =>
      rw [at_index, Option.any_some, Bool.and_eq_true, Bool.and_eq_true,
        Bool.not_eq_true'] at is_open
      exact shown_sendText kept at_index is_open.1.1 is_open.1.2 text
  | none =>
    rw [found] at fits_start
    obtain ⟨m', eq, tracks⟩ := startBlock_next env h.tracks
      (d := { c with
        stateManager := c.stateManager.takeIndex.2
        textBlockIndex := some c.stateManager.takeIndex.1 }) rfl .text (fun same => by cases same)
      fits_start
    have entry_new := tracks.block (b := Slot.fresh c.stateManager.nextBlockIndex .text)
      (List.mem_append_right _ List.mem_cons_self)
    show shown (StreamContext.startBlock env _ c.stateManager.takeIndex.1 .text).1 ++
      shown (sendText text (StreamContext.startBlock env _ c.stateManager.takeIndex.1 .text).2).1 =
        text
    rw [eq]
    exact shown_sendText (c := { c with
      stateManager := m'
      textBlockIndex := some c.stateManager.takeIndex.1 }) rfl entry_new rfl rfl text

theorem Untagged.append {inside extracted : Bool} {said : Text}
    (untagged : Untagged inside extracted text said) (more : Text) :
    Untagged inside extracted (text ++ more) (said ++ more) := by
  cases untagged with
  | whole => exact .whole _
  | inside before thinking =>
    simpa only [List.append_assoc] using Untagged.inside before (thinking ++ more)
  | behind before thinking after =>
    simpa only [List.append_assoc] using Untagged.behind before thinking (after ++ more)

theorem Untagged.enter {said : Text} (untagged : Untagged false false text said) :
    Untagged true false (text ++ thinkingStartTag) said := by
  cases untagged with
  | whole =>
    have started := Untagged.inside text []
    rwa [List.append_nil, List.append_nil] at started

theorem Untagged.leave {said : Text} (untagged : Untagged true false text said) :
    Untagged false true (text ++ thinkingEndTag) said := by
  cases untagged with
  | inside before thinking =>
    have ended := Untagged.behind before thinking []
    rwa [List.append_nil, List.append_nil] at ended

/-- The front of the text is told, up to what the two buffers hold. -/
structure Tells (front : Text) (log : List SseEvent) (c : StreamContext) : Prop where
  known : Known (received log) c
  enabled : c.thinkingEnabled = true
  quiet : c.reasoningBlockOpen = false
  index : c.inThinkingBlock = true → c.thinkingBlockIndex.isSome = true
  told : ∃ said, Untagged c.inThinkingBlock c.thinkingExtracted front said ∧
    solid (shown log) = solid said

/-- The contexts differ in buffers and tool uses only. -/
structure Alike (c c' : StreamContext) : Prop where
  blocks : c'.stateManager.activeBlocks = c.stateManager.activeBlocks
  next : c'.stateManager.nextBlockIndex = c.stateManager.nextBlockIndex
  text : c'.textBlockIndex = c.textBlockIndex
  thinking : c'.thinkingBlockIndex = c.thinkingBlockIndex
  tools : c'.toolBlockIndices = c.toolBlockIndices
  enabled : c'.thinkingEnabled = c.thinkingEnabled
  reasoning : c'.reasoningBlockOpen = c.reasoningBlockOpen
  inside : c'.inThinkingBlock = c.inThinkingBlock
  extracted : c'.thinkingExtracted = c.thinkingExtracted

theorem Tells.same (h : Tells front log c) (alike : Alike c c') : Tells front log c' where
  known := h.known.same alike.blocks alike.next alike.text alike.thinking alike.tools
  enabled := alike.enabled.trans h.enabled
  quiet := alike.reasoning.trans h.quiet
  index := by
    rw [alike.inside, alike.thinking]
    exact h.index
  told := by
    rw [alike.inside, alike.extracted]
    exact h.told

theorem Tells.blank (h : Tells front log c) (none : solid piece = []) :
    Tells (front ++ piece) log c := by
  refine { h with told := ?_ }
  obtain ⟨said, untagged, same⟩ := h.told
  exact ⟨said ++ piece, untagged.append piece, by rw [solid_append, none, List.append_nil, same]⟩

def Upto (R : List SseEvent → StreamContext → Prop) (log : List SseEvent) (r : Sent) : Prop :=
  Fits (received (log ++ r.1)) → R (log ++ r.1) r.2

variable {R S : List SseEvent → StreamContext → Prop}

theorem upto_quiet (holds : R log c) : Upto R log (Emits.quiet c) := by
  intro _
  show R (log ++ []) c
  rwa [List.append_nil]

theorem Upto.andThen {f : StreamContext → Sent} (first : Upto R log r)
    (second : R (log ++ r.1) r.2 → Upto S (log ++ r.1) (f r.2)) : Upto S log (r.andThen f) := by
  intro fits
  unfold Emit.andThen at fits ⊢
  dsimp only at fits ⊢
  rw [← List.append_assoc] at fits ⊢
  have fits_first : Fits (received (log ++ r.1)) := by
    unfold received at fits ⊢
    rw [after_append] at fits
    exact fits.before
  exact second (first fits_first) fits

theorem Upto.mono' (upto : Upto R log r) (weaker : R (log ++ r.1) r.2 → S (log ++ r.1) r.2) :
    Upto S log r := fun fits => weaker (upto fits)

theorem Upto.mono (upto : Upto R log r) (weaker : ∀ log c, R log c → S log c) : Upto S log r :=
  fun fits => weaker _ _ (upto fits)

theorem Tells.step {touched : BlockType → Bool} {said : Text} (h : Tells front log c)
    (does : Does touched (received log) r) (frame : TextFrame c r.2)
    (inside : r.2.inThinkingBlock = c.inThinkingBlock)
    (extracted : r.2.thinkingExtracted = c.thinkingExtracted)
    (index : r.2.thinkingBlockIndex = c.thinkingBlockIndex)
    (shows : Fits (after (received log) r.1) → shown r.1 = said) (same : solid said = solid piece) :
    Upto (Tells (front ++ piece)) log r := by
  intro fits
  have split : received (log ++ r.1) = after (received log) r.1 := after_append ..
  rw [split] at fits
  constructor
  · rw [split]
    exact (does fits).known
  · exact frame.enabled.trans h.enabled
  · exact frame.reasoning.trans h.quiet
  · rw [inside, index]
    exact h.index
  · obtain ⟨told, untagged, so_far⟩ := h.told
    rw [inside, extracted]
    refine ⟨told ++ piece, untagged.append piece, ?_⟩
    rw [shown_append, solid_append, solid_append, so_far, shows fits, same]

theorem Tells.createText (env : StreamEnv) (h : Tells front log c)
    (same : solid text = solid piece) :
    Upto (Tells (front ++ piece)) log (c.createTextDeltaEvents env text) := by
  obtain ⟨m, t, eq⟩ := createTextDeltaEvents_frame env c text
  refine h.step (does_createText env h.known text) (textFrame_createText env c text) ?_ ?_ ?_
    (shown_createText env h.known text) same
  · rw [eq]
  · rw [eq]
  · rw [eq]

theorem Tells.sendThinking (h : Tells front log c) (inside : c.inThinkingBlock = true)
    (same : solid text = solid piece) :
    Upto (Tells (front ++ piece)) log (c.sendThinking text) := by
  have frame := sendThinking_frame c text
  have shows : shown (c.sendThinking text).1 = text := by
    obtain ⟨i, index⟩ := Option.isSome_iff_exists.mp (h.index inside)
    unfold StreamContext.sendThinking
    rw [index]
    exact List.append_nil text
  refine h.step (does_sendThinking h.known text) ?_ ?_ ?_ ?_ (fun _ => shows) same
  · rw [frame]
    exact TextFrame.refl c
  · rw [frame]
  · rw [frame]
  · rw [frame]

theorem silent_stopThinking (c : StreamContext) : Silent c.stopThinking.1 := by
  unfold StreamContext.stopThinking
  split
  · exact Silent.append (List.forall_mem_cons.mpr ⟨rfl, silent_single rfl⟩) (silent_stop _ _)
  · exact silent_nil

theorem Tells.stopThinking (h : Tells front log c) : Upto (Tells front) log c.stopThinking := by
  obtain ⟨m, eq⟩ := stopThinking_frame c
  have stepped : Upto (Tells (front ++ [])) log c.stopThinking := by
    refine h.step (does_stopThinking h.known) (textFrame_stopThinking c) ?_ ?_ ?_
      (fun _ => (silent_stopThinking c).shown) rfl
    · rw [eq]
    · rw [eq]
    · rw [eq]
  rwa [List.append_nil] at stepped

theorem Tells.leave (h : Tells front log c) (inside : c.inThinkingBlock = true) :
    Tells (front ++ thinkingEndTag) log { c with
      inThinkingBlock := false
      thinkingExtracted := true
      stripTextAfterThinkingBoundary := true } where
  known := h.known.same rfl rfl rfl rfl rfl
  enabled := h.enabled
  quiet := h.quiet
  index := fun never => by cases never
  told := by
    obtain ⟨said, untagged, same⟩ := h.told
    rw [inside] at untagged
    cases extracted : c.thinkingExtracted with
    | false =>
      rw [extracted] at untagged
      exact ⟨said, untagged.leave, same⟩
    | true =>
      rw [extracted] at untagged
      cases untagged

theorem Tells.endThinking (h : Tells front log c) (inside : c.inThinkingBlock = true)
    (same : solid text = solid piece) :
    Upto (Tells (front ++ piece ++ thinkingEndTag)) log (c.endThinking text) := by
  have first : Upto (fun log c' => Tells (front ++ piece) log c' ∧ c' = c) log
      (if text.isEmpty then Emits.quiet c else c.sendThinking text) := by
    split_ifs with empty
    · rw [List.isEmpty_iff] at empty
      rw [empty] at same
      exact upto_quiet ⟨h.blank same.symm, rfl⟩
    · exact fun fits => ⟨h.sendThinking inside same fits, sendThinking_frame c text⟩
  refine first.andThen fun sent => ?_
  obtain ⟨tells, unchanged⟩ := sent
  have still : (if text.isEmpty then Emits.quiet c else c.sendThinking text).2.inThinkingBlock =
      true := by
    rw [unchanged]
    exact inside
  exact (tells.leave still).stopThinking

/-- The text is told, but for what the buffer holds. Behind thinking it holds nothing. -/
structure Reads (text : Text) (log : List SseEvent) (c : StreamContext) : Prop where
  tells : ∃ front, Tells front log c ∧ front ++ c.thinkingBuffer = text
  empty : c.thinkingExtracted = true → c.thinkingBuffer = []

theorem Tells.reads (h : Tells front log c) (empty : c.thinkingBuffer = []) : Reads front log c :=
  ⟨⟨front, h, by rw [empty, List.append_nil]⟩, fun _ => empty⟩

theorem Tells.emitExtracted (env : StreamEnv) (h : Tells front log c)
    (same : solid c.thinkingBuffer = solid piece) :
    Upto (Reads (front ++ piece)) log (c.emitExtracted env) := by
  unfold StreamContext.emitExtracted
  dsimp only
  have trimmed : solid (if c.stripTextAfterThinkingBoundary = true then trimStart c.thinkingBuffer
      else c.thinkingBuffer) = solid piece := by
    split_ifs
    · rw [solid_trimStart, same]
    · exact same
  generalize (if c.stripTextAfterThinkingBoundary = true then trimStart c.thinkingBuffer
    else c.thinkingBuffer) = remaining at trimmed ⊢
  have emptied : Tells front log { c with
      thinkingBuffer := []
      stripTextAfterThinkingBoundary := c.stripTextAfterThinkingBoundary && remaining.isEmpty } :=
    h.same (by constructor <;> rfl)
  split_ifs with none
  · rw [List.isEmpty_iff] at none
    rw [none] at trimmed
    exact upto_quiet ((emptied.blank trimmed.symm).reads rfl)
  · intro fits
    obtain ⟨m, t, eq⟩ := createTextDeltaEvents_frame env { c with
      thinkingBuffer := []
      stripTextAfterThinkingBoundary := c.stripTextAfterThinkingBoundary && remaining.isEmpty }
      remaining
    refine (emptied.createText env trimmed fits).reads ?_
    rw [eq]

theorem Tells.stripLeadingNewline (h : Tells front log c) : ∃ line,
    Tells (front ++ line) log c.stripLeadingNewline ∧
      line ++ c.stripLeadingNewline.thinkingBuffer = c.thinkingBuffer := by
  unfold StreamContext.stripLeadingNewline
  split_ifs
  · obtain ⟨line, blank, joined⟩ := stripNewline_append c.thinkingBuffer
    exact ⟨line, (h.blank blank).same (by constructor <;> rfl), joined⟩
  · refine ⟨[], ?_, rfl⟩
    rw [List.append_nil]
    exact h

theorem Tells.scanThinking (env : StreamEnv) (h : Tells front log c)
    (inside : c.inThinkingBlock = true) (extracted : c.thinkingExtracted = false) :
    Upto (Reads (front ++ c.thinkingBuffer)) log (c.scanThinking env) := by
  obtain ⟨line, stripped, joined⟩ := h.stripLeadingNewline
  obtain ⟨buffer, flag, eq⟩ := stripLeadingNewline_frame c
  have still : c.stripLeadingNewline.inThinkingBlock = true := by rw [eq]; exact inside
  have yet : c.stripLeadingNewline.thinkingExtracted = false := by rw [eq]; exact extracted
  rw [← joined, ← List.append_assoc]
  unfold StreamContext.scanThinking
  dsimp only
  generalize c.stripLeadingNewline = d at stripped still yet ⊢
  cases found : findRealThinkingEndTagWithBoundary d.thinkingBuffer with
  | some p =>
    obtain ⟨q, tag, rfl⟩ := Option.map_eq_some_iff.mp found
    obtain ⟨split, -⟩ := findTag_eq_some tag
    rw [split, ← List.append_assoc, ← List.append_assoc]
    refine (stripped.endThinking still rfl).andThen fun ended => ?_
    refine Tells.emitExtracted env (ended.same (by constructor <;> rfl)) ?_
    exact solid_skipBoundary q.2
  | none =>
    dsimp only
    have whole := splitKeep_append thinkingEndTag.length d.thinkingBuffer
    generalize splitKeep thinkingEndTag.length d.thinkingBuffer = parts at whole ⊢
    obtain ⟨safe, kept⟩ := parts
    dsimp only at whole ⊢
    split_ifs with none
    · exact upto_quiet ⟨⟨_, stripped, rfl⟩, fun done => absurd done (by rw [yet]; decide)⟩
    · have waiting : Tells (front ++ line) log { d with thinkingBuffer := kept } :=
        stripped.same (by constructor <;> rfl)
      intro fits
      have frame := sendThinking_frame { d with thinkingBuffer := kept } safe
      refine ⟨⟨front ++ line ++ safe, waiting.sendThinking still rfl fits, ?_⟩, ?_⟩
      · rw [frame, ← whole, List.append_assoc _ safe]
      · rw [frame]
        exact fun done => absurd done (by rw [yet]; decide)

theorem Tells.enterThinking (env : StreamEnv) (h : Tells front log c)
    (outside : c.inThinkingBlock = false) (extracted : c.thinkingExtracted = false)
    (rest : Text) : Upto (fun log c' => Tells (front ++ thinkingStartTag) log c' ∧
      c'.inThinkingBlock = true ∧ c'.thinkingExtracted = false ∧ c'.thinkingBuffer = rest) log
      (c.enterThinking env rest) := by
  intro fits
  have split : received (log ++ (c.enterThinking env rest).1) =
      after (received log) (c.enterThinking env rest).1 := after_append ..
  rw [split] at fits
  refine ⟨⟨?_, h.enabled, h.quiet, fun _ => rfl, ?_⟩, rfl, extracted, rfl⟩
  · rw [split]
    exact (does_enterThinking env h.known rest fits).known
  · obtain ⟨said, untagged, same⟩ := h.told
    rw [outside, extracted] at untagged
    show ∃ said, Untagged true c.thinkingExtracted (front ++ thinkingStartTag) said ∧ _
    rw [extracted]
    refine ⟨said, untagged.enter, ?_⟩
    have silent : Silent (c.enterThinking env rest).1 := silent_start env _ _ _
    rw [shown_append, silent.shown, List.append_nil, same]

theorem Tells.scanStart (env : StreamEnv) (h : Tells front log c)
    (outside : c.inThinkingBlock = false) (extracted : c.thinkingExtracted = false) :
    Upto (Reads (front ++ c.thinkingBuffer)) log (c.scanStart env) := by
  unfold StreamContext.scanStart
  cases found : findRealThinkingStartTag c.thinkingBuffer with
  | some p =>
    obtain ⟨before, rest⟩ := p
    obtain ⟨split, -⟩ := findTag_eq_some found
    dsimp only
    have first : Upto (fun log c' => Tells (front ++ before) log c' ∧
        c'.inThinkingBlock = false ∧ c'.thinkingExtracted = false) log
        (if isBlank before then Emits.quiet c else c.createTextDeltaEvents env before) := by
      split_ifs with blank
      · exact upto_quiet ⟨h.blank (solid_of_blank blank), outside, extracted⟩
      · intro fits
        obtain ⟨m, t, eq⟩ := createTextDeltaEvents_frame env c before
        refine ⟨h.createText env rfl fits, ?_, ?_⟩
        · rw [eq]
          exact outside
        · rw [eq]
          exact extracted
    rw [split, ← List.append_assoc, ← List.append_assoc]
    generalize (if isBlank before then Emits.quiet c
      else c.createTextDeltaEvents env before) = r at first ⊢
    refine Upto.andThen (first.andThen fun sent =>
      sent.1.enterThinking env sent.2.1 sent.2.2 rest) fun entered => ?_
    obtain ⟨tells, inside, yet, buffer⟩ := entered
    have scanned := tells.scanThinking env inside yet
    rw [buffer] at scanned
    exact scanned
  | none =>
    dsimp only
    have whole := splitKeep_append thinkingStartTag.length c.thinkingBuffer
    generalize splitKeep thinkingStartTag.length c.thinkingBuffer = parts at whole ⊢
    obtain ⟨safe, kept⟩ := parts
    dsimp only at whole ⊢
    split_ifs with blank
    · exact upto_quiet ⟨⟨_, h, rfl⟩, fun done => absurd done (by rw [extracted]; decide)⟩
    · refine Upto.andThen (R := fun log c' => Tells (front ++ safe) log c' ∧
        c'.thinkingExtracted = false) (fun fits => ⟨h.createText env rfl fits, ?_⟩) fun sent => ?_
      · obtain ⟨m, t, eq⟩ := createTextDeltaEvents_frame env c safe
        rw [eq]
        exact extracted
      · refine upto_quiet ⟨⟨front ++ safe, sent.1.same (by constructor <;> rfl), ?_⟩, ?_⟩
        · rw [← whole, List.append_assoc]
        · exact fun done => absurd done (by rw [sent.2]; decide)

theorem Tells.not_extracted (h : Tells front log c) (inside : c.inThinkingBlock = true) :
    c.thinkingExtracted = false := by
  obtain ⟨said, untagged, -⟩ := h.told
  rw [inside] at untagged
  cases extracted : c.thinkingExtracted with
  | false => rfl
  | true =>
    rw [extracted] at untagged
    cases untagged

theorem Reads.same (h : Reads text log c) (alike : Alike c c')
    (buffer : c'.thinkingBuffer = c.thinkingBuffer) : Reads text log c' where
  tells := by
    obtain ⟨front, tells, joined⟩ := h.tells
    exact ⟨front, tells.same alike, by rw [buffer, joined]⟩
  empty := by
    rw [alike.extracted, buffer]
    exact h.empty

theorem Reads.processFiltered (env : StreamEnv) (h : Reads text log c) (content : Text) :
    Upto (Reads (text ++ content)) log (c.processFiltered env content) := by
  obtain ⟨⟨front, tells, joined⟩, empty⟩ := h
  have buffered : Tells front log { c with thinkingBuffer := c.thinkingBuffer ++ content } :=
    tells.same (by constructor <;> rfl)
  rw [← joined, List.append_assoc]
  unfold StreamContext.processFiltered processContentWithThinking
  rw [if_pos tells.enabled]
  dsimp only
  split_ifs with outside inside
  · simp only [Bool.and_eq_true, Bool.not_eq_true'] at outside
    exact buffered.scanStart env outside.1 outside.2
  · exact buffered.scanThinking env inside (tells.not_extracted inside)
  · exact buffered.emitExtracted env rfl

theorem emitRest_frame (env : StreamEnv) (c : StreamContext) (rest : Text) :
    (c.emitRest env rest).2.inThinkingBlock = c.inThinkingBlock ∧
      (c.emitRest env rest).2.thinkingBuffer = [] := by
  unfold StreamContext.emitRest
  dsimp only
  split_ifs
  · exact ⟨rfl, rfl⟩
  · obtain ⟨m, t, eq⟩ := createTextDeltaEvents_frame env { c with thinkingBuffer := [] }
      (trimStart rest)
    rw [eq]
    exact ⟨rfl, rfl⟩

theorem Tells.emitRest (env : StreamEnv) (h : Tells front log c) (rest : Text) :
    Upto (Tells (front ++ rest)) log (c.emitRest env rest) := by
  have emptied : Tells front log { c with thinkingBuffer := [] } :=
    h.same (by constructor <;> rfl)
  unfold StreamContext.emitRest
  dsimp only
  split_ifs with none
  · rw [List.isEmpty_iff] at none
    have blank : solid rest = [] := by
      rw [← solid_trimStart, none]
      rfl
    exact upto_quiet (emptied.blank blank)
  · exact emptied.createText env (solid_trimStart rest)

/-- The text is read, but for the piece of a tag that the leak filter holds. -/
structure Flows (text : Text) (log : List SseEvent) (c : StreamContext) : Prop where
  reads : ∃ passed, Reads passed log c ∧ passed ++ c.toolUseXmlFilter.buffer = text
  held : FilterRuns.Held c.toolUseXmlFilter.buffer
  passing : c.toolUseXmlFilter.stripping = false

theorem Flows.closeReasoning (h : Flows text log c) : c.closeReasoningIfOpen = Emits.quiet c := by
  obtain ⟨⟨_, ⟨⟨_, tells, _⟩, _⟩, _⟩, _, _⟩ := h
  unfold closeReasoningIfOpen
  rw [tells.quiet]
  rfl

theorem Flows.processAssistantResponse (env : StreamEnv) (h : Flows text log c) (content : Text)
    (clean : ¬ toolUseXmlPrefix <:+: text ++ content) :
    Upto (Flows (text ++ content)) log (c.processAssistantResponse env content) := by
  obtain ⟨⟨passed, reads, joined⟩, held, passing⟩ := h
  generalize before : c.toolUseXmlFilter = filter at joined held passing
  obtain ⟨buffer, stripping⟩ := filter
  dsimp only at joined held passing
  subst passing
  have none : Search.splitFind toolUseXmlPrefix (buffer ++ content) = none := by
    rw [Search.splitFind_eq_none FilterRuns.prefix_ne_nil]
    intro inside
    rw [← joined, List.append_assoc] at clean
    exact clean (inside.trans (List.suffix_append passed _).isInfix)
  have rejoined := Search.splitPartial_append toolUseXmlPrefix (buffer ++ content)
  have held' := FilterRuns.held_splitPartial none
  unfold StreamContext.processAssistantResponse
  rw [before, FilterRuns.filter_passing, FilterRuns.filterLoop_of_none none]
  dsimp only
  generalize (Search.splitPartial toolUseXmlPrefix (buffer ++ content)).1 = out at rejoined ⊢
  generalize (Search.splitPartial toolUseXmlPrefix (buffer ++ content)).2 = kept
    at rejoined held' ⊢
  have all : passed ++ out ++ kept = text ++ content := by
    rw [List.append_assoc, rejoined, ← joined, List.append_assoc]
  split_ifs with nothing
  · rw [List.isEmpty_iff] at nothing
    rw [nothing, List.append_nil] at all
    exact upto_quiet ⟨⟨passed, reads.same (by constructor <;> rfl) rfl, all⟩, held', rfl⟩
  · have filtered : Reads passed log (addOutputTokens
        { c with toolUseXmlFilter := { buffer := kept, stripping := false } } out) :=
      reads.same (by constructor <;> rfl) rfl
    intro fits
    have frame := textFrame_processFiltered env (addOutputTokens
      { c with toolUseXmlFilter := { buffer := kept, stripping := false } } out) out
    refine ⟨⟨passed ++ out, filtered.processFiltered env out fits, ?_⟩, ?_, ?_⟩
    · rw [frame.filter]
      exact all
    · rw [frame.filter]
      exact held'
    · rw [frame.filter]
      rfl

def prepared (env : StreamEnv) (c : StreamContext) : Sent :=
  ({ c with stateManager := c.stateManager.setHasToolUse true }.settleThinking env).andThen
    fun c => c.flushWaiting env

theorem Reads.settleThinking (env : StreamEnv) (h : Reads text log c) :
    Upto (fun log c' => Reads text log c' ∧
      (c'.inThinkingBlock = true → c.inThinkingBlock = true ∧ c'.thinkingBuffer = c.thinkingBuffer ∧
        (findRealThinkingEndTagAtBufferEnd c.thinkingBuffer).isSome = false)) log
      (c.settleThinking env) := by
  obtain ⟨front, tells, joined⟩ := h.tells
  unfold StreamContext.settleThinking
  rw [tells.enabled, Bool.true_and]
  split_ifs with inside
  · cases found : findRealThinkingEndTagAtBufferEnd c.thinkingBuffer with
    | none => exact upto_quiet ⟨h, fun _ => ⟨inside, rfl, rfl⟩⟩
    | some p =>
      obtain ⟨thinking, rest⟩ := p
      obtain ⟨split, -⟩ := findTag_eq_some found
      obtain ⟨m, eq⟩ := endThinking_frame c thinking
      rw [← joined, split, ← List.append_assoc, ← List.append_assoc]
      dsimp only
      have ended : Upto (fun log c' => Tells (front ++ thinking ++ thinkingEndTag) log c' ∧
          c'.inThinkingBlock = false) log (c.endThinking thinking) := by
        refine fun fits => ⟨tells.endThinking inside rfl fits, ?_⟩
        rw [eq]
      generalize c.endThinking thinking = r at ended ⊢
      refine ended.andThen fun left => ?_
      obtain ⟨inside', buffer⟩ := emitRest_frame env r.2 rest
      refine (left.1.emitRest env rest).mono' fun last => ⟨last.reads buffer, fun still => ?_⟩
      rw [inside', left.2] at still
      cases still
  · exact upto_quiet ⟨h, fun still => absurd still inside⟩

theorem Reads.flushWaiting (env : StreamEnv) (h : Reads text log c) :
    Upto (fun log c' => Reads text log c' ∧ (c'.thinkingBuffer = [] ∨
      c.inThinkingBlock = true ∧ c'.thinkingBuffer = c.thinkingBuffer)) log
      (c.flushWaiting env) := by
  obtain ⟨front, tells, joined⟩ := h.tells
  unfold StreamContext.flushWaiting
  split_ifs with waits
  · simp only [Bool.and_eq_true, Bool.not_eq_true'] at waits
    have emptied : Tells front log { c with thinkingBuffer := [] } :=
      tells.same (by constructor <;> rfl)
    obtain ⟨m, t, eq⟩ := createTextDeltaEvents_frame env { c with thinkingBuffer := [] }
      c.thinkingBuffer
    have nothing : ({ c with thinkingBuffer := [] }.createTextDeltaEvents env
        c.thinkingBuffer).2.thinkingBuffer = [] := by rw [eq]
    have told : Upto (Tells (front ++ c.thinkingBuffer)) log
        ({ c with thinkingBuffer := [] }.createTextDeltaEvents env c.thinkingBuffer) :=
      emptied.createText env rfl
    rw [← joined]
    exact fun fits => ⟨(told fits).reads nothing, .inl nothing⟩
  · refine upto_quiet ⟨h, ?_⟩
    cases inside : c.inThinkingBlock with
    | true => exact .inr ⟨rfl, rfl⟩
    | false =>
      cases extracted : c.thinkingExtracted with
      | true => exact .inl (h.empty extracted)
      | false =>
        rw [tells.enabled, inside, extracted] at waits
        simpa using waits

theorem Reads.prepared (env : StreamEnv) (h : Reads text log c) :
    Upto (fun log c' => Reads text log c' ∧ (Unheld c → solid c'.thinkingBuffer = [])) log
      (prepared env c) := by
  have noted : Reads text log { c with stateManager := c.stateManager.setHasToolUse true } :=
    h.same (by constructor <;> rfl) rfl
  refine (noted.settleThinking env).andThen fun settled => ?_
  refine (settled.1.flushWaiting env).mono fun log c' flushed => ⟨flushed.1, fun unheld => ?_⟩
  rcases flushed.2 with none | ⟨inside, same⟩
  · rw [none]
    rfl
  · obtain ⟨tagged, kept, untagged⟩ := settled.2 inside
    rcases unheld.2 tagged with blank | ended
    · rw [same, kept]
      exact solid_of_blank blank
    · exact absurd ended (by rw [untagged]; decide)

theorem silent_delta (m : SseStateManager) (index : Int) {d : Delta}
    (silent : deltaText (.contentBlockDelta index d) = []) :
    Silent (m.handleContentBlockDelta index d).1 := by
  unfold SseStateManager.handleContentBlockDelta
  split
  · split_ifs
    · exact silent_nil
    · exact silent_single silent
  · exact silent_nil

theorem silent_fillCall (env : StreamEnv) (t : CompletedToolUse) (index : Int)
    (c : StreamContext) : Silent (fillCall env t index c).1 :=
  (silent_delta _ index rfl).append (silent_stop _ index)

theorem silent_emit (env : StreamEnv) (c : StreamContext) (t : CompletedToolUse) :
    Silent (c.emitCompletedToolUse env t).1 := by
  rw [emitCompletedToolUse_eq]
  split
  · exact (silent_start env _ _ _).append (silent_fillCall env t _ _)
  · exact (silent_start env _ _ _).append (silent_fillCall env t _ _)

theorem emit_frame (env : StreamEnv) (c : StreamContext) (t : CompletedToolUse) :
    ∃ m indices tokens, (c.emitCompletedToolUse env t).2 = { c with
      stateManager := m
      toolBlockIndices := indices
      outputTokens := tokens } := by
  unfold emitCompletedToolUse
  dsimp only
  split <;> exact ⟨_, _, _, rfl⟩

theorem Tells.emit (env : StreamEnv) (h : Tells front log c) (t : CompletedToolUse) :
    Upto (Tells front) log (c.emitCompletedToolUse env t) := by
  intro fits
  have split : received (log ++ (c.emitCompletedToolUse env t).1) =
      after (received log) (c.emitCompletedToolUse env t).1 := after_append ..
  rw [split] at fits
  have known := (does_emit env h.known t fits).known
  have silent := silent_emit env c t
  rw [← split] at known
  obtain ⟨m, indices, tokens, eq⟩ := emit_frame env c t
  rw [eq] at known ⊢
  refine ⟨known, h.enabled, h.quiet, h.index, ?_⟩
  obtain ⟨said, untagged, same⟩ := h.told
  exact ⟨said, untagged, by rw [shown_append, silent.shown, List.append_nil, same]⟩

theorem Reads.emit (env : StreamEnv) (h : Reads text log c) (t : CompletedToolUse) :
    Upto (Reads text) log (c.emitCompletedToolUse env t) := by
  obtain ⟨⟨front, tells, joined⟩, empty⟩ := h
  obtain ⟨m, indices, tokens, eq⟩ := emit_frame env c t
  refine fun fits => ⟨⟨front, tells.emit env t fits, ?_⟩, ?_⟩
  · rw [eq]
    exact joined
  · rw [eq]
    exact empty

def isCall : SseEvent → Bool
  | .contentBlockStart _ (.toolUse _ _) => true
  | _ => false

def NoCalls (sent : List SseEvent) : Prop := ∀ e ∈ sent, isCall e = false

theorem NoCalls.append {later : List SseEvent} (first : NoCalls sent) (second : NoCalls later) :
    NoCalls (sent ++ later) := List.forall_mem_append.mpr ⟨first, second⟩

theorem noCalls_nil : NoCalls [] := fun _ mem => absurd mem List.not_mem_nil

theorem noCalls_single {e : SseEvent} (none : isCall e = false) : NoCalls [e] :=
  List.forall_mem_singleton.mpr none

theorem length_ofType_receive (blocks : List Reply) (e : SseEvent) :
    (ofType .toolUse (receive blocks e)).length =
      (ofType .toolUse blocks).length + if isCall e then 1 else 0 := by
  have sent (index : Int) (item : Option Delta) :
      (ofType .toolUse (send blocks index item)).length = (ofType .toolUse blocks).length := by
    rw [ofType_send, length_send]
  cases e with
  | contentBlockStart index content =>
    show (ofType .toolUse (blocks ++ [Slot.fresh index content])).length = _
    cases content with
    | toolUse id name =>
      rw [ofType_append, List.length_append]
      rfl
    | text | thinking | redactedThinking _ =>
      rw [ofType_fresh_other (fun same => by cases same)]
      rfl
  | contentBlockDelta index delta => exact sent index (some delta)
  | contentBlockStop index => exact sent index none
  | messageStart _ _ _ | messageDelta _ _ | messageStop | error _ _ => rfl

theorem length_ofType_after (blocks : List Reply) (sent : List SseEvent) :
    (ofType .toolUse (after blocks sent)).length =
      (ofType .toolUse blocks).length + sent.countP isCall := by
  induction sent generalizing blocks with
  | nil => rfl
  | cons e rest ih =>
    rw [after_cons, ih, length_ofType_receive, List.countP_cons]
    omega

theorem noCalls_of_length
    (same : (ofType .toolUse (after blocks sent)).length = (ofType .toolUse blocks).length) :
    NoCalls sent := by
  have count := length_ofType_after blocks sent
  have zero : sent.countP isCall = 0 := by omega
  intro e mem
  exact Bool.eq_false_iff.mpr (List.countP_eq_zero.mp zero e mem)

theorem noCalls_of_does (does : Does notTools blocks r) (fits : Fits (after blocks r.1)) :
    NoCalls r.1 :=
  noCalls_of_length (congrArg List.length ((does fits).keeps .toolUse rfl))

theorem noCalls_delta (m : SseStateManager) (index : Int) (d : Delta) :
    NoCalls (m.handleContentBlockDelta index d).1 := by
  unfold SseStateManager.handleContentBlockDelta
  split
  · split_ifs
    · exact noCalls_nil
    · exact noCalls_single rfl
  · exact noCalls_nil

theorem noCalls_stop (m : SseStateManager) (index : Int) :
    NoCalls (m.handleContentBlockStop index).1 := by
  unfold SseStateManager.handleContentBlockStop
  split
  · split_ifs
    · exact noCalls_nil
    · exact noCalls_single rfl
  · exact noCalls_nil

theorem noCalls_emit (env : StreamEnv) (h : Known blocks c) (t : CompletedToolUse) {index : Int}
    (found : Dicts.get c.toolBlockIndices t.id = some index) :
    NoCalls (c.emitCompletedToolUse env t).1 ∧
      (c.emitCompletedToolUse env t).2.toolBlockIndices = c.toolBlockIndices := by
  obtain ⟨out, m, eq, stopped, -⟩ := startTool_again env h (h.tools t.id index found) t.id t.name
  have first : NoCalls out := by
    have same : (ofType .toolUse (after blocks out)).length = (ofType .toolUse blocks).length := by
      rw [stopped, ofType_stopKind rfl]
    exact noCalls_of_length same
  rw [emitCompletedToolUse_eq, found]
  dsimp only
  rw [eq]
  exact ⟨first.append ((noCalls_delta _ index _).append (noCalls_stop _ index)), rfl⟩

theorem noCalls_emitAll (env : StreamEnv) (h : Known blocks c) (pending : List CompletedToolUse)
    (found : ∀ t ∈ pending, (Dicts.get c.toolBlockIndices t.id).isSome = true)
    (fits : Fits (after blocks (emitAll (emitCompletedToolUse env) pending c).1)) :
    NoCalls (emitAll (emitCompletedToolUse env) pending c).1 := by
  induction pending generalizing blocks c with
  | nil => exact noCalls_nil
  | cons t rest ih =>
    obtain ⟨here, later⟩ := List.forall_mem_cons.mp found
    obtain ⟨index, known⟩ := Option.isSome_iff_exists.mp here
    obtain ⟨none, same⟩ := noCalls_emit env h t known
    have joined : emitAll (emitCompletedToolUse env) (t :: rest) c =
        (c.emitCompletedToolUse env t).andThen (emitAll (emitCompletedToolUse env) rest) := rfl
    rw [joined] at fits ⊢
    rw [after_andThen] at fits
    refine none.append (ih (does_emit env h t fits.before).known ?_ fits)
    rw [same]
    exact later

theorem split_log {first later before behind : List SseEvent} {e : SseEvent}
    (split : first ++ later = before ++ e :: behind) :
    (∃ middle, before = first ++ middle ∧ later = middle ++ e :: behind) ∨
      ∃ rest, first = before ++ e :: rest := by
  rcases List.append_eq_append_iff.mp split with ⟨middle, eq, eq'⟩ | ⟨middle, eq, eq'⟩
  · exact .inl ⟨middle, eq, eq'⟩
  · cases middle with
    | nil =>
      rw [List.append_nil] at eq
      exact .inl ⟨[], by rw [List.append_nil, eq], eq'.symm⟩
    | cons e' middle =>
      injection eq' with same
      subst same
      exact .inr ⟨middle, eq⟩

theorem not_noCalls {before behind : List SseEvent} {e : SseEvent} (call : isCall e = true)
    (split : sent = before ++ e :: behind) : ¬ NoCalls sent := by
  intro none
  have never := none e (by rw [split]; exact List.mem_append_right _ List.mem_cons_self)
  rw [call] at never
  cases never

theorem textFrame_prepared (env : StreamEnv) (c : StreamContext) :
    ToolFrame c (prepared env c).2 ∧
      (prepared env c).2.toolUseXmlFilter = c.toolUseXmlFilter := by
  have settled : TextFrame { c with stateManager := c.stateManager.setHasToolUse true }
      ({ c with stateManager := c.stateManager.setHasToolUse true }.settleThinking env).2 := by
    unfold StreamContext.settleThinking
    split_ifs
    · split
      · next thinking rest _ =>
        exact (textFrame_endThinking _ thinking).andThen (textFrame_emitRest env _ rest)
      · exact TextFrame.refl _
    · exact TextFrame.refl _
  have flushed (d : StreamContext) : TextFrame d (d.flushWaiting env).2 := by
    unfold StreamContext.flushWaiting
    split_ifs
    · exact TextFrame.trans (by constructor <;> rfl) (textFrame_createText env _ _)
    · exact TextFrame.refl d
  have whole := settled.trans (flushed _)
  exact ⟨⟨whole.indices, whole.names, whole.accumulator, whole.error⟩, whole.filter⟩

theorem Flows.processToolUse_eq (env : StreamEnv) (h : Flows text log c) (e : ToolUseEvent) :
    c.processKiroEvent env (.toolUse e) =
      (prepared env c).andThen fun c => c.collectToolUse env e := by
  have quiet := h.closeReasoning
  show c.closeReasoningIfOpen.andThen (fun c => c.processToolUse env e) = _
  rw [quiet]
  rfl

theorem Flows.step (h : Flows text log c)
    (reads : ∀ passed, Reads passed log c → Upto (Reads passed) log r)
    (same : r.2.toolUseXmlFilter = c.toolUseXmlFilter) : Upto (Flows text) log r := by
  obtain ⟨⟨passed, read, joined⟩, held, passing⟩ := h
  refine fun fits => ⟨⟨passed, reads passed read fits, ?_⟩, ?_, ?_⟩
  · rw [same]
    exact joined
  · rw [same]
    exact held
  · rw [same]
    exact passing

theorem Reads.collect (env : StreamEnv) (h : Reads text log c) (e : ToolUseEvent) :
    Upto (Reads text) log (c.collectToolUse env e) := by
  unfold StreamContext.collectToolUse
  generalize c.toolJsonAccumulator.push env e c.toolNameMap = pushed
  obtain ⟨result, accumulator⟩ := pushed
  dsimp only
  have kept : Reads text log { c with toolJsonAccumulator := accumulator } :=
    h.same (by constructor <;> rfl) rfl
  cases result with
  | error err => exact upto_quiet (h.same (by constructor <;> rfl) rfl)
  | ok completed =>
    cases completed with
    | none => exact upto_quiet kept
    | some t => exact kept.emit env t

theorem filter_collect (env : StreamEnv) (c : StreamContext) (e : ToolUseEvent) :
    (c.collectToolUse env e).2.toolUseXmlFilter = c.toolUseXmlFilter := by
  unfold StreamContext.collectToolUse
  dsimp only
  split
  · next t _ =>
    obtain ⟨m, indices, tokens, eq⟩ := emit_frame env
      { c with toolJsonAccumulator := (c.toolJsonAccumulator.push env e c.toolNameMap).2 } t
    rw [eq]
  · rfl
  · rfl

theorem Flows.processToolUse (env : StreamEnv) (h : Flows text log c) (e : ToolUseEvent) :
    Upto (Flows text) log (c.processKiroEvent env (.toolUse e)) := by
  rw [h.processToolUse_eq env e]
  have ready : Upto (Flows text) log (prepared env c) := by
    refine h.step (fun passed reads => ?_) (textFrame_prepared env c).2
    exact (reads.prepared env).mono fun _ _ both => both.1
  refine ready.andThen fun flows => ?_
  exact flows.step (fun passed reads => reads.collect env e) (filter_collect env _ e)

theorem Silent.of_append {first later : List SseEvent} (silent : Silent (first ++ later)) :
    Silent first := fun e mem => silent e (List.mem_append_left later mem)

theorem Tells.shows {front : Text} (tells : Tells front log c) (same : front ++ piece = text)
    (blank : solid piece = []) : Shows text log := by
  obtain ⟨said, untagged, told⟩ := (tells.blank blank).told
  rw [same] at untagged
  exact ⟨_, _, said, untagged, told⟩

theorem Shows.silent {later : List SseEvent} (shows : Shows text sent) (silent : Silent later) :
    Shows text (sent ++ later) := by
  obtain ⟨inside, extracted, said, untagged, same⟩ := shows
  exact ⟨inside, extracted, said, untagged,
    by rw [shown_append, silent.shown, List.append_nil, same]⟩

theorem id_of_push {accumulator : ToolJsonAccumulator} {e : ToolUseEvent} {map : ToolNameMap}
    {t : CompletedToolUse} (pushed : (accumulator.push env e map).1 = .ok (some t)) :
    t.id = e.toolUseId := by
  unfold ToolJsonAccumulator.push at pushed
  dsimp only at pushed
  split at pushed
  · cases pushed
  · split at pushed
    · cases pushed
      rfl
    · split at pushed
      · cases pushed
        rfl
      · cases pushed

theorem silent_collect (env : StreamEnv) (c : StreamContext) (e : ToolUseEvent) :
    Silent (c.collectToolUse env e).1 := by
  unfold StreamContext.collectToolUse
  dsimp only
  split
  · exact silent_emit env _ _
  · exact silent_nil
  · exact silent_nil

theorem completes_of_call (env : StreamEnv) (h : Known blocks c) {e : ToolUseEvent}
    {before behind : List SseEvent} {start : SseEvent} (call : isCall start = true)
    (split : (c.collectToolUse env e).1 = before ++ start :: behind) : Completes env c e := by
  have starts := not_noCalls call split
  unfold StreamContext.collectToolUse at starts
  dsimp only at starts
  split at starts
  · next t pushed =>
    refine ⟨?_, t, pushed⟩
    rw [← id_of_push pushed]
    cases found : Dicts.get c.toolBlockIndices t.id with
    | none => rfl
    | some index =>
      have kept : Known blocks { c with toolJsonAccumulator :=
          (c.toolJsonAccumulator.push env e c.toolNameMap).2 } := h.same rfl rfl rfl rfl rfl
      exact absurd (noCalls_emit env kept t found).1 starts
  · exact absurd noCalls_nil starts
  · exact absurd noCalls_nil starts

/-- Where a fragment makes a call start, the text before it is shown. -/
theorem Flows.shows_before_call (env : StreamEnv) (h : Flows text log c) {e : ToolUseEvent}
    (calm : Completes env c e → Unheld c)
    (fits : Fits (received (log ++ (c.processKiroEvent env (.toolUse e)).1)))
    {before behind : List SseEvent} {start : SseEvent} (call : isCall start = true)
    (split : (c.processKiroEvent env (.toolUse e)).1 = before ++ start :: behind) :
    Shows text (log ++ before) := by
  rw [h.processToolUse_eq env e] at fits split
  obtain ⟨frame, filter⟩ := textFrame_prepared env c
  obtain ⟨⟨passed, reads, joined⟩, held, passing⟩ := h
  have fits' : Fits (received (log ++ (prepared env c).1)) := by
    unfold received Emit.andThen at fits
    dsimp only at fits
    rw [← List.append_assoc, after_append] at fits
    exact fits.before
  have known : Known (received log) c := by
    obtain ⟨_, tells, _⟩ := reads.tells
    exact tells.known
  have none : NoCalls (prepared env c).1 := by
    have does : Does notTools (received log) (prepared env c) := by
      refine Does.andThen (does_settleThinking env ?_) fun known =>
        (does_flushWaiting env known).ofText
      exact known.same rfl rfl rfl rfl rfl
    refine noCalls_of_does does ?_
    have split : received (log ++ (prepared env c).1) =
        after (received log) (prepared env c).1 := after_append ..
    rwa [split] at fits'
  obtain ⟨middle, rfl, collected⟩ : ∃ middle, before = (prepared env c).1 ++ middle ∧
      ((prepared env c).2.collectToolUse env e).1 = middle ++ start :: behind := by
    rcases split_log split with collected | ⟨rest, early⟩
    · exact collected
    · exact absurd none (not_noCalls call early)
  obtain ⟨reads', unheld⟩ := reads.prepared env fits'
  obtain ⟨front, tells, eq⟩ := reads'.tells
  have starts := completes_of_call env tells.known call collected
  rw [Completes, frame.indices, frame.accumulator, frame.names] at starts
  obtain ⟨nothing, -⟩ := calm starts
  rw [nothing, List.append_nil] at joined
  subst joined
  have silent := silent_collect env (prepared env c).2 e
  rw [show ((prepared env c).2.collectToolUse env e).1 = _ from collected] at silent
  rw [← List.append_assoc]
  exact (tells.shows eq (unheld (calm starts))).silent silent.of_append

theorem Reads.emitAll (env : StreamEnv) (h : Reads text log c) (pending : List CompletedToolUse) :
    Upto (Reads text) log (emitAll (emitCompletedToolUse env) pending c) := by
  induction pending generalizing log c with
  | nil => exact upto_quiet h
  | cons t rest ih => exact (h.emit env t).andThen ih

theorem silent_emitAll (env : StreamEnv) (c : StreamContext) (pending : List CompletedToolUse) :
    Silent (emitAll (emitCompletedToolUse env) pending c).1 := by
  induction pending generalizing c with
  | nil => exact silent_nil
  | cons t rest ih => exact (silent_emit env c t).append (ih _)

theorem Reads.finishTools (env : StreamEnv) (h : Reads text log c) :
    Upto (Reads text) log (c.finishTools env) := by
  unfold StreamContext.finishTools
  split_ifs
  · exact upto_quiet h
  · dsimp only
    split
    · refine Reads.emitAll env ?_ _
      exact h.same (by constructor <;> rfl) rfl
    · exact upto_quiet (h.same (by constructor <;> rfl) rfl)

theorem emitAll_frame (env : StreamEnv) (c : StreamContext) (pending : List CompletedToolUse) :
    ∃ m indices tokens, (emitAll (emitCompletedToolUse env) pending c).2 = { c with
      stateManager := m
      toolBlockIndices := indices
      outputTokens := tokens } := by
  induction pending generalizing c with
  | nil => exact ⟨c.stateManager, c.toolBlockIndices, c.outputTokens, rfl⟩
  | cons t rest ih =>
    obtain ⟨m, indices, tokens, eq⟩ := emit_frame env c t
    obtain ⟨m', indices', tokens', later⟩ := ih (c.emitCompletedToolUse env t).2
    refine ⟨m', indices', tokens', later.trans ?_⟩
    rw [eq]

theorem finishTools_frame (env : StreamEnv) (c : StreamContext) :
    (c.finishTools env).2.toolUseXmlFilter = c.toolUseXmlFilter ∧
      ((c.finishTools env).2.toolJsonError.isSome = true → Fails env c) ∧
      (c.finishTools env).2.thinkingBuffer = c.thinkingBuffer ∧
      (c.finishTools env).2.thinkingExtracted = c.thinkingExtracted := by
  unfold StreamContext.finishTools
  split_ifs with failed
  · exact ⟨rfl, fun _ => .inl failed, rfl, rfl⟩
  · dsimp only
    split
    · next pending _ =>
      obtain ⟨m, indices, tokens, eq⟩ := emitAll_frame env { c with toolJsonAccumulator :=
        (c.toolJsonAccumulator.finish env c.toolNameMap).2 } pending
      rw [eq]
      exact ⟨rfl, fun some => absurd some failed, rfl, rfl⟩
    · next err finish => exact ⟨rfl, fun _ => .inr ⟨err, finish⟩, rfl, rfl⟩

theorem silent_finishTools (env : StreamEnv) (c : StreamContext) :
    Silent (c.finishTools env).1 := by
  unfold StreamContext.finishTools
  split_ifs
  · exact silent_nil
  · dsimp only
    split
    · exact silent_emitAll env _ _
    · exact silent_nil

theorem noCalls_finishTools (env : StreamEnv) (h : Known blocks c)
    (known : ∀ t ∈ pendingTools env c, (Dicts.get c.toolBlockIndices t.id).isSome = true)
    (fits : Fits (after blocks (c.finishTools env).1)) : NoCalls (c.finishTools env).1 := by
  unfold pendingTools at known
  unfold StreamContext.finishTools at fits ⊢
  split_ifs at known fits ⊢
  · exact noCalls_nil
  · dsimp only at fits ⊢
    cases finished : (c.toolJsonAccumulator.finish env c.toolNameMap).1 with
    | error err => exact noCalls_nil
    | ok pending =>
      rw [finished] at known fits
      refine noCalls_emitAll env ?_ pending known fits
      exact h.same rfl rfl rfl rfl rfl

theorem Flows.finishFilter (env : StreamEnv) (h : Flows text log c) :
    Upto (Reads text) log (c.finishFilter env) := by
  obtain ⟨⟨passed, reads, joined⟩, held, passing⟩ := h
  have rest : c.toolUseXmlFilter.finish = c.toolUseXmlFilter.buffer :=
    FilterRuns.finish_of_held held _
  have kept : Reads passed log { c with toolUseXmlFilter := {} } :=
    reads.same (by constructor <;> rfl) rfl
  unfold StreamContext.finishFilter
  rw [rest, ← joined]
  dsimp only
  split_ifs with none
  · rw [List.isEmpty_iff] at none
    rw [none, List.append_nil]
    exact upto_quiet kept
  · refine Reads.processFiltered env ?_ _
    exact kept.same (by constructor <;> rfl) rfl

theorem Reads.flushBuffer (env : StreamEnv) (h : Reads text log c) :
    Upto (Tells text) log (c.flushBuffer env) := by
  obtain ⟨⟨front, tells, joined⟩, empty⟩ := h
  unfold StreamContext.flushBuffer
  by_cases flushes : (c.thinkingEnabled && !c.thinkingBuffer.isEmpty) = true
  · rw [if_pos flushes]
    have last : ∀ log c', Tells text log c' →
        Upto (Tells text) log (Emits.quiet { c' with thinkingBuffer := [] }) :=
      fun log c' tells => upto_quiet (tells.same (by constructor <;> rfl))
    refine Upto.andThen (R := Tells text) ?_ fun tells => last _ _ tells
    by_cases inside : c.inThinkingBlock = true
    · rw [if_pos inside]
      cases found : findRealThinkingEndTagAtBufferEnd c.thinkingBuffer with
      | some p =>
        obtain ⟨thinking, rest⟩ := p
        obtain ⟨split, -⟩ := findTag_eq_some found
        rw [← joined, split, ← List.append_assoc, ← List.append_assoc]
        exact (tells.endThinking inside rfl).andThen fun ended => ended.emitRest env rest
      | none =>
        rw [← joined]
        exact (tells.sendThinking inside rfl).andThen fun sent => sent.stopThinking
    · rw [if_neg inside]
      dsimp only
      have trimmed : solid (if c.stripTextAfterThinkingBoundary = true then
          trimStart c.thinkingBuffer else c.thinkingBuffer) = solid c.thinkingBuffer := by
        split_ifs
        · exact solid_trimStart _
        · rfl
      generalize (if c.stripTextAfterThinkingBoundary = true then trimStart c.thinkingBuffer
        else c.thinkingBuffer) = content at trimmed ⊢
      have kept : Tells front log { c with
          stripTextAfterThinkingBoundary :=
            c.stripTextAfterThinkingBoundary && content.isEmpty } :=
        tells.same (by constructor <;> rfl)
      rw [← joined]
      split_ifs with none
      · rw [List.isEmpty_iff] at none
        rw [none] at trimmed
        exact upto_quiet (kept.blank trimmed.symm)
      · exact kept.createText env trimmed
  · rw [if_neg flushes]
    rw [tells.enabled, Bool.true_and, Bool.not_eq_true', Bool.not_eq_false,
      List.isEmpty_iff] at flushes
    rw [flushes, List.append_nil] at joined
    rw [← joined]
    exact upto_quiet tells

theorem Tells.padThinkingOnly (env : StreamEnv) (h : Tells text log c) :
    Upto (Tells text) log (c.padThinkingOnly env) := by
  unfold StreamContext.padThinkingOnly
  split_ifs
  · have noted : Tells text log
        { c with stateManager := c.stateManager.setStopReason "max_tokens" } :=
      h.same (by constructor <;> rfl)
    have padded : Upto (Tells (text ++ [])) log (createTextDeltaEvents env
        { c with stateManager := c.stateManager.setStopReason "max_tokens" } [' ']) :=
      noted.createText env (by decide)
    rwa [List.append_nil] at padded
  · exact upto_quiet h

theorem silent_sendFinal (env : StreamEnv) (c : StreamContext) :
    Silent (c.sendFinal env).1 := by
  have delta (m : SseStateManager) (usage : Usage) : Silent (m.sendMessageDelta usage).1 := by
    unfold SseStateManager.sendMessageDelta
    split_ifs
    · exact silent_nil
    · exact silent_single rfl
  have stop (m : SseStateManager) : Silent m.sendMessageStop.1 := by
    unfold SseStateManager.sendMessageStop
    split_ifs
    · exact silent_nil
    · exact silent_single rfl
  exact ((silent_stopOpen env _ _).append (delta _ _)).append (stop _)

theorem noCalls_sendFinal (env : StreamEnv) (c : StreamContext) :
    NoCalls (c.sendFinal env).1 := by
  have opened : NoCalls (c.stateManager.stopOpen env fun _ => true).1 := by
    intro e mem
    obtain ⟨index, -, rfl⟩ := List.mem_map.mp mem
    rfl
  have delta (m : SseStateManager) (usage : Usage) : NoCalls (m.sendMessageDelta usage).1 := by
    unfold SseStateManager.sendMessageDelta
    split_ifs
    · exact noCalls_nil
    · exact noCalls_single rfl
  have stop (m : SseStateManager) : NoCalls m.sendMessageStop.1 := by
    unfold SseStateManager.sendMessageStop
    split_ifs
    · exact noCalls_nil
    · exact noCalls_single rfl
  exact (opened.append (delta _ _)).append (stop _)

theorem emitExtracted_buffer (env : StreamEnv) (c : StreamContext) :
    (c.emitExtracted env).2.thinkingBuffer = [] := by
  unfold StreamContext.emitExtracted
  dsimp only
  generalize (if c.stripTextAfterThinkingBoundary = true then trimStart c.thinkingBuffer
    else c.thinkingBuffer) = remaining
  split_ifs
  · rfl
  · obtain ⟨m, t, eq⟩ := createTextDeltaEvents_frame env { c with
      thinkingBuffer := []
      stripTextAfterThinkingBoundary := c.stripTextAfterThinkingBoundary && remaining.isEmpty }
      remaining
    rw [eq]

theorem Reads.finishFilter_buffer (env : StreamEnv) (h : Reads text log c)
    (extracted : c.thinkingExtracted = true) : (c.finishFilter env).2.thinkingBuffer = [] := by
  obtain ⟨front, tells, -⟩ := h.tells
  have outside : c.inThinkingBlock = false := by
    cases inside : c.inThinkingBlock with
    | false => rfl
    | true =>
      rw [tells.not_extracted inside] at extracted
      cases extracted
  unfold StreamContext.finishFilter
  dsimp only
  split_ifs
  · exact h.empty extracted
  · unfold StreamContext.processFiltered processContentWithThinking addOutputTokens
    dsimp only
    rw [if_pos tells.enabled, outside, extracted]
    exact emitExtracted_buffer env _

theorem nil_of_held {buffer : Text} (held : FilterRuns.Held buffer) (none : solid buffer = []) :
    buffer = [] := by
  cases buffer with
  | nil => rfl
  | cons a rest =>
    have blank := isBlank_of_solid none
    have space : isWhitespace a = true := List.all_eq_true.mp blank a List.mem_cons_self
    rw [FilterRuns.solid_of_tag a (held.1.subset List.mem_cons_self)] at space
    cases space

/-- At the end all text is shown, but for what a failed tool input takes with it. -/
theorem Flows.generateFinalEvents (env : StreamEnv) (h : Flows text log c)
    (failed : Fails env c → c.thinkingExtracted = false → solid (heldText c) = []) :
    Upto (fun log _ => Shows text log) log (c.generateFinalEvents env) := by
  obtain ⟨filter, fails, buffer, extracted⟩ := finishTools_frame env c
  have tools : Upto (fun log c' => Flows text log c') log (c.finishTools env) :=
    h.step (fun passed reads => reads.finishTools env) filter
  have ready : Upto (fun log c' => Reads text log c' ∧
      (c'.toolJsonError.isSome = true → solid c'.thinkingBuffer = [])) log
      ((c.finishTools env).andThen fun c => c.finishFilter env) := by
    refine tools.andThen fun flows => ?_
    refine (flows.finishFilter env).mono' fun reads => ⟨reads, fun error => ?_⟩
    rw [(toolFrame_finishFilter env _).error] at error
    cases behind : c.thinkingExtracted with
    | true =>
      obtain ⟨⟨passed, reads, -⟩, -, -⟩ := flows
      rw [reads.finishFilter_buffer env (extracted.trans behind)]
      rfl
    | false =>
      have nothing := failed (fails error) behind
      unfold heldText at nothing
      rw [solid_append, List.append_eq_nil_iff] at nothing
      have empty : (c.finishTools env).2.toolUseXmlFilter.finish = [] := by
        unfold ToolUseXmlLeakFilter.finish
        rw [filter, nil_of_held h.held nothing.2]
        rfl
      unfold StreamContext.finishFilter
      rw [empty]
      show solid (c.finishTools env).2.thinkingBuffer = []
      rw [buffer]
      exact nothing.1
  unfold StreamContext.generateFinalEvents
  refine ready.andThen fun both => ?_
  generalize ((c.finishTools env).andThen fun c => c.finishFilter env) = r at both ⊢
  obtain ⟨reads, blank⟩ := both
  obtain ⟨front, tells, joined⟩ := reads.tells
  have closed : r.2.closeReasoningIfOpen = Emits.quiet r.2 := by
    unfold closeReasoningIfOpen
    rw [tells.quiet]
    rfl
  rw [closed]
  cases error : r.2.toolJsonError with
  | some err =>
    intro _
    have whole := tells.shows joined (blank (by rw [error]; rfl))
    exact whole.silent ((silent_sendFinal env _).append (silent_single rfl))
  | none =>
    refine Upto.andThen ((reads.flushBuffer env).andThen fun flushed =>
      flushed.padThinkingOnly env) fun padded => ?_
    intro _
    have whole := padded.shows (List.append_nil text) rfl
    exact whole.silent (silent_sendFinal env _)

private def afterTools (env : StreamEnv) (c : StreamContext) : Sent :=
  (c.finishFilter env).andThen fun c =>
    match c.toolJsonError with
    | some err =>
      (c.closeReasoningIfOpen.andThen fun c => c.sendFinal env).andThen fun c =>
        ([.error err.errorType err.message], c)
    | none =>
      ((c.closeReasoningIfOpen.andThen fun c => c.flushBuffer env).andThen fun c =>
        c.padThinkingOnly env).andThen fun c => c.sendFinal env

theorem generateFinalEvents_eq (env : StreamEnv) (c : StreamContext) :
    c.generateFinalEvents env = (c.finishTools env).andThen (afterTools env) := andThen_assoc ..

theorem noCalls_afterTools (env : StreamEnv) (h : Known blocks c)
    (fits : Fits (after blocks (afterTools env c).1)) : NoCalls (afterTools env c).1 := by
  unfold afterTools at fits ⊢
  rw [after_andThen] at fits
  have filters := does_finishFilter env h
  refine NoCalls.append (noCalls_of_does filters fits.before) ?_
  have known := (filters fits.before).known
  generalize c.finishFilter env = r at fits known ⊢
  have closes := (does_closeReasoning known).ofThinking
  dsimp only at fits ⊢
  cases error : r.2.toolJsonError with
  | some err =>
    rw [error] at fits
    dsimp only at fits
    rw [andThen_assoc, after_andThen] at fits
    exact NoCalls.append (NoCalls.append (noCalls_of_does closes fits.before)
      (noCalls_sendFinal env _)) (noCalls_single rfl)
  | none =>
    rw [error] at fits
    dsimp only at fits
    rw [after_andThen] at fits
    have does : Does notTools (after blocks r.1)
        ((r.2.closeReasoningIfOpen.andThen fun c => c.flushBuffer env).andThen fun c =>
          c.padThinkingOnly env) :=
      (closes.andThen fun known => does_flushBuffer env known).andThen fun known =>
        (does_padThinkingOnly env known).ofText
    exact NoCalls.append (noCalls_of_does does fits.before) (noCalls_sendFinal env _)

theorem known_finishTools (env : StreamEnv) (h : Reads text log c)
    (fits : Fits (received (log ++ (c.finishTools env).1))) :
    Known (received (log ++ (c.finishTools env).1)) (c.finishTools env).2 := by
  obtain ⟨_, tells, _⟩ := (h.finishTools env fits).tells
  exact tells.known

/-- Where a call starts at the end, nothing was shown since the last event, and the call waited
there under a new id. -/
theorem Reads.silent_before_last_call (env : StreamEnv) (h : Reads text log c)
    (fits : Fits (received (log ++ (c.generateFinalEvents env).1)))
    {before behind : List SseEvent} {start : SseEvent} (call : isCall start = true)
    (split : (c.generateFinalEvents env).1 = before ++ start :: behind) :
    Silent before ∧ ∃ t ∈ pendingTools env c, Dicts.get c.toolBlockIndices t.id = none := by
  have opened : Known (received log) c := by
    obtain ⟨_, tells, _⟩ := h.tells
    exact tells.known
  have joined : ∀ later, received (log ++ later) = after (received log) later :=
    fun later => after_append ..
  rw [generateFinalEvents_eq, joined, after_andThen] at fits
  rw [generateFinalEvents_eq] at split
  have known := known_finishTools env h (by rw [joined]; exact fits.before)
  rw [joined] at known
  have none := noCalls_afterTools env known fits
  obtain ⟨rest, tools⟩ : ∃ rest, (c.finishTools env).1 = before ++ start :: rest := by
    rcases split_log split with ⟨middle, -, later⟩ | tools
    · exact absurd none (not_noCalls call later)
    · exact tools
  have silent := silent_finishTools env c
  rw [tools] at silent
  refine ⟨silent.of_append, ?_⟩
  by_contra old
  simp only [not_exists, not_and, ← ne_eq, Option.ne_none_iff_isSome] at old
  exact not_noCalls call tools (noCalls_finishTools env opened old fits.before)

theorem running_concat (env : StreamEnv) (c : StreamContext) (events : List Event) (x : Event) :
    c.running env (events ++ [x]) =
      (c.running env events).andThen fun c => c.processKiroEvent env x := by
  unfold running
  rw [andThen_assoc]
  exact congrArg (c.generateInitialEvents env).andThen
    (funext fun d => emitAll_concat (processKiroEvent env) events x d)

/-- One more event, whose calls start behind all text from before it. -/
theorem Timely.concat {events : List Event} {x : Event} {out : List SseEvent}
    (timely : Timely env c events log) (so_far : (c.running env events).1 = log)
    (shows : ∀ before start behind, isCall start = true → out = before ++ start :: behind →
      Shows (spoken events) (log ++ before)) :
    Timely env c (events ++ [x]) (log ++ out) := by
  intro before e later front index name back split sent reached
  have grows : spoken events <+: spoken (events ++ [x]) := by
    rw [spoken_append]
    exact List.prefix_append ..
  have call : isCall (.contentBlockStart index (.toolUse e.toolUseId name)) = true := rfl
  rcases split_log sent with ⟨middle, rfl, started⟩ | ⟨rest, started⟩
  · refine ⟨spoken events, ?_, grows, shows middle _ back call started⟩
    obtain rfl | ⟨later, y, rfl⟩ := List.eq_nil_or_concat later
    · rw [← List.append_inj_left' split rfl]
    · have events_eq : events = before ++ .toolUse e :: later := by
        rw [List.concat_eq_append, ← List.cons_append, ← List.append_assoc] at split
        exact List.append_inj_left' split rfl
      rw [events_eq, spoken_append]
      exact List.prefix_append ..
  · obtain rfl | ⟨later, y, rfl⟩ := List.eq_nil_or_concat later
    · have same : events = before := List.append_inj_left' split rfl
      subst same
      have short := reached.length_le
      rw [so_far, started, List.length_append, List.length_cons] at short
      omega
    · rw [List.concat_eq_append, ← List.cons_append, ← List.append_assoc] at split
      have events_eq : events = before ++ .toolUse e :: later := List.append_inj_left' split rfl
      obtain ⟨arrived, above, below, told⟩ :=
        timely before e later front index name rest events_eq started reached
      exact ⟨arrived, above, below.trans grows, told⟩

variable {model messageId : String} {inputTokens : Int} {map : ToolNameMap} {usage : CacheUsage}

theorem flows_initial (env : StreamEnv)
    (fits : Fits (received ((newContext model messageId inputTokens true map
      usage).generateInitialEvents env).1)) :
    Flows [] ((newContext model messageId inputTokens true map usage).generateInitialEvents env).1
      ((newContext model messageId inputTokens true map usage).generateInitialEvents env).2 := by
  have known := (inv_initial env fits).known
  refine ⟨⟨[], ⟨⟨[], ⟨known, rfl, rfl, ?_, [], .whole [], rfl⟩, rfl⟩, fun _ => rfl⟩, rfl⟩,
    FilterRuns.held_nil, rfl⟩
  intro never
  cases never

theorem timely_initial (env : StreamEnv) (c : StreamContext) (sent : List SseEvent) :
    Timely env c [] sent := by
  intro before e later front index name back split
  have lengths := congrArg List.length split
  rw [List.length_append, List.length_cons, List.length_nil] at lengths
  omega

theorem clean_front {first later : Text} (clean : ¬ toolUseXmlPrefix <:+: first ++ later) :
    ¬ toolUseXmlPrefix <:+: first :=
  fun inside => clean (inside.trans (List.prefix_append first later).isInfix)

/-- In a calm run the text flows, and no call overtakes it. -/
theorem flows_running (env : StreamEnv) (events : List Event)
    (texts : ∀ e ∈ events, isTextOrTool e = true) (clean : ¬ toolUseXmlPrefix <:+: spoken events)
    (calm : Guarded (processKiroEvent env) (Calm env) events
      ((newContext model messageId inputTokens true map usage).generateInitialEvents env).2)
    (fits : Fits (received
      ((newContext model messageId inputTokens true map usage).running env events).1)) :
    Flows (spoken events)
        ((newContext model messageId inputTokens true map usage).running env events).1
        ((newContext model messageId inputTokens true map usage).running env events).2 ∧
      Timely env (newContext model messageId inputTokens true map usage) events
        ((newContext model messageId inputTokens true map usage).running env events).1 := by
  generalize start : newContext model messageId inputTokens true map usage = c at calm fits ⊢
  induction events using List.reverseRecOn with
  | nil =>
    subst start
    have same : (newContext model messageId inputTokens true map usage).running env [] =
        (newContext model messageId inputTokens true map usage).generateInitialEvents env := by
      unfold running emitAll Emit.andThen quiet
      rw [List.append_nil]
    rw [same] at fits ⊢
    exact ⟨flows_initial env fits, timely_initial env _ _⟩
  | append_singleton events x ih =>
    have joined := running_concat env c events x
    rw [joined] at fits ⊢
    obtain ⟨calm_before, calm_here⟩ := guarded_concat.mp calm
    rw [spoken_append] at clean ⊢
    have fits_before : Fits (received (c.running env events).1) := by
      unfold received at fits ⊢
      rw [after_andThen] at fits
      exact fits.before
    obtain ⟨flows, timely⟩ := ih (fun e mem => texts e (List.mem_append_left _ mem))
      (clean_front clean) calm_before fits_before
    have here : isTextOrTool x = true := texts x (List.mem_append_right _ List.mem_cons_self)
    have guard : Calm env (c.running env events).2 x := calm_here
    have one : spoken [x] = textOf x := List.append_nil _
    rw [one] at clean ⊢
    generalize so_far : c.running env events = r at fits flows timely guard ⊢
    have fits_step : Fits (received (r.1 ++ (r.2.processKiroEvent env x).1)) := fits
    have flowing : Flows (spoken events ++ textOf x) (r.1 ++ (r.2.processKiroEvent env x).1)
        (r.2.processKiroEvent env x).2 := by
      have closed := flows.closeReasoning
      have answered (content : Text) (clean : ¬ toolUseXmlPrefix <:+: spoken events ++ content) :
          Upto (Flows (spoken events ++ content)) r.1
            (r.2.closeReasoningIfOpen.andThen fun c => c.processAssistantResponse env content) := by
        rw [closed]
        exact flows.processAssistantResponse env content clean
      cases x with
      | assistantResponse content => exact answered content clean fits_step
      | code content => exact answered content clean fits_step
      | toolUse e =>
        rw [show textOf (.toolUse e) = [] from rfl, List.append_nil]
        exact flows.processToolUse env e fits_step
      | metering _ | contextUsage _ | reasoningContent _ | unknown | error _ _ | exception _ _ =>
        cases here
    refine ⟨flowing, timely.concat (congrArg Prod.fst so_far) ?_⟩
    intro before start' behind call split
    have quiet (other : fragmentOf x = none) : NoCalls (r.2.processKiroEvent env x).1 := by
      obtain ⟨⟨_, ⟨⟨_, tells, _⟩, _⟩, _⟩, _, _⟩ := flows
      refine noCalls_of_does (does_processKiroEvent env tells.known other).1 ?_
      unfold received at fits_step ⊢
      rwa [after_append] at fits_step
    cases x with
    | toolUse e => exact flows.shows_before_call env guard fits_step call split
    | assistantResponse content => exact absurd (quiet rfl) (not_noCalls call split)
    | code content => exact absurd (quiet rfl) (not_noCalls call split)
    | metering _ | contextUsage _ | reasoningContent _ | unknown | error _ _ | exception _ _ =>
      cases here

theorem rtakeWhile_behind {α : Type} {p : α → Bool} {x : α} (stops : ¬ p x = true)
    (before later : List α) : (before ++ x :: later).rtakeWhile p <:+ later := by
  induction later using List.reverseRecOn with
  | nil => rw [List.rtakeWhile_concat_neg p before x stops]
  | append_singleton later y ih =>
    rw [← List.cons_append, ← List.append_assoc]
    by_cases taken : p y = true
    · rw [List.rtakeWhile_concat_pos p _ y taken]
      obtain ⟨first, eq⟩ := ih
      exact ⟨first, by rw [← List.append_assoc, eq]⟩
    · rw [List.rtakeWhile_concat_neg p _ y taken]
      exact List.nil_suffix

theorem sinceTool_suffix (before later : List Event) (e : ToolUseEvent) :
    sinceTool (before ++ .toolUse e :: later) <:+ spoken later := by
  have behind : (before ++ .toolUse e :: later).rtakeWhile
      (fun event => (fragmentOf event).isNone) <:+ later := by
    refine rtakeWhile_behind (fun never => ?_) before later
    cases never
  unfold sinceTool
  generalize (before ++ Event.toolUse e :: later).rtakeWhile
    (fun event => (fragmentOf event).isNone) = taken at behind ⊢
  obtain ⟨first, rfl⟩ := behind
  rw [spoken_append]
  exact List.suffix_append _ _

theorem Tells.shows_before_last_call {before later : List Event} {e : ToolUseEvent} {held : Text}
    (tells : Tells front log c) (joined : front ++ held = spoken (before ++ .toolUse e :: later))
    (young : solid held <:+ solid (sinceTool (before ++ .toolUse e :: later))) :
    ∃ arrived, spoken before <+: arrived ∧
      arrived <+: spoken (before ++ .toolUse e :: later) ∧ Shows arrived log := by
  have whole : spoken (before ++ .toolUse e :: later) = spoken before ++ spoken later :=
    spoken_append before (.toolUse e :: later)
  rw [whole] at joined ⊢
  rcases List.append_eq_append_iff.mp joined with ⟨missing, eq, rest⟩ | ⟨more, rfl, rest⟩
  · obtain ⟨first, since⟩ := sinceTool_suffix before later e
    -- What is held back is at most what came since, so nothing of it is older than the call.
    have short := young.length_le
    have less : (solid (sinceTool (before ++ .toolUse e :: later))).length ≤
        (solid (spoken later)).length := by
      rw [← since, solid_append, List.length_append]
      omega
    have all : (solid held).length = (solid missing).length + (solid (spoken later)).length := by
      rw [rest, solid_append, List.length_append]
    have none : solid missing = [] := by
      apply List.eq_nil_of_length_eq_zero
      omega
    refine ⟨spoken before, List.prefix_refl _, List.prefix_append _ _, ?_⟩
    exact tells.shows eq.symm none
  · refine ⟨spoken before ++ more, List.prefix_append _ _, ?_, ?_⟩
    · rw [rest, ← List.append_assoc]
      exact List.prefix_append _ _
    · exact tells.shows (List.append_nil _) rfl

/-- In a calm run of texts and tool uses all text is shown, once and in order, and none of it behind
a later call. -/
theorem text_conserved (env : StreamEnv) (model messageId : String) (inputTokens : Int)
    (map : ToolNameMap) (usage : CacheUsage) (events : List Event)
    (texts : ∀ e ∈ events, isTextOrTool e = true) (clean : ¬ toolUseXmlPrefix <:+: spoken events)
    (fits : Fits (received
      (streamed env (newContext model messageId inputTokens true map usage) events).1))
    (calm : CalmRun env (newContext model messageId inputTokens true map usage) events) :
    Conserves env (newContext model messageId inputTokens true map usage) events := by
  obtain ⟨steps, last⟩ := calm
  have joined : streamed env (newContext model messageId inputTokens true map usage) events =
      (running env (newContext model messageId inputTokens true map usage) events).andThen
        fun c => c.generateFinalEvents env := rfl
  have fits_run : Fits (received
      ((newContext model messageId inputTokens true map usage).running env events).1) := by
    unfold received at fits ⊢
    rw [joined, after_andThen] at fits
    exact fits.before
  obtain ⟨flows, timely⟩ := flows_running env events texts clean steps fits_run
  rw [joined] at fits
  have fits_end : Fits (received
      (((newContext model messageId inputTokens true map usage).running env events).1 ++
        (((newContext model messageId inputTokens true map usage).running env
          events).2.generateFinalEvents env).1)) := fits
  constructor
  · rw [joined]
    exact flows.generateFinalEvents env last.failed fits_end
  · rw [joined]
    intro before e later front index name back split sent reached
    have call : isCall (.contentBlockStart index (.toolUse e.toolUseId name)) = true := rfl
    rcases split_log sent with ⟨middle, rfl, started⟩ | ⟨rest, started⟩
    · obtain ⟨⟨passed, reads, all⟩, -, -⟩ := flows
      obtain ⟨silent, waiting⟩ := reads.silent_before_last_call env fits_end call started
      obtain ⟨told, tells, buffered⟩ := reads.tells
      rw [← buffered, List.append_assoc] at all
      have young := last.calls waiting
      subst split
      obtain ⟨arrived, above, below, shows⟩ := tells.shows_before_last_call all young
      exact ⟨arrived, above, below, shows.silent silent⟩
    · exact timely before e later front index name rest split started reached

/-- A call behind its text and behind its thinking. -/
theorem text_conserved_call :
    Conserves StreamEnv.sample (newContext "claude-sonnet-4.5" "msg_1" 10 true [] {})
      [.assistantResponse "<thinking>ok</thinking>\n\nhello".toList,
        .toolUse { name := "read", toolUseId := "call_1", stop := true }] := by
  refine text_conserved _ _ _ _ _ _ _ (by decide +kernel) (by decide +kernel)
    (by unfold Fits; decide +kernel)
    ⟨⟨trivial, fun _ => ⟨by decide +kernel, ?_⟩, trivial⟩, ?_, ?_⟩
  · intro inside
    exact absurd inside (by decide +kernel)
  · rintro ⟨t, mem, -⟩
    have none : pendingTools StreamEnv.sample
        ((newContext "claude-sonnet-4.5" "msg_1" 10 true [] {}).running StreamEnv.sample
          [.assistantResponse "<thinking>ok</thinking>\n\nhello".toList,
            .toolUse { name := "read", toolUseId := "call_1", stop := true }]).2 = [] := by
      decide +kernel
    rw [none] at mem
    cases mem
  · intro _ behind
    exact absurd behind (by decide +kernel)

theorem Shows.short {text : Text} (short : text.length < thinkingStartTag.length)
    (shows : Shows text sent) : solid (shown sent) = solid text := by
  obtain ⟨inside, extracted, said, untagged, same⟩ := shows
  have room : thinkingStartTag.length = 10 := rfl
  cases untagged with
  | whole => exact same
  | inside before thinking =>
    rw [List.length_append, List.length_append] at short
    omega
  | behind before thinking after =>
    simp only [List.length_append] at short
    omega

/-- A call overtakes the start of a word that the filter holds back. -/
theorem call_overtakes_text :
    ¬ ∀ events, (∀ e ∈ events, isTextOrTool e = true) → ¬ toolUseXmlPrefix <:+: spoken events →
      Conserves StreamEnv.sample (newContext "claude-sonnet-4.5" "msg_1" 10 true [] {})
        events := by
  intro conserved
  have conserves := conserved [.assistantResponse "<tool_".toList,
    .toolUse { name := "read", toolUseId := "call_1", stop := true }] (by decide) (by decide)
  obtain ⟨arrived, above, below, shows⟩ := conserves.order
    [.assistantResponse "<tool_".toList] _ []
    ((newContext "claude-sonnet-4.5" "msg_1" 10 true [] {}).running StreamEnv.sample
      [.assistantResponse "<tool_".toList]).1 0 "read"
    [.contentBlockDelta 0 (.inputJsonDelta "{}"), .contentBlockStop 0,
      .contentBlockStart 1 .text, .contentBlockDelta 1 (.textDelta "<tool_".toList),
      .contentBlockStop 1,
      .messageDelta "tool_use" ⟨10, 3, 0, 0⟩, .messageStop]
    rfl (by decide +kernel) (List.prefix_refl _)
  have short := below.length_le
  have told := shows.short (lt_of_le_of_lt short (by decide))
  have same := above.eq_of_length (le_antisymm above.length_le short)
  rw [← same] at told
  revert told
  decide +kernel

theorem cut_off_call_takes_text :
    ¬ Conserves StreamEnv.sample (newContext "claude-sonnet-4.5" "msg_1" 10 true [] {})
      [.toolUse { name := "read", toolUseId := "call_1", input := "\x7b", stop := true },
        .assistantResponse "hello".toList] := by
  intro conserves
  have told := conserves.text.short (by decide)
  revert told
  decide +kernel

end KiroRs.Stream.TextFlow
