/- Path: KiroRs/Stream/Context
   source: src/anthropic/stream.rs
   digest: The context that turns the upstream's events into the client's. -/

import KiroRs.Stream.StateManager
import KiroRs.Stream.ThinkingTags
import KiroRs.Stream.ToolJson

set_option autoImplicit false
set_option relaxedAutoImplicit false

namespace KiroRs.Stream.Context

open KiroRs.Lib
open KiroRs.Lib.Emits
open KiroRs.Lib.Text
open KiroRs.Converter.Json (Value)
open KiroRs.Converter.ToolNames (ToolNameMap)
open KiroRs.Stream.XmlFilter
open KiroRs.Stream.Events
open KiroRs.Stream.StateManager
open KiroRs.Stream.ThinkingTags
open KiroRs.Stream.ToolJson

structure StreamContext where
  stateManager : SseStateManager := {}
  model : String
  messageId : String
  inputTokens : Int
  contextInputTokens : Option Int := none
  outputTokens : Int := 0
  toolBlockIndices : Dicts.Dict Int := []
  toolNameMap : ToolNameMap
  thinkingEnabled : Bool
  thinkingBuffer : Text := []
  inThinkingBlock : Bool := false
  thinkingExtracted : Bool := false
  thinkingBlockIndex : Option Int := none
  reasoningBlockOpen : Bool := false
  textBlockIndex : Option Int := none
  stripThinkingLeadingNewline : Bool := false
  stripTextAfterThinkingBoundary : Bool := false
  cacheUsage : CacheUsage := {}
  toolJsonAccumulator : ToolJsonAccumulator := {}
  toolJsonError : Option ToolJsonAccumulatorError := none
  toolUseXmlFilter : ToolUseXmlLeakFilter := {}

def thinkingSignaturePlaceholder : String := "kiro-rs-thinking-signature"

/-- What a function of the context puts out, and the context it leaves. -/
abbrev Sent := Emit SseEvent StreamContext

namespace StreamContext

def newWithThinking (model messageId : String) (inputTokens : Int) (thinkingEnabled : Bool)
    (toolNameMap : ToolNameMap) : StreamContext :=
  { model, messageId, inputTokens, thinkingEnabled, toolNameMap }

/-- A function of the state manager, as a function of the context. -/
def manage (c : StreamContext) (r : Emit SseEvent SseStateManager) : Sent :=
  (r.1, { c with stateManager := r.2 })

def addOutputTokens (c : StreamContext) (text : Text) : StreamContext :=
  { c with outputTokens := wrapI32 (c.outputTokens + estimateTokens text) }

def resolvedUsage (env : StreamEnv) (c : StreamContext) : Int × Int × Int :=
  env.splitAgainstTotal c.cacheUsage (c.contextInputTokens.getD c.inputTokens)

def createMessageStartEvent (env : StreamEnv) (c : StreamContext) : SseEvent :=
  let (inputTokens, creation, read) := env.splitAgainstTotal c.cacheUsage c.inputTokens
  .messageStart c.messageId c.model
    { inputTokens, outputTokens := 1, cacheCreationInputTokens := creation,
      cacheReadInputTokens := read }

def startBlock (env : StreamEnv) (c : StreamContext) (index : Int) (block : ContentBlock) : Sent :=
  c.manage (c.stateManager.handleContentBlockStart env index block)

def nextBlockIndex (c : StreamContext) : Int × StreamContext :=
  (c.stateManager.takeIndex.1, { c with stateManager := c.stateManager.takeIndex.2 })

/-- The text block's index, if that block is still open. -/
def openTextIndex (c : StreamContext) : Option Int :=
  c.textBlockIndex.filter fun i => c.stateManager.isBlockOpenOfType i .text

def ensureText (env : StreamEnv) (c : StreamContext) : Sent :=
  match c.openTextIndex with
  | some _ => quiet c
  | none =>
    let (index, c) := c.nextBlockIndex
    { c with textBlockIndex := some index }.startBlock env index .text

/-- Without an open text block the text goes to a new one. -/
def createTextDeltaEvents (env : StreamEnv) (c : StreamContext) (text : Text) : Sent :=
  (c.ensureText env).andThen fun c =>
    match c.textBlockIndex with
    | some index => c.manage (c.stateManager.handleContentBlockDelta index (.textDelta text))
    | none => quiet c

def createThinkingDeltaEvent (index : Int) (thinking : Text) : SseEvent :=
  .contentBlockDelta index (.thinkingDelta thinking)

def createSignatureDeltaEvent (index : Int) : SseEvent :=
  .contentBlockDelta index (.signatureDelta thinkingSignaturePlaceholder)

def sendThinking (c : StreamContext) (thinking : Text) : Sent :=
  match c.thinkingBlockIndex with
  | some index => ([createThinkingDeltaEvent index thinking], c)
  | none => quiet c

def stopThinking (c : StreamContext) : Sent :=
  match c.thinkingBlockIndex with
  | some index =>
    Emit.andThen ([createThinkingDeltaEvent index [], createSignatureDeltaEvent index], c) fun c =>
      c.manage (c.stateManager.handleContentBlockStop index)
  | none => quiet c

def closeTextIfOpen (c : StreamContext) : Sent :=
  match c.openTextIndex with
  | some index => c.manage (c.stateManager.handleContentBlockStop index)
  | none => quiet c

def closeReasoningIfOpen (c : StreamContext) : Sent :=
  if !c.reasoningBlockOpen then quiet c
  else
    c.stopThinking.andThen fun c =>
      quiet { c with reasoningBlockOpen := false, thinkingExtracted := true }

/-- The loop of `process_content_with_thinking` once thinking is over. -/
def emitExtracted (env : StreamEnv) (c : StreamContext) : Sent :=
  let remaining :=
    if c.stripTextAfterThinkingBoundary then trimStart c.thinkingBuffer else c.thinkingBuffer
  let c := { c with
    thinkingBuffer := []
    stripTextAfterThinkingBoundary := c.stripTextAfterThinkingBoundary && remaining.isEmpty }
  if remaining.isEmpty then quiet c else c.createTextDeltaEvents env remaining

/-- What the buffer holds behind the newline of the start tag, where that was not seen yet. -/
def stripLeadingNewline (c : StreamContext) : StreamContext :=
  if c.stripThinkingLeadingNewline && !c.thinkingBuffer.isEmpty then
    { c with thinkingBuffer := stripNewline c.thinkingBuffer, stripThinkingLeadingNewline := false }
  else c

/-- The end of thinking in a text: the thinking before it, and the end of the block. -/
def endThinking (c : StreamContext) (thinking : Text) : Sent :=
  (if thinking.isEmpty then quiet c else c.sendThinking thinking).andThen fun c =>
    { c with
      inThinkingBlock := false
      thinkingExtracted := true
      stripTextAfterThinkingBoundary := true }.stopThinking

/-- The loop within thinking: up to the end tag, or all but what could be a part of it. -/
def scanThinking (env : StreamEnv) (c : StreamContext) : Sent :=
  let c := c.stripLeadingNewline
  match findRealThinkingEndTagWithBoundary c.thinkingBuffer with
  | some (thinking, after) =>
    (c.endThinking thinking).andThen fun c => { c with thinkingBuffer := after }.emitExtracted env
  | none =>
    let (safe, kept) := splitKeep thinkingEndTag.length c.thinkingBuffer
    if safe.isEmpty then quiet c else { c with thinkingBuffer := kept }.sendThinking safe

def enterThinking (env : StreamEnv) (c : StreamContext) (after : Text) : Sent :=
  let c := { c with
    inThinkingBlock := true
    stripThinkingLeadingNewline := true
    thinkingBuffer := after }
  let (index, c) := c.nextBlockIndex
  { c with thinkingBlockIndex := some index }.startBlock env index .thinking

/-- The loop before thinking: up to the start tag, or all but what could be a part of it. White
space alone waits. -/
def scanStart (env : StreamEnv) (c : StreamContext) : Sent :=
  match findRealThinkingStartTag c.thinkingBuffer with
  | some (before, after) =>
    ((if isBlank before then quiet c else c.createTextDeltaEvents env before).andThen fun c =>
      c.enterThinking env after).andThen fun c => c.scanThinking env
  | none =>
    let (safe, kept) := splitKeep thinkingStartTag.length c.thinkingBuffer
    if isBlank safe then quiet c
    else
      (c.createTextDeltaEvents env safe).andThen fun c => quiet { c with thinkingBuffer := kept }

/-- The loop goes from the start tag to the end tag to the text behind it, and never back. -/
def processContentWithThinking (env : StreamEnv) (c : StreamContext) (content : Text) : Sent :=
  let c := { c with thinkingBuffer := c.thinkingBuffer ++ content }
  if !c.inThinkingBlock && !c.thinkingExtracted then c.scanStart env
  else if c.inThinkingBlock then c.scanThinking env
  else c.emitExtracted env

def processFiltered (env : StreamEnv) (c : StreamContext) (content : Text) : Sent :=
  if c.thinkingEnabled then c.processContentWithThinking env content
  else c.createTextDeltaEvents env content

def processAssistantResponse (env : StreamEnv) (c : StreamContext) (content : Text) : Sent :=
  let (content, filter) := c.toolUseXmlFilter.filter content
  let c := { c with toolUseXmlFilter := filter }
  if content.isEmpty then quiet c else (c.addOutputTokens content).processFiltered env content

def processRedacted (env : StreamEnv) (c : StreamContext) (redacted : String) : Sent :=
  ((c.closeReasoningIfOpen.andThen closeTextIfOpen).andThen fun c =>
    let (index, c) := c.nextBlockIndex
    (c.startBlock env index (.redactedThinking redacted)).andThen fun c =>
      c.manage (c.stateManager.handleContentBlockStop index)).andThen fun c =>
        quiet { c with thinkingExtracted := true }

/-- A thinking block for the reasoning: the one still open, or a new one. -/
def openReasoning (env : StreamEnv) (c : StreamContext) : Sent :=
  c.closeTextIfOpen.andThen fun c =>
    let (index, c) :=
      match c.thinkingBlockIndex.filter fun i => c.stateManager.isBlockOpenOfType i .thinking with
      | some index => (index, c)
      | none => c.nextBlockIndex
    { c with
      thinkingBlockIndex := some index
      reasoningBlockOpen := true
      inThinkingBlock := false
      thinkingExtracted := true }.startBlock env index .thinking

def processReasoningContent (env : StreamEnv) (c : StreamContext) (e : ReasoningContentEvent) :
    Sent :=
  if !c.thinkingEnabled then quiet c
  else
    match e.redactedContent.filter fun s => !s.isEmpty with
    | some redacted => c.processRedacted env redacted
    | none =>
      (if c.reasoningBlockOpen then quiet c else c.openReasoning env).andThen fun c =>
        if e.text.isEmpty then quiet c else (c.addOutputTokens e.text).sendThinking e.text

/-- A tool use of an id that was sent before adds nothing but the end of an open text. -/
def emitCompletedToolUse (env : StreamEnv) (c : StreamContext) (t : CompletedToolUse) : Sent :=
  let (index, c) :=
    match Dicts.get c.toolBlockIndices t.id with
    | some index => (index, c)
    | none =>
      let (index, c) := c.nextBlockIndex
      (index, { c with toolBlockIndices := Dicts.insert c.toolBlockIndices t.id index })
  let json := t.input.render env.formatFloat
  ((c.startBlock env index (.toolUse t.id t.name)).andThen fun c =>
    let c := c.addOutputTokens json.toList
    c.manage (c.stateManager.handleContentBlockDelta index (.inputJsonDelta json))).andThen fun c =>
      c.manage (c.stateManager.handleContentBlockStop index)

/-- The text behind an end tag at the end of the buffer, once its block is ended. -/
def emitRest (env : StreamEnv) (c : StreamContext) (after : Text) : Sent :=
  let remaining := trimStart after
  let c := { c with thinkingBuffer := [] }
  if remaining.isEmpty then quiet c else c.createTextDeltaEvents env remaining

/-- Thinking ends before a tool use if the buffer ends with the end tag. -/
def settleThinking (env : StreamEnv) (c : StreamContext) : Sent :=
  if c.thinkingEnabled && c.inThinkingBlock then
    match findRealThinkingEndTagAtBufferEnd c.thinkingBuffer with
    | some (thinking, after) =>
      (c.endThinking thinking).andThen fun c => c.emitRest env after
    | none => quiet c
  else quiet c

/-- The text that waited for a start tag goes out before a tool use. -/
def flushWaiting (env : StreamEnv) (c : StreamContext) : Sent :=
  if c.thinkingEnabled && !c.inThinkingBlock && !c.thinkingExtracted &&
      !c.thinkingBuffer.isEmpty then
    { c with thinkingBuffer := [] }.createTextDeltaEvents env c.thinkingBuffer
  else quiet c

def collectToolUse (env : StreamEnv) (c : StreamContext) (e : ToolUseEvent) : Sent :=
  let (pushed, accumulator) := c.toolJsonAccumulator.push env e c.toolNameMap
  let c := { c with toolJsonAccumulator := accumulator }
  match pushed with
  | .ok (some completed) => c.emitCompletedToolUse env completed
  | .ok none => quiet c
  | .error err =>
    quiet { c with
      toolJsonError := some err
      stateManager := c.stateManager.setStopReason "error" }

def processToolUse (env : StreamEnv) (c : StreamContext) (e : ToolUseEvent) : Sent :=
  (({ c with stateManager := c.stateManager.setHasToolUse true }.settleThinking env).andThen
    fun c => c.flushWaiting env).andThen fun c => c.collectToolUse env e

/-- Without thinking the text block is open from the start. -/
def generateInitialEvents (env : StreamEnv) (c : StreamContext) : Sent :=
  (c.manage (c.stateManager.handleMessageStart (c.createMessageStartEvent env))).andThen fun c =>
    if c.thinkingEnabled then quiet c
    else
      let (index, c) := c.nextBlockIndex
      { c with textBlockIndex := some index }.startBlock env index .text

def processKiroEvent (env : StreamEnv) (c : StreamContext) (event : Event) : Sent :=
  match event with
  | .assistantResponse content =>
    c.closeReasoningIfOpen.andThen fun c => c.processAssistantResponse env content
  | .code content =>
    c.closeReasoningIfOpen.andThen fun c => c.processAssistantResponse env content
  | .toolUse e => c.closeReasoningIfOpen.andThen fun c => c.processToolUse env e
  | .reasoningContent e => c.processReasoningContent env e
  | .contextUsage percentage =>
    let tokens := env.percentOf percentage (getContextWindowSize env c.model)
    let manager := if env.isFull percentage then
        c.stateManager.setStopReason "model_context_window_exceeded"
      else c.stateManager
    quiet { c with contextInputTokens := some tokens, stateManager := manager }
  | .exception exceptionType _ =>
    if exceptionType = "ContentLengthExceededException" then
      quiet { c with stateManager := c.stateManager.setStopReason "max_tokens" }
    else quiet c
  | .metering _ | .error _ _ | .unknown => quiet c

def finishTools (env : StreamEnv) (c : StreamContext) : Sent :=
  if c.toolJsonError.isSome then quiet c
  else
    let (finished, accumulator) := c.toolJsonAccumulator.finish env c.toolNameMap
    let c := { c with toolJsonAccumulator := accumulator }
    match finished with
    | .ok pending => emitAll (emitCompletedToolUse env) pending c
    | .error err =>
      quiet { c with
        toolJsonError := some err
        stateManager := c.stateManager.setStopReason "error" }

def finishFilter (env : StreamEnv) (c : StreamContext) : Sent :=
  let remaining := c.toolUseXmlFilter.finish
  let c := { c with toolUseXmlFilter := {} }
  if remaining.isEmpty then quiet c else (c.addOutputTokens remaining).processFiltered env remaining

def sendFinal (env : StreamEnv) (c : StreamContext) : Sent :=
  let (inputTokens, creation, read) := c.resolvedUsage env
  c.manage (c.stateManager.generateFinalEvents env
    { inputTokens, outputTokens := c.outputTokens, cacheCreationInputTokens := creation,
      cacheReadInputTokens := read })

/-- What is left in the buffer at the end of the stream. -/
def flushBuffer (env : StreamEnv) (c : StreamContext) : Sent :=
  if c.thinkingEnabled && !c.thinkingBuffer.isEmpty then
    (if c.inThinkingBlock then
      match findRealThinkingEndTagAtBufferEnd c.thinkingBuffer with
      | some (thinking, after) => (c.endThinking thinking).andThen fun c => c.emitRest env after
      | none => (c.sendThinking c.thinkingBuffer).andThen stopThinking
    else
      let content :=
        if c.stripTextAfterThinkingBoundary then trimStart c.thinkingBuffer else c.thinkingBuffer
      let c := { c with
        stripTextAfterThinkingBoundary := c.stripTextAfterThinkingBoundary && content.isEmpty }
      if content.isEmpty then quiet c else c.createTextDeltaEvents env content).andThen fun c =>
        quiet { c with thinkingBuffer := [] }
  else quiet c

def padThinkingOnly (env : StreamEnv) (c : StreamContext) : Sent :=
  if c.thinkingEnabled && c.thinkingBlockIndex.isSome && !c.stateManager.hasNonThinkingBlocks then
    { c with stateManager := c.stateManager.setStopReason "max_tokens" }.createTextDeltaEvents env
      [' ']
  else quiet c

/-- The end of a stream in which every tool input could be parsed, and the other end. -/
def generateFinalEvents (env : StreamEnv) (c : StreamContext) : Sent :=
  ((c.finishTools env).andThen fun c => c.finishFilter env).andThen fun c =>
    match c.toolJsonError with
    | some err =>
      (c.closeReasoningIfOpen.andThen fun c => c.sendFinal env).andThen fun c =>
        ([.error err.errorType err.message], c)
    | none =>
      ((c.closeReasoningIfOpen.andThen fun c => c.flushBuffer env).andThen fun c =>
        c.padThinkingOnly env).andThen fun c => c.sendFinal env

def running (env : StreamEnv) (c : StreamContext) (events : List Event) : Sent :=
  (c.generateInitialEvents env).andThen fun c => emitAll (processKiroEvent env) events c

/-- Everything that is sent for the events of a stream. -/
def streamed (env : StreamEnv) (c : StreamContext) (events : List Event) : Sent :=
  ((c.generateInitialEvents env).andThen fun c =>
    emitAll (processKiroEvent env) events c).andThen fun c => c.generateFinalEvents env

variable {env : StreamEnv} {c : StreamContext}

theorem ensureText_frame (env : StreamEnv) (c : StreamContext) :
    ∃ m t, (c.ensureText env).2 = { c with stateManager := m, textBlockIndex := t } := by
  unfold ensureText
  cases c.openTextIndex with
  | some i => exact ⟨c.stateManager, c.textBlockIndex, rfl⟩
  | none => exact ⟨_, _, rfl⟩

theorem createTextDeltaEvents_frame (env : StreamEnv) (c : StreamContext) (text : Text) :
    ∃ m t, (c.createTextDeltaEvents env text).2 =
      { c with stateManager := m, textBlockIndex := t } := by
  obtain ⟨m, t, eq⟩ := ensureText_frame env c
  unfold createTextDeltaEvents Emit.andThen
  dsimp only
  rw [eq]
  cases t with
  | some i => exact ⟨_, some i, rfl⟩
  | none => exact ⟨m, none, rfl⟩

theorem sendThinking_frame (c : StreamContext) (text : Text) : (c.sendThinking text).2 = c := by
  unfold sendThinking
  cases c.thinkingBlockIndex <;> rfl

theorem stopThinking_frame (c : StreamContext) :
    ∃ m, c.stopThinking.2 = { c with stateManager := m } := by
  unfold stopThinking
  split
  · exact ⟨_, rfl⟩
  · exact ⟨c.stateManager, rfl⟩

theorem endThinking_frame (c : StreamContext) (text : Text) :
    ∃ m, (c.endThinking text).2 = { c with
      stateManager := m
      inThinkingBlock := false
      thinkingExtracted := true
      stripTextAfterThinkingBoundary := true } := by
  have first : (if text.isEmpty then quiet c else c.sendThinking text).2 = c := by
    split_ifs
    · rfl
    · exact sendThinking_frame c text
  unfold endThinking Emit.andThen
  dsimp only
  rw [first]
  exact stopThinking_frame _

theorem closeReasoningIfOpen_frame (c : StreamContext) :
    ∃ m extracted, c.closeReasoningIfOpen.2 = { c with
      stateManager := m
      reasoningBlockOpen := false
      thinkingExtracted := extracted } := by
  unfold closeReasoningIfOpen
  split_ifs with closed
  · rw [Bool.not_eq_true'] at closed
    refine ⟨c.stateManager, c.thinkingExtracted, ?_⟩
    rw [← closed]
    rfl
  · obtain ⟨m, eq⟩ := stopThinking_frame c
    refine ⟨m, true, ?_⟩
    show { c.stopThinking.2 with reasoningBlockOpen := false, thinkingExtracted := true } = _
    rw [eq]

/-- What the functions for text leave as it is. -/
structure TextFrame (c c' : StreamContext) : Prop where
  enabled : c'.thinkingEnabled = c.thinkingEnabled
  reasoning : c'.reasoningBlockOpen = c.reasoningBlockOpen
  indices : c'.toolBlockIndices = c.toolBlockIndices
  names : c'.toolNameMap = c.toolNameMap
  accumulator : c'.toolJsonAccumulator = c.toolJsonAccumulator
  error : c'.toolJsonError = c.toolJsonError
  filter : c'.toolUseXmlFilter = c.toolUseXmlFilter

theorem TextFrame.refl (c : StreamContext) : TextFrame c c := ⟨rfl, rfl, rfl, rfl, rfl, rfl, rfl⟩

theorem TextFrame.trans {c₁ c₂ c₃ : StreamContext} (first : TextFrame c₁ c₂)
    (second : TextFrame c₂ c₃) : TextFrame c₁ c₃ :=
  ⟨second.enabled.trans first.enabled, second.reasoning.trans first.reasoning,
    second.indices.trans first.indices, second.names.trans first.names,
    second.accumulator.trans first.accumulator, second.error.trans first.error,
    second.filter.trans first.filter⟩

theorem textFrame_createText (env : StreamEnv) (c : StreamContext) (text : Text) :
    TextFrame c (c.createTextDeltaEvents env text).2 := by
  obtain ⟨m, t, eq⟩ := createTextDeltaEvents_frame env c text
  rw [eq]
  constructor <;> rfl

theorem textFrame_emitExtracted (env : StreamEnv) (c : StreamContext) :
    TextFrame c (c.emitExtracted env).2 ∧
      (c.emitExtracted env).2.inThinkingBlock = c.inThinkingBlock := by
  unfold emitExtracted
  dsimp only
  generalize (if c.stripTextAfterThinkingBoundary = true then trimStart c.thinkingBuffer
    else c.thinkingBuffer) = remaining
  split_ifs
  · exact ⟨by constructor <;> rfl, rfl⟩
  · obtain ⟨m, t, eq⟩ := createTextDeltaEvents_frame env { c with
      thinkingBuffer := []
      stripTextAfterThinkingBoundary := c.stripTextAfterThinkingBoundary && remaining.isEmpty }
      remaining
    rw [eq]
    exact ⟨by constructor <;> rfl, rfl⟩

theorem stripLeadingNewline_frame (c : StreamContext) : ∃ buffer flag,
    c.stripLeadingNewline =
      { c with thinkingBuffer := buffer, stripThinkingLeadingNewline := flag } := by
  unfold stripLeadingNewline
  split_ifs
  · exact ⟨_, _, rfl⟩
  · exact ⟨c.thinkingBuffer, c.stripThinkingLeadingNewline, rfl⟩

theorem textFrame_scanThinking (env : StreamEnv) (c : StreamContext) :
    TextFrame c (c.scanThinking env).2 := by
  obtain ⟨buffer, flag, eq⟩ := stripLeadingNewline_frame c
  have stripped : TextFrame c c.stripLeadingNewline := by
    rw [eq]
    constructor <;> rfl
  unfold scanThinking
  dsimp only
  cases findRealThinkingEndTagWithBoundary c.stripLeadingNewline.thinkingBuffer with
  | some p =>
    obtain ⟨m, ended⟩ := endThinking_frame c.stripLeadingNewline p.1
    unfold Emit.andThen
    dsimp only
    rw [ended]
    refine stripped.trans (TextFrame.trans ?_ (textFrame_emitExtracted env _).1)
    constructor <;> rfl
  | none =>
    dsimp only
    split_ifs
    · exact stripped
    · rw [sendThinking_frame]
      exact stripped.trans (by constructor <;> rfl)

theorem textFrame_enterThinking (env : StreamEnv) (c : StreamContext) (after : Text) :
    TextFrame c (c.enterThinking env after).2 := by
  constructor <;> rfl

theorem textFrame_scanStart (env : StreamEnv) (c : StreamContext) :
    TextFrame c (c.scanStart env).2 := by
  unfold scanStart
  split
  · unfold Emit.andThen
    dsimp only
    refine TextFrame.trans (TextFrame.trans ?_ (textFrame_enterThinking env _ _))
      (textFrame_scanThinking env _)
    split_ifs
    · exact TextFrame.refl c
    · exact textFrame_createText env c _
  · dsimp only
    split_ifs
    · exact TextFrame.refl c
    · exact (textFrame_createText env c _).trans (by constructor <;> rfl)

theorem textFrame_processContent (env : StreamEnv) (c : StreamContext) (content : Text) :
    TextFrame c (c.processContentWithThinking env content).2 := by
  have buffered : TextFrame c { c with thinkingBuffer := c.thinkingBuffer ++ content } := by
    constructor <;> rfl
  unfold processContentWithThinking
  dsimp only
  split_ifs
  · exact buffered.trans (textFrame_scanStart env _)
  · exact buffered.trans (textFrame_scanThinking env _)
  · exact buffered.trans (textFrame_emitExtracted env _).1

theorem textFrame_processFiltered (env : StreamEnv) (c : StreamContext) (content : Text) :
    TextFrame c (c.processFiltered env content).2 := by
  unfold processFiltered
  split_ifs
  · exact textFrame_processContent env c content
  · exact textFrame_createText env c content

theorem textFrame_stopThinking (c : StreamContext) : TextFrame c c.stopThinking.2 := by
  obtain ⟨m, eq⟩ := stopThinking_frame c
  rw [eq]
  constructor <;> rfl

theorem textFrame_endThinking (c : StreamContext) (text : Text) :
    TextFrame c (c.endThinking text).2 := by
  obtain ⟨m, eq⟩ := endThinking_frame c text
  rw [eq]
  constructor <;> rfl

theorem textFrame_emitRest (env : StreamEnv) (c : StreamContext) (after : Text) :
    TextFrame c (c.emitRest env after).2 := by
  have emptied : TextFrame c { c with thinkingBuffer := [] } := by constructor <;> rfl
  unfold emitRest
  dsimp only
  split_ifs
  · exact emptied
  · exact emptied.trans (textFrame_createText env _ _)

theorem TextFrame.andThen {r : Sent} {next : StreamContext → Sent} (first : TextFrame c r.2)
    (second : TextFrame r.2 (next r.2).2) : TextFrame c (r.andThen next).2 :=
  first.trans second

theorem textFrame_flushBuffer (env : StreamEnv) (c : StreamContext) :
    TextFrame c (c.flushBuffer env).2 := by
  have emptied : ∀ c' : StreamContext, TextFrame c'
      (quiet (ε := SseEvent) { c' with thinkingBuffer := [] }).2 := fun _ => by constructor <;> rfl
  unfold flushBuffer
  by_cases flushes : (c.thinkingEnabled && !c.thinkingBuffer.isEmpty) = true
  · rw [if_pos flushes]
    refine TextFrame.andThen ?_ (emptied _)
    by_cases tagged : c.inThinkingBlock = true
    · rw [if_pos tagged]
      cases findRealThinkingEndTagAtBufferEnd c.thinkingBuffer with
      | some p => exact (textFrame_endThinking c p.1).andThen (textFrame_emitRest env _ p.2)
      | none =>
        refine TextFrame.andThen ?_ (textFrame_stopThinking _)
        rw [sendThinking_frame]
        exact TextFrame.refl c
    · rw [if_neg tagged]
      dsimp only
      generalize (if c.stripTextAfterThinkingBoundary = true then trimStart c.thinkingBuffer
        else c.thinkingBuffer) = content
      have kept : TextFrame c { c with
          stripTextAfterThinkingBoundary :=
            c.stripTextAfterThinkingBoundary && content.isEmpty } := by
        constructor <;> rfl
      split_ifs
      · exact kept
      · exact kept.trans (textFrame_createText env _ _)
  · rw [if_neg flushes]
    exact TextFrame.refl c

theorem textFrame_padThinkingOnly (env : StreamEnv) (c : StreamContext) :
    TextFrame c (c.padThinkingOnly env).2 := by
  have reasoned : TextFrame c
      { c with stateManager := c.stateManager.setStopReason "max_tokens" } := by
    constructor <;> rfl
  unfold padThinkingOnly
  split_ifs
  · exact reasoned.trans (textFrame_createText env _ _)
  · exact TextFrame.refl c

end StreamContext

end KiroRs.Stream.Context
