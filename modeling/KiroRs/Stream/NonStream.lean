/- Path: KiroRs/Stream/NonStream
   source: src/anthropic/handlers.rs, src/anthropic/stream.rs
   digest: The handler that collects the upstream's events to one response, and what it collects
   of them. -/

import KiroRs.Stream.Context
import KiroRs.Stream.ToolCalls

set_option autoImplicit false
set_option relaxedAutoImplicit false

namespace KiroRs.Stream.NonStream

open KiroRs.Converter.ToolNames (ToolNameMap)
open KiroRs.Stream.XmlFilter
open KiroRs.Stream.Events
open KiroRs.Stream.ThinkingTags
open KiroRs.Stream.ToolJson
open KiroRs.Stream.Context (thinkingSignaturePlaceholder)

inductive ResponseBlock where
  | thinking (thinking : Text) (signature : String)
  | redactedThinking (data : String)
  | text (text : Text)
  | toolUse (t : CompletedToolUse)

structure Response where
  id : String
  content : List ResponseBlock
  model : String
  stopReason : String
  usage : Usage

/-- The variables of the loop over the events. -/
structure NonStreamLoop where
  textContent : Text := []
  reasoningContent : Text := []
  redactedReasoningContent : String := ""
  toolUses : List CompletedToolUse := []
  hasToolUse : Bool := false
  stopReason : String := "end_turn"
  contextInputTokens : Option Int := none
  toolAccumulator : ToolJsonAccumulator := {}

/-- What the handler gets of the request, and the estimate of the tokens of a content. -/
structure NonStreamRequest where
  model : String
  messageId : String
  inputTokens : Int
  thinkingEnabled : Bool
  toolNameMap : ToolNameMap
  cacheUsage : CacheUsage
  estimateOutputTokens : List ResponseBlock → Int

namespace NonStreamLoop

def collectToolUse (env : StreamEnv) (map : ToolNameMap) (loop : NonStreamLoop) (e : ToolUseEvent) :
    Except ToolJsonAccumulatorError NonStreamLoop :=
  let (pushed, accumulator) := loop.toolAccumulator.push env e map
  let loop := { loop with hasToolUse := true, toolAccumulator := accumulator }
  match pushed with
  | .ok (some completed) => .ok { loop with toolUses := loop.toolUses ++ [completed] }
  | .ok none => .ok loop
  | .error err => .error err

/-- Reasoning text comes before redacted reasoning. -/
def collectReasoning (loop : NonStreamLoop) (e : ReasoningContentEvent) : NonStreamLoop :=
  if !e.text.isEmpty then { loop with reasoningContent := loop.reasoningContent ++ e.text }
  else
    match e.redactedContent with
    | some redacted =>
      { loop with redactedReasoningContent := loop.redactedReasoningContent ++ redacted }
    | none => loop

def collect (env : StreamEnv) (model : String) (map : ToolNameMap) (loop : NonStreamLoop) :
    Event → Except ToolJsonAccumulatorError NonStreamLoop
  | .assistantResponse content => .ok { loop with textContent := loop.textContent ++ content }
  | .code content => .ok { loop with textContent := loop.textContent ++ content }
  | .reasoningContent e => .ok (loop.collectReasoning e)
  | .toolUse e => loop.collectToolUse env map e
  | .contextUsage percentage =>
    let tokens := env.percentOf percentage (getContextWindowSize env model)
    .ok { loop with
      contextInputTokens := some tokens
      stopReason :=
        if env.isFull percentage then "model_context_window_exceeded" else loop.stopReason }
  | .exception exceptionType _ =>
    .ok { loop with
      stopReason :=
        if exceptionType = "ContentLengthExceededException" then "max_tokens"
        else loop.stopReason }
  | .metering _ | .error _ _ | .unknown => .ok loop

def finishTools (env : StreamEnv) (map : ToolNameMap) (loop : NonStreamLoop) :
    Except ToolJsonAccumulatorError NonStreamLoop :=
  match (loop.toolAccumulator.finish env map).1 with
  | .ok pending => .ok { loop with toolUses := loop.toolUses ++ pending }
  | .error err => .error err

/-- The blocks in front of the calls. Reasoning events come before thinking in the text. -/
def proseOf (thinkingEnabled : Bool) (loop : NonStreamLoop) : List ResponseBlock :=
  let textContent := stripToolUseXmlLeaks loop.textContent
  if thinkingEnabled then
    let (thinking, remainingText) :=
      if !loop.reasoningContent.isEmpty then (some loop.reasoningContent, textContent)
      else extractThinkingFromCompleteText textContent
    (thinking.map (ResponseBlock.thinking · thinkingSignaturePlaceholder)).toList ++
      (if !loop.redactedReasoningContent.isEmpty then
        [.redactedThinking loop.redactedReasoningContent] else []) ++
      (if !remainingText.isEmpty then [.text remainingText] else [])
  else if !textContent.isEmpty then [.text textContent]
  else []

def stopReasonOf (loop : NonStreamLoop) : String :=
  if loop.hasToolUse && loop.stopReason == "end_turn" then "tool_use" else loop.stopReason

def respond (env : StreamEnv) (req : NonStreamRequest) (loop : NonStreamLoop) : Response :=
  let content := loop.proseOf req.thinkingEnabled ++ loop.toolUses.map .toolUse
  let (inputTokens, creation, read) :=
    env.splitAgainstTotal req.cacheUsage (loop.contextInputTokens.getD req.inputTokens)
  { id := req.messageId
    content
    model := req.model
    stopReason := loop.stopReasonOf
    usage := {
      inputTokens
      outputTokens := req.estimateOutputTokens content
      cacheCreationInputTokens := creation
      cacheReadInputTokens := read } }

end NonStreamLoop

/-- `handle_non_stream_request` behind the decoder. An error answers with its type and message. -/
def handleNonStreamRequest (env : StreamEnv) (req : NonStreamRequest) (events : List Event) :
    Except ToolJsonAccumulatorError Response :=
  ((events.foldlM (NonStreamLoop.collect env req.model req.toolNameMap) {}).bind
    (NonStreamLoop.finishTools env req.toolNameMap)).map (NonStreamLoop.respond env req)

end KiroRs.Stream.NonStream
