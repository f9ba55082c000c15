/- Path: KiroRs/WebSearch/Rounds
   source: src/anthropic/websearch_loop.rs, src/anthropic/websearch.rs, src/anthropic/handlers.rs
   digest: One round of the web search loop: the request, the decoding of the answer, the searches
   and the messages that carry their results. -/

import KiroRs.Admin.UsageStats
import KiroRs.Pool.Failover
import KiroRs.Stream.Context

set_option autoImplicit false
set_option relaxedAutoImplicit false

namespace KiroRs.WebSearch.Rounds

open KiroRs.Lib.Text (contains)
open KiroRs.Admin.UsageStats (UsageRecord)
open KiroRs.Converter.Conversation (AdditionalModelRequestFields ConversationState)
open KiroRs.Converter.Conversion
open KiroRs.Converter.Json
open KiroRs.Converter.Models (ConversionError)
open KiroRs.Converter.Requests (Message MessagesRequest)
open KiroRs.Converter.ToolNames
open KiroRs.Stream.Context (thinkingSignaturePlaceholder)
open KiroRs.Stream.Events
open KiroRs.Stream.ToolJson
open KiroRs.Stream.XmlFilter

structure WebSearchResult where
  title : String
  url : String
  snippet : Option String
  publishedDate : Option Int
  deriving DecidableEq, Repr

structure WebSearchResults where
  results : List WebSearchResult
  deriving DecidableEq, Repr

/-- What the loop takes from outside next to what the stream takes: the addition of floating point
numbers, the texts of foreign errors, serialization, token counts, clocks and fresh identifiers. -/
structure SearchEnv extends StreamEnv where
  addF64 : UInt64 → UInt64 → UInt64
  joinError : String
  serialize : ConversationState → Option AdditionalModelRequestFields → Except String String
  countAllTokens : MessagesRequest → Nat
  estimateOutputTokens : List Value → Int
  resultsFromStr : String → Option WebSearchResults
  formatDate : Int → Option String
  now : String
  elapsedMs : UInt64
  traceHint : String

/-- `UsageRecordHook`, by what it copies into a record. -/
structure UsageRecordHook where
  keyId : Nat
  model : String

/-- An amount that is finite and positive, or zero. The bits of such a number are those between
zero and the infinity. -/
def recordedCredits (credits : UInt64) : UInt64 :=
  if 0 < credits && credits < 0x7FF0000000000000 then credits else 0

def tokensOf (n : Int) : UInt64 := UInt64.ofNat (max n 0).toNat

def UsageRecordHook.record (env : SearchEnv) (hook : UsageRecordHook) (credentialId : Nat)
    (inputTokens outputTokens cacheCreationTokens cacheReadTokens : Int) (credits : UInt64)
    (status : String) : UsageRecord where
  ts := env.now
  keyId := hook.keyId
  credentialId := credentialId
  model := hook.model
  inputTokens := tokensOf inputTokens
  outputTokens := tokensOf outputTokens
  cacheCreationTokens := tokensOf cacheCreationTokens
  cacheReadTokens := tokensOf cacheReadTokens
  credits := recordedCredits credits
  durationMs := env.elapsedMs
  status := status

structure ErrorResponse where
  status : Nat
  errorType : String
  message : String
  deriving DecidableEq, Repr

inductive LoopError where
  | conversion (e : ConversionError)
  | serialization (e : String)
  | upstreamCall (e : String)
  | toolJson (message : String)
  | interrupted
  | search (e : String)
  | exitedUnexpectedly
  deriving DecidableEq, Repr

def mapProviderError (env : SearchEnv) (err : String) : ErrorResponse :=
  if contains err "CONTENT_LENGTH_EXCEEDS_THRESHOLD" then
    ⟨400, "invalid_request_error",
      "Context window is full. Reduce conversation history, system prompt, or tools."⟩
  else if contains err "Input is too long" then
    ⟨400, "invalid_request_error", "Input is too long. Reduce the size of your messages."⟩
  else if Pool.Failover.isClientValidationError env.jsonFromStr err then
    ⟨400, "invalid_request_error", "Invalid message sequence: tool_use and tool_result blocks " ++
      "must be correctly paired and ordered."⟩
  else ⟨502, "api_error", "Upstream request failed. trace_id=" ++ env.traceHint⟩

def conversionErrorDetail : ConversionError → String × String
  | .unsupportedModel m => ("invalid_request_error", "unsupported model: " ++ m)
  | .emptyMessages => ("invalid_request_error", "message list is empty")
  | .unsupportedToolMapping message => ("unsupported_tool_mapping", message)
  | .invalidImage message => ("invalid_request_error", message)

def LoopError.response (env : SearchEnv) : LoopError → ErrorResponse
  | conversion e => ⟨400, (conversionErrorDetail e).1, (conversionErrorDetail e).2⟩
  | serialization e => ⟨500, "internal_error", "failed to serialize request: " ++ e⟩
  | upstreamCall e => mapProviderError env e
  | toolJson message => ⟨502, "upstream_tool_json_error", message⟩
  | interrupted => ⟨502, "upstream_error",
      "Upstream response stream ended unexpectedly during the web_search loop."⟩
  | search e => mapProviderError env e
  | exitedUnexpectedly => ⟨500, "internal_error", "web_search loop exited unexpectedly"⟩

/-- A tool call of a round, with its name restored. -/
abbrev DecodedToolUse := CompletedToolUse

def query (t : DecodedToolUse) : String := ((t.input.get "query").bind Value.asStr).getD ""

structure RoundOutcome where
  text : Text := []
  reasoning : Text := []
  redactedReasoning : String := ""
  toolUses : List DecodedToolUse := []
  contextInputTokens : Option Int := none
  credits : UInt64 := 0
  stopReasonOverride : Option String := none
  streamError : Bool := false
  toolJsonError : Option String := none

/-- The variables of the loop over the events. -/
structure Decoding where
  outcome : RoundOutcome := {}
  toolAccumulator : ToolJsonAccumulator := {}

def decodeToolUse (env : SearchEnv) (map : ToolNameMap) (d : Decoding) (e : ToolUseEvent) :
    Decoding :=
  let (pushed, toolAccumulator) := d.toolAccumulator.push env.toStreamEnv e map
  match pushed with
  | .ok (some completed) =>
    { toolAccumulator
      outcome := { d.outcome with toolUses := d.outcome.toolUses ++ [completed] } }
  | .ok none => { d with toolAccumulator }
  | .error err =>
    { toolAccumulator, outcome := { d.outcome with toolJsonError := some err.message } }

def decodeReasoning (outcome : RoundOutcome) (e : ReasoningContentEvent) : RoundOutcome :=
  if !e.text.isEmpty then { outcome with reasoning := outcome.reasoning ++ e.text }
  else
    match e.redactedContent with
    | some redacted =>
      { outcome with redactedReasoning := outcome.redactedReasoning ++ redacted }
    | none => outcome

def decodeEvent (env : SearchEnv) (model : String) (map : ToolNameMap) (d : Decoding) :
    Event → Decoding
  | .assistantResponse content => { d with outcome.text := d.outcome.text ++ content }
  | .code content => { d with outcome.text := d.outcome.text ++ content }
  | .reasoningContent e => { d with outcome := decodeReasoning d.outcome e }
  | .toolUse e => decodeToolUse env map d e
  | .contextUsage percentage =>
    { d with outcome := { d.outcome with
        contextInputTokens :=
          some (env.percentOf percentage (getContextWindowSize env.toStreamEnv model))
        stopReasonOverride :=
          if env.isFull percentage then some "model_context_window_exceeded"
          else d.outcome.stopReasonOverride } }
  | .metering usage => { d with outcome.credits := env.addF64 d.outcome.credits usage }
  | .exception exceptionType _ =>
    { d with outcome.stopReasonOverride :=
        if exceptionType = "ContentLengthExceededException" then some "max_tokens"
        else d.outcome.stopReasonOverride }
  | .error _ _ | .unknown => d

/-- Calls whose input stayed empty come last, unless an error was there before. -/
def fromToolAccumulatorFinish (env : SearchEnv) (map : ToolNameMap) (d : Decoding) :
    RoundOutcome :=
  let outcome := { d.outcome with text := stripToolUseXmlLeaks d.outcome.text }
  match outcome.toolJsonError with
  | some _ => outcome
  | none =>
    match (d.toolAccumulator.finish env.toStreamEnv map).1 with
    | .ok pending => { outcome with toolUses := outcome.toolUses ++ pending }
    | .error err => { outcome with toolJsonError := some err.message }

/-- The events read before the stream ended or broke off. -/
structure StreamReply where
  credentialId : Nat
  events : List Event
  readError : Bool := false

def decodeRound (env : SearchEnv) (model : String) (map : ToolNameMap) (reply : StreamReply) :
    RoundOutcome :=
  let d := reply.events.foldl (decodeEvent env model map) {}
  fromToolAccumulatorFinish env map { d with outcome.streamError := reply.readError }

@[simp] theorem fromToolAccumulatorFinish_streamError (env : SearchEnv) (map : ToolNameMap)
    (d : Decoding) : (fromToolAccumulatorFinish env map d).streamError = d.outcome.streamError := by
  cases failed : d.outcome.toolJsonError with
  | some err => simp only [fromToolAccumulatorFinish, failed]
  | none =>
    cases finished : (d.toolAccumulator.finish env.toStreamEnv map).1 <;>
      simp only [fromToolAccumulatorFinish, failed, finished]

@[simp] theorem fromToolAccumulatorFinish_credits (env : SearchEnv) (map : ToolNameMap)
    (d : Decoding) : (fromToolAccumulatorFinish env map d).credits = d.outcome.credits := by
  cases failed : d.outcome.toolJsonError with
  | some err => simp only [fromToolAccumulatorFinish, failed]
  | none =>
    cases finished : (d.toolAccumulator.finish env.toStreamEnv map).1 <;>
      simp only [fromToolAccumulatorFinish, failed, finished]

@[simp] theorem decodeRound_streamError (env : SearchEnv) (model : String) (map : ToolNameMap)
    (reply : StreamReply) : (decodeRound env model map reply).streamError = reply.readError := by
  unfold decodeRound
  rw [fromToolAccumulatorFinish_streamError]

/-- What the loop does to the outside, in order. -/
inductive Effect where
  | sent (body : String)
  | received (events : List Event)
  | searched (query : String)
  | recorded (r : UsageRecord)

/-- `convert_request_with_mode_blocking`: a panic of the task is an error. -/
def convertBlocking (env : SearchEnv) (mode : ToolCompatibilityMode) (payload : MessagesRequest) :
    Except ConversionError ConversionResult :=
  match convertRequestWithMode env.toEnv mode payload with
  | .ok result => .ok result
  | .error (.error e) => .error e
  | .error .panicked =>
    .error (.invalidImage ("image/request conversion task failed: " ++ env.joinError))

structure Setting where
  mode : ToolCompatibilityMode
  hook : UsageRecordHook
  fallbackInputTokens : Int

/-- A round that fails writes a record of its own, without credential and credits. -/
def roundFailed (env : SearchEnv) (setting : Setting) (inputTokens : Int) (e : LoopError) :
    List Effect × Except LoopError (RoundOutcome × Nat) :=
  ([.recorded (setting.hook.record env 0 inputTokens 0 0 0 0 "error")], .error e)

/-- `run_round`, with the answer of `call_api_stream`. -/
def runRound (env : SearchEnv) (setting : Setting) (payload : MessagesRequest)
    (call : Except String StreamReply) : List Effect × Except LoopError (RoundOutcome × Nat) :=
  match convertBlocking env setting.mode payload with
  | .error e => roundFailed env setting 0 (.conversion e)
  | .ok conversion =>
    match env.serialize conversion.conversationState conversion.additionalModelRequestFields with
    | .error e => roundFailed env setting 0 (.serialization e)
    | .ok body =>
      match call with
      | .error e =>
        let (effects, result) :=
          roundFailed env setting setting.fallbackInputTokens (.upstreamCall e)
        (.sent body :: effects, result)
      | .ok reply =>
        let outcome := decodeRound env payload.model conversion.toolNameMap reply
        let (effects, result) :=
          match outcome.toolJsonError with
          | some message =>
            roundFailed env setting setting.fallbackInputTokens (.toolJson message)
          | none =>
            if outcome.streamError then
              roundFailed env setting setting.fallbackInputTokens .interrupted
            else ([], .ok (outcome, reply.credentialId))
        (.sent body :: .received reply.events :: effects, result)

structure McpError where
  code : Option Int
  message : Option String

structure McpContent where
  contentType : String
  text : String

/-- The parsed answer: an error, and the content of the result. -/
structure McpResponse where
  error : Option McpError := none
  result : Option (List McpContent) := none

def isNoResultsError (error : McpError) : Bool :=
  error.message.any fun m => contains m.toLower "no results"

/-- `call_mcp_api` behind the provider and the parser, whose errors are texts. -/
def callMcpApi (reply : Except String McpResponse) : Except String McpResponse :=
  match reply with
  | .error e => .error e
  | .ok response =>
    match response.error with
    | none => .ok response
    | some error =>
      if isNoResultsError error then .ok {}
      else
        .error ("MCP error: " ++ toString (error.code.getD (-1)) ++ " - " ++
          error.message.getD "Unknown error")

def parseSearchResults (env : SearchEnv) (response : McpResponse) : Option WebSearchResults :=
  match response.result.bind (·.head?) with
  | some content => if content.contentType ≠ "text" then none else env.resultsFromStr content.text
  | none => none

/-- The searches of a round, one after the other up to the first that fails. `mcp` answers them by
their position. -/
def searchAll (env : SearchEnv) (mcp : Nat → Except String McpResponse) :
    Nat → List DecodedToolUse → List Effect × Except String (List (Option WebSearchResults))
  | _, [] => ([], .ok [])
  | n, t :: rest =>
    match callMcpApi (mcp n) with
    | .error e => ([.searched (query t)], .error e)
    | .ok response =>
      let (effects, searched) := searchAll env mcp (n + 1) rest
      (.searched (query t) :: effects, searched.map (parseSearchResults env response :: ·))

def cutSnippet (snippet : String) : String :=
  if 200 < snippet.toList.length then String.ofList (snippet.toList.take 200) ++ "..."
  else snippet

def summaryOf (n : Nat) (r : WebSearchResult) : String :=
  toString (n + 1) ++ ". **" ++ r.title ++ "**\n" ++
    (match r.snippet with
      | some snippet => "   " ++ cutSnippet snippet ++ "\n"
      | none => "") ++
    "   Source: " ++ r.url ++ "\n\n"

def generateSearchSummary (query : String) (results : Option WebSearchResults) : String :=
  "Here are the search results for \"" ++ query ++ "\":\n\n" ++
    (match results with
      | some r => String.join (r.results.zipIdx.map fun p => summaryOf p.2 p.1)
      | none => "No results found.\n") ++
    "\nPlease note that these are web search results and may not be fully accurate or up-to-date."

def buildResultBlock (env : SearchEnv) (results : Option WebSearchResults) : List Value :=
  match results with
  | none => []
  | some r => r.results.map fun item =>
    .obj [("type", .string "web_search_result"), ("title", .string item.title),
      ("url", .string item.url), ("encrypted_content", .string (item.snippet.getD "")),
      ("page_age", ((item.publishedDate.bind env.formatDate).map Value.string).getD .null)]

def toolUseBlock (t : DecodedToolUse) : Value :=
  .obj [("type", .string "tool_use"), ("id", .string t.id), ("name", .string t.name),
    ("input", t.input)]

def toolResultBlock (t : DecodedToolUse) (results : Option WebSearchResults) : Value :=
  .obj [("type", .string "tool_result"), ("tool_use_id", .string t.id),
    ("content", .string (generateSearchSummary (query t) results))]

/-- Reasoning, text and tool calls of a round as blocks. -/
def roundBlocks (round : RoundOutcome) (thinkingEnabled : Bool) : List Value :=
  (if thinkingEnabled && !round.reasoning.isEmpty then
    [.obj [("type", .string "thinking"), ("thinking", .string (String.ofList round.reasoning)),
      ("signature", .string thinkingSignaturePlaceholder)]] else []) ++
  (if thinkingEnabled && !round.redactedReasoning.isEmpty then
    [.obj [("type", .string "redacted_thinking"), ("data", .string round.redactedReasoning)]]
    else []) ++
  (if !round.text.isEmpty then
    [.obj [("type", .string "text"), ("text", .string (String.ofList round.text))]] else []) ++
  round.toolUses.map toolUseBlock

/-- The two blocks shown to the client for a search. `srvId` is fresh. -/
def presentationBlocks (env : SearchEnv) (srvId : String) (t : DecodedToolUse)
    (results : Option WebSearchResults) : List Value :=
  [.obj [("type", .string "server_tool_use"), ("id", .string srvId),
      ("name", .string "web_search"), ("input", .obj [("query", .string (query t))])],
    .obj [("type", .string "web_search_tool_result"),
      ("content", .array (buildResultBlock env results))]]

/-- The messages that `append_search_round` pushes: the round, and the results of its searches. -/
def searchMessages (round : RoundOutcome) (searched : List (Option WebSearchResults))
    (thinkingEnabled : Bool) : List Message :=
  [⟨"assistant", .array (roundBlocks round thinkingEnabled)⟩,
    ⟨"user", .array ((round.toolUses.zip searched).map fun p => toolResultBlock p.1 p.2)⟩]

/-- An environment for runs of which at most one round has credits. Neither the texts of the
requests nor the counts of their tokens are told apart. -/
def SearchEnv.sample : SearchEnv where
  toStreamEnv := .sample
  addF64 := fun a b => if a = 0 then b else a
  joinError := "panic"
  serialize := fun _ _ => .ok "conversation"
  countAllTokens := fun _ => 1
  estimateOutputTokens := fun _ => 1
  resultsFromStr := fun _ => none
  formatDate := fun _ => none
  now := "2026-01-01T00:00:00+00:00"
  elapsedMs := 0
  traceHint := "unavailable"

end KiroRs.WebSearch.Rounds
