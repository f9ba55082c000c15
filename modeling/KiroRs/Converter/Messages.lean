/- Path: KiroRs/Converter/Messages
   source: src/anthropic/converter.rs
   digest: The client's messages as the upstream's history: content blocks, merging of runs of one
   role, and the pairs that are put in. -/

import KiroRs.Converter.Tools
import KiroRs.Lib.Results

set_option autoImplicit false
set_option relaxedAutoImplicit false

namespace KiroRs.Converter.Messages

open KiroRs.Lib
open KiroRs.Lib.Text
open KiroRs.Converter.Json
open KiroRs.Converter.Models
open KiroRs.Converter.ToolNames
open KiroRs.Converter.Requests (ContentBlock ImageSource MessagesRequest)
open KiroRs.Converter.Conversation

def systemChunkedPolicy : String :=
  "Single tool arguments can be truncated by the upstream Kiro API when a response " ++
    "is too large. Always chunk large Write/Edit/Bash payloads before they approach " ++
    "8,000 characters, 150 Write lines, 50 Edit lines, or roughly 4,000 tokens. Never " ++
    "retry the same oversized tool payload after a failure. Never bypass these limits " ++
    "with a large Bash heredoc or inline script. Never ask the user whether to switch " ++
    "approaches. Complete all chunked operations without commentary."

/-- What is collected from user content. `seen` holds the digests of the images met so far, where
images are deduplicated. -/
structure Extraction where
  textParts : List String := []
  images : List KiroImage := []
  toolResults : List ToolResult := []
  seen : Option (List String)

def getImageFormat : String → Option String
  | "image/jpeg" => some "jpeg"
  | "image/png" => some "png"
  | "image/gif" => some "gif"
  | "image/webp" => some "webp"
  | _ => none

def imageOmitted : String := "[image omitted: identical to an earlier screenshot]"

/-- The processed image, or the error of the safety limits. -/
def shrinkImage (env : Env) (format : String) (source : ImageSource) : Except Failure KiroImage :=
  match env.maybeShrinkImage format source.data with
  | .ok image => .ok image
  | .error e => .error (.error (.invalidImage
      (source.mediaType ++ " image rejected by safety limits: " ++ e)))

/-- Adds the image of a source, or answers with a placeholder when it was seen before. -/
def extractKiroImage (env : Env) (source : ImageSource) (acc : Extraction) :
    Except Failure (Option String × Extraction) :=
  match getImageFormat source.mediaType with
  | none => .ok (none, acc)
  | some format =>
    let digest := env.sha256Hex source.data
    if acc.seen.any (·.contains digest) then .ok (some imageOmitted, acc)
    else do
      let image ← shrinkImage env format source
      return (none, { acc with images := acc.images ++ [image],
                               seen := acc.seen.map (digest :: ·) })

/-- The loop state over the items of a tool result. -/
structure ResultParts where
  parts : List String := []
  hadImage : Bool := false
  acc : Extraction

/-- The image source of an item, if it reads as an image block. -/
def imageSourceOf (item : Value) : Option ImageSource :=
  if (item.get "type").bind Value.asStr = some "image" then
    (ContentBlock.fromValue item).bind (·.source)
  else none

def extractResultItem (env : Env) (loop : ResultParts) (item : Value) :
    Except Failure ResultParts :=
  match (item.get "text").bind Value.asStr with
  | some text => .ok { loop with parts := loop.parts ++ [text] }
  | none =>
    match imageSourceOf item with
    | none => .ok loop
    | some source => do
      let (placeholder, acc) ← extractKiroImage env source loop.acc
      return { parts := loop.parts ++ placeholder.toList, hadImage := true, acc := acc }

def extractToolResultContent (env : Env) (content : Option Value) (acc : Extraction) :
    Except Failure (String × Extraction) :=
  match content with
  | some (.string s) => .ok (s, acc)
  | some (.array items) => do
    let loop ← items.foldlM (extractResultItem env) { acc := acc }
    let text :=
      if loop.parts.isEmpty && loop.hadImage then "[image attached]"
      else "\n".intercalate loop.parts
    return (text, loop.acc)
  | some v => .ok (v.render env.formatFloat, acc)
  | none => .ok ("", acc)

def toolResultOf (isError : Bool) (toolUseId content : String) : ToolResult :=
  if isError then ToolResult.error toolUseId content else ToolResult.success toolUseId content

def processBlock (env : Env) (acc : Extraction) (block : ContentBlock) :
    Except Failure Extraction :=
  match block.blockType with
  | "text" => .ok { acc with textParts := acc.textParts ++ block.text.toList }
  | "image" =>
    match block.source with
    | none => .ok acc
    | some source => do
      let (placeholder, acc) ← extractKiroImage env source acc
      return { acc with textParts := acc.textParts ++ placeholder.toList }
  | "tool_result" =>
    match block.toolUseId with
    | none => .ok acc
    | some toolUseId => do
      let (content, acc) ← extractToolResultContent env block.content acc
      let result := toolResultOf (block.isError.getD false) toolUseId content
      return { acc with toolResults := acc.toolResults ++ [result] }
  | _ => .ok acc

/-- The blocks of an array of content; items that do not read as blocks are passed over. -/
def blocksOf (items : List Value) : List ContentBlock := items.filterMap ContentBlock.fromValue

def contentBlocks : Value → List ContentBlock
  | .array items => blocksOf items
  | _ => []

def processMessageContentDedup (env : Env) (content : Value) (seen : Option (List String)) :
    Except Failure Extraction :=
  match content with
  | .string s => .ok { textParts := [s], seen := seen }
  | .array items => (blocksOf items).foldlM (processBlock env) { seen := seen }
  | _ => .ok { seen := seen }

def Extraction.text (e : Extraction) : String := "\n".intercalate e.textParts

def processMessageContent (env : Env) (content : Value) : Except Failure Extraction :=
  processMessageContentDedup env content none

/-- The loop state of `merge_user_messages`. -/
structure UserMerge where
  contentParts : List String := []
  images : List KiroImage := []
  toolResults : List ToolResult := []
  seen : List String

def mergeUserMessage (env : Env) (merge : UserMerge) (msg : Requests.Message) :
    Except Failure UserMerge := do
  let e ← processMessageContentDedup env msg.content (some merge.seen)
  return {
    contentParts := if e.text.isEmpty then merge.contentParts else merge.contentParts ++ [e.text]
    images := merge.images ++ e.images
    toolResults := merge.toolResults ++ e.toolResults
    seen := e.seen.getD [] }

def mergeUserMessages (env : Env) (messages : List Requests.Message) (modelId : String)
    (seen : List String) : Except Failure (UserMessage × List String) := do
  let merge ← messages.foldlM (mergeUserMessage env) { seen := seen }
  let base := UserMessage.new env.currentDir ("\n".intercalate merge.contentParts) modelId
  let context := base.userInputMessageContext
  let merged := { base with
    images := merge.images
    userInputMessageContext := { context with toolResults := merge.toolResults } }
  return (merged, merge.seen)

/-- The loop state of `convert_assistant_message`. -/
structure AssistantLoop where
  text : String := ""
  toolUses : List ToolUseEntry := []
  map : ToolNameMap

def convertAssistantBlock (env : Env) (mode : ToolCompatibilityMode) (loop : AssistantLoop)
    (block : ContentBlock) : Except Failure AssistantLoop :=
  match block.blockType with
  | "text" => .ok { loop with text := loop.text ++ block.text.getD "" }
  | "tool_use" =>
    match block.id, block.name with
    | some id, some name =>
      let (mappedName, map) := mapClientToolNameToKiro env mode name loop.map
      match mapToolInputToKiro mode name (block.input.getD (.object [])) with
      | .ok input =>
        .ok { loop with toolUses := loop.toolUses ++ [⟨id, mappedName, input⟩], map := map }
      | .error e => .error (.error (.unsupportedToolMapping e.toString))
    | _, _ => .ok loop
  | _ => .ok loop

/-- Content that goes with tool uses is not left empty. -/
def contentOrBlank (content : String) (toolUses : List ToolUseEntry) : String :=
  if content.isEmpty && !toolUses.isEmpty then " " else content

def convertAssistantContent (env : Env) (mode : ToolCompatibilityMode) (content : Value)
    (map : ToolNameMap) : Except Failure AssistantLoop :=
  match content with
  | .string s => .ok { text := s, map := map }
  | .array items => (blocksOf items).foldlM (convertAssistantBlock env mode) { map := map }
  | _ => .ok { map := map }

def convertAssistantMessage (env : Env) (mode : ToolCompatibilityMode) (msg : Requests.Message)
    (map : ToolNameMap) : Except Failure (AssistantMessage × ToolNameMap) := do
  let loop ← convertAssistantContent env mode msg.content map
  let assistant := AssistantMessage.new (contentOrBlank loop.text loop.toolUses)
  return (assistant.withToolUses loop.toolUses, loop.map)

/-- The loop state of `merge_assistant_messages`. -/
structure AssistantMerge where
  contentParts : List String := []
  toolUses : List ToolUseEntry := []
  map : ToolNameMap

def mergeAssistantMessage (env : Env) (mode : ToolCompatibilityMode) (merge : AssistantMerge)
    (msg : Requests.Message) : Except Failure AssistantMerge := do
  let (am, map) ← convertAssistantMessage env mode msg merge.map
  return {
    contentParts :=
      if (trim am.content).isEmpty then merge.contentParts else merge.contentParts ++ [am.content]
    toolUses := merge.toolUses ++ am.toolUses.getD []
    map := map }

/-- What a message adds to a merge that goes on. -/
theorem mergeAssistantMessage_ok {env : Env} {mode : ToolCompatibilityMode}
    {merge merge' : AssistantMerge} {msg : Requests.Message}
    (ok : mergeAssistantMessage env mode merge msg = .ok merge') :
    ∃ r, convertAssistantMessage env mode msg merge.map = .ok r ∧
      merge'.contentParts = (if (trim r.1.content).isEmpty then merge.contentParts
        else merge.contentParts ++ [r.1.content]) ∧
      merge'.toolUses = merge.toolUses ++ r.1.toolUses.getD [] ∧ merge'.map = r.2 := by
  obtain ⟨⟨am, map⟩, converted, rest⟩ := Results.bind_ok ok
  refine ⟨(am, map), converted, ?_⟩
  rw [← Except.ok.inj rest]
  exact ⟨rfl, rfl, rfl⟩

def mergeAssistantMessages (env : Env) (mode : ToolCompatibilityMode)
    (messages : List Requests.Message) (map : ToolNameMap) :
    Except Failure (AssistantMessage × ToolNameMap) :=
  match messages with
  | [] => .error .panicked
  | [msg] => convertAssistantMessage env mode msg map
  | _ => do
    let merge ← messages.foldlM (mergeAssistantMessage env mode) { map := map }
    let content :=
      if merge.contentParts.isEmpty && !merge.toolUses.isEmpty then " "
      else "\n\n".intercalate merge.contentParts
    return ((AssistantMessage.new content).withToolUses merge.toolUses, merge.map)

/-- The pair that carries a system text. -/
def systemPair (env : Env) (content modelId : String) : List Message :=
  [.user (.new env.currentDir content modelId),
    .assistant (.new "I will follow these instructions.")]

def systemMessages (env : Env) (req : MessagesRequest) (modelId : String) : List Message :=
  let thinkingPrefix := generateThinkingPrefixForModel req modelId
  match req.system with
  | some system =>
    let systemContent := "\n".intercalate system
    if systemContent.isEmpty then []
    else
      let systemContent := systemContent ++ "\n" ++ systemChunkedPolicy
      match thinkingPrefix with
      | some tags =>
        if hasThinkingTags systemContent then systemPair env systemContent modelId
        else systemPair env (tags ++ "\n" ++ systemContent) modelId
      | none => systemPair env systemContent modelId
  | none =>
    match thinkingPrefix with
    | some tags => systemPair env tags modelId
    | none => []

/-- The state of the loop of `build_history`. -/
structure HistoryLoop where
  history : List Message
  userBuffer : List Requests.Message := []
  assistantBuffer : List Requests.Message := []
  imageDedup : List String := []
  map : ToolNameMap

def flushAssistant (env : Env) (mode : ToolCompatibilityMode) (loop : HistoryLoop) :
    Except Failure HistoryLoop :=
  if loop.assistantBuffer.isEmpty then .ok loop
  else do
    let (merged, map) ← mergeAssistantMessages env mode loop.assistantBuffer loop.map
    return { loop with history := loop.history ++ [.assistant merged], assistantBuffer := [],
                       map := map }

def flushUser (env : Env) (modelId : String) (loop : HistoryLoop) : Except Failure HistoryLoop :=
  if loop.userBuffer.isEmpty then .ok loop
  else do
    let (merged, seen) ← mergeUserMessages env loop.userBuffer modelId loop.imageDedup
    return { loop with history := loop.history ++ [.user merged], userBuffer := [],
                       imageDedup := seen }

/-- One message of the loop. Roles other than the two are passed over. -/
def historyStep (env : Env) (mode : ToolCompatibilityMode) (modelId : String) (loop : HistoryLoop)
    (msg : Requests.Message) : Except Failure HistoryLoop :=
  if msg.role = "user" then do
    let loop ← flushAssistant env mode loop
    return { loop with userBuffer := loop.userBuffer ++ [msg] }
  else if msg.role = "assistant" then do
    let loop ← flushUser env modelId loop
    return { loop with assistantBuffer := loop.assistantBuffer ++ [msg] }
  else .ok loop

/-- Answers the user messages that nothing follows. -/
def closeHistory (env : Env) (modelId : String) (loop : HistoryLoop) :
    Except Failure HistoryLoop :=
  if loop.userBuffer.isEmpty then .ok loop
  else do
    let loop ← flushUser env modelId loop
    return { loop with history := loop.history ++ [.assistant (.new "OK")] }

/-- The last message is the current one and stays out of the history. -/
def buildHistory (env : Env) (mode : ToolCompatibilityMode) (req : MessagesRequest)
    (messages : List Requests.Message) (modelId : String) (map : ToolNameMap) :
    Except Failure (List Message × ToolNameMap) := do
  let start := { history := systemMessages env req modelId, map := map }
  let loop ← messages.dropLast.foldlM (historyStep env mode modelId) start
  let loop ← flushAssistant env mode loop
  let loop ← closeHistory env modelId loop
  return (loop.history, loop.map)

end KiroRs.Converter.Messages
