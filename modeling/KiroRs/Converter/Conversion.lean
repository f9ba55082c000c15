/- Path: KiroRs/Converter/Conversion
   source: src/anthropic/converter.rs
   digest: The conversion of a request: the pairing of tool uses and results, the tools of the
   current message and the conversation state. -/

import KiroRs.Converter.Messages
import KiroRs.Lib.Search

set_option autoImplicit false
set_option relaxedAutoImplicit false

namespace KiroRs.Converter.Conversion

open KiroRs.Lib
open KiroRs.Lib.Text
open KiroRs.Converter.Json
open KiroRs.Converter.Models
open KiroRs.Converter.ToolNames
open KiroRs.Converter.Tools
open KiroRs.Converter.Messages
open KiroRs.Converter.Requests (MessagesRequest)
open KiroRs.Converter.Conversation

def isValidUuid (s : List Char) : Bool :=
  (String.ofList s).utf8ByteSize == 36 && s.count '-' == 4

/-- The session of a user id in the string form. The cut at 36 bytes panics inside a character. -/
def sessionFromText (userId : String) : Except Failure (Option String) :=
  match Search.splitFind "session_".toList userId.toList with
  | none => .ok none
  | some (_, rest) =>
    let sessionPart := rest.drop 8
    if (String.ofList sessionPart).utf8ByteSize < 36 then .ok none
    else
      match splitAtByte sessionPart 36 with
      | none => .error .panicked
      | some (uuid, _) => .ok (if isValidUuid uuid then some (String.ofList uuid) else none)

def extractSessionId (env : Env) (userId : String) : Except Failure (Option String) :=
  match ((env.jsonFromStr userId).bind (·.get "session_id")).bind Value.asStr with
  | some sessionId =>
    if isValidUuid sessionId.toList then .ok (some sessionId) else sessionFromText userId
  | none => sessionFromText userId

def conversationIdOf (env : Env) (req : MessagesRequest) : Except Failure String :=
  match req.metadata.bind (·.userId) with
  | none => .ok (env.newV4 0)
  | some userId => (extractSessionId env userId).map (·.getD (env.newV4 0))

/-- The tool uses of a message of the history. -/
def toolUsesOf : Message → List ToolUseEntry
  | .assistant m => m.toolUses.getD []
  | .user _ => []

def toolResultsOf : Message → List ToolResult
  | .assistant _ => []
  | .user m => m.userInputMessageContext.toolResults

/-- The loop of the filter: the ids still unpaired, and the results kept. -/
structure PairingLoop where
  unpaired : List String
  filtered : List ToolResult := []

def pairResult (loop : PairingLoop) (result : ToolResult) : PairingLoop :=
  if loop.unpaired.contains result.toolUseId then
    { unpaired := loop.unpaired.filter (· ≠ result.toolUseId),
      filtered := loop.filtered ++ [result] }
  else loop

/-- The results of the current message that answer a tool use of the history without result, and
the ids of the tool uses that stay without. -/
def validateToolPairing (history : List Message) (toolResults : List ToolResult) :
    List ToolResult × List String :=
  let allToolUseIds := (history.flatMap toolUsesOf).map (·.toolUseId)
  let historyToolResultIds := (history.flatMap toolResultsOf).map (·.toolUseId)
  let unpaired := allToolUseIds.filter fun id => !historyToolResultIds.contains id
  let loop := toolResults.foldl pairResult { unpaired := unpaired }
  (loop.filtered, loop.unpaired)

def removeOrphans (orphanedIds : List String) : Message → Message
  | .user m => .user m
  | .assistant m =>
    match m.toolUses with
    | none => .assistant m
    | some toolUses =>
      let kept := toolUses.filter fun tu => !orphanedIds.contains tu.toolUseId
      .assistant { m with toolUses := if kept.isEmpty then none else some kept }

def removeOrphanedToolUses (history : List Message) (orphanedIds : List String) : List Message :=
  if orphanedIds.isEmpty then history else history.map (removeOrphans orphanedIds)

def collectHistoryToolNames (history : List Message) : List String :=
  (history.flatMap toolUsesOf).foldl
    (fun names toolUse =>
      if names.contains toolUse.name then names else names ++ [toolUse.name]) []

/-- Placeholders for the names of the history that no tool carries in any case. -/
def placeholders (env : Env) (tools : List Tool) (names : List String) : List Tool :=
  let existing := tools.map fun t => env.caseMaps.toLowercase t.name
  (names.filter fun name => !existing.contains (env.caseMaps.toLowercase name)).map
    createPlaceholderTool

structure ConversionResult where
  conversationState : ConversationState
  toolNameMap : ToolNameMap
  additionalModelRequestFields : Option AdditionalModelRequestFields
  deriving Repr

def fail {α : Type} (e : ConversionError) : Except Failure α := .error (.error e)

def requireModel (env : Env) (model : String) : Except Failure String :=
  match mapModel env model with
  | some modelId => .ok modelId
  | none => fail (.unsupportedModel model)

/-- `messages.last().unwrap()`. -/
def lastOf (messages : List Requests.Message) : Except Failure Requests.Message :=
  match messages.getLast? with
  | some m => .ok m
  | none => .error .panicked

/-- The messages up to the last one of the user, where the last of all is not the user's. -/
def trimPrefill (messages : List Requests.Message) : Except Failure (List Requests.Message) :=
  match messages.getLast? with
  | none => fail .emptyMessages
  | some last =>
    if last.role = "user" then .ok messages
    else
      match messages.rdropWhile (·.role ≠ "user") with
      | [] => fail .emptyMessages
      | kept => .ok kept

def convertRequestWithMode (env : Env) (mode : ToolCompatibilityMode) (req : MessagesRequest) :
    Except Failure ConversionResult := do
  let modelId ← requireModel env req.model
  let messages ← trimPrefill req.messages
  let conversationId ← conversationIdOf env req
  let lastMessage ← lastOf messages
  let current ← processMessageContent env lastMessage.content
  let (tools, map) ← convertTools env mode req.tools []
  let (history, map) ← buildHistory env mode req messages modelId map
  let (validatedToolResults, orphanedToolUseIds) :=
    validateToolPairing history current.toolResults
  let history := removeOrphanedToolUses history orphanedToolUseIds
  let tools := tools ++ placeholders env tools (collectHistoryToolNames history)
  let context := { UserInputMessageContext.new env.currentDir with
    toolResults := validatedToolResults
    tools := tools }
  let currentMessage := {
    userInputMessageContext := context
    content := current.text
    modelId := modelId
    images := current.images
    origin := some "AI_EDITOR" }
  let conversationState := {
    agentContinuationId := some (env.newV4 1)
    agentTaskType := some "vibe"
    chatTriggerType := some "MANUAL"
    currentMessage := currentMessage
    conversationId := conversationId
    history := history }
  return {
    conversationState := conversationState
    toolNameMap := map
    additionalModelRequestFields := buildAdditionalModelRequestFields req modelId }

/-- The messages of the client up to the last one of the user. -/
def sentMessages (req : MessagesRequest) : List Requests.Message :=
  req.messages.rdropWhile (·.role ≠ "user")

theorem trimPrefill_ok {messages kept : List Requests.Message}
    (ok : trimPrefill messages = .ok kept) :
    kept = messages.rdropWhile (·.role ≠ "user") ∧ kept ≠ [] := by
  unfold trimPrefill at ok
  split at ok
  · cases ok
  · rename_i last is_last
    have nonempty : messages ≠ [] := by
      intro empty
      rw [empty] at is_last
      cases is_last
    split_ifs at ok with user
    · cases ok
      refine ⟨?_, nonempty⟩
      rw [← List.dropLast_append_getLast nonempty, List.rdropWhile_concat_neg]
      rw [List.getLast?_eq_some_getLast nonempty] at is_last
      cases is_last
      simpa using user
    · split at ok
      · cases ok
      · rename_i nonempty
        cases ok
        exact ⟨rfl, nonempty⟩

/-- An environment for runs on ASCII requests without images, metadata and long tool names. -/
def Env.sample : Env where
  caseMaps := .ascii
  sha256Hex := fun _ => String.ofList (List.replicate 64 '0')
  sha256Hex_length := by
    intro _
    rw [String.length_ofList, List.length_replicate]
  newV4 := fun n => if n = 0 then "5c1f9a52-8d0e-4f5e-9d54-2f5c3f1f3a10"
    else "0b9a7c36-6a2b-4c6f-8a3d-7d1f0e5b2c44"
  jsonFromStr := fun _ => none
  formatFloat := fun mantissa _ => toString mantissa
  maybeShrinkImage := fun format data => .ok { format := format, bytes := data }
  currentDir := some "/work"

end KiroRs.Converter.Conversion
