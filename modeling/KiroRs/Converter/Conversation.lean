/- Path: KiroRs/Converter/Conversation
   source: src/kiro/model/requests/conversation.rs, src/kiro/model/requests/tool.rs,
   src/kiro/model/requests/kiro.rs
   digest: The conversation state that is sent upstream. -/

import KiroRs.Converter.Json

set_option autoImplicit false
set_option relaxedAutoImplicit false

namespace KiroRs.Converter.Conversation

open KiroRs.Lib.Dicts (Dict)
open KiroRs.Converter.Json

structure InputSchema where
  json : Value
  deriving Repr, Inhabited

structure ToolSpecification where
  name : String
  description : String
  inputSchema : InputSchema
  deriving Repr, Inhabited

structure Tool where
  toolSpecification : ToolSpecification
  deriving Repr, Inhabited

def Tool.name (t : Tool) : String := t.toolSpecification.name

structure ToolResult where
  toolUseId : String
  content : List (Dict Value)
  status : Option String
  isError : Bool
  deriving Repr, Inhabited

def ToolResult.success (toolUseId content : String) : ToolResult :=
  { toolUseId := toolUseId, content := [[("text", .string content)]], status := some "success",
    isError := false }

def ToolResult.error (toolUseId errorMessage : String) : ToolResult :=
  { toolUseId := toolUseId, content := [[("text", .string errorMessage)]], status := some "error",
    isError := true }

structure ToolUseEntry where
  toolUseId : String
  name : String
  input : Value
  deriving Repr, Inhabited

structure EnvState where
  operatingSystem : String
  currentWorkingDirectory : String
  deriving DecidableEq, Repr

/-- The environment state of this process, from its working directory. -/
def EnvState.default (currentDir : Option String) : EnvState :=
  { operatingSystem := "macos", currentWorkingDirectory := currentDir.getD "/" }

structure UserInputMessageContext where
  envState : EnvState
  toolResults : List ToolResult
  tools : List Tool
  deriving Repr

def UserInputMessageContext.new (currentDir : Option String) : UserInputMessageContext :=
  { envState := EnvState.default currentDir, toolResults := [], tools := [] }

structure KiroImage where
  format : String
  bytes : String
  deriving DecidableEq, Repr

structure UserInputMessage where
  userInputMessageContext : UserInputMessageContext
  content : String
  modelId : String
  images : List KiroImage
  origin : Option String
  deriving Repr

structure UserMessage where
  content : String
  modelId : String
  origin : Option String
  images : List KiroImage
  userInputMessageContext : UserInputMessageContext
  deriving Repr

def UserMessage.new (currentDir : Option String) (content modelId : String) : UserMessage :=
  { content := content, modelId := modelId, origin := some "AI_EDITOR", images := [],
    userInputMessageContext := .new currentDir }

structure AssistantMessage where
  content : String
  toolUses : Option (List ToolUseEntry)
  deriving Repr

def AssistantMessage.new (content : String) : AssistantMessage :=
  { content := content, toolUses := none }

/-- `with_tool_uses` under the guard every caller puts before it. -/
def AssistantMessage.withToolUses (m : AssistantMessage) (toolUses : List ToolUseEntry) :
    AssistantMessage :=
  if toolUses.isEmpty then m else { m with toolUses := some toolUses }

/-- A message of the history. -/
inductive Message where
  | user (m : UserMessage)
  | assistant (m : AssistantMessage)
  deriving Repr

structure ConversationState where
  agentContinuationId : Option String
  agentTaskType : Option String
  chatTriggerType : Option String
  currentMessage : UserInputMessage
  conversationId : String
  history : List Message
  deriving Repr

structure AdditionalModelRequestFields where
  outputConfigEffort : Option String
  reasoningEffort : Option String
  deriving DecidableEq, Repr

end KiroRs.Converter.Conversation
