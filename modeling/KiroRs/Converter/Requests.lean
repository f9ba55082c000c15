/- Path: KiroRs/Converter/Requests
   source: src/anthropic/types.rs
   digest: The client's request, its messages, tools and content blocks. -/

import KiroRs.Converter.Json
import KiroRs.Lib.Text

set_option autoImplicit false
set_option relaxedAutoImplicit false

namespace KiroRs.Converter.Requests

open KiroRs.Lib.Text
open KiroRs.Lib.Dicts (Dict)
open KiroRs.Converter.Json

structure Thinking where
  thinkingType : String
  budgetTokens : Int32
  deriving DecidableEq, Repr

/-- Enabled or adaptive. -/
def Thinking.isEnabled (t : Thinking) : Bool :=
  t.thinkingType == "enabled" || t.thinkingType == "adaptive"

structure OutputConfig where
  effort : String
  deriving DecidableEq, Repr

def defaultThinkingEffort : String := "high"

def normalizeThinkingEffort (effort : String) : String :=
  match (trim effort).toLower with
  | "low" => "low"
  | "medium" => "medium"
  | "high" => "high"
  | "xhigh" => "xhigh"
  | "max" => "max"
  | _ => defaultThinkingEffort

structure Metadata where
  userId : Option String
  deriving DecidableEq, Repr

/-- A message of the client; its content is a string or an array of content blocks. -/
structure Message where
  role : String
  content : Value
  deriving Repr, Inhabited

structure CacheControl where
  cacheType : String
  ttl : Option String
  deriving DecidableEq, Repr

/-- A tool declared by the client. -/
structure Tool where
  name : String := ""
  description : String := ""
  inputSchema : Dict Value := []
  deriving Repr, Inhabited

/-- The fields of the request that the conversion reads. `system` holds the texts of the system
messages. -/
structure MessagesRequest where
  model : String
  messages : List Message
  system : Option (List String) := none
  tools : Option (List Tool) := none
  thinking : Option Thinking := none
  outputConfig : Option OutputConfig := none
  metadata : Option Metadata := none
  deriving Repr, Inhabited

structure ImageSource where
  sourceType : String
  mediaType : String
  data : String
  deriving DecidableEq, Repr

structure ContentBlock where
  blockType : String
  text : Option String
  thinking : Option String
  toolUseId : Option String
  content : Option Value
  name : Option String
  input : Option Value
  id : Option String
  isError : Option Bool
  source : Option ImageSource
  cacheControl : Option CacheControl
  deriving Repr, Inhabited

def ImageSource.fromValue (v : Value) : Option ImageSource :=
  match structFields ["type", "media_type", "data"] v with
  | some [type, mediaType, data] => do
    return ⟨← reqString type, ← reqString mediaType, ← reqString data⟩
  | _ => none

def CacheControl.fromValue (v : Value) : Option CacheControl :=
  match structFields ["type", "ttl"] v with
  | some [type, ttl] => do
    return ⟨← reqString type, ← optString ttl⟩
  | _ => none

/-- The names of the fields of a content block, in the order of their declaration. -/
def contentBlockFields : List String :=
  ["type", "text", "thinking", "tool_use_id", "content", "name", "input", "id", "is_error",
    "source", "cache_control"]

/-- `serde_json::from_value::<ContentBlock>`. -/
def ContentBlock.fromValue (v : Value) : Option ContentBlock :=
  match structFields contentBlockFields v with
  | some [type, text, thinking, toolUseId, content, name, input, id, isError, source, cache] => do
    return {
      blockType := ← reqString type
      text := ← optString text
      thinking := ← optString thinking
      toolUseId := ← optString toolUseId
      content := optValue content
      name := ← optString name
      input := optValue input
      id := ← optString id
      isError := ← optBool isError
      source := ← optStruct ImageSource.fromValue source
      cacheControl := ← optStruct CacheControl.fromValue cache }
  | _ => none

end KiroRs.Converter.Requests
