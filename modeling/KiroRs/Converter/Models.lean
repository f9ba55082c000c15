/- Path: KiroRs/Converter/Models
   source: src/anthropic/converter.rs
   digest: Model names, the native reasoning fields and the thinking tags of a request. -/

import KiroRs.Converter.Requests
import KiroRs.Converter.Conversation

set_option autoImplicit false
set_option relaxedAutoImplicit false

namespace KiroRs.Converter.Models

open KiroRs.Lib
open KiroRs.Lib.Text
open KiroRs.Converter.Json
open KiroRs.Converter.Requests
open KiroRs.Converter.Conversation (KiroImage AdditionalModelRequestFields)

inductive ConversionError where
  | unsupportedModel (model : String)
  | emptyMessages
  | unsupportedToolMapping (message : String)
  | invalidImage (message : String)
  deriving DecidableEq, Repr

/-- How a conversion ends without a result: with an error, or by a panic. -/
inductive Failure where
  | error (e : ConversionError)
  | panicked
  deriving DecidableEq, Repr

/-- What the conversion takes from outside: the case maps, the digest, fresh identifiers, the JSON
parser, the printer of binary fractions, the image processor and the working directory. -/
structure Env where
  caseMaps : CaseMaps
  sha256Hex : String → String
  sha256Hex_length : ∀ s, (sha256Hex s).length = 64
  newV4 : Nat → String
  jsonFromStr : String → Option Value
  formatFloat : Int → Int → String
  maybeShrinkImage : String → String → Except String KiroImage
  currentDir : Option String

/-- The first version of the list that the name contains, written either way. -/
def versionIn (name : String) : List (String × String × String) → Option String
  | [] => none
  | (dashed, dotted, model) :: rest =>
    if Text.contains name dashed || Text.contains name dotted then some model
    else versionIn name rest

def mapModel (env : Env) (model : String) : Option String :=
  let modelLower := env.caseMaps.toLowercase model
  if Text.contains modelLower "sonnet" then
    versionIn modelLower [("4-6", "4.6", "claude-sonnet-4.6"), ("4-5", "4.5", "claude-sonnet-4.5")]
  else if Text.contains modelLower "opus" then
    versionIn modelLower
      [("4-8", "4.8", "claude-opus-4.8"), ("4-7", "4.7", "claude-opus-4.7"),
        ("4-5", "4.5", "claude-opus-4.5"), ("4-6", "4.6", "claude-opus-4.6")]
  else if Text.contains modelLower "haiku" then some "claude-haiku-4.5"
  else none

inductive NativeReasoningSchemaPath where
  | outputConfig
  | reasoning
  deriving DecidableEq, Repr

structure NativeReasoningSchema where
  path : NativeReasoningSchemaPath
  efforts : List String
  deriving DecidableEq, Repr

def effortsWithXhigh : List String := ["low", "medium", "high", "xhigh", "max"]
def effortsWithoutXhigh : List String := ["low", "medium", "high", "max"]

def nativeReasoningSchema (modelId : String) : Option NativeReasoningSchema :=
  if modelId == "claude-opus-4.8" || modelId == "claude-opus-4.7" then
    some ⟨.outputConfig, effortsWithXhigh⟩
  else if modelId == "claude-opus-4.6" || modelId == "claude-sonnet-4.6" then
    some ⟨.outputConfig, effortsWithoutXhigh⟩
  else none

def requestedNativeReasoning (req : MessagesRequest) : Bool :=
  req.thinking.any (·.isEnabled) || req.outputConfig.any fun oc => !(trim oc.effort).isEmpty

def effortFromBudgetTokens (tokens : Int32) : String :=
  if tokens ≤ 4000 then "low"
  else if tokens ≤ 16000 then "medium"
  else if tokens ≤ 64000 then "high"
  else "xhigh"

def selectNativeReasoningEffort (req : MessagesRequest) (schema : NativeReasoningSchema) :
    String :=
  let requested :=
    match req.outputConfig, req.thinking with
    | some oc, _ => normalizeThinkingEffort oc.effort
    | none, some t =>
      if t.thinkingType = "enabled" then effortFromBudgetTokens t.budgetTokens
      else normalizeThinkingEffort ""
    | none, none => normalizeThinkingEffort ""
  if schema.efforts.contains requested then requested
  else schema.efforts.getLast?.getD "high"

def buildAdditionalModelRequestFields (req : MessagesRequest) (modelId : String) :
    Option AdditionalModelRequestFields :=
  if req.thinking.any (·.thinkingType == "disabled") then none
  else
    match nativeReasoningSchema modelId with
    | none => none
    | some schema =>
      if !requestedNativeReasoning req then none
      else
        let effort := selectNativeReasoningEffort req schema
        match schema.path with
        | .outputConfig => some { outputConfigEffort := some effort, reasoningEffort := none }
        | .reasoning => some { outputConfigEffort := none, reasoningEffort := some effort }

def usesNativeReasoningFields (req : MessagesRequest) (modelId : String) : Bool :=
  (buildAdditionalModelRequestFields req modelId).isSome

def generateThinkingPrefix (req : MessagesRequest) : Option String :=
  match req.thinking with
  | none => none
  | some t =>
    if t.thinkingType = "enabled" then
      some ("<thinking_mode>enabled</thinking_mode><max_thinking_length>" ++
        toString t.budgetTokens.toInt ++ "</max_thinking_length>")
    else if t.thinkingType = "adaptive" then
      let effort := (req.outputConfig.map fun c => normalizeThinkingEffort c.effort).getD "high"
      some ("<thinking_mode>adaptive</thinking_mode><thinking_effort>" ++ effort ++
        "</thinking_effort>")
    else none

def generateThinkingPrefixForModel (req : MessagesRequest) (modelId : String) : Option String :=
  if usesNativeReasoningFields req modelId then none else generateThinkingPrefix req

def hasThinkingTags (content : String) : Bool :=
  Text.contains content "<thinking_mode>" || Text.contains content "<max_thinking_length>"

end KiroRs.Converter.Models
