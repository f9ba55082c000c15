/- Path: KiroRs/Stream/Events
   source: src/kiro/model/events, src/anthropic/stream.rs, src/anthropic/cache_metering.rs
   digest: The upstream's events, the events sent to the client, and what the stream takes from
   outside. -/

import KiroRs.Converter.Conversion
import KiroRs.Stream.XmlFilter

set_option autoImplicit false
set_option relaxedAutoImplicit false

namespace KiroRs.Stream.Events

open KiroRs.Lib
open KiroRs.Converter
open KiroRs.Stream.XmlFilter (Text)

structure ToolUseEvent where
  name : String
  toolUseId : String
  input : String := ""
  stop : Bool := false
  deriving DecidableEq, Repr

structure ReasoningContentEvent where
  text : Text := []
  redactedContent : Option String := none
  deriving DecidableEq, Repr

/-- The events of the upstream. A text content is as `from_frame` leaves it; a percentage or an
amount is an `f64` by its bits. -/
inductive Event where
  | assistantResponse (content : Text)
  | code (content : Text)
  | toolUse (e : ToolUseEvent)
  | metering (usage : UInt64)
  | contextUsage (percentage : UInt64)
  | reasoningContent (e : ReasoningContentEvent)
  | unknown
  | error (errorCode errorMessage : String)
  | exception (exceptionType message : String)
  deriving DecidableEq, Repr

inductive BlockType where
  | text
  | thinking
  | redactedThinking
  | toolUse
  deriving DecidableEq, Repr

/-- The content block of a `content_block_start`; texts and tool inputs start empty. -/
inductive ContentBlock where
  | text
  | thinking
  | redactedThinking (data : String)
  | toolUse (id name : String)
  deriving DecidableEq, Repr

def ContentBlock.type : ContentBlock → BlockType
  | text => .text
  | thinking => .thinking
  | redactedThinking _ => .redactedThinking
  | toolUse _ _ => .toolUse

inductive Delta where
  | textDelta (text : Text)
  | thinkingDelta (thinking : Text)
  | signatureDelta (signature : String)
  | inputJsonDelta (partialJson : String)
  deriving DecidableEq, Repr

structure Usage where
  inputTokens : Int
  outputTokens : Int
  cacheCreationInputTokens : Int
  cacheReadInputTokens : Int
  deriving DecidableEq, Repr

inductive SseEvent where
  | messageStart (id model : String) (usage : Usage)
  | contentBlockStart (index : Int) (block : ContentBlock)
  | contentBlockDelta (index : Int) (delta : Delta)
  | contentBlockStop (index : Int)
  | messageDelta (stopReason : String) (usage : Usage)
  | messageStop
  | error (type message : String)
  deriving DecidableEq, Repr

/-- An `i32` after a wrapping operation. -/
def wrapI32 (n : Int) : Int := n.bmod (2 ^ 32)

theorem wrapI32_of_lt {n : Int} (nonneg : 0 ≤ n) (lt : n < 2 ^ 31) : wrapI32 n = n :=
  Int.bmod_eq_of_le (by omega) (by omega)

def isChinese (c : Char) : Bool := 0x4E00 ≤ c.toNat && c.toNat ≤ 0x9FFF

/-- About 1.5 Chinese or 4 other characters make a token. -/
def estimateTokens (text : Text) : Int :=
  let chineseCount : Int := text.countP isChinese
  let otherCount : Int := text.countP (!isChinese ·)
  let chineseTokens := (wrapI32 (chineseCount * 2 + 2)).tdiv 3
  let otherTokens := (wrapI32 (otherCount + 3)).tdiv 4
  max (wrapI32 (chineseTokens + otherTokens)) 1

structure CacheUsage where
  cacheRead : Int := 0
  cacheCoveredEst : Int := 0
  promptTotalEst : Int := 0
  deriving DecidableEq, Repr

/-- What the stream takes from outside: next to what the converter takes, the message of a JSON
error, the arithmetic of floating point numbers, and the order in which a hash map gives its keys
out. -/
structure StreamEnv extends Models.Env where
  jsonError : String → String
  /-- `(percentage * (window as f64) / 100.0) as i32` -/
  percentOf : UInt64 → Int → Int
  /-- `percentage >= 100.0` -/
  isFull : UInt64 → Bool
  splitAgainstTotal : CacheUsage → Int → Int × Int × Int
  blockOrder : List Int → List Int
  blockOrder_perm : ∀ keys, (blockOrder keys).Perm keys
  idOrder : List String → List String
  idOrder_perm : ∀ keys, (idOrder keys).Perm keys

/-- An environment for runs without percentages, with a map that keeps its keys in order. -/
def StreamEnv.sample : StreamEnv where
  toEnv := Conversion.Env.sample
  jsonError := fun _ => "expected value at line 1 column 1"
  percentOf := fun _ window => window
  isFull := fun _ => false
  splitAgainstTotal := fun _ total => (total, 0, 0)
  blockOrder := id
  blockOrder_perm := fun keys => List.Perm.refl keys
  idOrder := id
  idOrder_perm := fun keys => List.Perm.refl keys

def getContextWindowSize (env : StreamEnv) (model : String) : Int :=
  match Models.mapModel env.toEnv model with
  | some mapped =>
    if mapped == "claude-sonnet-4.6" || mapped == "claude-opus-4.6" ||
        mapped == "claude-opus-4.7" || mapped == "claude-opus-4.8" then 1000000
    else 200000
  | none => 200000

end KiroRs.Stream.Events
