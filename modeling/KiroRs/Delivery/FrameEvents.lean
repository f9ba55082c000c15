/- Path: KiroRs/Delivery/FrameEvents
   source: src/kiro/model/events/base.rs, src/kiro/model/events/assistant.rs,
   src/kiro/parser/frame.rs
   digest: The event that a decoded frame stands for, and the events of a body that arrives in
   chunks. -/

import KiroRs.Parser.DecoderRuns
import KiroRs.Stream.Context

set_option autoImplicit false
set_option relaxedAutoImplicit false

namespace KiroRs.Delivery.FrameEvents

open KiroRs.Lib.Wire
open KiroRs.Parser.HeaderCodec
open KiroRs.Parser.FrameCodec
open KiroRs.Parser.StreamDecoder
open KiroRs.Parser.DecoderRuns
open KiroRs.Stream.XmlFilter
open KiroRs.Stream.Events

inductive EventType where
  | assistantResponse
  | code
  | toolUse
  | metering
  | contextUsage
  | reasoningContent
  | unknown
  deriving DecidableEq, Repr

def EventType.fromStr (s : String) : EventType :=
  if s = "assistantResponseEvent" then .assistantResponse
  else if s = "codeEvent" then .code
  else if s = "toolUseEvent" then .toolUse
  else if s = "meteringEvent" then .metering
  else if s = "contextUsageEvent" then .contextUsage
  else if s = "reasoningContentEvent" then .reasoningContent
  else .unknown

def EventType.asStr : EventType → String
  | .assistantResponse => "assistantResponseEvent"
  | .code => "codeEvent"
  | .toolUse => "toolUseEvent"
  | .metering => "meteringEvent"
  | .contextUsage => "contextUsageEvent"
  | .reasoningContent => "reasoningContentEvent"
  | .unknown => "unknown"

theorem EventType.fromStr_asStr (t : EventType) : fromStr t.asStr = t := by
  cases t <;> rfl

/-- What the drivers of a stream take from outside besides what its context does: the checksum of
the frames, what `serde_json::from_slice` makes of a payload for each event, or its message, and the
sum of two amounts of credits. -/
structure WireEnv extends StreamEnv where
  crc32 : Bytes → UInt32
  assistantContent : Bytes → Except String Text
  toolUse : Bytes → Except String ToolUseEvent
  metering : Bytes → Except String UInt64
  contextUsage : Bytes → Except String UInt64
  reasoning : Bytes → Except String ReasoningContentEvent
  addCredits : UInt64 → UInt64 → UInt64

/-- An environment for bodies whose payloads are not read. -/
def WireEnv.sample : WireEnv where
  toStreamEnv := StreamEnv.sample
  crc32 := crc32IsoHdlc
  assistantContent := fun _ => .error "expected value at line 1 column 1"
  toolUse := fun _ => .error "expected value at line 1 column 1"
  metering := fun _ => .error "expected value at line 1 column 1"
  contextUsage := fun _ => .error "expected value at line 1 column 1"
  reasoning := fun _ => .error "expected value at line 1 column 1"
  addCredits := fun credits _ => credits

/-- `payload_as_json` with the reader of a payload. -/
def payloadAsJson {α : Type} (read : Bytes → Except String α) (frame : Frame) : ParseResult α :=
  match read frame.payload with
  | .ok value => .ok value
  | .error message => .error (.payloadDeserialize message)

def payloadAsStr (frame : Frame) : String := fromUtf8Lossy frame.payload

/-- `AssistantResponseEvent::from_frame`, which cleans a content with a leaked tool call. -/
def assistantFromFrame (env : WireEnv) (frame : Frame) : ParseResult Text :=
  (payloadAsJson env.assistantContent frame).map fun content =>
    if toolUseXmlPrefix <:+: content then stripToolUseXmlLeaks content else content

def parseEvent (env : WireEnv) (frame : Frame) : ParseResult Event :=
  match EventType.fromStr (frame.headers.eventType.getD "unknown") with
  | .assistantResponse => (assistantFromFrame env frame).map .assistantResponse
  | .code => (assistantFromFrame env frame).map .code
  | .toolUse => (payloadAsJson env.toolUse frame).map .toolUse
  | .metering => (payloadAsJson env.metering frame).map .metering
  | .contextUsage => (payloadAsJson env.contextUsage frame).map .contextUsage
  | .reasoningContent => (payloadAsJson env.reasoning frame).map .reasoningContent
  | .unknown => .ok .unknown

def parseError (frame : Frame) : ParseResult Event :=
  .ok (.error (frame.headers.errorCode.getD "UnknownError") (payloadAsStr frame))

def parseException (frame : Frame) : ParseResult Event :=
  .ok (.exception (frame.headers.exceptionType.getD "UnknownException") (payloadAsStr frame))

def fromFrame (env : WireEnv) (frame : Frame) : ParseResult Event :=
  let messageType := frame.headers.messageType.getD "event"
  if messageType = "event" then parseEvent env frame
  else if messageType = "error" then parseError frame
  else if messageType = "exception" then parseException frame
  else .error (.invalidMessageType messageType)

/-- The event of what the decoder hands out. An error is logged, and a frame that is no event is
passed over. -/
def eventOf (env : WireEnv) : ParseResult Frame → Option Event
  | .ok frame => (fromFrame env frame).toOption
  | .error _ => none

/-- The events of a body that arrives in the given chunks. -/
def bodyEvents (env : WireEnv) (chunks : List Bytes) : List Event :=
  (feedAll env.crc32 EventStreamDecoder.new chunks).2.filterMap (eventOf env)

theorem feedAll_concat (crc32 : Bytes → UInt32) (d : EventStreamDecoder) (chunks : List Bytes)
    (data : Bytes) :
    feedAll crc32 d (chunks ++ [data]) =
      ((feedAndDrain crc32 (feedAll crc32 d chunks).1 data).1,
        (feedAll crc32 d chunks).2 ++ (feedAndDrain crc32 (feedAll crc32 d chunks).1 data).2) := by
  induction chunks generalizing d with
  | nil => simp only [List.nil_append, feedAll, List.append_nil]
  | cons chunk rest ih => simp only [List.cons_append, feedAll, ih, List.append_assoc]

theorem bodyEvents_concat (env : WireEnv) (chunks : List Bytes) (data : Bytes) :
    bodyEvents env (chunks ++ [data]) = bodyEvents env chunks ++
      (feedAndDrain env.crc32 (feedAll env.crc32 EventStreamDecoder.new chunks).1 data).2.filterMap
        (eventOf env) := by
  rw [bodyEvents, feedAll_concat, List.filterMap_append]
  rfl

theorem bodyEvents_encoded (env : WireEnv) (frames : List WireFrame) (chunks : List Bytes)
    (split : chunks.flatten = (frames.map (·.encode env.crc32)).flatten)
    (accepted : Accepted env.crc32 EventStreamDecoder.new chunks) :
    bodyEvents env chunks = frames.filterMap fun f => (fromFrame env f.toFrame).toOption := by
  have results : (feedAll env.crc32 EventStreamDecoder.new chunks).2 =
      frames.map (.ok ·.toFrame) := by
    refine feedAll_frames chunks at_new (Or.inl rfl) accepted split ?_
    rintro - f more rfl
    have size := (f.delimited env.crc32).min_le
    rw [WireFrame.length_encode] at size
    exact lt_of_lt_of_le (by decide : 0 < 16) size
  rw [bodyEvents, results, List.filterMap_map]
  rfl

end KiroRs.Delivery.FrameEvents
