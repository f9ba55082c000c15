/- Path: KiroRs/Stream/StateManager
   source: src/anthropic/stream.rs
   digest: The manager that checks the order of the events sent to the client. -/

import KiroRs.Lib.Emits
import KiroRs.Stream.Events

set_option autoImplicit false
set_option relaxedAutoImplicit false

namespace KiroRs.Stream.StateManager

open KiroRs.Lib.Emits
open KiroRs.Stream.Events

structure BlockState where
  blockType : BlockType
  started : Bool := false
  stopped : Bool := false
  deriving DecidableEq, Repr

/-- The blocks are kept by index, in the order in which they were made. -/
structure SseStateManager where
  messageStarted : Bool := false
  messageDeltaSent : Bool := false
  activeBlocks : List (Int × BlockState) := []
  messageEnded : Bool := false
  nextBlockIndex : Int := 0
  stopReason : Option String := none
  hasToolUse : Bool := false
  deriving DecidableEq, Repr

namespace SseStateManager

def block (m : SseStateManager) (index : Int) : Option BlockState := m.activeBlocks.lookup index

/-- The block of an index, changed. -/
def setBlock (m : SseStateManager) (index : Int) (change : BlockState → BlockState) :
    SseStateManager :=
  { m with activeBlocks := m.activeBlocks.map fun p =>
      if p.1 = index then (p.1, change p.2) else p }

def isBlockOpenOfType (m : SseStateManager) (index : Int) (expectedType : BlockType) : Bool :=
  (m.block index).any fun b => b.started && !b.stopped && b.blockType == expectedType

/-- `next_block_index`: the index handed out, and the manager behind it. -/
def takeIndex (m : SseStateManager) : Int × SseStateManager :=
  (m.nextBlockIndex, { m with nextBlockIndex := wrapI32 (m.nextBlockIndex + 1) })

def setHasToolUse (m : SseStateManager) (has : Bool) : SseStateManager := { m with hasToolUse := has }

def setStopReason (m : SseStateManager) (reason : String) : SseStateManager :=
  { m with stopReason := some reason }

def hasNonThinkingBlocks (m : SseStateManager) : Bool :=
  m.activeBlocks.any fun p => p.2.blockType != .thinking

def getStopReason (m : SseStateManager) : String :=
  match m.stopReason with
  | some reason => reason
  | none => if m.hasToolUse then "tool_use" else "end_turn"

def handleMessageStart (m : SseStateManager) (event : SseEvent) : Emit SseEvent SseStateManager :=
  if m.messageStarted then quiet m else ([event], { m with messageStarted := true })

/-- Stops the started blocks of some kind that are still open. -/
def stopOpen (env : StreamEnv) (m : SseStateManager) (which : BlockType → Bool) :
    Emit SseEvent SseStateManager :=
  let isOpen (b : BlockState) : Bool := which b.blockType && b.started && !b.stopped
  let stopping := (env.blockOrder (m.activeBlocks.map (·.1))).filter fun i =>
    (m.block i).any isOpen
  (stopping.map .contentBlockStop,
    { m with activeBlocks := m.activeBlocks.map fun p =>
      if isOpen p.2 then (p.1, { p.2 with stopped := true }) else p })

/-- A block that was started is not started again. -/
def beginBlock (index : Int) (data : ContentBlock) (m : SseStateManager) :
    Emit SseEvent SseStateManager :=
  match m.block index with
  | some b =>
    if b.started then quiet m
    else ([.contentBlockStart index data], m.setBlock index fun b => { b with started := true })
  | none =>
    ([.contentBlockStart index data],
      { m with activeBlocks :=
        m.activeBlocks ++ [(index, { blockType := data.type, started := true })] })

/-- A tool use stops the text before it. -/
def handleContentBlockStart (env : StreamEnv) (m : SseStateManager) (index : Int)
    (data : ContentBlock) : Emit SseEvent SseStateManager :=
  if data.type = .toolUse then
    (stopOpen env { m with hasToolUse := true } (· == BlockType.text)).andThen
      (beginBlock index data)
  else m.beginBlock index data

def handleContentBlockDelta (m : SseStateManager) (index : Int) (data : Delta) :
    Emit SseEvent SseStateManager :=
  match m.block index with
  | some b => if !b.started || b.stopped then quiet m else ([.contentBlockDelta index data], m)
  | none => quiet m

def handleContentBlockStop (m : SseStateManager) (index : Int) : Emit SseEvent SseStateManager :=
  match m.block index with
  | some b =>
    if b.stopped then quiet m
    else ([.contentBlockStop index], m.setBlock index fun b => { b with stopped := true })
  | none => quiet m

def sendMessageDelta (m : SseStateManager) (usage : Usage) : Emit SseEvent SseStateManager :=
  if m.messageDeltaSent then quiet m
  else ([.messageDelta m.getStopReason usage], { m with messageDeltaSent := true })

def sendMessageStop (m : SseStateManager) : Emit SseEvent SseStateManager :=
  if m.messageEnded then quiet m else ([.messageStop], { m with messageEnded := true })

def generateFinalEvents (env : StreamEnv) (m : SseStateManager) (usage : Usage) :
    Emit SseEvent SseStateManager :=
  ((stopOpen env m fun _ => true).andThen fun m => m.sendMessageDelta usage).andThen sendMessageStop

end SseStateManager

end KiroRs.Stream.StateManager
