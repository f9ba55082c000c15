/- Path: KiroRs/Converter/PanicFreedom
   source: src/anthropic/converter.rs
   digest: The conversion with checked sums, and the requests on which it neither panics nor
   overflows. -/

import KiroRs.Converter.Conversion
import KiroRs.Converter.ReadWindows
import KiroRs.Lib.Results

set_option autoImplicit false
set_option relaxedAutoImplicit false

namespace KiroRs.Converter.PanicFreedom

open KiroRs.Lib
open KiroRs.Lib.Results
open KiroRs.Lib.Text
open KiroRs.Lib.Dicts (Dict)
open KiroRs.Converter.Json
open KiroRs.Converter.Models
open KiroRs.Converter.Requests (ContentBlock ImageSource MessagesRequest)
open KiroRs.Converter.Conversation
open KiroRs.Converter.ToolNames
open KiroRs.Converter.Tools
open KiroRs.Converter.Messages
open KiroRs.Converter.Conversion
open KiroRs.Converter.ReadWindows (InI64 machineField)

abbrev InputMap := String → Value → Except Failure Value

def wrappingInput (mode : ToolCompatibilityMode) : InputMap := fun name input =>
  match mapToolInputToKiro mode name input with
  | .ok input => .ok input
  | .error e => .error (.error (.unsupportedToolMapping e.toString))

/-- The sums of `start + limit - 1` stay within 64 bits. -/
def SumFits (start limit : Int64) : Prop :=
  InI64 (start.toInt + limit.toInt) ∧ InI64 (start.toInt + limit.toInt - 1)

instance (start limit : Int64) : Decidable (SumFits start limit) := by
  unfold SumFits InI64
  infer_instance

/-- The window of a `Read` in the client's tools is computed without an overflow. -/
def windowFits (mode : ToolCompatibilityMode) (name : String) (input : Value) : Bool :=
  match input with
  | .object obj =>
    if isClaudeCodeMode mode && name == "Read" then
      match machineField obj "offset", machineField obj "limit" with
      | some start, some limit => decide (SumFits start limit)
      | _, _ => true
    else true
  | _ => true

/-- The rewriting of a debug build, where an overflow panics. `Read.pages` is refused before any
sum is taken. -/
def checkedInput (mode : ToolCompatibilityMode) : InputMap := fun name input => do
  let mapped ← wrappingInput mode name input
  if windowFits mode name input then return mapped else throw .panicked

section

variable (env : Env) (mode : ToolCompatibilityMode) (mapInput : InputMap)

def convertAssistantBlockBy (loop : AssistantLoop) (block : ContentBlock) :
    Except Failure AssistantLoop :=
  match block.blockType with
  | "text" => .ok { loop with text := loop.text ++ block.text.getD "" }
  | "tool_use" =>
    match block.id, block.name with
    | some id, some name =>
      let (mappedName, map) := mapClientToolNameToKiro env mode name loop.map
      match mapInput name (block.input.getD (.object [])) with
      | .ok input =>
        .ok { loop with toolUses := loop.toolUses ++ [⟨id, mappedName, input⟩], map := map }
      | .error e => .error e
    | _, _ => .ok loop
  | _ => .ok loop

def convertAssistantContentBy (content : Value) (map : ToolNameMap) :
    Except Failure AssistantLoop :=
  match content with
  | .string s => .ok { text := s, map := map }
  | .array items =>
    (blocksOf items).foldlM (convertAssistantBlockBy env mode mapInput) { map := map }
  | _ => .ok { map := map }

def convertAssistantMessageBy (msg : Requests.Message) (map : ToolNameMap) :
    Except Failure (AssistantMessage × ToolNameMap) := do
  let loop ← convertAssistantContentBy env mode mapInput msg.content map
  let assistant := AssistantMessage.new (contentOrBlank loop.text loop.toolUses)
  return (assistant.withToolUses loop.toolUses, loop.map)

def mergeAssistantMessageBy (merge : AssistantMerge) (msg : Requests.Message) :
    Except Failure AssistantMerge := do
  let (am, map) ← convertAssistantMessageBy env mode mapInput msg merge.map
  return {
    contentParts :=
      if (trim am.content).isEmpty then merge.contentParts else merge.contentParts ++ [am.content]
    toolUses := merge.toolUses ++ am.toolUses.getD []
    map := map }

def mergeAssistantMessagesBy (messages : List Requests.Message) (map : ToolNameMap) :
    Except Failure (AssistantMessage × ToolNameMap) :=
  match messages with
  | [] => .error .panicked
  | [msg] => convertAssistantMessageBy env mode mapInput msg map
  | _ => do
    let merge ← messages.foldlM (mergeAssistantMessageBy env mode mapInput) { map := map }
    let content :=
      if merge.contentParts.isEmpty && !merge.toolUses.isEmpty then " "
      else "\n\n".intercalate merge.contentParts
    return ((AssistantMessage.new content).withToolUses merge.toolUses, merge.map)

def flushAssistantBy (loop : HistoryLoop) : Except Failure HistoryLoop :=
  if loop.assistantBuffer.isEmpty then .ok loop
  else do
    let (merged, map) ← mergeAssistantMessagesBy env mode mapInput loop.assistantBuffer loop.map
    return { loop with history := loop.history ++ [.assistant merged], assistantBuffer := [],
                       map := map }

def historyStepBy (modelId : String) (loop : HistoryLoop) (msg : Requests.Message) :
    Except Failure HistoryLoop :=
  if msg.role = "user" then do
    let loop ← flushAssistantBy env mode mapInput loop
    return { loop with userBuffer := loop.userBuffer ++ [msg] }
  else if msg.role = "assistant" then do
    let loop ← flushUser env modelId loop
    return { loop with assistantBuffer := loop.assistantBuffer ++ [msg] }
  else .ok loop

def buildHistoryBy (req : MessagesRequest) (messages : List Requests.Message) (modelId : String)
    (map : ToolNameMap) : Except Failure (List Message × ToolNameMap) := do
  let start := { history := systemMessages env req modelId, map := map }
  let loop ← messages.dropLast.foldlM (historyStepBy env mode mapInput modelId) start
  let loop ← flushAssistantBy env mode mapInput loop
  let loop ← closeHistory env modelId loop
  return (loop.history, loop.map)

def convertRequestBy (req : MessagesRequest) : Except Failure ConversionResult := do
  let modelId ← requireModel env req.model
  let messages ← trimPrefill req.messages
  let conversationId ← conversationIdOf env req
  let lastMessage ← lastOf messages
  let current ← processMessageContent env lastMessage.content
  let (tools, map) ← convertTools env mode req.tools []
  let (history, map) ← buildHistoryBy env mode mapInput req messages modelId map
  let (validatedToolResults, orphanedToolUseIds) :=
    validateToolPairing history current.toolResults
  let history := removeOrphanedToolUses history orphanedToolUseIds
  let tools := tools ++ placeholders env tools (collectHistoryToolNames history)
  let context := { UserInputMessageContext.new env.currentDir with
    toolResults := validatedToolResults
    tools := tools }
  let currentMessage := {
    userInputMessageContext := context
    content := current.text
    modelId := modelId
    images := current.images
    origin := some "AI_EDITOR" }
  let conversationState := {
    agentContinuationId := some (env.newV4 1)
    agentTaskType := some "vibe"
    chatTriggerType := some "MANUAL"
    currentMessage := currentMessage
    conversationId := conversationId
    history := history }
  return {
    conversationState := conversationState
    toolNameMap := map
    additionalModelRequestFields := buildAdditionalModelRequestFields req modelId }

end

/-- The conversion of a debug build. -/
def convertRequestChecked (env : Env) (mode : ToolCompatibilityMode) (req : MessagesRequest) :
    Except Failure ConversionResult :=
  convertRequestBy env mode (checkedInput mode) req

section

variable (env : Env) (mode : ToolCompatibilityMode)

theorem convertAssistantBlockBy_wrapping :
    convertAssistantBlockBy env mode (wrappingInput mode) = convertAssistantBlock env mode := by
  funext loop block
  obtain ⟨type, text, thinking, toolUseId, content, name, input, id, _, _, _⟩ := block
  simp only [convertAssistantBlockBy, convertAssistantBlock, wrappingInput]
  cases id with
  | none => rfl
  | some id =>
    cases name with
    | none => rfl
    | some name =>
      dsimp only
      cases mapToolInputToKiro mode name (input.getD (.object [])) <;> rfl

theorem mergeAssistantMessagesBy_wrapping :
    mergeAssistantMessagesBy env mode (wrappingInput mode) = mergeAssistantMessages env mode := by
  have content : convertAssistantContentBy env mode (wrappingInput mode) =
      convertAssistantContent env mode := by
    funext content map
    unfold convertAssistantContentBy
    rw [convertAssistantBlockBy_wrapping]
    rfl
  have message : convertAssistantMessageBy env mode (wrappingInput mode) =
      convertAssistantMessage env mode := by
    funext msg map
    unfold convertAssistantMessageBy convertAssistantMessage
    rw [content]
  have step : mergeAssistantMessageBy env mode (wrappingInput mode) =
      mergeAssistantMessage env mode := by
    funext merge msg
    unfold mergeAssistantMessageBy mergeAssistantMessage
    rw [message]
  funext messages map
  unfold mergeAssistantMessagesBy
  rw [message, step]
  rfl

theorem convertRequestBy_wrapping :
    convertRequestBy env mode (wrappingInput mode) = convertRequestWithMode env mode := by
  have flush : flushAssistantBy env mode (wrappingInput mode) = flushAssistant env mode := by
    funext loop
    unfold flushAssistantBy flushAssistant
    rw [mergeAssistantMessagesBy_wrapping]
  have step : historyStepBy env mode (wrappingInput mode) = historyStep env mode := by
    funext modelId loop msg
    unfold historyStepBy historyStep
    rw [flush]
  have history : buildHistoryBy env mode (wrappingInput mode) = buildHistory env mode := by
    funext req messages modelId map
    unfold buildHistoryBy buildHistory
    rw [step, flush]
  funext req
  unfold convertRequestBy convertRequestWithMode
  rw [history]

end

/-- The first computation panics or does what the second does. -/
def Upto {α : Type} (x y : Except Failure α) : Prop := x = .error .panicked ∨ x = y

theorem Upto.rfl {α : Type} (x : Except Failure α) : Upto x x := .inr (Eq.refl x)

theorem Upto.bind {α β : Type} {x y : Except Failure α} {f g : α → Except Failure β}
    (first : Upto x y) (rest : ∀ a, Upto (f a) (g a)) : Upto (x >>= f) (y >>= g) := by
  rcases first with panicked | same
  · rw [panicked]
    exact .inl (Eq.refl _)
  · rw [same]
    cases y with
    | error e => exact Upto.rfl _
    | ok a => exact rest a

theorem Upto.foldlM {σ α : Type} {f g : σ → α → Except Failure σ}
    (steps : ∀ s a, Upto (f s a) (g s a)) (l : List α) (s : σ) :
    Upto (l.foldlM f s) (l.foldlM g s) := by
  induction l generalizing s with
  | nil => exact Upto.rfl _
  | cons a l ih =>
    rw [List.foldlM_cons, List.foldlM_cons]
    exact (steps s a).bind ih

section

variable (env : Env) (mode : ToolCompatibilityMode)

theorem upto_checkedInput (name : String) (input : Value) :
    Upto (checkedInput mode name input) (wrappingInput mode name input) := by
  unfold checkedInput
  cases wrappingInput mode name input with
  | error e => exact Upto.rfl _
  | ok mapped =>
    rw [ok_bind]
    split_ifs
    · exact Upto.rfl _
    · exact .inl rfl

theorem upto_convertAssistantBlockBy (loop : AssistantLoop) (block : ContentBlock) :
    Upto (convertAssistantBlockBy env mode (checkedInput mode) loop block)
      (convertAssistantBlockBy env mode (wrappingInput mode) loop block) := by
  obtain ⟨type, text, thinking, toolUseId, content, name, input, id, _, _, _⟩ := block
  simp only [convertAssistantBlockBy]
  split
  · exact Upto.rfl _
  · cases id with
    | none => exact Upto.rfl _
    | some id =>
      cases name with
      | none => exact Upto.rfl _
      | some name =>
        dsimp only
        rcases upto_checkedInput mode name (input.getD (.object [])) with panicked | same
        · rw [panicked]
          exact .inl rfl
        · rw [same]
          exact Upto.rfl _
  · exact Upto.rfl _

theorem upto_convertAssistantMessageBy (msg : Requests.Message) (map : ToolNameMap) :
    Upto (convertAssistantMessageBy env mode (checkedInput mode) msg map)
      (convertAssistantMessageBy env mode (wrappingInput mode) msg map) := by
  refine Upto.bind ?_ fun _ => Upto.rfl _
  cases msg.content with
  | array items => exact Upto.foldlM (upto_convertAssistantBlockBy env mode) (blocksOf items) _
  | _ => exact Upto.rfl _

theorem upto_mergeAssistantMessagesBy (messages : List Requests.Message) (map : ToolNameMap) :
    Upto (mergeAssistantMessagesBy env mode (checkedInput mode) messages map)
      (mergeAssistantMessagesBy env mode (wrappingInput mode) messages map) := by
  match messages with
  | [] => exact Upto.rfl _
  | [msg] => exact upto_convertAssistantMessageBy env mode msg map
  | first :: second :: more =>
    refine Upto.bind (Upto.foldlM ?_ _ _) fun _ => Upto.rfl _
    intro merge msg
    exact Upto.bind (upto_convertAssistantMessageBy env mode msg merge.map) fun _ => Upto.rfl _

theorem upto_flushAssistantBy (loop : HistoryLoop) :
    Upto (flushAssistantBy env mode (checkedInput mode) loop)
      (flushAssistantBy env mode (wrappingInput mode) loop) := by
  unfold flushAssistantBy
  split_ifs
  · exact Upto.rfl _
  · exact Upto.bind (upto_mergeAssistantMessagesBy env mode _ _) fun _ => Upto.rfl _

theorem upto_buildHistoryBy (req : MessagesRequest) (messages : List Requests.Message)
    (modelId : String) (map : ToolNameMap) :
    Upto (buildHistoryBy env mode (checkedInput mode) req messages modelId map)
      (buildHistoryBy env mode (wrappingInput mode) req messages modelId map) := by
  refine Upto.bind (Upto.foldlM ?_ _ _) fun loop => ?_
  · intro loop msg
    unfold historyStepBy
    split_ifs
    · exact Upto.bind (upto_flushAssistantBy env mode loop) fun _ => Upto.rfl _
    · exact Upto.rfl _
    · exact Upto.rfl _
  · exact Upto.bind (upto_flushAssistantBy env mode loop) fun _ => Upto.rfl _

theorem convertRequestChecked_upto (req : MessagesRequest) :
    convertRequestChecked env mode req = .error .panicked ∨
      convertRequestChecked env mode req = convertRequestWithMode env mode req := by
  rw [← convertRequestBy_wrapping]
  refine Upto.bind (Upto.rfl _) fun modelId => Upto.bind (Upto.rfl _) fun messages => ?_
  refine Upto.bind (Upto.rfl _) fun _ => Upto.bind (Upto.rfl _) fun _ => ?_
  refine Upto.bind (Upto.rfl _) fun _ => Upto.bind (Upto.rfl _) fun tools => ?_
  exact Upto.bind (upto_buildHistoryBy env mode req messages modelId tools.2) fun _ => Upto.rfl _

end

/-- A piece of content whose conversion can fail: an image, or the input of a tool. -/
inductive Work where
  | image (source : ImageSource)
  | call (name : String) (input : Value)

def resultImages : Option Value → List ImageSource
  | some (.array items) => items.filterMap fun item =>
    match (item.get "text").bind Value.asStr with
    | some _ => none
    | none => imageSourceOf item
  | _ => []

def blockImages (block : ContentBlock) : List ImageSource :=
  match block.blockType with
  | "image" => block.source.toList
  | "tool_result" => if block.toolUseId.isSome then resultImages block.content else []
  | _ => []

def blockCalls (block : ContentBlock) : List (String × Value) :=
  match block.blockType with
  | "tool_use" =>
    match block.id, block.name with
    | some _, some name => [(name, block.input.getD (.object []))]
    | _, _ => []
  | _ => []

def imageWork (content : Value) : List Work :=
  (contentBlocks content).flatMap fun block => (blockImages block).map .image

/-- The tool inputs of assistant content, in the order in which they are converted. -/
def callWork (content : Value) : List Work :=
  (contentBlocks content).flatMap fun block => (blockCalls block).map fun c => .call c.1 c.2

def workOf (msg : Requests.Message) : List Work :=
  if msg.role = "user" then imageWork msg.content
  else if msg.role = "assistant" then callWork msg.content
  else []

section

variable (env : Env) (mapInput : InputMap)

/-- One piece of work; `seen` holds the digests of the images met so far, where images are
deduplicated. -/
def doWork (seen : Option (List String)) : Work → Except Failure (Option (List String))
  | .image source =>
    match getImageFormat source.mediaType with
    | none => .ok seen
    | some format =>
      let digest := env.sha256Hex source.data
      if seen.any (·.contains digest) then .ok seen
      else do
        let _ ← shrinkImage env format source
        return seen.map (digest :: ·)
  | .call name input => do
    let _ ← mapInput name input
    return seen

def runWork (seen : Option (List String)) (work : List Work) :
    Except Failure (Option (List String)) :=
  work.foldlM (doWork env mapInput) seen

variable {env} {mapInput}

theorem runWork_append (seen : Option (List String)) (a b : List Work) :
    runWork env mapInput seen (a ++ b) = runWork env mapInput seen a >>= fun seen =>
      runWork env mapInput seen b := by
  unfold runWork
  rw [List.foldlM_append]

theorem runWork_isSome {seen : List String} {work : List Work} {r : Option (List String)}
    (ok : runWork env mapInput (some seen) work = .ok r) : r.isSome = true := by
  refine foldlM_invariant (fun _ r => r.isSome = true) rfl ?_ ok
  intro done w s s' some_seen did
  obtain ⟨seen, rfl⟩ := Option.isSome_iff_exists.mp some_seen
  cases w with
  | image source =>
    simp only [doWork] at did
    split at did
    · cases did
      rfl
    · split_ifs at did
      · cases did
        rfl
      · obtain ⟨_, -, rest⟩ := bind_ok did
        cases rest
        rfl
  | call name input =>
    obtain ⟨_, -, rest⟩ := bind_ok did
    cases rest
    rfl

theorem runWork_calls {seen r : Option (List String)} {work : List Work}
    (calls : ∀ w ∈ work, ∃ name input, w = .call name input)
    (ok : runWork env mapInput seen work = .ok r) : r = seen := by
  induction work generalizing seen with
  | nil =>
    cases ok
    rfl
  | cons w work ih =>
    obtain ⟨name, input, rfl⟩ := calls w List.mem_cons_self
    rw [runWork, List.foldlM_cons] at ok
    obtain ⟨mid, did, rest⟩ := bind_ok ok
    obtain ⟨_, -, kept⟩ := bind_ok did
    cases kept
    exact ih (fun w mem => calls w (List.mem_cons_of_mem _ mem)) rest

variable (env) (mapInput)

theorem extractKiroImage_seen (source : ImageSource) (acc : Extraction) :
    (extractKiroImage env source acc).map (·.2.seen) =
      doWork env mapInput acc.seen (.image source) := by
  simp only [extractKiroImage, doWork]
  cases getImageFormat source.mediaType with
  | none => rfl
  | some format =>
    dsimp only
    split_ifs
    · rfl
    · cases shrinkImage env format source <;> rfl

theorem extractResultItem_seen (loop : ResultParts) (item : Value) :
    (extractResultItem env loop item).map (·.acc.seen) =
      runWork env mapInput loop.acc.seen ((resultImages (some (.array [item]))).map .image) := by
  unfold extractResultItem resultImages
  cases text : (item.get "text").bind Value.asStr with
  | some text => simp only [List.filterMap_cons, text]; rfl
  | none =>
    cases image : imageSourceOf item with
    | none => simp only [List.filterMap_cons, text, image]; rfl
    | some source =>
      have seen := extractKiroImage_seen env mapInput source loop.acc
      simp only [List.filterMap_cons, text, image, List.filterMap_nil, List.map_cons, List.map_nil,
        runWork, List.foldlM_cons, List.foldlM_nil, ← seen]
      cases extractKiroImage env source loop.acc <;> rfl

theorem resultImages_array (items : List Value) :
    (resultImages (some (.array items))).map Work.image =
      items.flatMap fun item => (resultImages (some (.array [item]))).map Work.image := by
  induction items with
  | nil => rfl
  | cons item items ih =>
    have split_first : resultImages (some (.array (item :: items))) =
        resultImages (some (.array [item])) ++ resultImages (some (.array items)) := by
      unfold resultImages
      rw [← List.filterMap_append]
      rfl
    rw [List.flatMap_cons, ← ih, split_first, List.map_append]

theorem extractToolResultContent_seen (content : Option Value) (acc : Extraction) :
    (extractToolResultContent env content acc).map (·.2.seen) =
      runWork env mapInput acc.seen ((resultImages content).map .image) := by
  cases content with
  | none => rfl
  | some v =>
    cases v with
    | array items =>
      have folded : (items.foldlM (extractResultItem env) { acc := acc }).map (·.acc.seen) =
          items.foldlM (fun seen item => runWork env mapInput seen
            ((resultImages (some (.array [item]))).map .image)) acc.seen := by
        refine map_foldlM (fun loop : ResultParts => loop.acc.seen) items _ ?_
        intro loop item _
        exact extractResultItem_seen env mapInput loop item
      rw [resultImages_array, runWork, foldlM_flatMap]
      unfold runWork at folded
      rw [← folded]
      simp only [extractToolResultContent]
      cases items.foldlM (extractResultItem env) { acc := acc } <;> rfl
    | _ => rfl

theorem processBlock_seen (acc : Extraction) (block : ContentBlock) :
    (processBlock env acc block).map (·.seen) =
      runWork env mapInput acc.seen ((blockImages block).map .image) := by
  obtain ⟨type, text, thinking, toolUseId, content, name, input, id, isError, source, _⟩ := block
  simp only [processBlock, blockImages]
  split
  · rfl
  · cases source with
    | none => rfl
    | some source =>
      have seen := extractKiroImage_seen env mapInput source acc
      simp only [Option.toList_some, List.map_cons, List.map_nil, runWork, List.foldlM_cons,
        List.foldlM_nil, ← seen]
      cases extractKiroImage env source acc <;> rfl
  · cases toolUseId with
    | none => rfl
    | some toolUseId =>
      have seen := extractToolResultContent_seen env mapInput content acc
      simp only [Option.isSome_some, if_true, ← seen]
      cases extractToolResultContent env content acc <;> rfl
  · rename_i no_text no_image no_result
    split
    · exact absurd rfl no_image
    · exact absurd rfl no_result
    · rfl

theorem processMessageContentDedup_seen (content : Value) (seen : Option (List String)) :
    (processMessageContentDedup env content seen).map (·.seen) =
      runWork env mapInput seen (imageWork content) := by
  cases content with
  | array items =>
    unfold runWork imageWork
    rw [foldlM_flatMap]
    refine map_foldlM (fun acc : Extraction => acc.seen) (blocksOf items) _ ?_
    intro acc block _
    exact processBlock_seen env mapInput acc block
  | _ => rfl

theorem mergeUserMessage_seen (merge : UserMerge) (msg : Requests.Message) :
    (mergeUserMessage env merge msg).map (fun merge => some merge.seen) =
      runWork env mapInput (some merge.seen) (imageWork msg.content) := by
  have seen := processMessageContentDedup_seen env mapInput msg.content
    (some merge.seen)
  unfold mergeUserMessage
  cases processed : processMessageContentDedup env msg.content (some merge.seen) with
  | error e =>
    rw [processed] at seen
    rw [← seen]
    rfl
  | ok e =>
    rw [processed] at seen
    obtain ⟨kept, is_kept⟩ := Option.isSome_iff_exists.mp (runWork_isSome seen.symm)
    rw [← seen]
    change e.seen = some kept at is_kept
    change Except.ok (some (e.seen.getD [])) = Except.ok e.seen
    rw [is_kept]
    rfl

theorem mergeUserMessages_seen (messages : List Requests.Message) (modelId : String)
    (seen : List String) : (mergeUserMessages env messages modelId seen).map (fun r => some r.2) =
      runWork env mapInput (some seen) (messages.flatMap fun msg => imageWork msg.content) := by
  have folded : (messages.foldlM (mergeUserMessage env) { seen := seen }).map
        (fun merge => some merge.seen) =
      messages.foldlM (fun seen msg => runWork env mapInput seen (imageWork msg.content))
        (some seen) := by
    refine map_foldlM (fun merge : UserMerge => some merge.seen) messages _ ?_
    intro merge msg _
    exact mergeUserMessage_seen env mapInput merge msg
  rw [runWork, foldlM_flatMap]
  unfold runWork at folded
  rw [← folded, mergeUserMessages]
  cases messages.foldlM (mergeUserMessage env) { seen := seen } <;> rfl

variable (mode : ToolCompatibilityMode) (seen : Option (List String))

theorem convertAssistantBlockBy_work (loop : AssistantLoop) (block : ContentBlock) :
    (convertAssistantBlockBy env mode mapInput loop block).map (fun _ => seen) =
      runWork env mapInput seen ((blockCalls block).map fun c => .call c.1 c.2) := by
  obtain ⟨type, text, thinking, toolUseId, content, name, input, id, _, _, _⟩ := block
  simp only [convertAssistantBlockBy, blockCalls]
  split
  · rfl
  · cases id with
    | none => rfl
    | some id =>
      cases name with
      | none => rfl
      | some name =>
        simp only [List.map_cons, List.map_nil, runWork, List.foldlM_cons, List.foldlM_nil, doWork]
        cases mapInput name (input.getD (.object [])) <;> rfl
  · rename_i no_text no_tool
    split
    · exact absurd rfl no_tool
    · rfl

theorem convertAssistantMessageBy_work (msg : Requests.Message) (map : ToolNameMap) :
    (convertAssistantMessageBy env mode mapInput msg map).map (fun _ => seen) =
      runWork env mapInput seen (callWork msg.content) := by
  have content : (convertAssistantContentBy env mode mapInput msg.content map).map
      (fun _ => seen) = runWork env mapInput seen (callWork msg.content) := by
    cases msg.content with
    | array items =>
      unfold runWork callWork
      rw [foldlM_flatMap]
      refine map_foldlM (fun _ : AssistantLoop => seen) (blocksOf items) _ ?_
      intro loop block _
      exact convertAssistantBlockBy_work env mapInput mode seen loop block
    | _ => rfl
  rw [← content, convertAssistantMessageBy]
  cases convertAssistantContentBy env mode mapInput msg.content map <;> rfl

theorem mergeAssistantMessagesBy_work {messages : List Requests.Message}
    (nonempty : messages ≠ []) (map : ToolNameMap) :
    (mergeAssistantMessagesBy env mode mapInput messages map).map (fun _ => seen) =
      runWork env mapInput seen (messages.flatMap fun msg => callWork msg.content) := by
  have folded : (messages.foldlM (mergeAssistantMessageBy env mode mapInput) { map := map }).map
        (fun _ => seen) =
      runWork env mapInput seen (messages.flatMap fun msg => callWork msg.content) := by
    unfold runWork
    rw [foldlM_flatMap]
    refine map_foldlM (fun _ : AssistantMerge => seen) messages _ ?_
    intro merge msg _
    have one := convertAssistantMessageBy_work env mapInput mode
      seen msg merge.map
    unfold runWork at one
    rw [← one, mergeAssistantMessageBy]
    cases convertAssistantMessageBy env mode mapInput msg merge.map <;> rfl
  match messages, nonempty with
  | [msg], _ =>
    rw [List.flatMap_singleton]
    exact convertAssistantMessageBy_work env mapInput mode seen msg map
  | msg :: other :: more, _ =>
    rw [← folded]
    simp only [mergeAssistantMessagesBy]
    cases (msg :: other :: more).foldlM (mergeAssistantMessageBy env mode mapInput)
      { map := map } <;> rfl

end

section

variable (env : Env) (mode : ToolCompatibilityMode) (mapInput : InputMap) (modelId : String)

def pending (loop : HistoryLoop) : List Work :=
  (loop.userBuffer ++ loop.assistantBuffer).flatMap workOf

/-- Only one of the buffers is in use, and each holds messages of its own role. -/
structure Buffers (loop : HistoryLoop) : Prop where
  users : ∀ m ∈ loop.userBuffer, m.role = "user"
  assistants : ∀ m ∈ loop.assistantBuffer, m.role = "assistant"
  one : loop.userBuffer = [] ∨ loop.assistantBuffer = []

variable {loop : HistoryLoop}

theorem flatMap_workOf_users {l : List Requests.Message} (users : ∀ m ∈ l, m.role = "user") :
    l.flatMap workOf = l.flatMap fun m => imageWork m.content := by
  refine List.flatMap_congr ?_
  intro m mem
  rw [workOf, if_pos (users m mem)]

theorem flatMap_workOf_assistants {l : List Requests.Message}
    (assistants : ∀ m ∈ l, m.role = "assistant") :
    l.flatMap workOf = l.flatMap fun m => callWork m.content := by
  refine List.flatMap_congr ?_
  intro m mem
  have role := assistants m mem
  rw [workOf, if_neg (by rw [role]; decide), if_pos role]

theorem flushAssistantBy_work (buffers : Buffers loop) (turn : loop.assistantBuffer ≠ []) :
    (∃ loop', flushAssistantBy env mode mapInput loop = .ok loop' ∧ loop'.userBuffer = [] ∧
      loop'.assistantBuffer = [] ∧
      runWork env mapInput (some loop.imageDedup) (pending loop) = .ok (some loop'.imageDedup)) ∨
    ∃ e, flushAssistantBy env mode mapInput loop = .error e ∧
      runWork env mapInput (some loop.imageDedup) (pending loop) = .error e := by
  have no_user : loop.userBuffer = [] := buffers.one.resolve_right turn
  have work := mergeAssistantMessagesBy_work env mapInput mode
    (some loop.imageDedup) turn loop.map
  rw [← flatMap_workOf_assistants buffers.assistants] at work
  have waiting : pending loop = loop.assistantBuffer.flatMap workOf := by
    rw [pending, no_user, List.nil_append]
  have not_empty : loop.assistantBuffer.isEmpty = false := by
    rw [List.isEmpty_eq_false_iff]
    exact turn
  rw [waiting, ← work, flushAssistantBy, not_empty]
  cases mergeAssistantMessagesBy env mode mapInput loop.assistantBuffer loop.map with
  | error e => exact .inr ⟨e, rfl, rfl⟩
  | ok r => exact .inl ⟨_, rfl, no_user, rfl, rfl⟩

theorem flushUser_work (buffers : Buffers loop) (turn : loop.userBuffer ≠ []) :
    (∃ loop', flushUser env modelId loop = .ok loop' ∧ loop'.userBuffer = [] ∧
      loop'.assistantBuffer = [] ∧
      runWork env mapInput (some loop.imageDedup) (pending loop) = .ok (some loop'.imageDedup)) ∨
    ∃ e, flushUser env modelId loop = .error e ∧
      runWork env mapInput (some loop.imageDedup) (pending loop) = .error e := by
  have no_assistant : loop.assistantBuffer = [] := buffers.one.resolve_left turn
  have work := mergeUserMessages_seen env mapInput loop.userBuffer modelId
    loop.imageDedup
  rw [← flatMap_workOf_users buffers.users] at work
  have waiting : pending loop = loop.userBuffer.flatMap workOf := by
    rw [pending, no_assistant, List.append_nil]
  have not_empty : loop.userBuffer.isEmpty = false := by
    rw [List.isEmpty_eq_false_iff]
    exact turn
  rw [waiting, ← work, flushUser, not_empty]
  cases mergeUserMessages env loop.userBuffer modelId loop.imageDedup with
  | error e => exact .inr ⟨e, rfl, rfl⟩
  | ok r => exact .inl ⟨_, rfl, rfl, no_assistant, rfl⟩

/-- One message of the loop: it fails where the work that waits fails, or goes on with the work of
the message still to do. -/
theorem historyStepBy_work (buffers : Buffers loop) (msg : Requests.Message) :
    (∃ loop', historyStepBy env mode mapInput modelId loop msg = .ok loop' ∧ Buffers loop' ∧
      ∀ rest, runWork env mapInput (some loop'.imageDedup) (pending loop' ++ rest) =
        runWork env mapInput (some loop.imageDedup) (pending loop ++ (workOf msg ++ rest))) ∨
    ∃ e, historyStepBy env mode mapInput modelId loop msg = .error e ∧
      runWork env mapInput (some loop.imageDedup) (pending loop) = .error e := by
  unfold historyStepBy
  by_cases user : msg.role = "user"
  · rw [if_pos user]
    by_cases idle : loop.assistantBuffer = []
    · have flushed : flushAssistantBy env mode mapInput loop = .ok loop := by
        rw [flushAssistantBy, idle]
        rfl
      refine .inl ⟨{ loop with userBuffer := loop.userBuffer ++ [msg] }, by rw [flushed]; rfl,
        ⟨?_, buffers.assistants, .inr idle⟩, ?_⟩
      · exact List.forall_mem_append.mpr ⟨buffers.users, List.forall_mem_singleton.mpr user⟩
      · intro rest
        simp [pending, idle]
    · rcases flushAssistantBy_work env mode mapInput buffers idle with
        ⟨loop', flushed, no_user, no_assistant, done⟩ | ⟨e, failed, work⟩
      · refine .inl ⟨{ loop' with userBuffer := loop'.userBuffer ++ [msg] }, by rw [flushed]; rfl,
          ⟨?_, ?_, .inr no_assistant⟩, ?_⟩
        · rw [no_user]
          exact List.forall_mem_singleton.mpr user
        · rw [no_assistant]
          exact fun _ none => absurd none List.not_mem_nil
        · intro rest
          rw [runWork_append (some loop.imageDedup), done, ok_bind]
          simp [pending, no_user, no_assistant]
      · exact .inr ⟨e, by rw [failed]; rfl, work⟩
  · rw [if_neg user]
    by_cases assistant : msg.role = "assistant"
    · rw [if_pos assistant]
      by_cases idle : loop.userBuffer = []
      · have flushed : flushUser env modelId loop = .ok loop := by
          rw [flushUser, idle]
          rfl
        refine .inl ⟨{ loop with assistantBuffer := loop.assistantBuffer ++ [msg] },
          by rw [flushed]; rfl, ⟨buffers.users, ?_, .inl idle⟩, ?_⟩
        · exact List.forall_mem_append.mpr
            ⟨buffers.assistants, List.forall_mem_singleton.mpr assistant⟩
        · intro rest
          simp [pending, idle]
      · rcases flushUser_work env mapInput modelId buffers idle with
          ⟨loop', flushed, no_user, no_assistant, done⟩ | ⟨e, failed, work⟩
        · refine .inl ⟨{ loop' with assistantBuffer := loop'.assistantBuffer ++ [msg] },
            by rw [flushed]; rfl, ⟨?_, ?_, .inl no_user⟩, ?_⟩
          · rw [no_user]
            exact fun _ none => absurd none List.not_mem_nil
          · rw [no_assistant]
            exact List.forall_mem_singleton.mpr assistant
          · intro rest
            rw [runWork_append (some loop.imageDedup), done, ok_bind]
            simp [pending, no_user, no_assistant]
        · exact .inr ⟨e, by rw [failed]; rfl, work⟩
    · rw [if_neg assistant]
      refine .inl ⟨loop, rfl, buffers, ?_⟩
      intro rest
      rw [workOf, if_neg user, if_neg assistant, List.nil_append]

theorem finish_work (buffers : Buffers loop) :
    (flushAssistantBy env mode mapInput loop >>= closeHistory env modelId).map (fun _ => ()) =
      (runWork env mapInput (some loop.imageDedup) (pending loop)).map (fun _ => ()) := by
  by_cases idle : loop.assistantBuffer = []
  · have flushed : flushAssistantBy env mode mapInput loop = .ok loop := by
      rw [flushAssistantBy, idle]
      rfl
    rw [flushed, ok_bind, closeHistory]
    by_cases no_user : loop.userBuffer = []
    · rw [pending, idle, no_user]
      rfl
    · have some_user : loop.userBuffer.isEmpty = false := by
        rw [List.isEmpty_eq_false_iff]
        exact no_user
      rw [some_user]
      rcases flushUser_work env mapInput modelId buffers no_user with
        ⟨loop', flushed, -, -, done⟩ | ⟨e, failed, work⟩
      · rw [flushed, done]
        rfl
      · rw [failed, work]
        rfl
  · rcases flushAssistantBy_work env mode mapInput buffers idle with
      ⟨loop', flushed, no_user, -, done⟩ | ⟨e, failed, work⟩
    · rw [flushed, done, ok_bind, closeHistory, no_user]
      rfl
    · rw [failed, work]
      rfl

theorem history_work (messages : List Requests.Message) (buffers : Buffers loop) :
    ((messages.foldlM (historyStepBy env mode mapInput modelId) loop >>=
        flushAssistantBy env mode mapInput) >>= closeHistory env modelId).map (fun _ => ()) =
      (runWork env mapInput (some loop.imageDedup)
        (pending loop ++ messages.flatMap workOf)).map (fun _ => ()) := by
  induction messages generalizing loop with
  | nil =>
    rw [List.flatMap_nil, List.append_nil]
    exact finish_work env mode mapInput modelId buffers
  | cons msg messages ih =>
    rw [List.foldlM_cons, List.flatMap_cons]
    rcases historyStepBy_work env mode mapInput modelId buffers msg with
      ⟨loop', stepped, buffers', work⟩ | ⟨e, failed, work⟩
    · rw [stepped, ok_bind, ← work]
      exact ih buffers'
    · rw [failed, runWork_append, work]
      rfl

theorem buildHistoryBy_work (req : MessagesRequest) (messages : List Requests.Message)
    (map : ToolNameMap) :
    (buildHistoryBy env mode mapInput req messages modelId map).map (fun _ => ()) =
      (runWork env mapInput (some []) (messages.dropLast.flatMap workOf)).map (fun _ => ()) := by
  have buffers : Buffers { history := systemMessages env req modelId, map := map } :=
    ⟨fun _ none => absurd none List.not_mem_nil, fun _ none => absurd none List.not_mem_nil,
      .inl rfl⟩
  have work := history_work env mode mapInput modelId messages.dropLast buffers
  have empty : pending { history := systemMessages env req modelId, map := map } = [] := rfl
  rw [empty, List.nil_append] at work
  rw [← work, buildHistoryBy]
  cases messages.dropLast.foldlM (historyStepBy env mode mapInput modelId)
      { history := systemMessages env req modelId, map := map } with
  | error e => rfl
  | ok loop =>
    simp only [ok_bind]
    cases flushAssistantBy env mode mapInput loop with
    | error e => rfl
    | ok loop =>
      simp only [ok_bind]
      cases closeHistory env modelId loop <;> rfl

end

/-- The computation stops with a panic. -/
def panics {α : Type} : Except Failure α → Bool
  | .error .panicked => true
  | _ => false

section

variable {α β : Type} {env : Env} {mode : ToolCompatibilityMode}

theorem panics_bind {x : Except Failure α} {f : α → Except Failure β}
    (quiet : panics x = false) :
    panics (x >>= f) = true ↔ ∃ a, x = .ok a ∧ panics (f a) = true := by
  cases x with
  | error e =>
    constructor
    · intro panicked
      change panics (.error e) = true at panicked
      cases e with
      | error e => cases panicked
      | panicked => cases quiet
    · rintro ⟨_, none, -⟩
      cases none
  | ok a =>
    rw [ok_bind]
    constructor
    · intro panicked
      exact ⟨a, rfl, panicked⟩
    · rintro ⟨_, same, panicked⟩
      cases same
      exact panicked

theorem not_panics_of_error {e : Failure} (f : α → Except Failure β)
    (quiet : panics (Except.error e : Except Failure α) = false) :
    ¬ panics (Except.error e >>= f) = true := by
  cases e with
  | error e =>
    intro panicked
    cases panicked
  | panicked => cases quiet

theorem panics_map {x : Except Failure α} (f : α → β) : panics (x.map f) = panics x := by
  cases x with
  | error e => cases e <;> rfl
  | ok a => rfl

theorem panics_wrappingInput (mode : ToolCompatibilityMode) (name : String) (input : Value) :
    panics (wrappingInput mode name input) = false := by
  unfold wrappingInput
  cases mapToolInputToKiro mode name input <;> rfl

/-- Some call of the work overflows, and everything before it goes through. -/
def Overflows (env : Env) (mode : ToolCompatibilityMode) (seen : Option (List String))
    (work : List Work) : Prop :=
  ∃ before name input after, work = before ++ .call name input :: after ∧
    (∃ r, runWork env (wrappingInput mode) seen before = .ok r) ∧
    (∃ mapped, wrappingInput mode name input = .ok mapped) ∧ windowFits mode name input = false

theorem doWork_image_panics (seen : Option (List String)) (mapInput : InputMap)
    (source : ImageSource) : panics (doWork env mapInput seen (.image source)) = false := by
  simp only [doWork]
  cases getImageFormat source.mediaType with
  | none => rfl
  | some format =>
    dsimp only
    split_ifs
    · rfl
    · unfold shrinkImage
      cases env.maybeShrinkImage format source.data <;> rfl

theorem overflows_cons {seen : Option (List String)} {w : Work} {work : List Work} :
    Overflows env mode seen (w :: work) ↔
      (∃ name input mapped, w = .call name input ∧ wrappingInput mode name input = .ok mapped ∧
        windowFits mode name input = false) ∨
      ∃ seen', doWork env (wrappingInput mode) seen w = .ok seen' ∧
        Overflows env mode seen' work := by
  constructor
  · rintro ⟨before, name, input, after, split, ⟨r, through⟩, ⟨mapped, accepted⟩, beyond⟩
    cases before with
    | nil =>
      cases split
      exact .inl ⟨name, input, mapped, rfl, accepted, beyond⟩
    | cons b before =>
      cases split
      rw [runWork, List.foldlM_cons] at through
      obtain ⟨seen', did, rest⟩ := bind_ok through
      exact .inr ⟨seen', did, before, name, input, after, rfl, ⟨r, rest⟩, ⟨mapped, accepted⟩, beyond⟩
  · rintro (⟨name, input, mapped, rfl, accepted, beyond⟩ |
      ⟨seen', did, before, name, input, after, rfl, ⟨r, through⟩, accepted, beyond⟩)
    · exact ⟨[], name, input, work, rfl, ⟨seen, rfl⟩, ⟨mapped, accepted⟩, beyond⟩
    · refine ⟨w :: before, name, input, after, rfl, ⟨r, ?_⟩, accepted, beyond⟩
      rw [runWork, List.foldlM_cons, did]
      exact through

/-- The checked work panics where a call that is reached overflows. -/
theorem runWork_panics_iff {seen : Option (List String)} {work : List Work} :
    panics (runWork env (checkedInput mode) seen work) = true ↔ Overflows env mode seen work := by
  induction work generalizing seen with
  | nil =>
    constructor
    · intro panicked
      cases panicked
    · rintro ⟨before, name, input, after, none, -⟩
      simp at none
  | cons w work ih =>
    rw [overflows_cons, runWork, List.foldlM_cons]
    cases w with
    | image source =>
      have same : doWork env (checkedInput mode) seen (.image source) =
          doWork env (wrappingInput mode) seen (.image source) := rfl
      rw [panics_bind (doWork_image_panics seen _ source), same]
      simp only [reduceCtorEq, false_and, exists_false, false_or]
      exact exists_congr fun seen' => and_congr_right fun _ => ih
    | call name input =>
      cases accepted : wrappingInput mode name input with
      | error e =>
        have quiet := panics_wrappingInput mode name input
        rw [accepted] at quiet
        have stopped : doWork env (checkedInput mode) seen (.call name input) = .error e := by
          simp only [doWork, checkedInput, accepted]
          rfl
        have refused : doWork env (wrappingInput mode) seen (.call name input) = .error e := by
          simp only [doWork, accepted]
          rfl
        rw [stopped, refused]
        simp only [reduceCtorEq, false_and, exists_false, or_false, Work.call.injEq]
        constructor
        · intro panicked
          cases e with
          | error e => cases panicked
          | panicked => cases quiet
        · rintro ⟨_, _, _, ⟨rfl, rfl⟩, impossible, -⟩
          rw [accepted] at impossible
          cases impossible
      | ok mapped =>
        have did : doWork env (wrappingInput mode) seen (.call name input) = .ok seen := by
          simp only [doWork, accepted]
          rfl
        rw [did]
        cases fits : windowFits mode name input with
        | false =>
          have panicked : doWork env (checkedInput mode) seen (.call name input) =
              .error .panicked := by
            simp only [doWork, checkedInput, accepted, fits]
            rfl
          rw [panicked]
          exact ⟨fun _ => .inl ⟨name, input, mapped, rfl, accepted, fits⟩, fun _ => rfl⟩
        | true =>
          have checked : doWork env (checkedInput mode) seen (.call name input) = .ok seen := by
            simp only [doWork, checkedInput, accepted, fits]
            rfl
          rw [checked, ok_bind]
          refine ih.trans ⟨fun beyond => .inr ⟨seen, rfl, beyond⟩, ?_⟩
          rintro (⟨_, _, _, same, -, beyond⟩ | ⟨_, same, beyond⟩)
          · cases same
            rw [fits] at beyond
            cases beyond
          · cases same
            exact beyond

end

def jsonSession (env : Env) (userId : String) : Option String :=
  (((env.jsonFromStr userId).bind (·.get "session_id")).bind Value.asStr).filter
    (isValidUuid ·.toList)

/-- A user id without a session in JSON form, but with at least 36 bytes behind `session_`, has a
character end at the last of them. -/
def SessionOnBoundary (env : Env) (req : MessagesRequest) : Prop :=
  ∀ userId, req.metadata.bind (·.userId) = some userId → jsonSession env userId = none →
    ∀ before rest, Search.splitFind "session_".toList userId.toList = some (before, rest) →
      36 ≤ (String.ofList (rest.drop 8)).utf8ByteSize →
        ∃ head tail, rest.drop 8 = head ++ tail ∧ byteLength head = 36

def CurrentAccepted (env : Env) (mode : ToolCompatibilityMode) (req : MessagesRequest) : Prop :=
  ∀ last ∈ (sentMessages req).getLast?,
    ∃ r, runWork env (wrappingInput mode) none (imageWork last.content) = .ok r

/-- The session is cut between characters, and no `Read` of the history that is reached
overflows. -/
structure Careful (env : Env) (mode : ToolCompatibilityMode) (req : MessagesRequest) : Prop where
  session : SessionOnBoundary env req
  windows : CurrentAccepted env mode req →
    ¬ Overflows env mode (some []) ((sentMessages req).dropLast.flatMap workOf)

section

variable {env : Env} {mode : ToolCompatibilityMode} {req : MessagesRequest}

theorem panics_sessionFromText {userId : String} : panics (sessionFromText userId) = true ↔
    ∃ before rest, Search.splitFind "session_".toList userId.toList = some (before, rest) ∧
      36 ≤ (String.ofList (rest.drop 8)).utf8ByteSize ∧
        ¬ ∃ head tail, rest.drop 8 = head ++ tail ∧ byteLength head = 36 := by
  unfold sessionFromText
  cases found : Search.splitFind "session_".toList userId.toList with
  | none =>
    simp only [panics, reduceCtorEq, false_and, exists_false]
  | some parts =>
    obtain ⟨before, rest⟩ := parts
    simp only [Option.some.injEq, Prod.mk.injEq]
    have only (P : List Char → List Char → Prop) :
        (∃ a b, (before = a ∧ rest = b) ∧ P a b) ↔ P before rest := by
      constructor
      · rintro ⟨_, _, ⟨rfl, rfl⟩, holds⟩
        exact holds
      · intro holds
        exact ⟨before, rest, ⟨rfl, rfl⟩, holds⟩
    rw [only fun _ rest => 36 ≤ (String.ofList (rest.drop 8)).utf8ByteSize ∧
      ¬ ∃ head tail, rest.drop 8 = head ++ tail ∧ byteLength head = 36]
    by_cases short : (String.ofList (rest.drop 8)).utf8ByteSize < 36
    · rw [if_pos short]
      constructor
      · intro panicked
        cases panicked
      · rintro ⟨long, -⟩
        omega
    · rw [if_neg short, ← splitAtByte_isSome]
      cases cut : splitAtByte (rest.drop 8) 36 with
      | none => simpa [panics] using Nat.le_of_not_lt short
      | some parts => simp [panics]

theorem panics_conversationIdOf :
    panics (conversationIdOf env req) = true ↔ ¬ SessionOnBoundary env req := by
  have boundary : ¬ SessionOnBoundary env req ↔ ∃ userId,
      req.metadata.bind (·.userId) = some userId ∧ jsonSession env userId = none ∧
        panics (sessionFromText userId) = true := by
    simp only [SessionOnBoundary, panics_sessionFromText, not_forall, exists_prop]
  rw [boundary]
  unfold conversationIdOf
  cases req.metadata.bind (·.userId) with
  | none =>
    simp only [panics, reduceCtorEq, false_and, exists_false]
  | some userId =>
    have single : (∃ id, some userId = some id ∧ jsonSession env id = none ∧
        panics (sessionFromText id) = true) ↔
        jsonSession env userId = none ∧ panics (sessionFromText userId) = true := by
      constructor
      · rintro ⟨_, same, holds⟩
        cases same
        exact holds
      · intro holds
        exact ⟨userId, rfl, holds⟩
    rw [single, panics_map, extractSessionId, jsonSession]
    cases ((env.jsonFromStr userId).bind (·.get "session_id")).bind Value.asStr with
    | none => simp
    | some sessionId =>
      by_cases valid : isValidUuid sessionId.toList = true
      · simp [valid, panics]
      · simp [valid]

theorem toolSchema_builtin {name kiroName : String}
    (known : claudeCodeToolNameToKiro name = some kiroName) :
    (kiroBuiltinToolSchema kiroName).isSome = true := by
  unfold claudeCodeToolNameToKiro at known
  split at known <;> cases known <;> rfl

/-- Tools are never refused. -/
theorem convertTools_ok (env : Env) (mode : ToolCompatibilityMode)
    (tools : Option (List Requests.Tool)) (map : ToolNameMap) :
    ∃ r, convertTools env mode tools map = .ok r := by
  have one (loop : ToolLoop) (t : Requests.Tool) : ∃ r, convertTool env mode loop t = .ok r := by
    unfold convertTool
    by_cases hidden : (isClaudeCodeMode mode && t.name == "fs_append") = true
    · exact ⟨loop, by rw [if_pos hidden]⟩
    · rw [if_neg hidden]
      dsimp only
      split_ifs
      · exact ⟨_, rfl⟩
      · have schema : ∃ v, toolSchema mode t (mapClientToolNameToKiro env mode t.name loop.map).1 =
            .ok v := by
          unfold toolSchema isBuiltin mapClientToolNameToKiro
          cases isClaudeCodeMode mode with
          | false => exact ⟨_, rfl⟩
          | true =>
            cases known : claudeCodeToolNameToKiro t.name with
            | none => exact ⟨_, rfl⟩
            | some kiroName =>
              obtain ⟨v, is⟩ := Option.isSome_iff_exists.mp (toolSchema_builtin known)
              refine ⟨v, ?_⟩
              simp [is]
        obtain ⟨v, schema⟩ := schema
        rw [toolSpecificationOf, schema]
        exact ⟨_, rfl⟩
  cases tools with
  | none => exact ⟨_, rfl⟩
  | some tools =>
    have folded : ∀ loop, ∃ r, tools.foldlM (convertTool env mode) loop = .ok r := by
      induction tools with
      | nil => exact fun loop => ⟨loop, rfl⟩
      | cons t tools ih =>
        intro loop
        obtain ⟨next, did⟩ := one loop t
        rw [List.foldlM_cons, did]
        exact ih next
    obtain ⟨r, did⟩ := folded { map := map }
    refine ⟨(r.out, r.map), ?_⟩
    rw [convertTools, did]
    rfl

theorem panics_requireModel (env : Env) (model : String) :
    panics (requireModel env model) = false := by
  unfold requireModel
  cases mapModel env model <;> rfl

theorem panics_trimPrefill (messages : List Requests.Message) :
    panics (trimPrefill messages) = false := by
  unfold trimPrefill
  split
  · rfl
  · split_ifs
    · rfl
    · split <;> rfl

theorem trimPrefill_eq (messages : List Requests.Message)
    (some_user : messages.rdropWhile (·.role ≠ "user") ≠ []) :
    trimPrefill messages = .ok (messages.rdropWhile (·.role ≠ "user")) := by
  unfold trimPrefill
  split
  · rename_i none
    rw [List.getLast?_eq_none_iff.mp none] at some_user
    exact absurd rfl some_user
  · rename_i last is_last
    have nonempty : messages ≠ [] := by
      intro empty
      rw [empty] at is_last
      cases is_last
    split_ifs with user
    · rw [← List.dropLast_append_getLast nonempty, List.rdropWhile_concat_neg]
      rw [List.getLast?_eq_some_getLast nonempty] at is_last
      cases is_last
      simpa using user
    · split
      · rename_i none
        exact absurd none some_user
      · rfl

theorem panics_processMessageContent (env : Env) (content : Value) :
    panics (processMessageContent env content) = false := by
  have seen := processMessageContentDedup_seen env (checkedInput .raw) content
    none
  rw [← Bool.not_eq_true, processMessageContent, ← panics_map (·.seen), seen, runWork_panics_iff]
  rintro ⟨before, name, input, after, split, -⟩
  have mem : Work.call name input ∈ imageWork content := by
    rw [split]
    exact List.mem_append_right _ List.mem_cons_self
  obtain ⟨block, -, in_block⟩ := List.mem_flatMap.mp mem
  obtain ⟨source, -, image⟩ := List.mem_map.mp in_block
  cases image

theorem currentAccepted_iff (env : Env) (mode : ToolCompatibilityMode) {last : Requests.Message}
    (is_last : (sentMessages req).getLast? = some last) : CurrentAccepted env mode req ↔
      ∃ r, processMessageContent env last.content = .ok r := by
  have seen := processMessageContentDedup_seen env (wrappingInput mode)
    last.content none
  unfold CurrentAccepted
  rw [is_last]
  simp only [Option.mem_def, Option.some.injEq, forall_eq', ← seen, processMessageContent]
  cases processMessageContentDedup env last.content none with
  | error e =>
    constructor
    · rintro ⟨_, impossible⟩
      cases impossible
    · rintro ⟨_, impossible⟩
      cases impossible
  | ok e => exact ⟨fun _ => ⟨e, rfl⟩, fun _ => ⟨e.seen, rfl⟩⟩

theorem panics_buildHistoryBy (modelId : String) (messages : List Requests.Message)
    (map : ToolNameMap) {β : Type} (f : List Message × ToolNameMap → Except Failure β)
    (total : ∀ r, ∃ b, f r = .ok b) :
    panics (buildHistoryBy env mode (checkedInput mode) req messages modelId map >>= f) = true ↔
      Overflows env mode (some []) (messages.dropLast.flatMap workOf) := by
  have work := buildHistoryBy_work env mode (checkedInput mode) modelId req messages map
  rw [← runWork_panics_iff, ← panics_map (fun _ => ()), ← panics_map (fun _ => ())
    (x := runWork env _ _ _), ← work]
  cases buildHistoryBy env mode (checkedInput mode) req messages modelId map with
  | error e => rfl
  | ok r =>
    obtain ⟨b, is⟩ := total r
    rw [ok_bind, is]
    rfl

theorem conversationIdOf_ok (quiet : panics (conversationIdOf env req) = false) :
    ∃ id, conversationIdOf env req = .ok id := by
  have session (userId : String) : sessionFromText userId = .error .panicked ∨
      ∃ id, sessionFromText userId = .ok id := by
    unfold sessionFromText
    cases Search.splitFind "session_".toList userId.toList with
    | none => exact .inr ⟨_, rfl⟩
    | some parts =>
      dsimp only
      split_ifs
      · exact .inr ⟨_, rfl⟩
      · cases splitAtByte (parts.2.drop 8) 36 with
        | none => exact .inl rfl
        | some cut => exact .inr ⟨_, rfl⟩
  have extracted (userId : String) : extractSessionId env userId = .error .panicked ∨
      ∃ id, extractSessionId env userId = .ok id := by
    unfold extractSessionId
    split
    · split_ifs
      · exact .inr ⟨_, rfl⟩
      · exact session userId
    · exact session userId
  cases given : req.metadata.bind (·.userId) with
  | none =>
    refine ⟨env.newV4 0, ?_⟩
    simp only [conversationIdOf, given]
  | some userId =>
    simp only [conversationIdOf, given] at quiet ⊢
    rcases extracted userId with panicked | ⟨id, found⟩
    · rw [panics_map, panicked] at quiet
      cases quiet
    · rw [found]
      exact ⟨_, rfl⟩

/-- A conversion panics where the session is cut inside a character or a sum overflows. -/
theorem convertRequestChecked_panics_iff : panics (convertRequestChecked env mode req) = true ↔
    (mapModel env req.model).isSome = true ∧ sentMessages req ≠ [] ∧ ¬ Careful env mode req := by
  unfold convertRequestChecked convertRequestBy
  cases model : requireModel env req.model with
  | error e =>
    have unknown : mapModel env req.model = none := by
      unfold requireModel at model
      cases known : mapModel env req.model with
      | none => rfl
      | some modelId =>
        rw [known] at model
        cases model
    have quiet := panics_requireModel env req.model
    rw [model] at quiet
    rw [unknown]
    exact ⟨fun panicked => absurd panicked (not_panics_of_error _ quiet),
      fun known => absurd known.1 (by simp)⟩
  | ok modelId =>
    have known : (mapModel env req.model).isSome = true := by
      unfold requireModel at model
      cases known : mapModel env req.model with
      | none =>
        rw [known] at model
        cases model
      | some modelId => rfl
    rw [ok_bind]
    by_cases none_sent : sentMessages req = []
    · have quiet := panics_trimPrefill req.messages
      cases trimmed : trimPrefill req.messages with
      | ok kept =>
        obtain ⟨rfl, some_sent⟩ := trimPrefill_ok trimmed
        exact absurd none_sent some_sent
      | error e =>
        rw [trimmed] at quiet
        exact ⟨fun panicked => absurd panicked (not_panics_of_error _ quiet),
          fun sent => absurd none_sent sent.2.1⟩
    · obtain ⟨last, is_last⟩ : ∃ last, (sentMessages req).getLast? = some last := by
        rw [List.getLast?_eq_some_getLast none_sent]
        exact ⟨_, rfl⟩
      have last_ok : lastOf (sentMessages req) = .ok last := by
        rw [lastOf, is_last]
      rw [trimPrefill_eq req.messages none_sent, ok_bind]
      cases quiet : panics (conversationIdOf env req) with
      | true =>
        have careless : ¬ Careful env mode req := fun careful =>
          (panics_conversationIdOf.mp quiet) careful.session
        have panicked : conversationIdOf env req = .error .panicked := by
          unfold panics at quiet
          split at quiet
          · assumption
          · cases quiet
        rw [panicked]
        exact ⟨fun _ => ⟨known, none_sent, careless⟩, fun _ => rfl⟩
      | false =>
        obtain ⟨id, identified⟩ := conversationIdOf_ok quiet
        have session : SessionOnBoundary env req := by
          by_contra careless
          rw [panics_conversationIdOf.mpr careless] at quiet
          cases quiet
        have current_quiet := panics_processMessageContent env last.content
        obtain ⟨⟨tools, map⟩, converted⟩ := convertTools_ok env mode req.tools []
        change panics (conversationIdOf env req >>= fun _ => lastOf (sentMessages req) >>= _) =
          true ↔ _
        rw [identified, ok_bind, last_ok, ok_bind]
        have accepted := currentAccepted_iff env mode is_last
        cases current : processMessageContent env last.content with
        | error e =>
          rw [current] at current_quiet
          have refused : ¬ CurrentAccepted env mode req := by
            rw [accepted, current]
            rintro ⟨_, impossible⟩
            cases impossible
          exact ⟨fun panicked => absurd panicked (not_panics_of_error _ current_quiet),
            fun careless => absurd ⟨session, fun through => absurd through refused⟩ careless.2.2⟩
        | ok e =>
          rw [ok_bind, converted, ok_bind]
          refine (panics_buildHistoryBy modelId _ _ _ fun r => ⟨_, rfl⟩).trans ?_
          constructor
          · intro beyond
            exact ⟨known, none_sent, fun careful =>
              careful.windows (accepted.mpr ⟨e, current⟩) beyond⟩
          · rintro ⟨-, -, careless⟩
            by_contra fits
            exact careless ⟨session, fun _ => fits⟩

/-- The conversion neither panics nor overflows exactly where no supported model is named, no
message is the user's, or the request is careful. -/
theorem conversion_panic_free_iff (env : Env) (mode : ToolCompatibilityMode)
    (req : MessagesRequest) : panics (convertRequestChecked env mode req) = false ↔
      ((mapModel env req.model).isSome = true → sentMessages req ≠ [] → Careful env mode req) := by
  rw [← Bool.not_eq_true, convertRequestChecked_panics_iff]
  simp only [not_and, not_not]

/-- A user id with 37 bytes behind `session_`, the last two of them one character. -/
def cutSession : MessagesRequest where
  model := "claude-sonnet-4.5"
  messages := [⟨"user", .string "hi"⟩]
  metadata := some ⟨some ("session_" ++ String.ofList (List.replicate 35 'a') ++ "é")⟩

/-- A `Read` of the history whose window starts at the last 64-bit line. -/
def lastLineRead : MessagesRequest where
  model := "claude-sonnet-4.5"
  messages := [⟨"user", .string "hi"⟩,
    ⟨"assistant", .array [.object [("id", .string "t1"),
      ("input", .object [("limit", .number (.posInt 2)),
        ("offset", .number (.posInt 9223372036854775807))]),
      ("name", .string "Read"), ("type", .string "tool_use")]]⟩,
    ⟨"user", .string "go on"⟩]

theorem conversion_panics :
    panics (convertRequestWithMode Env.sample .claudeCode cutSession) = true ∧
      panics (convertRequestChecked Env.sample .claudeCode cutSession) = true ∧
      panics (convertRequestChecked Env.sample .claudeCode lastLineRead) = true := by
  decide +kernel

end

end KiroRs.Converter.PanicFreedom
