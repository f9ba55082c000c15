/- Path: KiroRs/Converter/Pairing
   source: src/anthropic/converter.rs
   digest: The tool uses and tool results of a converted request are the repaired transcript of the
   client's messages, and when that transcript is paired up. -/

import KiroRs.Converter.Conversion
import KiroRs.Lib.Calls
import KiroRs.Lib.Results

set_option autoImplicit false
set_option relaxedAutoImplicit false

namespace KiroRs.Converter.Pairing

open KiroRs.Lib
open KiroRs.Lib.Calls
open KiroRs.Lib.Results
open KiroRs.Converter.Json
open KiroRs.Converter.Models
open KiroRs.Converter.ToolNames
open KiroRs.Converter.Messages
open KiroRs.Converter.Conversion
open KiroRs.Converter.Requests (ContentBlock MessagesRequest)
open KiroRs.Converter.Conversation

/-- The tool uses and tool results of a message of the history. -/
def sidesOf (m : Message) : List (Side String) :=
  (toolUsesOf m).map (fun toolUse => .call toolUse.toolUseId) ++
    (toolResultsOf m).map (fun result => .answer result.toolUseId)

/-- The tool uses and tool results of the history and then of the current message. -/
def transcript (st : ConversationState) : List (Side String) :=
  st.history.flatMap sidesOf ++
    (st.currentMessage.userInputMessageContext.toolResults.map (·.toolUseId)).map Side.answer

def resultId (block : ContentBlock) : Option String :=
  if block.blockType = "tool_result" then block.toolUseId else none

def useId (block : ContentBlock) : Option String :=
  if block.blockType = "tool_use" then block.name.bind fun _ => block.id else none

def resultIds (content : Value) : List String := (contentBlocks content).filterMap resultId

def useIds (content : Value) : List String := (contentBlocks content).filterMap useId

/-- The tool results of a message of the user, or the tool uses of one of the assistant. -/
def clientSides (m : Requests.Message) : List (Side String) :=
  if m.role = "user" then (resultIds m.content).map Side.answer
  else if m.role = "assistant" then (useIds m.content).map Side.call
  else []

def clientTranscript (req : MessagesRequest) : List (Side String) :=
  (sentMessages req).dropLast.flatMap clientSides

def currentResults (req : MessagesRequest) : List String :=
  (sentMessages req).getLast?.elim [] fun m => resultIds m.content

/-- In the messages before the current one no tool result comes twice and each stands behind its
tool use; and no tool use that has a result, there or in the current message, comes twice. -/
structure PairedByClient (req : MessagesRequest) : Prop where
  results_distinct : (answers (clientTranscript req)).Nodup
  results_follow : AnswersFollow (clientTranscript req)
  answered_uses_distinct : ((calls (clientTranscript req)).filter fun id =>
    id ∈ answers (clientTranscript req) ∨ id ∈ currentResults req).Nodup

variable {env : Env} {mode : ToolCompatibilityMode}

private theorem extractKiroImage_toolResults {source : Requests.ImageSource}
    {acc : Extraction} {r : Option String × Extraction}
    (ok : extractKiroImage env source acc = .ok r) : r.2.toolResults = acc.toolResults := by
  unfold extractKiroImage at ok
  split at ok
  · cases ok
    rfl
  · dsimp only at ok
    split at ok
    · cases ok
      rfl
    · obtain ⟨image, -, rest⟩ := bind_ok ok
      cases rest
      rfl

private theorem extractResultItem_toolResults {loop loop' : ResultParts} {item : Value}
    (ok : extractResultItem env loop item = .ok loop') :
    loop'.acc.toolResults = loop.acc.toolResults := by
  unfold extractResultItem at ok
  split at ok
  · cases ok
    rfl
  · split at ok
    · cases ok
      rfl
    · obtain ⟨r, extracted, rest⟩ := bind_ok ok
      cases rest
      exact extractKiroImage_toolResults extracted

private theorem extractToolResultContent_toolResults {content : Option Value} {acc : Extraction}
    {r : String × Extraction} (ok : extractToolResultContent env content acc = .ok r) :
    r.2.toolResults = acc.toolResults := by
  unfold extractToolResultContent at ok
  split at ok
  · cases ok
    rfl
  · obtain ⟨loop, folded, rest⟩ := bind_ok ok
    cases rest
    exact foldlM_keeps (fun loop : ResultParts => loop.acc.toolResults)
      (fun _ _ _ => extractResultItem_toolResults) folded
  · cases ok
    rfl
  · cases ok
    rfl

@[simp] theorem toolUseId_toolResultOf (isError : Bool) (id content : String) :
    (toolResultOf isError id content).toolUseId = id := by
  cases isError
  · rfl
  · rfl

private theorem processBlock_resultIds (acc : Extraction) (block : ContentBlock) (acc' : Extraction)
    (ok : processBlock env acc block = .ok acc') :
    acc'.toolResults.map (·.toolUseId) =
      acc.toolResults.map (·.toolUseId) ++ (resultId block).toList := by
  unfold processBlock at ok
  split at ok
  · rename_i type
    cases ok
    simp [resultId, type]
  · rename_i type
    split at ok
    · cases ok
      simp [resultId, type]
    · obtain ⟨r, extracted, rest⟩ := bind_ok ok
      cases rest
      simp [resultId, type, extractKiroImage_toolResults extracted]
  · rename_i type
    split at ok
    · rename_i missing
      cases ok
      simp [resultId, type, missing]
    · rename_i id present
      obtain ⟨r, extracted, rest⟩ := bind_ok ok
      cases rest
      simp [resultId, type, present, extractToolResultContent_toolResults extracted]
  · rename_i text image result
    cases ok
    rw [resultId, if_neg result]
    simp

theorem processMessageContentDedup_resultIds {content : Value} {seen : Option (List String)}
    {e : Extraction} (ok : processMessageContentDedup env content seen = .ok e) :
    e.toolResults.map (·.toolUseId) = resultIds content := by
  cases content with
  | array items =>
    have appended := foldlM_appends (fun e : Extraction => e.toolResults.map (·.toolUseId))
      (fun block => (resultId block).toList) processBlock_resultIds ok
    rw [appended]
    simp [resultIds, contentBlocks, List.filterMap_eq_flatMap_toList]
  | null | bool | number | string | object =>
    cases ok
    rfl

private theorem mergeUserMessage_resultIds (merge : UserMerge) (msg : Requests.Message)
    (merge' : UserMerge) (ok : mergeUserMessage env merge msg = .ok merge') :
    merge'.toolResults.map (·.toolUseId) =
      merge.toolResults.map (·.toolUseId) ++ resultIds msg.content := by
  obtain ⟨e, extracted, rest⟩ := bind_ok ok
  cases rest
  simp [processMessageContentDedup_resultIds extracted]

theorem sidesOf_mergeUserMessages {messages : List Requests.Message} {modelId : String}
    {seen : List String} {r : UserMessage × List String}
    (users : ∀ m ∈ messages, m.role = "user")
    (ok : mergeUserMessages env messages modelId seen = .ok r) :
    sidesOf (.user r.1) = messages.flatMap clientSides := by
  obtain ⟨merge, folded, rest⟩ := bind_ok ok
  cases rest
  have ids := foldlM_appends (fun merge : UserMerge => merge.toolResults.map (·.toolUseId))
    (fun msg => resultIds msg.content) mergeUserMessage_resultIds folded
  simp only [List.map_nil, List.nil_append] at ids
  have sides : merge.toolResults.map (fun result => Side.answer result.toolUseId) =
      (messages.flatMap fun msg => resultIds msg.content).map Side.answer := by
    rw [← ids, List.map_map]
    rfl
  simp only [sidesOf, toolUsesOf, toolResultsOf, List.map_nil, List.nil_append, sides]
  rw [List.map_flatMap]
  refine List.flatMap_congr fun msg mem => ?_
  rw [clientSides, if_pos (users msg mem)]

@[simp] theorem toolUses_withToolUses (m : AssistantMessage) (toolUses : List ToolUseEntry)
    (none_yet : m.toolUses = none) : (m.withToolUses toolUses).toolUses.getD [] = toolUses := by
  unfold AssistantMessage.withToolUses
  split_ifs with empty
  · rw [none_yet, List.isEmpty_iff.mp empty]
    rfl
  · rfl

private theorem convertAssistantBlock_useIds (loop : AssistantLoop) (block : ContentBlock)
    (loop' : AssistantLoop) (ok : convertAssistantBlock env mode loop block = .ok loop') :
    loop'.toolUses.map (·.toolUseId) =
      loop.toolUses.map (·.toolUseId) ++ (useId block).toList := by
  unfold convertAssistantBlock at ok
  split at ok
  · rename_i type
    cases ok
    simp [useId, type]
  · rename_i type
    split at ok
    · rename_i id name has_id has_name
      dsimp only at ok
      split at ok
      · cases ok
        simp [useId, type, has_id, has_name]
      · cases ok
    · rename_i incomplete
      cases ok
      cases has_id : block.id with
      | none => simp [useId, type, has_id]
      | some id =>
        cases has_name : block.name with
        | none => simp [useId, type, has_name]
        | some name => exact absurd has_name (incomplete id name has_id)
  · rename_i text use
    cases ok
    rw [useId, if_neg use]
    simp

theorem convertAssistantMessage_useIds {msg : Requests.Message} {map : ToolNameMap}
    {r : AssistantMessage × ToolNameMap}
    (ok : convertAssistantMessage env mode msg map = .ok r) :
    (r.1.toolUses.getD []).map (·.toolUseId) = useIds msg.content := by
  obtain ⟨loop, folded, rest⟩ := bind_ok ok
  cases rest
  rw [toolUses_withToolUses _ _ rfl]
  cases content : msg.content with
  | array items =>
    rw [content] at folded
    dsimp only [convertAssistantContent] at folded
    have ids := foldlM_appends (fun loop : AssistantLoop => loop.toolUses.map (·.toolUseId))
      (fun block => (useId block).toList) convertAssistantBlock_useIds folded
    rw [ids]
    simp [useIds, contentBlocks, List.filterMap_eq_flatMap_toList]
  | null | bool | number | string | object =>
    rw [content] at folded
    cases folded
    rfl

private theorem mergeAssistantMessage_useIds (merge : AssistantMerge) (msg : Requests.Message)
    (merge' : AssistantMerge) (ok : mergeAssistantMessage env mode merge msg = .ok merge') :
    merge'.toolUses.map (·.toolUseId) =
      merge.toolUses.map (·.toolUseId) ++ useIds msg.content := by
  obtain ⟨r, converted, -, uses, -⟩ := mergeAssistantMessage_ok ok
  rw [uses, List.map_append, convertAssistantMessage_useIds converted]

theorem mergeAssistantMessages_useIds {messages : List Requests.Message} {map : ToolNameMap}
    {r : AssistantMessage × ToolNameMap}
    (ok : mergeAssistantMessages env mode messages map = .ok r) :
    (r.1.toolUses.getD []).map (·.toolUseId) = messages.flatMap fun m => useIds m.content := by
  unfold mergeAssistantMessages at ok
  split at ok
  · cases ok
  · simpa using convertAssistantMessage_useIds ok
  · obtain ⟨merge, folded, rest⟩ := bind_ok ok
    cases rest
    rw [toolUses_withToolUses _ _ rfl]
    simpa using foldlM_appends (fun merge : AssistantMerge => merge.toolUses.map (·.toolUseId))
      (fun msg => useIds msg.content) mergeAssistantMessage_useIds folded

theorem sidesOf_mergeAssistantMessages {messages : List Requests.Message} {map : ToolNameMap}
    {r : AssistantMessage × ToolNameMap}
    (assistants : ∀ m ∈ messages, m.role = "assistant")
    (ok : mergeAssistantMessages env mode messages map = .ok r) :
    sidesOf (.assistant r.1) = messages.flatMap clientSides := by
  have sides : (r.1.toolUses.getD []).map (fun toolUse => Side.call toolUse.toolUseId) =
      (messages.flatMap fun msg => useIds msg.content).map Side.call := by
    rw [← mergeAssistantMessages_useIds ok, List.map_map]
    rfl
  simp only [sidesOf, toolUsesOf, toolResultsOf, List.map_nil, List.append_nil, sides]
  rw [List.map_flatMap]
  refine List.flatMap_congr fun msg mem => ?_
  simp [clientSides, assistants msg mem]

private theorem sidesOf_systemMessages (req : MessagesRequest) (modelId : String) :
    (systemMessages env req modelId).flatMap sidesOf = [] := by
  have pair : ∀ content, (systemPair env content modelId).flatMap sidesOf = [] := fun _ => rfl
  unfold systemMessages
  cases req.system with
  | none =>
    dsimp only
    split
    · exact pair _
    · rfl
  | some system =>
    dsimp only
    split
    · rfl
    · split
      · split
        · exact pair _
        · exact pair _
      · exact pair _

/-- The transcript of what the loop has taken in: its history and then its buffers. -/
private def loopSides (loop : HistoryLoop) : List (Side String) :=
  loop.history.flatMap sidesOf ++ (loop.userBuffer ++ loop.assistantBuffer).flatMap clientSides

/-- At most one buffer is in use, each with messages of its role. -/
private structure Buffered (loop : HistoryLoop) : Prop where
  one_buffer : loop.userBuffer = [] ∨ loop.assistantBuffer = []
  users : ∀ m ∈ loop.userBuffer, m.role = "user"
  assistants : ∀ m ∈ loop.assistantBuffer, m.role = "assistant"

private theorem flushAssistant_spec {loop loop' : HistoryLoop} (buffered : Buffered loop)
    (ok : flushAssistant env mode loop = .ok loop') :
    loopSides loop' = loopSides loop ∧ Buffered loop' ∧ loop'.assistantBuffer = [] ∧
      loop'.userBuffer = loop.userBuffer := by
  unfold flushAssistant at ok
  split_ifs at ok with empty
  · cases ok
    exact ⟨rfl, buffered, List.isEmpty_iff.mp empty, rfl⟩
  · obtain ⟨r, merged, rest⟩ := bind_ok ok
    cases rest
    have no_users : loop.userBuffer = [] :=
      buffered.one_buffer.resolve_right fun none => empty (by rw [none]; rfl)
    refine ⟨?_, ⟨.inr rfl, buffered.users, by simp⟩, rfl, rfl⟩
    simp [loopSides, no_users, sidesOf_mergeAssistantMessages buffered.assistants merged]

private theorem flushUser_spec {modelId : String} {loop loop' : HistoryLoop}
    (buffered : Buffered loop) (ok : flushUser env modelId loop = .ok loop') :
    loopSides loop' = loopSides loop ∧ Buffered loop' ∧ loop'.userBuffer = [] ∧
      loop'.assistantBuffer = loop.assistantBuffer := by
  unfold flushUser at ok
  split_ifs at ok with empty
  · cases ok
    exact ⟨rfl, buffered, List.isEmpty_iff.mp empty, rfl⟩
  · obtain ⟨r, merged, rest⟩ := bind_ok ok
    cases rest
    have no_assistants : loop.assistantBuffer = [] :=
      buffered.one_buffer.resolve_left fun none => empty (by rw [none]; rfl)
    refine ⟨?_, ⟨.inl rfl, by simp, buffered.assistants⟩, rfl, rfl⟩
    simp [loopSides, no_assistants, sidesOf_mergeUserMessages buffered.users merged]

private theorem historyStep_spec {modelId : String} {loop loop' : HistoryLoop}
    {msg : Requests.Message} (buffered : Buffered loop)
    (ok : historyStep env mode modelId loop msg = .ok loop') :
    loopSides loop' = loopSides loop ++ clientSides msg ∧ Buffered loop' := by
  unfold historyStep at ok
  split_ifs at ok with user assistant
  · obtain ⟨flushed, done, rest⟩ := bind_ok ok
    cases rest
    obtain ⟨sides, buffered, empty, -⟩ := flushAssistant_spec buffered done
    constructor
    · rw [← sides]
      simp [loopSides, empty]
    · refine ⟨.inr empty, ?_, buffered.assistants⟩
      intro m mem
      rcases List.mem_append.mp mem with old | new
      · exact buffered.users m old
      · rw [List.mem_singleton.mp new]
        exact user
  · obtain ⟨flushed, done, rest⟩ := bind_ok ok
    cases rest
    obtain ⟨sides, buffered, empty, -⟩ := flushUser_spec buffered done
    constructor
    · rw [← sides]
      simp [loopSides, empty]
    · refine ⟨.inl empty, buffered.users, ?_⟩
      intro m mem
      rcases List.mem_append.mp mem with old | new
      · exact buffered.assistants m old
      · rw [List.mem_singleton.mp new]
        exact assistant
  · cases ok
    refine ⟨?_, buffered⟩
    rw [clientSides, if_neg user, if_neg assistant, List.append_nil]

/-- The history carries the tool uses and results of the client's messages before the current one,
in their order. -/
theorem sidesOf_buildHistory {req : MessagesRequest} {messages : List Requests.Message}
    {modelId : String} {map : ToolNameMap} {r : List Message × ToolNameMap}
    (ok : buildHistory env mode req messages modelId map = .ok r) :
    r.1.flatMap sidesOf = messages.dropLast.flatMap clientSides := by
  obtain ⟨loop, folded, rest⟩ := bind_ok ok
  obtain ⟨flushed, flush, rest⟩ := bind_ok rest
  obtain ⟨closed, close, rest⟩ := bind_ok rest
  cases rest
  have looped := foldlM_invariant
    (fun done loop => loopSides loop = done.flatMap clientSides ∧ Buffered loop)
    (by
      refine ⟨?_, .inl rfl, by simp, by simp⟩
      simp [loopSides, sidesOf_systemMessages])
    (by
      intro done msg loop loop' held stepped
      have spec := historyStep_spec held.2 stepped
      refine ⟨?_, spec.2⟩
      rw [spec.1, held.1]
      simp)
    folded
  obtain ⟨sides, buffered, no_assistants, -⟩ := flushAssistant_spec looped.2 flush
  rw [looped.1] at sides
  unfold closeHistory at close
  split_ifs at close with empty
  · cases close
    simpa [loopSides, no_assistants, List.isEmpty_iff.mp empty] using sides
  · obtain ⟨last, flush, rest⟩ := bind_ok close
    cases rest
    obtain ⟨last_sides, -, no_users, same⟩ := flushUser_spec buffered flush
    rw [sides] at last_sides
    simp only [loopSides, no_users, same, no_assistants, List.append_nil, List.flatMap_nil]
      at last_sides
    rw [List.flatMap_append, last_sides]
    exact List.append_nil _

theorem calls_sidesOf (history : List Message) :
    calls (history.flatMap sidesOf) = (history.flatMap toolUsesOf).map (·.toolUseId) := by
  induction history with
  | nil => rfl
  | cons m history ih =>
    cases m with
    | user m =>
      simp only [List.flatMap_cons, calls_append, List.map_append, ih]
      have none : calls (sidesOf (.user m)) = [] := by
        have sides : sidesOf (.user m) =
            (m.userInputMessageContext.toolResults.map (·.toolUseId)).map Side.answer := by
          simp [sidesOf, toolUsesOf, toolResultsOf]
        rw [sides, calls_map_answer]
      rw [none]
      rfl
    | assistant m =>
      simp only [List.flatMap_cons, calls_append, List.map_append, ih]
      congr 1
      simp only [sidesOf, toolResultsOf, List.map_nil, List.append_nil]
      induction toolUsesOf (.assistant m) with
      | nil => rfl
      | cons toolUse rest ih => simpa using ih

theorem answers_sidesOf (history : List Message) :
    answers (history.flatMap sidesOf) = (history.flatMap toolResultsOf).map (·.toolUseId) := by
  induction history with
  | nil => rfl
  | cons m history ih =>
    cases m with
    | user m =>
      simp only [List.flatMap_cons, answers_append, List.map_append, ih]
      have sides : sidesOf (.user m) =
          (m.userInputMessageContext.toolResults.map (·.toolUseId)).map Side.answer := by
        simp [sidesOf, toolUsesOf, toolResultsOf]
      rw [sides, answers_map_answer]
      rfl
    | assistant m =>
      simp only [List.flatMap_cons, answers_append, List.map_append, ih]
      have none : answers (sidesOf (.assistant m)) = [] := by
        simp only [sidesOf, toolResultsOf, List.map_nil, List.append_nil]
        induction toolUsesOf (.assistant m) with
        | nil => rfl
        | cons toolUse rest ih => simpa using ih
      rw [none]
      rfl

private theorem foldl_pairResult (results : List ToolResult) (loop : PairingLoop) :
    (results.foldl pairResult loop).filtered.map (·.toolUseId) =
        loop.filtered.map (·.toolUseId) ++
          (acceptLate loop.unpaired (results.map (·.toolUseId))).1 ∧
      (results.foldl pairResult loop).unpaired =
        (acceptLate loop.unpaired (results.map (·.toolUseId))).2 := by
  induction results generalizing loop with
  | nil => simp [acceptLate]
  | cons result results ih =>
    rw [List.foldl_cons, List.map_cons, acceptLate]
    by_cases mem : result.toolUseId ∈ loop.unpaired
    · have step : pairResult loop result =
          { unpaired := loop.unpaired.filter (· ≠ result.toolUseId),
            filtered := loop.filtered ++ [result] } := if_pos (by simpa using mem)
      obtain ⟨filtered, unpaired⟩ := ih (pairResult loop result)
      rw [filtered, unpaired, step, if_pos mem]
      simp
    · have step : pairResult loop result = loop := if_neg (by simpa using mem)
      rw [step, if_neg mem]
      exact ih loop

theorem validateToolPairing_spec (history : List Message) (results : List ToolResult) :
    (validateToolPairing history results).1.map (·.toolUseId) =
        (acceptLate (unanswered (history.flatMap sidesOf)) (results.map (·.toolUseId))).1 ∧
      (validateToolPairing history results).2 =
        (acceptLate (unanswered (history.flatMap sidesOf)) (results.map (·.toolUseId))).2 := by
  have start : unanswered (history.flatMap sidesOf) =
      ((history.flatMap toolUsesOf).map (·.toolUseId)).filter fun id =>
        !((history.flatMap toolResultsOf).map (·.toolUseId)).contains id := by
    rw [unanswered, calls_sidesOf, answers_sidesOf]
    refine List.filter_congr fun id _ => ?_
    simp
  rw [start]
  exact foldl_pairResult results { unpaired := _ }

private theorem sidesOf_removeOrphans (ids : List String) (m : Message) :
    sidesOf (removeOrphans ids m) = dropCalls ids (sidesOf m) := by
  have dropped : ∀ toolUses : List ToolUseEntry,
      (toolUses.filter fun tu => !ids.contains tu.toolUseId).map
          (fun toolUse => Side.call toolUse.toolUseId) =
        dropCalls ids (toolUses.map fun toolUse => Side.call toolUse.toolUseId) := by
    intro toolUses
    induction toolUses with
    | nil => rfl
    | cons toolUse rest ih =>
      rw [List.map_cons, dropCalls_cons_call, ← ih]
      by_cases mem : toolUse.toolUseId ∈ ids
      · simp [mem]
      · simp [mem]
  cases m with
  | user m =>
    have sides : ∀ results : List ToolResult,
        dropCalls ids (results.map fun result => Side.answer result.toolUseId) =
          results.map fun result => Side.answer result.toolUseId := by
      intro results
      induction results with
      | nil => rfl
      | cons result rest ih => rw [List.map_cons, dropCalls_cons_answer, ih]
    simp [removeOrphans, sidesOf, toolUsesOf, toolResultsOf, sides]
  | assistant m =>
    simp only [sidesOf, toolResultsOf, removeOrphans]
    cases present : m.toolUses with
    | none =>
      simp [toolUsesOf, present]
      rfl
    | some toolUses =>
      simp only [toolUsesOf, present, Option.getD_some, List.map_nil, List.append_nil]
      rw [← dropped]
      split_ifs with empty
      · rw [List.isEmpty_iff.mp empty]
        rfl
      · simp

theorem sidesOf_removeOrphanedToolUses (history : List Message) (ids : List String) :
    (removeOrphanedToolUses history ids).flatMap sidesOf =
      dropCalls ids (history.flatMap sidesOf) := by
  unfold removeOrphanedToolUses
  split_ifs with empty
  · rw [List.isEmpty_iff.mp empty]
    unfold dropCalls
    rw [List.filter_eq_self.mpr]
    intro side _
    cases side with
    | call id => simp [Side.called]
    | answer id => rfl
  · induction history with
    | nil => rfl
    | cons m history ih =>
      rw [List.map_cons, List.flatMap_cons, ih, sidesOf_removeOrphans]
      simp [dropCalls]

theorem currentResults_of_ok {req : MessagesRequest} {messages : List Requests.Message}
    {lastMessage : Requests.Message} {current : Extraction}
    (trimmed : trimPrefill req.messages = .ok messages) (is_last : lastOf messages = .ok lastMessage)
    (processed : processMessageContent env lastMessage.content = .ok current) :
    current.toolResults.map (·.toolUseId) = currentResults req := by
  rw [processMessageContentDedup_resultIds processed, currentResults, sentMessages,
    ← (trimPrefill_ok trimmed).1]
  unfold lastOf at is_last
  split at is_last
  · rename_i m eq
    cases is_last
    rw [eq]
    rfl
  · cases is_last

theorem transcript_eq {req : MessagesRequest} {result : ConversionResult}
    (ok : convertRequestWithMode env mode req = .ok result) :
    transcript result.conversationState = repaired (clientTranscript req) (currentResults req) := by
  obtain ⟨modelId, -, rest⟩ := bind_ok ok
  obtain ⟨messages, trimmed, rest⟩ := bind_ok rest
  obtain ⟨conversationId, -, rest⟩ := bind_ok rest
  obtain ⟨lastMessage, is_last, rest⟩ := bind_ok rest
  obtain ⟨current, processed, rest⟩ := bind_ok rest
  obtain ⟨converted, -, rest⟩ := bind_ok rest
  obtain ⟨built, build, rest⟩ := bind_ok rest
  cases rest
  obtain ⟨sent, -⟩ := trimPrefill_ok trimmed
  have late := currentResults_of_ok trimmed is_last processed
  have before : built.1.flatMap sidesOf = clientTranscript req := by
    rw [sidesOf_buildHistory build, clientTranscript, sentMessages, sent]
  obtain ⟨taken, orphans⟩ := validateToolPairing_spec built.1 current.toolResults
  rw [late, before] at taken orphans
  change (removeOrphanedToolUses built.1
      (validateToolPairing built.1 current.toolResults).2).flatMap sidesOf ++
    ((validateToolPairing built.1 current.toolResults).1.map (·.toolUseId)).map Side.answer = _
  rw [sidesOf_removeOrphanedToolUses, orphans, taken, before]
  rfl

/-- The tool uses and results of a converted request are paired up exactly when the client paired
its own: the repair reaches the results of the current message and the unanswered tool uses, but not
the results of the history. -/
theorem paired_iff_pairedByClient (env : Env) (mode : ToolCompatibilityMode)
    (req : MessagesRequest) (result : ConversionResult)
    (ok : convertRequestWithMode env mode req = .ok result) :
    Paired (transcript result.conversationState) ↔ PairedByClient req := by
  rw [transcript_eq ok, paired_repaired_iff]
  constructor
  · rintro ⟨distinct, follow, uses⟩
    exact ⟨distinct, follow, uses⟩
  · rintro ⟨distinct, follow, uses⟩
    exact ⟨distinct, follow, uses⟩

private def toolUseBlock (id : String) : Value :=
  .obj [("type", .string "tool_use"), ("id", .string id), ("name", .string "lookup"),
    ("input", .obj [])]

private def toolResultBlock (id : String) : Value :=
  .obj [("type", .string "tool_result"), ("tool_use_id", .string id), ("content", .string "found")]

/-- A finished tool call with the given results, and a new question. -/
private def exchange (results : List String) : MessagesRequest where
  model := "claude-sonnet-4-5"
  messages := [
    ⟨"user", .string "look it up"⟩,
    ⟨"assistant", .array [toolUseBlock "toolu_1"]⟩,
    ⟨"user", .array (results.map toolResultBlock)⟩,
    ⟨"assistant", .string "done"⟩,
    ⟨"user", .string "thanks"⟩]

private def converted (results : List String) : Option (List (Side String)) :=
  (convertRequestWithMode Env.sample .claudeCode (exchange results)).toOption.map fun result =>
    transcript result.conversationState

private theorem exists_result {results : List String} {l : List (Side String)}
    (run : converted results = some l) : ∃ result,
      convertRequestWithMode Env.sample .claudeCode (exchange results) = .ok result ∧
        transcript result.conversationState = l := by
  unfold converted at run
  cases ran : convertRequestWithMode Env.sample .claudeCode (exchange results) with
  | error e =>
    rw [ran] at run
    cases run
  | ok result =>
    rw [ran] at run
    cases run
    exact ⟨result, rfl, rfl⟩

/-- A result that the client's history holds twice stays there twice. -/
theorem duplicate_result_stays :
    ¬ ∀ (env : Env) (mode : ToolCompatibilityMode) (req : MessagesRequest)
      (result : ConversionResult), convertRequestWithMode env mode req = .ok result →
        Paired (transcript result.conversationState) := by
  intro claim
  have run : converted ["toolu_1", "toolu_1"] =
      some [.call "toolu_1", .answer "toolu_1", .answer "toolu_1"] := by decide +kernel
  obtain ⟨result, ok, eq⟩ := exists_result run
  have paired := claim _ _ _ result ok
  rw [eq] at paired
  exact absurd (paired.answered_once "toolu_1" (by decide)) (by decide)

theorem paired_iff_pairedByClient_lookup : ∃ result,
    convertRequestWithMode Env.sample .claudeCode (exchange ["toolu_1"]) = .ok result ∧
      PairedByClient (exchange ["toolu_1"]) := by
  have run : converted ["toolu_1"] = some [.call "toolu_1", .answer "toolu_1"] := by decide +kernel
  obtain ⟨result, ok, eq⟩ := exists_result run
  refine ⟨result, ok, (paired_iff_pairedByClient _ _ _ result ok).mp ?_⟩
  rw [eq]
  refine ⟨by decide, by decide, ?_⟩
  rw [answersFollow_iff]
  simp [FollowFrom]

end KiroRs.Converter.Pairing
