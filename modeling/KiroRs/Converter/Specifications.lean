/- Path: KiroRs/Converter/Specifications
   source: src/anthropic/converter.rs
   digest: The tool uses that stay in the history of a converted request, and when each of them has
   one specification among the tools of the current message. -/

import KiroRs.Converter.Pairing

set_option autoImplicit false
set_option relaxedAutoImplicit false

namespace KiroRs.Converter.Specifications

open KiroRs.Lib
open KiroRs.Lib.Calls
open KiroRs.Lib.Results
open KiroRs.Converter.Json
open KiroRs.Converter.Models
open KiroRs.Converter.ToolNames
open KiroRs.Converter.Tools
open KiroRs.Converter.Messages
open KiroRs.Converter.Conversion
open KiroRs.Converter.Pairing
open KiroRs.Converter.Requests (ContentBlock MessagesRequest)
open KiroRs.Converter.Conversation

def useOf (env : Env) (mode : ToolCompatibilityMode) (block : ContentBlock) :
    Option (String × String) :=
  if block.blockType = "tool_use" then
    block.id.bind fun id => block.name.map fun name => (id, sentName env mode name)
  else none

def usesOf (env : Env) (mode : ToolCompatibilityMode) (content : Value) : List (String × String) :=
  (contentBlocks content).filterMap (useOf env mode)

def clientUses (env : Env) (mode : ToolCompatibilityMode) (m : Requests.Message) :
    List (String × String) :=
  if m.role = "assistant" then usesOf env mode m.content else []

/-- The sent names of the tool uses that the client's messages answer. -/
def answeredNames (env : Env) (mode : ToolCompatibilityMode) (req : MessagesRequest) :
    List String :=
  (((sentMessages req).dropLast.flatMap (clientUses env mode)).filter fun toolUse =>
    toolUse.1 ∈ answers (clientTranscript req) ∨ toolUse.1 ∈ currentResults req).map (·.2)

def shownTools (mode : ToolCompatibilityMode) (tools : List Requests.Tool) : List Requests.Tool :=
  tools.filter fun t => !(isClaudeCodeMode mode && t.name == "fs_append")

/-- The lower-case names that the declared tools are sent under. -/
def declaredKeys (env : Env) (mode : ToolCompatibilityMode) (tools : List Requests.Tool) :
    List String :=
  (shownTools mode tools).map fun t => env.caseMaps.toLowercase (sentName env mode t.name)

/-- Answered tool uses whose names differ in case only are of a declared tool. -/
def SpelledAlike (env : Env) (mode : ToolCompatibilityMode) (req : MessagesRequest) : Prop :=
  ∀ a ∈ answeredNames env mode req, ∀ b ∈ answeredNames env mode req,
    env.caseMaps.toLowercase a = env.caseMaps.toLowercase b →
      a = b ∨ env.caseMaps.toLowercase a ∈ declaredKeys env mode (req.tools.getD [])

def keysOf (env : Env) (tools : List Tool) : List String :=
  tools.map fun t => env.caseMaps.toLowercase t.name

/-- Every tool name of the history has one specification, and no two specifications share a name.
Names are compared without their case. -/
structure SpecifiedOnce (env : Env) (st : ConversationState) : Prop where
  once : ∀ toolUse ∈ st.history.flatMap toolUsesOf,
    (keysOf env st.currentMessage.userInputMessageContext.tools).count
      (env.caseMaps.toLowercase toolUse.name) = 1
  distinct : (keysOf env st.currentMessage.userInputMessageContext.tools).Nodup

variable {env : Env} {mode : ToolCompatibilityMode}

/-- What the loop over the declared tools has done. -/
private structure Taken (env : Env) (mode : ToolCompatibilityMode) (done : List Requests.Tool)
    (loop : ToolLoop) : Prop where
  seen : ∀ key, key ∈ loop.seen ↔ key ∈ declaredKeys env mode done
  sent : ∀ key, key ∈ loop.seen ↔ key ∈ keysOf env loop.out
  distinct : (keysOf env loop.out).Nodup

private theorem Taken.step {done : List Requests.Tool} {loop loop' : ToolLoop}
    (h : Taken env mode done loop) (t : Requests.Tool)
    (ok : convertTool env mode loop t = .ok loop') : Taken env mode (done ++ [t]) loop' := by
  unfold convertTool at ok
  split_ifs at ok with hidden
  · cases ok
    have same : declaredKeys env mode (done ++ [t]) = declaredKeys env mode done := by
      rw [declaredKeys, shownTools, List.filter_append, List.filter_singleton, hidden]
      exact congrArg _ (List.append_nil _)
    refine ⟨?_, h.sent, h.distinct⟩
    rw [same]
    exact h.seen
  · have snoc : declaredKeys env mode (done ++ [t]) =
        declaredKeys env mode done ++ [env.caseMaps.toLowercase (sentName env mode t.name)] := by
      rw [declaredKeys, shownTools, List.filter_append, List.filter_singleton,
        Bool.eq_false_iff.mpr hidden]
      exact List.map_append
    have mapped : (mapClientToolNameToKiro env mode t.name loop.map).1 = sentName env mode t.name :=
      mapClientToolNameToKiro_fst env mode t.name loop.map
    dsimp only at ok
    rw [mapped] at ok
    split_ifs at ok with seen
    · cases ok
      have old := (h.seen _).mp (List.contains_iff_mem.mp seen)
      refine ⟨?_, h.sent, h.distinct⟩
      intro key
      rw [snoc, List.mem_append, List.mem_singleton, h.seen]
      constructor
      · exact .inl
      · rintro (before | rfl)
        · exact before
        · exact old
    · obtain ⟨spec, built, rest⟩ := bind_ok ok
      cases rest
      have named : spec.name = sentName env mode t.name := by
        obtain ⟨schema, -, rest⟩ := bind_ok built
        cases rest
        rfl
      have out : keysOf env (loop.out ++ [spec]) =
          keysOf env loop.out ++ [env.caseMaps.toLowercase (sentName env mode t.name)] := by
        simp [keysOf, named]
      have new : env.caseMaps.toLowercase (sentName env mode t.name) ∉ keysOf env loop.out := by
        intro mem
        exact seen (List.contains_iff_mem.mpr ((h.sent _).mpr mem))
      refine ⟨?_, ?_, ?_⟩
      · intro key
        rw [snoc, List.mem_append, List.mem_singleton, List.mem_cons, h.seen, or_comm]
      · intro key
        change key ∈ _ :: loop.seen ↔ key ∈ keysOf env (loop.out ++ [spec])
        rw [out, List.mem_append, List.mem_singleton, List.mem_cons, h.sent, or_comm]
      · change (keysOf env (loop.out ++ [spec])).Nodup
        rw [out]
        exact List.nodup_append.mpr ⟨h.distinct, List.nodup_singleton _, by
          intro a mem b last
          rw [List.mem_singleton.mp last]
          rintro rfl
          exact new mem⟩

theorem convertTools_keys {tools : Option (List Requests.Tool)} {r : List Tool × ToolNameMap}
    (ok : convertTools env mode tools [] = .ok r) :
    (keysOf env r.1).Nodup ∧
      ∀ key, key ∈ keysOf env r.1 ↔ key ∈ declaredKeys env mode (tools.getD []) := by
  cases tools with
  | none =>
    cases ok
    exact ⟨List.nodup_nil, fun key => by simp [keysOf, declaredKeys, shownTools]⟩
  | some tools =>
    obtain ⟨loop, folded, rest⟩ := bind_ok ok
    cases rest
    have taken := foldlM_invariant (Taken env mode)
      (s := { map := [] }) ⟨by simp [declaredKeys, shownTools], by simp [keysOf], List.nodup_nil⟩
      (fun done t loop loop' h stepped => h.step t stepped) folded
    exact ⟨taken.distinct, fun key => (taken.sent key).symm.trans (taken.seen key)⟩

theorem mem_collectHistoryToolNames (history : List Message) (name : String) :
    name ∈ collectHistoryToolNames history ↔ ∃ toolUse ∈ history.flatMap toolUsesOf,
      toolUse.name = name := by
  have general : ∀ (uses : List ToolUseEntry) (names : List String),
      name ∈ uses.foldl (fun names toolUse =>
        if names.contains toolUse.name then names else names ++ [toolUse.name]) names ↔
        name ∈ names ∨ ∃ toolUse ∈ uses, toolUse.name = name := by
    intro uses
    induction uses with
    | nil => simp
    | cons toolUse uses ih =>
      intro names
      rw [List.foldl_cons, ih]
      split_ifs with old
      · have mem := List.contains_iff_mem.mp old
        constructor
        · rintro (before | ⟨other, later, rfl⟩)
          · exact .inl before
          · exact .inr ⟨other, List.mem_cons_of_mem _ later, rfl⟩
        · rintro (before | ⟨other, here, rfl⟩)
          · exact .inl before
          · rcases List.mem_cons.mp here with rfl | later
            · exact .inl mem
            · exact .inr ⟨other, later, rfl⟩
      · simp only [List.mem_append, List.mem_cons, List.not_mem_nil, or_false, exists_eq_or_imp]
        rw [or_assoc, @eq_comm _ name]
  have all := general (history.flatMap toolUsesOf) []
  simpa [collectHistoryToolNames] using all

theorem nodup_collectHistoryToolNames (history : List Message) :
    (collectHistoryToolNames history).Nodup := by
  have general : ∀ (uses : List ToolUseEntry) (names : List String), names.Nodup →
      (uses.foldl (fun names toolUse =>
        if names.contains toolUse.name then names else names ++ [toolUse.name]) names).Nodup := by
    intro uses
    induction uses with
    | nil => exact fun _ distinct => distinct
    | cons toolUse uses ih =>
      intro names distinct
      rw [List.foldl_cons]
      refine ih _ ?_
      split_ifs with old
      · exact distinct
      · refine List.nodup_append.mpr ⟨distinct, List.nodup_singleton _, ?_⟩
        intro a mem b last
        rw [List.mem_singleton.mp last]
        rintro rfl
        exact old (List.contains_iff_mem.mpr mem)
  exact general _ [] List.nodup_nil

theorem keysOf_placeholders (tools : List Tool) (names : List String) :
    keysOf env (placeholders env tools names) =
      (names.filter fun name =>
        !(keysOf env tools).contains (env.caseMaps.toLowercase name)).map
          env.caseMaps.toLowercase := by
  simp only [keysOf, placeholders, List.map_map]
  rfl

theorem nodup_with_placeholders {tools : List Tool} {names : List String}
    (tools_distinct : (keysOf env tools).Nodup) (names_distinct : names.Nodup) :
    (keysOf env (tools ++ placeholders env tools names)).Nodup ↔
      ∀ a ∈ names, ∀ b ∈ names, env.caseMaps.toLowercase a = env.caseMaps.toLowercase b →
        a = b ∨ env.caseMaps.toLowercase a ∈ keysOf env tools := by
  have split : keysOf env (tools ++ placeholders env tools names) =
      keysOf env tools ++ keysOf env (placeholders env tools names) := List.map_append
  rw [split, List.nodup_append, keysOf_placeholders]
  constructor
  · rintro ⟨-, distinct, -⟩ a mem_a b mem_b same
    by_cases declared : env.caseMaps.toLowercase a ∈ keysOf env tools
    · exact .inr declared
    · refine .inl (List.inj_on_of_nodup_map distinct ?_ ?_ same)
      · exact List.mem_filter.mpr ⟨mem_a, by simpa using declared⟩
      · exact List.mem_filter.mpr ⟨mem_b, by simpa [← same] using declared⟩
  · intro apart
    refine ⟨tools_distinct, ?_, ?_⟩
    · refine List.Nodup.map_on ?_ (names_distinct.filter _)
      intro a mem_a b mem_b same
      obtain ⟨in_a, free⟩ := List.mem_filter.mp mem_a
      obtain ⟨in_b, -⟩ := List.mem_filter.mp mem_b
      refine (apart a in_a b in_b same).resolve_right ?_
      simpa using free
    · intro key declared other placed same
      obtain ⟨name, kept, rfl⟩ := List.mem_map.mp placed
      obtain ⟨-, free⟩ := List.mem_filter.mp kept
      subst same
      simp [declared] at free

theorem mem_with_placeholders {tools : List Tool} {names : List String} {name : String}
    (mem : name ∈ names) :
    env.caseMaps.toLowercase name ∈ keysOf env (tools ++ placeholders env tools names) := by
  have split : keysOf env (tools ++ placeholders env tools names) =
      keysOf env tools ++ keysOf env (placeholders env tools names) := List.map_append
  rw [split, List.mem_append, keysOf_placeholders]
  by_cases declared : env.caseMaps.toLowercase name ∈ keysOf env tools
  · exact .inl declared
  · refine .inr (List.mem_map_of_mem (List.mem_filter.mpr ⟨mem, ?_⟩))
    simpa using declared

def entryOf (toolUse : ToolUseEntry) : String × String := (toolUse.toolUseId, toolUse.name)

private theorem convertAssistantBlock_uses (loop : AssistantLoop) (block : ContentBlock)
    (loop' : AssistantLoop) (ok : convertAssistantBlock env mode loop block = .ok loop') :
    loop'.toolUses.map entryOf =
      loop.toolUses.map entryOf ++ (useOf env mode block).toList := by
  unfold convertAssistantBlock at ok
  split at ok
  · rename_i type
    cases ok
    simp [useOf, type]
  · rename_i type
    split at ok
    · rename_i id name has_id has_name
      dsimp only at ok
      split at ok
      · cases ok
        simp [useOf, type, has_id, has_name, entryOf, mapClientToolNameToKiro_fst]
      · cases ok
    · rename_i incomplete
      cases ok
      cases has_id : block.id with
      | none => simp [useOf, has_id]
      | some id =>
        cases has_name : block.name with
        | none => simp [useOf, has_name]
        | some name => exact absurd has_name (incomplete id name has_id)
  · rename_i text use
    cases ok
    rw [useOf, if_neg use]
    simp

private theorem convertAssistantMessage_uses {msg : Requests.Message} {map : ToolNameMap}
    {r : AssistantMessage × ToolNameMap}
    (ok : convertAssistantMessage env mode msg map = .ok r) :
    (r.1.toolUses.getD []).map entryOf = usesOf env mode msg.content := by
  obtain ⟨loop, folded, rest⟩ := bind_ok ok
  cases rest
  rw [toolUses_withToolUses _ _ rfl]
  cases content : msg.content with
  | array items =>
    rw [content] at folded
    dsimp only [convertAssistantContent] at folded
    have uses := foldlM_appends (fun loop : AssistantLoop => loop.toolUses.map entryOf)
      (fun block => (useOf env mode block).toList) convertAssistantBlock_uses folded
    rw [uses]
    simp [usesOf, contentBlocks, List.filterMap_eq_flatMap_toList]
  | null | bool | number | string | object =>
    rw [content] at folded
    cases folded
    rfl

private theorem mergeAssistantMessage_uses (merge : AssistantMerge) (msg : Requests.Message)
    (merge' : AssistantMerge) (ok : mergeAssistantMessage env mode merge msg = .ok merge') :
    merge'.toolUses.map entryOf = merge.toolUses.map entryOf ++ usesOf env mode msg.content := by
  obtain ⟨r, converted, -, uses, -⟩ := mergeAssistantMessage_ok ok
  rw [uses, List.map_append, convertAssistantMessage_uses converted]

private theorem mergeAssistantMessages_uses {messages : List Requests.Message} {map : ToolNameMap}
    {r : AssistantMessage × ToolNameMap} (assistants : ∀ m ∈ messages, m.role = "assistant")
    (ok : mergeAssistantMessages env mode messages map = .ok r) :
    (r.1.toolUses.getD []).map entryOf = messages.flatMap (clientUses env mode) := by
  have by_content : messages.flatMap (clientUses env mode) =
      messages.flatMap fun m => usesOf env mode m.content :=
    List.flatMap_congr fun m mem => by rw [clientUses, if_pos (assistants m mem)]
  rw [by_content]
  unfold mergeAssistantMessages at ok
  split at ok
  · cases ok
  · simpa using convertAssistantMessage_uses ok
  · obtain ⟨merge, folded, rest⟩ := bind_ok ok
    cases rest
    rw [toolUses_withToolUses _ _ rfl]
    simpa using foldlM_appends (fun merge : AssistantMerge => merge.toolUses.map entryOf)
      (fun msg => usesOf env mode msg.content) mergeAssistantMessage_uses folded

private structure Gathered (env : Env) (mode : ToolCompatibilityMode)
    (uses : List (String × String)) (loop : HistoryLoop) : Prop where
  assistants : ∀ m ∈ loop.assistantBuffer, m.role = "assistant"
  uses : (loop.history.flatMap toolUsesOf).map entryOf ++
    loop.assistantBuffer.flatMap (clientUses env mode) = uses

private theorem Gathered.flush {uses : List (String × String)} {loop loop' : HistoryLoop}
    (h : Gathered env mode uses loop) (ok : flushAssistant env mode loop = .ok loop') :
    Gathered env mode uses loop' ∧ loop'.assistantBuffer = [] := by
  unfold flushAssistant at ok
  split_ifs at ok with empty
  · cases ok
    exact ⟨h, List.isEmpty_iff.mp empty⟩
  · obtain ⟨r, merged, rest⟩ := bind_ok ok
    cases rest
    refine ⟨⟨by simp, ?_⟩, rfl⟩
    rw [← h.uses, ← mergeAssistantMessages_uses h.assistants merged]
    simp [toolUsesOf]

private theorem flushUser_uses {modelId : String} {loop loop' : HistoryLoop}
    (ok : flushUser env modelId loop = .ok loop') :
    loop'.history.flatMap toolUsesOf = loop.history.flatMap toolUsesOf ∧
      loop'.assistantBuffer = loop.assistantBuffer := by
  unfold flushUser at ok
  split_ifs at ok with empty
  · cases ok
    exact ⟨rfl, rfl⟩
  · obtain ⟨r, merged, rest⟩ := bind_ok ok
    cases rest
    exact ⟨by simp [toolUsesOf], rfl⟩

private theorem Gathered.step {uses : List (String × String)} {modelId : String}
    {loop loop' : HistoryLoop} {msg : Requests.Message} (h : Gathered env mode uses loop)
    (ok : historyStep env mode modelId loop msg = .ok loop') :
    Gathered env mode (uses ++ clientUses env mode msg) loop' := by
  unfold historyStep at ok
  split_ifs at ok with user assistant
  · obtain ⟨flushed, done, rest⟩ := bind_ok ok
    cases rest
    have silent : clientUses env mode msg = [] := by simp [clientUses, user]
    rw [silent, List.append_nil]
    obtain ⟨held, -⟩ := h.flush done
    exact ⟨held.assistants, held.uses⟩
  · obtain ⟨flushed, done, rest⟩ := bind_ok ok
    cases rest
    obtain ⟨same, buffer⟩ := flushUser_uses done
    refine ⟨?_, ?_⟩
    · intro m mem
      rcases List.mem_append.mp mem with old | new
      · rw [buffer] at old
        exact h.assistants m old
      · rw [List.mem_singleton.mp new]
        exact assistant
    · rw [← h.uses]
      simp [same, buffer]
  · cases ok
    have silent : clientUses env mode msg = [] := if_neg assistant
    rw [silent, List.append_nil]
    exact h

private theorem toolUses_systemMessages (req : MessagesRequest) (modelId : String) :
    (systemMessages env req modelId).flatMap toolUsesOf = [] := by
  have pair : ∀ content, (systemPair env content modelId).flatMap toolUsesOf = [] := fun _ => rfl
  unfold systemMessages
  cases req.system with
  | none =>
    dsimp only
    split
    · exact pair _
    · rfl
  | some system =>
    dsimp only
    split
    · rfl
    · split
      · split
        · exact pair _
        · exact pair _
      · exact pair _

theorem uses_buildHistory {req : MessagesRequest} {messages : List Requests.Message}
    {modelId : String} {map : ToolNameMap} {r : List Message × ToolNameMap}
    (ok : buildHistory env mode req messages modelId map = .ok r) :
    (r.1.flatMap toolUsesOf).map entryOf = messages.dropLast.flatMap (clientUses env mode) := by
  obtain ⟨loop, folded, rest⟩ := bind_ok ok
  obtain ⟨flushed, flush, rest⟩ := bind_ok rest
  obtain ⟨closed, close, rest⟩ := bind_ok rest
  cases rest
  have gathered := foldlM_invariant
    (fun done loop => Gathered env mode (done.flatMap (clientUses env mode)) loop)
    ⟨by simp, by simp [toolUses_systemMessages]⟩
    (by
      intro done msg loop loop' held stepped
      have next := held.step stepped
      simpa using next)
    folded
  obtain ⟨⟨-, uses⟩, none_left⟩ := gathered.flush flush
  rw [none_left, List.flatMap_nil, List.append_nil] at uses
  unfold closeHistory at close
  split_ifs at close with empty
  · cases close
    exact uses
  · obtain ⟨last, flush, rest⟩ := bind_ok close
    cases rest
    rw [← uses, ← (flushUser_uses flush).1]
    simp [toolUsesOf, AssistantMessage.new]

theorem toolUses_removeOrphanedToolUses (history : List Message) (ids : List String) :
    (removeOrphanedToolUses history ids).flatMap toolUsesOf =
      (history.flatMap toolUsesOf).filter fun toolUse => !ids.contains toolUse.toolUseId := by
  have one : ∀ m, toolUsesOf (removeOrphans ids m) =
      (toolUsesOf m).filter fun toolUse => !ids.contains toolUse.toolUseId := by
    intro m
    cases m with
    | user m => rfl
    | assistant m =>
      unfold removeOrphans
      cases present : m.toolUses with
      | none => simp [toolUsesOf, present]
      | some toolUses =>
        simp only [present, toolUsesOf, Option.getD_some]
        split_ifs with empty
        · exact (List.isEmpty_iff.mp empty).symm
        · rfl
  unfold removeOrphanedToolUses
  split_ifs with empty
  · rw [List.isEmpty_iff.mp empty]
    simp
  · rw [List.flatMap_map, List.filter_flatMap]
    exact List.flatMap_congr fun m _ => one m

private theorem converted_parts {req : MessagesRequest} {result : ConversionResult}
    (ok : convertRequestWithMode env mode req = .ok result) :
    ∃ tools : List Tool,
      result.conversationState.currentMessage.userInputMessageContext.tools =
        tools ++ placeholders env tools
          (collectHistoryToolNames result.conversationState.history) ∧
      (keysOf env tools).Nodup ∧
      (∀ key, key ∈ keysOf env tools ↔ key ∈ declaredKeys env mode (req.tools.getD [])) ∧
      ((result.conversationState.history.flatMap toolUsesOf).map (·.name)) =
        answeredNames env mode req := by
  have repaired := transcript_eq ok
  obtain ⟨modelId, -, rest⟩ := bind_ok ok
  obtain ⟨messages, trimmed, rest⟩ := bind_ok rest
  obtain ⟨conversationId, -, rest⟩ := bind_ok rest
  obtain ⟨lastMessage, is_last, rest⟩ := bind_ok rest
  obtain ⟨current, processed, rest⟩ := bind_ok rest
  obtain ⟨converted, convert, rest⟩ := bind_ok rest
  obtain ⟨built, build, rest⟩ := bind_ok rest
  cases rest
  obtain ⟨distinct, declared⟩ := convertTools_keys convert
  refine ⟨converted.1, rfl, distinct, declared, ?_⟩
  have late := currentResults_of_ok trimmed is_last processed
  have before : built.1.flatMap sidesOf = clientTranscript req := by
    rw [sidesOf_buildHistory build, clientTranscript, sentMessages, (trimPrefill_ok trimmed).1]
  have orphans := (validateToolPairing_spec built.1 current.toolResults).2
  rw [late, before] at orphans
  have uses := uses_buildHistory build
  rw [(trimPrefill_ok trimmed).1] at uses
  change ((removeOrphanedToolUses built.1
    (validateToolPairing built.1 current.toolResults).2).flatMap toolUsesOf).map (·.name) = _
  rw [toolUses_removeOrphanedToolUses, orphans, answeredNames, sentMessages, ← uses,
    List.filter_map, List.map_map]
  refine congrArg _ (List.filter_congr fun toolUse mem => ?_)
  have called : toolUse.toolUseId ∈ calls (clientTranscript req) := by
    rw [← before, calls_sidesOf]
    exact List.mem_map_of_mem mem
  have kept : toolUse.toolUseId ∉ (acceptLate (unanswered (clientTranscript req))
        (currentResults req)).2 ↔
      toolUse.toolUseId ∈ answers (clientTranscript req) ∨
        toolUse.toolUseId ∈ currentResults req := by
    rw [mem_orphans]
    tauto
  rw [Bool.eq_iff_iff, Bool.not_eq_true', List.contains_eq_mem, decide_eq_false_iff_not, kept]
  exact decide_eq_true_iff.symm

/-- Every tool name of the history has one specification, and the specifications differ by more than
case, exactly when answered tool uses whose names differ in case only are of a declared tool: the
placeholders are made of names that are compared with their case. -/
theorem specifiedOnce_iff_spelledAlike (env : Env) (mode : ToolCompatibilityMode)
    (req : MessagesRequest) (result : ConversionResult)
    (ok : convertRequestWithMode env mode req = .ok result) :
    SpecifiedOnce env result.conversationState ↔ SpelledAlike env mode req := by
  obtain ⟨tools, sent, distinct, declared, names⟩ := converted_parts ok
  have named : ∀ name, name ∈ collectHistoryToolNames result.conversationState.history ↔
      name ∈ answeredNames env mode req := by
    intro name
    rw [mem_collectHistoryToolNames, ← names, List.mem_map]
  have alike : SpelledAlike env mode req ↔
      (keysOf env result.conversationState.currentMessage.userInputMessageContext.tools).Nodup := by
    rw [sent, nodup_with_placeholders distinct (nodup_collectHistoryToolNames _)]
    unfold SpelledAlike
    simp only [named, declared]
  rw [alike]
  constructor
  · exact fun once => once.distinct
  · intro apart
    refine ⟨?_, apart⟩
    intro toolUse mem
    refine List.count_eq_one_of_mem apart ?_
    rw [sent]
    exact mem_with_placeholders ((mem_collectHistoryToolNames _ _).mpr ⟨toolUse, mem, rfl⟩)

private def toolUseBlock (id name : String) : Value :=
  .obj [("type", .string "tool_use"), ("id", .string id), ("name", .string name),
    ("input", .obj [])]

private def toolResultBlock (id : String) : Value :=
  .obj [("type", .string "tool_result"), ("tool_use_id", .string id), ("content", .string "found")]

/-- Two answered tool calls of the given names, and a new question. -/
private def exchange (first second : String) : MessagesRequest where
  model := "claude-sonnet-4-5"
  messages := [
    ⟨"user", .string "look it up"⟩,
    ⟨"assistant", .array [toolUseBlock "toolu_1" first, toolUseBlock "toolu_2" second]⟩,
    ⟨"user", .array [toolResultBlock "toolu_1", toolResultBlock "toolu_2"]⟩,
    ⟨"assistant", .string "done"⟩,
    ⟨"user", .string "thanks"⟩]

private theorem exists_result (first second : String) (keys : List String)
    (run : (convertRequestWithMode Env.sample .raw (exchange first second)).toOption.map
      (fun result => keysOf Env.sample
        result.conversationState.currentMessage.userInputMessageContext.tools) = some keys) :
    ∃ result, convertRequestWithMode Env.sample .raw (exchange first second) = .ok result ∧
      keysOf Env.sample result.conversationState.currentMessage.userInputMessageContext.tools =
        keys := by
  cases ran : convertRequestWithMode Env.sample .raw (exchange first second) with
  | error e =>
    rw [ran] at run
    cases run
  | ok result =>
    rw [ran] at run
    cases run
    exact ⟨result, rfl, rfl⟩

/-- Names of the history that differ in case get a placeholder each. -/
theorem placeholder_for_each_case :
    ¬ ∀ (env : Env) (mode : ToolCompatibilityMode) (req : MessagesRequest)
      (result : ConversionResult), convertRequestWithMode env mode req = .ok result →
        SpecifiedOnce env result.conversationState := by
  intro claim
  obtain ⟨result, ok, keys⟩ := exists_result "Lookup" "lookup" ["lookup", "lookup"]
    (by decide +kernel)
  have distinct := (claim _ _ _ result ok).distinct
  rw [keys] at distinct
  exact absurd distinct (by decide)

theorem specifiedOnce_iff_spelledAlike_find : ∃ result,
    convertRequestWithMode Env.sample .raw (exchange "lookup" "find") = .ok result ∧
      SpecifiedOnce Env.sample result.conversationState := by
  obtain ⟨result, ok, -⟩ := exists_result "lookup" "find" ["lookup", "find"]
    (by decide +kernel)
  refine ⟨result, ok, (specifiedOnce_iff_spelledAlike _ _ _ result ok).mpr ?_⟩
  have names : answeredNames Env.sample .raw (exchange "lookup" "find") = ["lookup", "find"] := by
    decide +kernel
  unfold SpelledAlike
  rw [names]
  intro a mem_a b mem_b same
  refine .inl ?_
  revert a b
  decide +kernel

end KiroRs.Converter.Specifications
