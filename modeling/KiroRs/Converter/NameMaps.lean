/- Path: KiroRs/Converter/NameMaps
   source: src/anthropic/converter.rs
   digest: What the reverse map of a conversion can hold in either mode, and the name under which
   the client gets a call of the upstream's web search. -/

import KiroRs.Converter.NameRoundTrip

set_option autoImplicit false
set_option relaxedAutoImplicit false

namespace KiroRs.Converter.NameMaps

open KiroRs.Lib
open KiroRs.Lib.Results
open KiroRs.Converter.Models
open KiroRs.Converter.ToolNames
open KiroRs.Converter.Tools
open KiroRs.Converter.Messages
open KiroRs.Converter.Conversion
open KiroRs.Converter.NameRoundTrip
open KiroRs.Converter.Requests (ContentBlock MessagesRequest)

variable {env : Env} {mode : ToolCompatibilityMode} {P : ToolNameMap → Prop}

/-- Entering one more name keeps the property. -/
def Kept (env : Env) (mode : ToolCompatibilityMode) (P : ToolNameMap → Prop) : Prop :=
  ∀ name map, P map → P (mapClientToolNameToKiro env mode name map).2

theorem Kept.tool (kept : Kept env mode P) {loop loop' : ToolLoop} {t : Requests.Tool}
    (h : P loop.map) (ok : convertTool env mode loop t = .ok loop') : P loop'.map := by
  unfold convertTool at ok
  dsimp only at ok
  split_ifs at ok with hidden seen
  · cases ok
    exact h
  · cases ok
    exact kept t.name loop.map h
  · obtain ⟨tool, -, rest⟩ := bind_ok ok
    cases rest
    exact kept t.name loop.map h

theorem Kept.tools (kept : Kept env mode P) {tools : Option (List Requests.Tool)}
    {map : ToolNameMap} {r : List Conversation.Tool × ToolNameMap} (h : P map)
    (ok : convertTools env mode tools map = .ok r) : P r.2 := by
  cases tools with
  | none =>
    cases ok
    exact h
  | some tools =>
    obtain ⟨loop, folded, rest⟩ := bind_ok ok
    cases rest
    exact foldlM_invariant (fun _ loop => P loop.map) h
      (fun _ t loop loop' held stepped => kept.tool held stepped) folded

theorem Kept.block (kept : Kept env mode P) {loop loop' : AssistantLoop} {block : ContentBlock}
    (h : P loop.map) (ok : convertAssistantBlock env mode loop block = .ok loop') :
    P loop'.map := by
  unfold convertAssistantBlock at ok
  split at ok
  · cases ok
    exact h
  · split at ok
    · rename_i id name has_id has_name
      dsimp only at ok
      split at ok
      · cases ok
        exact kept name loop.map h
      · cases ok
    · cases ok
      exact h
  · cases ok
    exact h

theorem Kept.message (kept : Kept env mode P) {msg : Requests.Message} {map : ToolNameMap}
    {r : Conversation.AssistantMessage × ToolNameMap} (h : P map)
    (ok : convertAssistantMessage env mode msg map = .ok r) : P r.2 := by
  obtain ⟨loop, folded, rest⟩ := bind_ok ok
  cases rest
  unfold convertAssistantContent at folded
  split at folded
  · cases folded
    exact h
  · exact foldlM_invariant (fun _ loop => P loop.map) h
      (fun _ block loop loop' held stepped => kept.block held stepped) folded
  · cases folded
    exact h

theorem Kept.merge (kept : Kept env mode P) {messages : List Requests.Message} {map : ToolNameMap}
    {r : Conversation.AssistantMessage × ToolNameMap} (h : P map)
    (ok : mergeAssistantMessages env mode messages map = .ok r) : P r.2 := by
  unfold mergeAssistantMessages at ok
  split at ok
  · cases ok
  · exact kept.message h ok
  · obtain ⟨merge, folded, rest⟩ := bind_ok ok
    cases rest
    refine foldlM_invariant (fun _ merge => P merge.map) h ?_ folded
    intro _ msg merge merge' held stepped
    obtain ⟨converted, convert, -, -, entered⟩ := mergeAssistantMessage_ok stepped
    rw [entered]
    exact kept.message held convert

theorem Kept.flush (kept : Kept env mode P) {loop loop' : HistoryLoop} (h : P loop.map)
    (ok : flushAssistant env mode loop = .ok loop') : P loop'.map := by
  unfold flushAssistant at ok
  split_ifs at ok with empty
  · cases ok
    exact h
  · obtain ⟨r, merged, rest⟩ := bind_ok ok
    cases rest
    exact kept.merge h merged

theorem Kept.step (kept : Kept env mode P) {modelId : String} {loop loop' : HistoryLoop}
    {msg : Requests.Message} (h : P loop.map)
    (ok : historyStep env mode modelId loop msg = .ok loop') : P loop'.map := by
  unfold historyStep at ok
  split_ifs at ok with user assistant
  · obtain ⟨flushed, flush, rest⟩ := bind_ok ok
    cases rest
    have held : P flushed.map := kept.flush h flush
    exact held
  · obtain ⟨flushed, flush, rest⟩ := bind_ok ok
    cases rest
    rw [(flushUser_keeps flush).2]
    exact h
  · cases ok
    exact h

theorem Kept.history (kept : Kept env mode P) {req : MessagesRequest}
    {messages : List Requests.Message} {modelId : String} {map : ToolNameMap}
    {r : List Conversation.Message × ToolNameMap} (h : P map)
    (ok : buildHistory env mode req messages modelId map = .ok r) : P r.2 := by
  obtain ⟨loop, folded, rest⟩ := bind_ok ok
  obtain ⟨flushed, flush, rest⟩ := bind_ok rest
  obtain ⟨closed, close, rest⟩ := bind_ok rest
  cases rest
  have held := kept.flush (foldlM_invariant (fun _ loop => P loop.map) h
    (fun _ msg loop loop' held stepped => kept.step held stepped) folded) flush
  unfold closeHistory at close
  split_ifs at close with empty
  · cases close
    exact held
  · obtain ⟨last, flushed_user, rest⟩ := bind_ok close
    cases rest
    rw [(flushUser_keeps flushed_user).2]
    exact held

theorem Kept.result (kept : Kept env mode P) {req : MessagesRequest} {result : ConversionResult}
    (start : P []) (ok : convertRequestWithMode env mode req = .ok result) :
    P result.toolNameMap := by
  obtain ⟨modelId, -, rest⟩ := bind_ok ok
  obtain ⟨messages, -, rest⟩ := bind_ok rest
  obtain ⟨conversationId, -, rest⟩ := bind_ok rest
  obtain ⟨lastMessage, -, rest⟩ := bind_ok rest
  obtain ⟨current, -, rest⟩ := bind_ok rest
  obtain ⟨converted, convert, rest⟩ := bind_ok rest
  obtain ⟨built, build, rest⟩ := bind_ok rest
  cases rest
  exact kept.history (kept.tools start convert) build

def Shortened (env : Env) (map : ToolNameMap) : Prop :=
  ∀ key name, Dicts.get map key = some name →
    toolNameMaxLen < name.utf8ByteSize ∧ shortenToolName env name = key

theorem kept_shortened : Kept env .raw (Shortened env) := by
  intro name map h key value found
  have raw : mapClientToolNameToKiro env .raw name map = mapToolName env name map := rfl
  rw [raw] at found
  unfold mapToolName at found
  split_ifs at found with short
  · exact h key value found
  · rw [Dicts.get_insert] at found
    split_ifs at found with eq
    · cases found
      exact ⟨Nat.lt_of_not_le short, eq.symm⟩
    · exact h key value found

theorem kiroName_webSearch : kiroName env "WebSearch" = "web_search" := rfl

theorem not_renamed_web_search : ¬ Renamed "web_search" := by
  unfold Renamed
  decide

theorem eq_webSearch_of_kiroName {name : String} (renamed : Renamed name)
    (sent : kiroName env name = "web_search") : name = "WebSearch" := by
  unfold kiroName at sent
  cases table : claudeCodeToolNameToKiro name with
  | some kiro =>
    rw [table] at sent
    cases sent
    exact counterpart_inj table rfl
  | none =>
    have long : toolNameMaxLen < name.utf8ByteSize := renamed.resolve_left (by simp [table])
    rw [table] at sent
    dsimp only at sent
    rw [if_neg (Nat.not_le_of_lt long)] at sent
    have := length_shortenToolName env long
    rw [sent] at this
    exact absurd this (by decide)

/-- The name of a search is mapped back to the client's if and only if the client's was mapped. -/
theorem get_web_search {req : MessagesRequest} {result : ConversionResult}
    (ok : convertRequestWithMode env mode req = .ok result) :
    Dicts.get result.toolNameMap "web_search" =
      if mode = .claudeCode ∧ "WebSearch" ∈ mappedNames req then some "WebSearch" else none := by
  cases mode with
  | raw =>
    rw [if_neg (by simp)]
    have shortened := kept_shortened.result (by simp [Shortened, Dicts.get]) ok
    cases found : Dicts.get result.toolNameMap "web_search" with
    | none => rfl
    | some name =>
      obtain ⟨long, short⟩ := shortened _ _ found
      have := length_shortenToolName env long
      rw [short] at this
      exact absurd this (by decide)
  | claudeCode =>
    have records := records_of_ok ok
    split_ifs with mapped
    · have held := records.complete "WebSearch" mapped.2 (.inl rfl)
      rw [kiroName_webSearch] at held
      obtain ⟨name, found⟩ := Option.isSome_iff_exists.mp held
      obtain ⟨-, renamed, sent⟩ := records.sound _ _ found
      rw [found, eq_webSearch_of_kiroName renamed sent]
    · cases found : Dicts.get result.toolNameMap "web_search" with
      | none => rfl
      | some name =>
        obtain ⟨mem, renamed, sent⟩ := records.sound _ _ found
        rw [eq_webSearch_of_kiroName renamed sent] at mem
        exact absurd ⟨rfl, mem⟩ mapped

theorem get_ne_web_search {req : MessagesRequest} {result : ConversionResult}
    (ok : convertRequestWithMode env mode req = .ok result) (key : String) :
    Dicts.get result.toolNameMap key ≠ some "web_search" := by
  intro found
  cases mode with
  | raw =>
    have shortened := kept_shortened.result (by simp [Shortened, Dicts.get]) ok
    exact absurd (shortened _ _ found).1 (by decide)
  | claudeCode => exact not_renamed_web_search ((records_of_ok ok).sound _ _ found).2.1

end KiroRs.Converter.NameMaps
