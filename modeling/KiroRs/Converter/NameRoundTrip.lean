/- Path: KiroRs/Converter/NameRoundTrip
   source: src/anthropic/converter.rs
   digest: Which client tools are sent upstream, under which names, and when the reverse map gives
   their own names back. -/

import KiroRs.Converter.Conversion
import KiroRs.Lib.Results
import Mathlib.Data.List.Forall2

set_option autoImplicit false
set_option relaxedAutoImplicit false

namespace KiroRs.Converter.NameRoundTrip

open KiroRs.Lib
open KiroRs.Lib.Text
open KiroRs.Lib.Results
open KiroRs.Converter.Json
open KiroRs.Converter.Models
open KiroRs.Converter.ToolNames
open KiroRs.Converter.Tools
open KiroRs.Converter.Messages
open KiroRs.Converter.Conversion
open KiroRs.Converter.Requests (ContentBlock MessagesRequest)
open KiroRs.Converter.Conversation (Tool)

def kiroName (env : Env) (name : String) : String :=
  match claudeCodeToolNameToKiro name with
  | some kiroName => kiroName
  | none => if name.utf8ByteSize ≤ toolNameMaxLen then name else shortenToolName env name

def Renamed (name : String) : Prop :=
  (claudeCodeToolNameToKiro name).isSome ∨ toolNameMaxLen < name.utf8ByteSize

/-- The digests' first eight characters tell the long names apart. -/
def HashesDistinct (env : Env) (names : List String) : Prop :=
  ∀ a ∈ names, ∀ b ∈ names, toolNameMaxLen < a.utf8ByteSize → toolNameMaxLen < b.utf8ByteSize →
    (env.sha256Hex a).toList.take 8 = (env.sha256Hex b).toList.take 8 → a = b

variable {env : Env}

theorem kiroName_of_not_renamed {name : String} (kept : ¬ Renamed name) :
    kiroName env name = name := by
  unfold Renamed at kept
  rw [not_or] at kept
  unfold kiroName
  rw [Option.not_isSome_iff_eq_none.mp kept.1]
  exact if_pos (Nat.le_of_not_lt kept.2)

theorem shortenToolName_inj {a b : String} (eq : shortenToolName env a = shortenToolName env b) :
    (env.sha256Hex a).toList.take 8 = (env.sha256Hex b).toList.take 8 := by
  have eight : ∀ s, ((env.sha256Hex s).toList.take 8).length = 8 := by
    intro s
    rw [List.length_take, String.length_toList, env.sha256Hex_length]
    rfl
  have lists := String.ofList_injective eq
  have tails := (List.append_inj' lists (by simp only [List.length_cons, eight])).2
  exact (List.cons.inj tails).2

variable (env) in
theorem length_shortenToolName {name : String} (long : toolNameMaxLen < name.utf8ByteSize) :
    16 < (shortenToolName env name).toList.length := by
  have bound := utf8ByteSize_le name
  simp only [toolNameMaxLen] at long
  simp only [shortenToolName, toolNameMaxLen, String.toList_ofList, List.length_append,
    List.length_take, List.length_cons]
  omega

theorem length_counterpart {name kiro : String} (eq : claudeCodeToolNameToKiro name = some kiro) :
    kiro.toList.length ≤ 16 := by
  unfold claudeCodeToolNameToKiro at eq
  split at eq <;> cases eq <;> decide

theorem counterpart_inj {a b kiro : String} (of_a : claudeCodeToolNameToKiro a = some kiro)
    (of_b : claudeCodeToolNameToKiro b = some kiro) : a = b := by
  unfold claudeCodeToolNameToKiro at of_a
  split at of_a <;> cases of_a <;>
    (unfold claudeCodeToolNameToKiro at of_b
     split at of_b <;> first | rfl | simp at of_b)

/-- Renamed names with the same image are the same, as far as the digests tell. -/
theorem kiroName_inj {names : List String} (distinct : HashesDistinct env names) {a b : String}
    (mem_a : a ∈ names) (mem_b : b ∈ names) (renamed_a : Renamed a) (renamed_b : Renamed b)
    (eq : kiroName env a = kiroName env b) : a = b := by
  unfold kiroName at eq
  cases table_a : claudeCodeToolNameToKiro a with
  | some kiro_a =>
    cases table_b : claudeCodeToolNameToKiro b with
    | some kiro_b =>
      rw [table_a, table_b] at eq
      cases eq
      exact counterpart_inj table_a table_b
    | none =>
      have long : toolNameMaxLen < b.utf8ByteSize := renamed_b.resolve_left (by simp [table_b])
      rw [table_a, table_b] at eq
      dsimp only at eq
      rw [if_neg (Nat.not_le_of_lt long)] at eq
      have short := length_counterpart table_a
      have := length_shortenToolName env long
      rw [← eq] at this
      omega
  | none =>
    have long_a : toolNameMaxLen < a.utf8ByteSize := renamed_a.resolve_left (by simp [table_a])
    cases table_b : claudeCodeToolNameToKiro b with
    | some kiro_b =>
      rw [table_a, table_b] at eq
      dsimp only at eq
      rw [if_neg (Nat.not_le_of_lt long_a)] at eq
      have short := length_counterpart table_b
      have := length_shortenToolName env long_a
      rw [eq] at this
      omega
    | none =>
      have long_b : toolNameMaxLen < b.utf8ByteSize := renamed_b.resolve_left (by simp [table_b])
      rw [table_a, table_b] at eq
      dsimp only at eq
      rw [if_neg (Nat.not_le_of_lt long_a), if_neg (Nat.not_le_of_lt long_b)] at eq
      exact distinct a mem_a b mem_b long_a long_b (shortenToolName_inj eq)

/-- The map holds the renamed names among the given ones, under their images. -/
structure Records (env : Env) (names : List String) (map : ToolNameMap) : Prop where
  sound : ∀ key name, Dicts.get map key = some name →
    name ∈ names ∧ Renamed name ∧ kiroName env name = key
  complete : ∀ name ∈ names, Renamed name → (Dicts.get map (kiroName env name)).isSome

theorem Records.nil : Records env [] [] := by
  constructor
  · intro key name found
    cases found
  · intro name mem
    cases mem

private theorem mapClientToolNameToKiro_table {name kiro : String} (map : ToolNameMap)
    (table : claudeCodeToolNameToKiro name = some kiro) :
    mapClientToolNameToKiro env .claudeCode name map = (kiro, Dicts.orInsert map kiro name) ∧
      kiroName env name = kiro := by
  unfold mapClientToolNameToKiro kiroName
  rw [table]
  exact ⟨rfl, rfl⟩

private theorem mapClientToolNameToKiro_short {name : String} (map : ToolNameMap)
    (table : claudeCodeToolNameToKiro name = none) (short : name.utf8ByteSize ≤ toolNameMaxLen) :
    mapClientToolNameToKiro env .claudeCode name map = (name, map) ∧ kiroName env name = name := by
  unfold mapClientToolNameToKiro kiroName mapToolName
  rw [table]
  exact ⟨if_pos short, if_pos short⟩

private theorem mapClientToolNameToKiro_long {name : String} (map : ToolNameMap)
    (table : claudeCodeToolNameToKiro name = none) (long : ¬ name.utf8ByteSize ≤ toolNameMaxLen) :
    mapClientToolNameToKiro env .claudeCode name map =
        (shortenToolName env name, Dicts.insert map (shortenToolName env name) name) ∧
      kiroName env name = shortenToolName env name := by
  unfold mapClientToolNameToKiro kiroName mapToolName
  rw [table]
  exact ⟨if_neg long, if_neg long⟩

private theorem mapClientToolNameToKiro_spec (env : Env) (name : String) (map : ToolNameMap) :
    (mapClientToolNameToKiro env .claudeCode name map).1 = kiroName env name ∧
      ((Renamed name ∧ ((mapClientToolNameToKiro env .claudeCode name map).2 =
            Dicts.orInsert map (kiroName env name) name ∨
          (mapClientToolNameToKiro env .claudeCode name map).2 =
            Dicts.insert map (kiroName env name) name)) ∨
        ¬ Renamed name ∧ (mapClientToolNameToKiro env .claudeCode name map).2 = map) := by
  cases table : claudeCodeToolNameToKiro name with
  | some kiro =>
    obtain ⟨mapped, image⟩ := mapClientToolNameToKiro_table map table
    rw [mapped, image]
    exact ⟨rfl, .inl ⟨.inl (by rw [table]; rfl), .inl rfl⟩⟩
  | none =>
    by_cases short : name.utf8ByteSize ≤ toolNameMaxLen
    · obtain ⟨mapped, image⟩ := mapClientToolNameToKiro_short map table short
      rw [mapped, image]
      refine ⟨rfl, .inr ⟨?_, rfl⟩⟩
      unfold Renamed
      rw [table]
      simp [Nat.not_lt_of_le short]
    · obtain ⟨mapped, image⟩ := mapClientToolNameToKiro_long map table short
      rw [mapped, image]
      exact ⟨rfl, .inl ⟨.inr (Nat.lt_of_not_le short), .inr rfl⟩⟩

private theorem get_mapClientToolNameToKiro (name key : String) (map : ToolNameMap) :
    Dicts.get (mapClientToolNameToKiro env .claudeCode name map).2 key = Dicts.get map key ∨
      Renamed name ∧ key = kiroName env name ∧
        Dicts.get (mapClientToolNameToKiro env .claudeCode name map).2 key = some name := by
  obtain ⟨-, ⟨renamed, entered | set⟩ | ⟨-, same⟩⟩ :=
    mapClientToolNameToKiro_spec env name map
  · rw [entered, Dicts.get_orInsert]
    split_ifs with eq
    · cases held : Dicts.get map (kiroName env name) with
      | none => exact .inr ⟨renamed, eq, rfl⟩
      | some other =>
        rw [eq, held]
        exact .inl rfl
    · exact .inl rfl
  · rw [set, Dicts.get_insert]
    split_ifs with eq
    · exact .inr ⟨renamed, eq, rfl⟩
    · exact .inl rfl
  · rw [same]
    exact .inl rfl

private theorem isSome_mapClientToolNameToKiro {name : String} (map : ToolNameMap)
    (renamed : Renamed name) :
    (Dicts.get (mapClientToolNameToKiro env .claudeCode name map).2 (kiroName env name)).isSome := by
  obtain ⟨-, ⟨-, entered | set⟩ | ⟨kept, -⟩⟩ := mapClientToolNameToKiro_spec env name map
  · rw [entered, Dicts.get_orInsert, if_pos rfl]
    rfl
  · rw [set, Dicts.get_insert_self]
    rfl
  · exact absurd renamed kept

private theorem isSome_mapClientToolNameToKiro_of_isSome {name key : String} {map : ToolNameMap}
    (held : (Dicts.get map key).isSome) :
    (Dicts.get (mapClientToolNameToKiro env .claudeCode name map).2 key).isSome := by
  rcases get_mapClientToolNameToKiro name key map with same | ⟨-, -, set⟩
  · rw [same]
    exact held
  · rw [set]
    rfl

theorem Records.mapName {names : List String} {map : ToolNameMap} (h : Records env names map)
    (name : String) :
    Records env (names ++ [name]) (mapClientToolNameToKiro env .claudeCode name map).2 := by
  constructor
  · intro key value found
    rcases get_mapClientToolNameToKiro name key map with same | ⟨renamed, eq, set⟩
    · rw [same] at found
      obtain ⟨mem, rest⟩ := h.sound key value found
      exact ⟨List.mem_append_left _ mem, rest⟩
    · rw [set] at found
      cases found
      exact ⟨List.mem_append_right _ List.mem_cons_self, renamed, eq.symm⟩
  · intro value mem renamed
    rcases List.mem_append.mp mem with old | new
    · exact isSome_mapClientToolNameToKiro_of_isSome (h.complete value old renamed)
    · cases List.mem_singleton.mp new
      exact isSome_mapClientToolNameToKiro map renamed

theorem Records.restore {names : List String} {map : ToolNameMap} (h : Records env names map)
    (distinct : HashesDistinct env names) {name : String} (mem : name ∈ names)
    (unclaimed : kiroName env name = name → ∀ other ∈ names, kiroName env other = name →
      other = name) (input : Value) :
    (restoreToolUseForClient (kiroName env name) input map).1 = name := by
  unfold restoreToolUseForClient
  dsimp only
  by_cases renamed : Renamed name
  · obtain ⟨found, eq⟩ := Option.isSome_iff_exists.mp (h.complete name mem renamed)
    obtain ⟨found_mem, found_renamed, image⟩ := h.sound _ _ eq
    rw [eq]
    exact kiroName_inj distinct found_mem mem found_renamed renamed image
  · have kept : kiroName env name = name := kiroName_of_not_renamed renamed
    rw [kept]
    cases found : Dicts.get map name with
    | none => rfl
    | some other =>
      obtain ⟨other_mem, -, image⟩ := h.sound _ _ found
      exact unclaimed kept other other_mem image

def firstsBy {α β : Type} [DecidableEq β] (key : α → β) : List α → List α
  | [] => []
  | a :: l => a :: (firstsBy key l).filter fun b => key b ≠ key a

theorem firstsBy_append_singleton {α β : Type} [DecidableEq β] (key : α → β) (l : List α) (a : α) :
    firstsBy key (l ++ [a]) =
      if key a ∈ l.map key then firstsBy key l else firstsBy key l ++ [a] := by
  induction l with
  | nil => simp [firstsBy]
  | cons b l ih =>
    rw [List.cons_append, firstsBy, ih, firstsBy, List.map_cons]
    by_cases later : key a ∈ l.map key
    · rw [if_pos later, if_pos (List.mem_cons_of_mem _ later)]
    · rw [if_neg later]
      by_cases same : key a = key b
      · rw [if_pos (by rw [same]; exact List.mem_cons_self)]
        simp [same]
      · rw [if_neg (by simpa using ⟨same, by simpa using later⟩)]
        simp [same]

theorem firstsBy_sublist {α β : Type} [DecidableEq β] (key : α → β) (l : List α) :
    (firstsBy key l).Sublist l := by
  induction l with
  | nil => exact List.Sublist.slnil
  | cons a l ih => exact (List.filter_sublist.trans ih).cons_cons a

/-- The declared tools, without the one that the mode hides. -/
def visibleTools (tools : List Requests.Tool) : List Requests.Tool :=
  tools.filter (·.name ≠ "fs_append")

def toolKey (env : Env) (t : Requests.Tool) : String :=
  env.caseMaps.toLowercase (kiroName env t.name)

/-- The specification is the one made of the client tool. -/
def BuiltFrom (env : Env) (t : Requests.Tool) (spec : Tool) : Prop :=
  toolSpecificationOf .claudeCode t (kiroName env t.name) = .ok spec

theorem BuiltFrom.name_eq {t : Requests.Tool} {spec : Tool} (built : BuiltFrom env t spec) :
    spec.name = kiroName env t.name := by
  obtain ⟨schema, -, rest⟩ := bind_ok built
  cases rest
  rfl

private structure Declared (env : Env) (done : List Requests.Tool) (loop : ToolLoop) : Prop where
  built : List.Forall₂ (BuiltFrom env) (firstsBy (toolKey env) (visibleTools done)) loop.out
  seen : ∀ key, key ∈ loop.seen ↔ key ∈ (visibleTools done).map (toolKey env)
  records : Records env ((visibleTools done).map (·.name)) loop.map

private theorem Declared.step {done : List Requests.Tool} {loop loop' : ToolLoop}
    (h : Declared env done loop) (t : Requests.Tool)
    (ok : convertTool env .claudeCode loop t = .ok loop') : Declared env (done ++ [t]) loop' := by
  unfold convertTool at ok
  split_ifs at ok with hidden
  · cases ok
    have same : visibleTools (done ++ [t]) = visibleTools done := by
      have name : t.name = "fs_append" := by simpa [isClaudeCodeMode] using hidden
      simp [visibleTools, name]
    exact ⟨by rw [same]; exact h.built, by rw [same]; exact h.seen, by rw [same]; exact h.records⟩
  · have snoc : visibleTools (done ++ [t]) = visibleTools done ++ [t] := by
      have name : t.name ≠ "fs_append" := by simpa [isClaudeCodeMode] using hidden
      simp [visibleTools, name]
    have mapped := (mapClientToolNameToKiro_spec env t.name loop.map).1
    have records : Records env ((visibleTools (done ++ [t])).map (·.name))
        (mapClientToolNameToKiro env .claudeCode t.name loop.map).2 := by
      rw [snoc, List.map_append]
      exact h.records.mapName t.name
    dsimp only at ok
    rw [mapped] at ok
    split_ifs at ok with seen
    · cases ok
      have old : toolKey env t ∈ (visibleTools done).map (toolKey env) :=
        (h.seen _).mp (by simpa [toolKey] using seen)
      refine ⟨?_, ?_, records⟩
      · rw [snoc, firstsBy_append_singleton, if_pos old]
        exact h.built
      · intro key
        rw [snoc, List.map_append, List.mem_append, h.seen]
        constructor
        · exact .inl
        · rintro (before | now)
          · exact before
          · rw [List.mem_singleton.mp now]
            exact old
    · obtain ⟨spec, built, rest⟩ := bind_ok ok
      cases rest
      have new : toolKey env t ∉ (visibleTools done).map (toolKey env) := by
        intro mem
        exact seen (by simpa [toolKey] using (h.seen _).mpr mem)
      refine ⟨?_, ?_, records⟩
      · rw [snoc, firstsBy_append_singleton, if_neg new]
        exact List.rel_append h.built (.cons built .nil)
      · intro key
        rw [snoc, List.map_append, List.mem_append, ← h.seen, List.mem_cons, or_comm]
        simp [toolKey]

theorem convertTools_spec {tools : Option (List Requests.Tool)} {r : List Tool × ToolNameMap}
    (ok : convertTools env .claudeCode tools [] = .ok r) :
    List.Forall₂ (BuiltFrom env) (firstsBy (toolKey env) (visibleTools (tools.getD []))) r.1 ∧
      Records env ((visibleTools (tools.getD [])).map (·.name)) r.2 := by
  cases tools with
  | none =>
    cases ok
    exact ⟨.nil, Records.nil⟩
  | some tools =>
    obtain ⟨loop, folded, rest⟩ := bind_ok ok
    cases rest
    have declared := foldlM_invariant (Declared env) ⟨.nil, by simp [visibleTools], Records.nil⟩
      (fun done t loop loop' h stepped => h.step t stepped) folded
    exact ⟨declared.built, declared.records⟩

def useName (block : ContentBlock) : Option String :=
  if block.blockType = "tool_use" then block.id.bind fun _ => block.name else none

def messageNames (m : Requests.Message) : List String :=
  if m.role = "assistant" then (contentBlocks m.content).filterMap useName else []

def historyNames (req : MessagesRequest) : List String :=
  (sentMessages req).dropLast.flatMap messageNames

theorem Records.block {names : List String} {loop loop' : AssistantLoop} {block : ContentBlock}
    (h : Records env names loop.map)
    (ok : convertAssistantBlock env .claudeCode loop block = .ok loop') :
    Records env (names ++ (useName block).toList) loop'.map := by
  unfold convertAssistantBlock at ok
  split at ok
  · rename_i type
    cases ok
    simpa [useName, type] using h
  · rename_i type
    split at ok
    · rename_i id name has_id has_name
      dsimp only at ok
      split at ok
      · cases ok
        simpa [useName, type, has_id, has_name] using h.mapName name
      · cases ok
    · rename_i incomplete
      cases ok
      have none : useName block = none := by
        cases has_id : block.id with
        | none => simp [useName, has_id]
        | some id =>
          cases has_name : block.name with
          | none => simp [useName, has_name]
          | some name => exact absurd has_name (incomplete id name has_id)
      simpa [none] using h
  · rename_i text use
    cases ok
    rw [useName, if_neg use]
    simpa using h

theorem Records.message {names : List String} {map : ToolNameMap} {msg : Requests.Message}
    {r : Conversation.AssistantMessage × ToolNameMap} (h : Records env names map)
    (assistant : msg.role = "assistant")
    (ok : convertAssistantMessage env .claudeCode msg map = .ok r) :
    Records env (names ++ messageNames msg) r.2 := by
  obtain ⟨loop, folded, rest⟩ := bind_ok ok
  cases rest
  rw [messageNames, if_pos assistant]
  cases content : msg.content with
  | array items =>
    rw [content] at folded
    refine foldlM_invariant
      (fun done loop => Records env (names ++ done.filterMap useName) loop.map) ?_ ?_ folded
    · simpa using h
    · intro done block loop loop' held stepped
      have entered := held.block stepped
      rw [List.append_assoc] at entered
      simpa [List.filterMap_eq_flatMap_toList] using entered
  | null | bool | number | string | object =>
    rw [content] at folded
    cases folded
    simpa [contentBlocks] using h

theorem Records.merge {names : List String} {map : ToolNameMap} {messages : List Requests.Message}
    {r : Conversation.AssistantMessage × ToolNameMap} (h : Records env names map)
    (assistants : ∀ m ∈ messages, m.role = "assistant")
    (ok : mergeAssistantMessages env .claudeCode messages map = .ok r) :
    Records env (names ++ messages.flatMap messageNames) r.2 := by
  unfold mergeAssistantMessages at ok
  split at ok
  · cases ok
  · rename_i msg
    simpa using h.message (assistants msg List.mem_cons_self) ok
  · obtain ⟨merge, folded, rest⟩ := bind_ok ok
    cases rest
    refine (foldlM_invariant (fun done merge => (∀ m ∈ done, m.role = "assistant") →
      Records env (names ++ done.flatMap messageNames) merge.map) ?_ ?_ folded) assistants
    · intro _
      simpa using h
    · intro done msg merge merge' held stepped roles
      obtain ⟨converted, convert, -, -, map⟩ := mergeAssistantMessage_ok stepped
      have entered := (held fun m mem => roles m (List.mem_append_left _ mem)).message
        (roles msg (List.mem_append_right _ List.mem_cons_self)) convert
      rw [List.append_assoc] at entered
      rw [map]
      simpa using entered

/-- The map holds the names of all messages taken in but those that wait in the buffer. -/
private structure Entered (env : Env) (declared : List String) (done : List Requests.Message)
    (loop : HistoryLoop) : Prop where
  assistants : ∀ m ∈ loop.assistantBuffer, m.role = "assistant"
  records : ∃ handled, done.flatMap messageNames =
      handled ++ loop.assistantBuffer.flatMap messageNames ∧
    Records env (declared ++ handled) loop.map

private theorem Entered.flush {declared : List String} {done : List Requests.Message}
    {loop loop' : HistoryLoop} (h : Entered env declared done loop)
    (ok : flushAssistant env .claudeCode loop = .ok loop') :
    loop'.assistantBuffer = [] ∧
      Records env (declared ++ done.flatMap messageNames) loop'.map := by
  obtain ⟨handled, split, records⟩ := h.records
  unfold flushAssistant at ok
  split_ifs at ok with empty
  · cases ok
    have none := List.isEmpty_iff.mp empty
    refine ⟨none, ?_⟩
    rw [split, none]
    simpa using records
  · obtain ⟨r, merged, rest⟩ := bind_ok ok
    cases rest
    refine ⟨rfl, ?_⟩
    have entered := records.merge h.assistants merged
    rw [List.append_assoc, ← split] at entered
    exact entered

theorem flushUser_keeps {modelId : String} {loop loop' : HistoryLoop}
    (ok : flushUser env modelId loop = .ok loop') :
    loop'.assistantBuffer = loop.assistantBuffer ∧ loop'.map = loop.map := by
  unfold flushUser at ok
  split_ifs at ok with empty
  · cases ok
    exact ⟨rfl, rfl⟩
  · obtain ⟨r, -, rest⟩ := bind_ok ok
    cases rest
    exact ⟨rfl, rfl⟩

private theorem Entered.step {declared : List String} {done : List Requests.Message}
    {modelId : String} {loop loop' : HistoryLoop} (h : Entered env declared done loop)
    (msg : Requests.Message) (ok : historyStep env .claudeCode modelId loop msg = .ok loop') :
    Entered env declared (done ++ [msg]) loop' := by
  unfold historyStep at ok
  split_ifs at ok with user assistant
  · obtain ⟨flushed, flush, rest⟩ := bind_ok ok
    cases rest
    obtain ⟨empty, records⟩ := h.flush flush
    refine ⟨by simp [empty], done.flatMap messageNames, ?_, records⟩
    simp [empty, messageNames, user]
  · obtain ⟨flushed, flush, rest⟩ := bind_ok ok
    cases rest
    obtain ⟨same, map⟩ := flushUser_keeps flush
    obtain ⟨handled, split, records⟩ := h.records
    refine ⟨?_, handled, ?_, by rw [map]; exact records⟩
    · intro m mem
      rcases List.mem_append.mp mem with old | new
      · exact h.assistants m (by rw [← same]; exact old)
      · rw [List.mem_singleton.mp new]
        exact assistant
    · simp [same, split]
  · cases ok
    refine ⟨h.assistants, ?_⟩
    simpa [messageNames, assistant] using h.records

theorem buildHistory_records {req : MessagesRequest} {messages : List Requests.Message}
    {modelId : String} {map : ToolNameMap} {names : List String}
    {r : List Conversation.Message × ToolNameMap} (h : Records env names map)
    (ok : buildHistory env .claudeCode req messages modelId map = .ok r) :
    Records env (names ++ messages.dropLast.flatMap messageNames) r.2 := by
  obtain ⟨loop, folded, rest⟩ := bind_ok ok
  obtain ⟨flushed, flush, rest⟩ := bind_ok rest
  obtain ⟨closed, close, rest⟩ := bind_ok rest
  cases rest
  have start : Entered env names [] { history := systemMessages env req modelId, map := map } :=
    ⟨by simp, [], rfl, by simpa using h⟩
  have entered := foldlM_invariant (Entered env names) start
    (fun done msg loop loop' held stepped => held.step msg stepped) folded
  have records := (entered.flush flush).2
  unfold closeHistory at close
  split_ifs at close with empty
  · cases close
    exact records
  · obtain ⟨last, flushed_user, rest⟩ := bind_ok close
    cases rest
    rw [(flushUser_keeps flushed_user).2]
    exact records

private theorem forall₂_imp_mem {α β : Type} {R S : α → β → Prop} {l : List α} {l' : List β}
    (h : List.Forall₂ R l l') (imp : ∀ a ∈ l, ∀ b, R a b → S a b) : List.Forall₂ S l l' := by
  induction h with
  | nil => exact .nil
  | cons holds _ ih =>
    exact .cons (imp _ List.mem_cons_self _ holds)
      (ih fun a mem => imp a (List.mem_cons_of_mem _ mem))

/-- The tool names that the conversion maps: those of the declared tools and of the history. -/
def mappedNames (req : MessagesRequest) : List String :=
  (visibleTools (req.tools.getD [])).map (·.name) ++ historyNames req

/-- A tool that keeps its name keeps it for itself: no other mapped name is sent as that name. -/
def Unclaimed (env : Env) (req : MessagesRequest) (name : String) : Prop :=
  kiroName env name = name → ∀ other ∈ mappedNames req, kiroName env other = name → other = name

theorem records_of_ok {req : MessagesRequest} {result : ConversionResult}
    (ok : convertRequestWithMode env .claudeCode req = .ok result) :
    Records env (mappedNames req) result.toolNameMap := by
  obtain ⟨modelId, -, rest⟩ := bind_ok ok
  obtain ⟨messages, trimmed, rest⟩ := bind_ok rest
  obtain ⟨conversationId, -, rest⟩ := bind_ok rest
  obtain ⟨lastMessage, -, rest⟩ := bind_ok rest
  obtain ⟨current, -, rest⟩ := bind_ok rest
  obtain ⟨converted, convert, rest⟩ := bind_ok rest
  obtain ⟨built, build, rest⟩ := bind_ok rest
  cases rest
  have entered := buildHistory_records (convertTools_spec convert).2 build
  rw [(trimPrefill_ok trimmed).1] at entered
  exact entered

/-- The specifications sent upstream begin with those made of the client's tools, the first of each
Kiro name, and an unclaimed tool's name is given back. The others are placeholders. -/
theorem firsts_restored (env : Env) (req : MessagesRequest) (result : ConversionResult)
    (ok : convertRequestWithMode env .claudeCode req = .ok result)
    (distinct : HashesDistinct env (mappedNames req)) :
    ∃ (specs : List Tool) (names : List String),
      result.conversationState.currentMessage.userInputMessageContext.tools =
          specs ++ names.map createPlaceholderTool ∧
      List.Forall₂
        (fun t spec => BuiltFrom env t spec ∧ (Unclaimed env req t.name → ∀ input,
          (restoreToolUseForClient spec.name input result.toolNameMap).1 = t.name))
        (firstsBy (toolKey env) (visibleTools (req.tools.getD []))) specs := by
  have records := records_of_ok ok
  obtain ⟨modelId, -, rest⟩ := bind_ok ok
  obtain ⟨messages, -, rest⟩ := bind_ok rest
  obtain ⟨conversationId, -, rest⟩ := bind_ok rest
  obtain ⟨lastMessage, -, rest⟩ := bind_ok rest
  obtain ⟨current, -, rest⟩ := bind_ok rest
  obtain ⟨converted, convert, rest⟩ := bind_ok rest
  obtain ⟨built, -, rest⟩ := bind_ok rest
  cases rest
  have built_from := (convertTools_spec convert).1
  refine ⟨converted.1, _, rfl, ?_⟩
  refine forall₂_imp_mem built_from fun t mem spec spec_built => ⟨spec_built, ?_⟩
  intro unclaimed input
  have mapped : t.name ∈ mappedNames req :=
    List.mem_append_left _ (List.mem_map_of_mem ((firstsBy_sublist _ _).subset mem))
  rw [spec_built.name_eq]
  exact records.restore distinct mapped unclaimed input

private def declaring (names : List String) : MessagesRequest where
  model := "claude-sonnet-4-5"
  messages := [
    ⟨"user", .string "edit it"⟩,
    ⟨"assistant", .array [.obj [("type", .string "tool_use"), ("id", .string "toolu_1"),
      ("name", .string "Edit"), ("input", .obj [("file_path", .string "/a")])]]⟩,
    ⟨"user", .string "thanks"⟩]
  tools := some (names.map fun name => { name := name })

private theorem exists_result (names : List String) (count : Nat)
    (run : (convertRequestWithMode Env.sample .claudeCode (declaring names)).toOption.map
      (·.conversationState.currentMessage.userInputMessageContext.tools.length) = some count) :
    ∃ result, convertRequestWithMode Env.sample .claudeCode (declaring names) = .ok result ∧
      result.conversationState.currentMessage.userInputMessageContext.tools.length = count := by
  cases ran : convertRequestWithMode Env.sample .claudeCode (declaring names) with
  | error e =>
    rw [ran] at run
    cases run
  | ok result =>
    rw [ran] at run
    cases run
    exact ⟨result, rfl, rfl⟩

private theorem hashesDistinct_of_short {names : List String}
    (short : ∀ name ∈ names, name.utf8ByteSize ≤ toolNameMaxLen) :
    HashesDistinct env names := by
  intro a mem_a b _ long
  exact absurd (short a mem_a) (Nat.not_le_of_lt long)

/-- Beside `Write` the declared tool `fs_write` is dropped. -/
theorem counterpart_dropped :
    ¬ ∀ (env : Env) (req : MessagesRequest) (result : ConversionResult),
      convertRequestWithMode env .claudeCode req = .ok result →
      ((req.tools.getD []).map fun t => env.caseMaps.toLowercase t.name).Nodup →
      HashesDistinct env (mappedNames req) →
      ∃ specs, specs <+: result.conversationState.currentMessage.userInputMessageContext.tools ∧
        List.Forall₂
          (fun t spec => BuiltFrom env t spec ∧ ∀ input,
            (restoreToolUseForClient spec.name input result.toolNameMap).1 = t.name)
          (visibleTools (req.tools.getD [])) specs := by
  intro claim
  obtain ⟨result, ok, count⟩ := exists_result ["Write", "fs_write"] 1
    (by decide +kernel)
  obtain ⟨specs, sent, built⟩ := claim _ _ result ok (by decide +kernel)
    (hashesDistinct_of_short (by decide +kernel))
  have two : 2 = specs.length := built.length_eq
  have := sent.length_le
  omega

private def fourNames : List String := ["Write", "lookup_user", "fs_write", "Read"]

theorem firsts_restored_three : ∃ result,
    convertRequestWithMode Env.sample .claudeCode (declaring fourNames) = .ok result ∧
      ∃ specs rest,
        result.conversationState.currentMessage.userInputMessageContext.tools = specs ++ rest ∧
        List.Forall₂
          (fun name spec => ∀ input,
            (restoreToolUseForClient spec.name input result.toolNameMap).1 = name)
          ["Write", "lookup_user", "Read"] specs := by
  obtain ⟨result, ok, -⟩ := exists_result fourNames 3 (by decide +kernel)
  obtain ⟨specs, names, tools, built⟩ := firsts_restored _ _ result ok
    (hashesDistinct_of_short (by decide +kernel))
  have unclaimed : ∀ name ∈ ["Write", "lookup_user", "Read"],
      Unclaimed Env.sample (declaring fourNames) name := by
    unfold Unclaimed
    decide +kernel
  have firsts : (firstsBy (toolKey Env.sample)
      (visibleTools ((declaring fourNames).tools.getD []))).map (·.name) =
        ["Write", "lookup_user", "Read"] := by decide +kernel
  refine ⟨result, ok, specs, _, tools, ?_⟩
  rw [← firsts, List.forall₂_map_left_iff]
  rw [← firsts] at unclaimed
  exact forall₂_imp_mem built fun t mem _ built_from =>
    built_from.2 (unclaimed t.name (List.mem_map_of_mem mem))

end KiroRs.Converter.NameRoundTrip
