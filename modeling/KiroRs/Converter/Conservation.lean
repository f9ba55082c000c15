/- Path: KiroRs/Converter/Conservation
   source: src/anthropic/converter.rs
   digest: The converted request carries the texts, tool uses, tool results and images of the client's
   messages in their order, each of them once. -/

import KiroRs.Converter.Content
import KiroRs.Converter.Pairing

set_option autoImplicit false
set_option relaxedAutoImplicit false

namespace KiroRs.Converter.Conservation

open KiroRs.Lib
open KiroRs.Lib.Calls
open KiroRs.Lib.Results
open KiroRs.Lib.Weaving
open KiroRs.Converter.Json
open KiroRs.Converter.Models
open KiroRs.Converter.ToolNames
open KiroRs.Converter.Messages
open KiroRs.Converter.Conversion
open KiroRs.Converter.Content
open KiroRs.Converter.Pairing (clientTranscript currentResults currentResults_of_ok sidesOf
  sidesOf_buildHistory validateToolPairing_spec)
open KiroRs.Converter.Requests (Message MessagesRequest)
open KiroRs.Converter.Conversation (AssistantMessage ToolResult UserInputMessage)

inductive History (env : Env) (mode : ToolCompatibilityMode)
    (spoken : List Message → List String) (orphans : List String) :
    List (List Message) → List Conversation.Message → Prop where
  | nil : History env mode spoken orphans [] []
  | user {runs : List (List Message)} {body : List Conversation.Message} {run : List Message}
      {u : Conversation.UserMessage} (before : History env mode spoken orphans runs body)
      (carries : UserCarries env runs.flatten run u) :
      History env mode spoken orphans (runs ++ [run]) (body ++ [.user u])
  | assistant {runs : List (List Message)} {body : List Conversation.Message}
      {run : List Message} {a : AssistantMessage}
      (before : History env mode spoken orphans runs body)
      (carries : AssistantCarries env mode spoken orphans run a) :
      History env mode spoken orphans (runs ++ [run]) (body ++ [.assistant a])

/-- The current message carries the last one of the client. Of its tool results the first for each
tool use that the history leaves open survive. -/
structure CurrentCarries (env : Env) (opens : List String) (last : Message)
    (current : UserInputMessage) : Prop where
  texts : Carries (textsOf last) current.content
  images : List.Forall₂ (ImageOf env) (sourcesOf last) current.images
  results : ∃ all, List.Forall₂ (ResultOf env) (resultBlocks last) all ∧
    current.userInputMessageContext.toolResults =
      (unseen (·.toolUseId) [] all).filter fun result => result.toolUseId ∈ opens

/-- The converted request carries the client's messages up to the last one of the user. -/
def Conserves (env : Env) (mode : ToolCompatibilityMode) (spoken : List Message → List String)
    (req : MessagesRequest) (result : ConversionResult) : Prop :=
  ∃ runs last modelId body ending orphans,
    sentMessages req = runs.flatten ++ [last] ∧
    result.conversationState.history = systemMessages env req modelId ++ body ++ ending ∧
    (ending = [] ∨ ending = [.assistant (.new "OK")]) ∧
    History env mode spoken orphans runs body ∧
    (∀ id, id ∈ orphans ↔ id ∈ calls (clientTranscript req) ∧
      id ∉ answers (clientTranscript req) ∧ id ∉ currentResults req) ∧
    CurrentCarries env (unanswered (clientTranscript req)) last
      result.conversationState.currentMessage

variable {env : Env} {mode : ToolCompatibilityMode} {modelId : String}

theorem sourcesOf_assistants {run : List Message} (assistants : ∀ m ∈ run, m.role = "assistant") :
    run.flatMap sourcesOf = [] := by
  rw [List.flatMap_eq_nil_iff]
  intro m mem
  unfold sourcesOf
  rw [if_neg (by rw [assistants m mem]; decide)]

/-- What the loop over the messages has done: the history behind the system messages carries some
runs, and the messages after these wait in one buffer. -/
private structure Held (env : Env) (mode : ToolCompatibilityMode)
    (system : List Conversation.Message) (done : List Message) (loop : HistoryLoop) : Prop where
  users : ∀ m ∈ loop.userBuffer, m.role = "user"
  assistants : ∀ m ∈ loop.assistantBuffer, m.role = "assistant"
  carried : ∃ runs body, History env mode spokenTexts [] runs body ∧
    loop.history = system ++ body ∧ Seen env loop.imageDedup runs.flatten ∧
    ((loop.userBuffer = [] ∧ done = runs.flatten ++ loop.assistantBuffer) ∨
      (loop.assistantBuffer = [] ∧ done = runs.flatten ++ loop.userBuffer))

private theorem Held.assistantsFlushed {system : List Conversation.Message} {done : List Message}
    {loop loop' : HistoryLoop} (h : Held env mode system done loop)
    (ok : flushAssistant env mode loop = .ok loop') :
    Held env mode system done loop' ∧ loop'.assistantBuffer = [] := by
  unfold flushAssistant at ok
  split_ifs at ok with empty
  · cases ok
    exact ⟨h, List.isEmpty_iff.mp empty⟩
  · obtain ⟨r, merged, rest⟩ := bind_ok ok
    cases rest
    obtain ⟨users, assistants, runs, body, history, split, seen, buffers⟩ := h
    obtain ⟨no_users, all⟩ : loop.userBuffer = [] ∧ done = runs.flatten ++ loop.assistantBuffer := by
      rcases buffers with waiting | ⟨none, -⟩
      · exact waiting
      · exact absurd (by rw [none]; rfl) empty
    have carries := mergeAssistantMessages_spec assistants merged
    refine ⟨⟨users, by simp, runs ++ [loop.assistantBuffer], _, history.assistant carries, ?_, ?_,
      .inr ⟨rfl, ?_⟩⟩, rfl⟩
    · rw [← List.append_assoc, ← split]
    · intro d
      rw [List.flatten_append, List.flatten_singleton, List.flatMap_append,
        sourcesOf_assistants assistants, List.append_nil]
      exact seen d
    · rw [List.flatten_append, List.flatten_singleton, all, no_users, List.append_nil]

private theorem Held.usersFlushed {system : List Conversation.Message} {done : List Message}
    {loop loop' : HistoryLoop} (h : Held env mode system done loop)
    (ok : flushUser env modelId loop = .ok loop') :
    Held env mode system done loop' ∧ loop'.userBuffer = [] ∧
      loop'.assistantBuffer = loop.assistantBuffer := by
  unfold flushUser at ok
  split_ifs at ok with empty
  · cases ok
    exact ⟨h, List.isEmpty_iff.mp empty, rfl⟩
  · obtain ⟨r, merged, rest⟩ := bind_ok ok
    cases rest
    obtain ⟨users, assistants, runs, body, history, split, seen, buffers⟩ := h
    obtain ⟨no_assistants, all⟩ :
        loop.assistantBuffer = [] ∧ done = runs.flatten ++ loop.userBuffer := by
      rcases buffers with ⟨none, -⟩ | waiting
      · exact absurd (by rw [none]; rfl) empty
      · exact waiting
    obtain ⟨carries, known⟩ := mergeUserMessages_spec seen users merged
    refine ⟨⟨by simp, assistants, runs ++ [loop.userBuffer], _, history.user carries, ?_, ?_,
      .inl ⟨rfl, ?_⟩⟩, rfl, rfl⟩
    · rw [← List.append_assoc, ← split]
    · rw [List.flatten_append, List.flatten_singleton]
      exact known
    · rw [List.flatten_append, List.flatten_singleton, all, no_assistants, List.append_nil]

private theorem Held.step {system : List Conversation.Message} {done : List Message}
    {loop loop' : HistoryLoop} {m : Message} (h : Held env mode system done loop)
    (role : m.role = "user" ∨ m.role = "assistant")
    (ok : historyStep env mode modelId loop m = .ok loop') :
    Held env mode system (done ++ [m]) loop' := by
  unfold historyStep at ok
  split_ifs at ok with user assistant
  · obtain ⟨flushed, flush, rest⟩ := bind_ok ok
    cases rest
    obtain ⟨⟨users, assistants, runs, body, history, split, seen, buffers⟩, none⟩ :=
      h.assistantsFlushed flush
    refine ⟨?_, assistants, runs, body, history, split, seen, .inr ⟨none, ?_⟩⟩
    · intro other mem
      rcases List.mem_append.mp mem with old | new
      · exact users other old
      · rw [List.mem_singleton.mp new]
        exact user
    · rcases buffers with ⟨no_users, all⟩ | ⟨-, all⟩
      · rw [all, none, no_users]
        simp
      · rw [all, List.append_assoc]
  · obtain ⟨flushed, flush, rest⟩ := bind_ok ok
    cases rest
    obtain ⟨⟨users, assistants, runs, body, history, split, seen, buffers⟩, none, -⟩ :=
      h.usersFlushed flush
    refine ⟨users, ?_, runs, body, history, split, seen, .inl ⟨none, ?_⟩⟩
    · intro other mem
      rcases List.mem_append.mp mem with old | new
      · exact assistants other old
      · rw [List.mem_singleton.mp new]
        exact assistant
    · rcases buffers with ⟨-, all⟩ | ⟨no_assistants, all⟩
      · rw [all, List.append_assoc]
      · rw [all, none, no_assistants]
        simp
  · exact absurd role (not_or.mpr ⟨user, assistant⟩)

theorem buildHistory_spec {req : MessagesRequest} {messages : List Message} {map : ToolNameMap}
    {r : List Conversation.Message × ToolNameMap}
    (roles : ∀ m ∈ messages, m.role = "user" ∨ m.role = "assistant")
    (ok : buildHistory env mode req messages modelId map = .ok r) :
    ∃ runs body ending, messages.dropLast = runs.flatten ∧
      r.1 = systemMessages env req modelId ++ body ++ ending ∧
      (ending = [] ∨ ending = [.assistant (.new "OK")]) ∧
      History env mode spokenTexts [] runs body := by
  obtain ⟨loop, folded, rest⟩ := bind_ok ok
  obtain ⟨flushed, flush, rest⟩ := bind_ok rest
  obtain ⟨closed, close, rest⟩ := bind_ok rest
  cases rest
  have start : Held env mode (systemMessages env req modelId) []
      { history := systemMessages env req modelId, map := map } := by
    refine ⟨by simp, by simp, [], [], .nil, by simp, ?_, .inl ⟨rfl, rfl⟩⟩
    intro d
    simp
  have held : Held env mode (systemMessages env req modelId) messages.dropLast loop := by
    refine (foldlM_invariant (fun done loop => (∀ m ∈ done, m.role = "user" ∨ m.role = "assistant") →
      Held env mode (systemMessages env req modelId) done loop) (fun _ => start) ?_ folded)
      fun m mem => roles m (List.dropLast_subset _ mem)
    intro done m loop loop' held stepped each
    have so_far := held fun m mem => each m (List.mem_append_left _ mem)
    exact so_far.step (each m (List.mem_append_right _ List.mem_cons_self)) stepped
  obtain ⟨held_flushed, none⟩ := held.assistantsFlushed flush
  unfold closeHistory at close
  split_ifs at close with empty
  · cases close
    obtain ⟨-, -, runs, body, history, split, -, buffers⟩ := held_flushed
    refine ⟨runs, body, [], ?_, by rw [split, List.append_nil], .inl rfl, history⟩
    rcases buffers with ⟨-, all⟩ | ⟨-, all⟩
    · rw [all, none, List.append_nil]
    · rw [all, List.isEmpty_iff.mp empty, List.append_nil]
  · obtain ⟨last, flush_user, rest⟩ := bind_ok close
    cases rest
    obtain ⟨⟨-, -, runs, body, history, split, -, buffers⟩, no_users, same⟩ :=
      held_flushed.usersFlushed flush_user
    refine ⟨runs, body, [.assistant (.new "OK")], ?_, by rw [split], .inr rfl, history⟩
    rcases buffers with ⟨-, all⟩ | ⟨-, all⟩
    · rw [all, same, none, List.append_nil]
    · rw [all, no_users, List.append_nil]

def imagesOf : Conversation.Message → List Conversation.KiroImage
  | .user u => u.images
  | .assistant _ => []

theorem History.images_once {runs : List (List Message)} {body : List Conversation.Message}
    {spoken : List Message → List String} {orphans : List String}
    (h : History env mode spoken orphans runs body) :
    ∃ sources, List.Forall₂ (ImageOf env) sources (body.flatMap imagesOf) ∧
      (sources.map (digestOf env)).Nodup ∧
      ∀ d, d ∈ sources.map (digestOf env) ↔
        d ∈ (runs.flatten.flatMap sourcesOf).map (digestOf env) := by
  have images : List.Forall₂ (ImageOf env)
      (unseen (digestOf env) [] (runs.flatten.flatMap sourcesOf)) (body.flatMap imagesOf) := by
    induction h with
    | nil => exact .nil
    | user _ carries ih =>
      rw [List.flatten_append, List.flatten_singleton, List.flatMap_append, unseen_append,
        List.flatMap_append, List.flatMap_singleton]
      exact List.rel_append ih carries.images
    | assistant _ carries ih =>
      rw [List.flatten_append, List.flatten_singleton, List.flatMap_append,
        sourcesOf_assistants carries.assistants, List.append_nil, List.flatMap_append,
        List.flatMap_singleton, imagesOf, List.append_nil]
      exact ih
  obtain ⟨nodup, keys⟩ :=
    unseen_keys (digestOf env) [] (runs.flatten.flatMap sourcesOf)
  refine ⟨_, images, nodup, fun d => ?_⟩
  rw [keys]
  simp

theorem removeOrphans_assistant (orphans : List String) (a : AssistantMessage) :
    ∃ a', removeOrphans orphans (.assistant a) = .assistant a' ∧ a'.content = a.content ∧
      a'.toolUses.getD [] =
        (a.toolUses.getD []).filter fun entry => !orphans.contains entry.toolUseId := by
  unfold removeOrphans
  cases held : a.toolUses with
  | none => exact ⟨a, by simp only [held], rfl, by rw [held]; rfl⟩
  | some toolUses =>
    simp only [held]
    refine ⟨_, rfl, rfl, ?_⟩
    dsimp only
    split_ifs with empty
    · exact (List.isEmpty_iff.mp empty).symm
    · rfl

theorem History.removeOrphans {runs : List (List Message)} {body : List Conversation.Message}
    {spoken : List Message → List String} (orphans : List String)
    (h : History env mode spoken [] runs body) :
    History env mode spoken orphans runs (body.map (Conversion.removeOrphans orphans)) := by
  induction h with
  | nil => exact .nil
  | user _ carries ih =>
    rw [List.map_append, List.map_singleton]
    exact ih.user carries
  | assistant _ carries ih =>
    rename_i a _
    obtain ⟨a', removed, content, kept⟩ := removeOrphans_assistant orphans a
    obtain ⟨assistants, texts, entries, uses, all⟩ := carries
    rw [List.map_append, List.map_singleton, removed]
    refine ih.assistant ⟨assistants, ?_, entries, uses, ?_⟩
    · rw [content]
      exact texts
    · rw [kept, all]
      simp

theorem removeOrphans_systemMessages (req : MessagesRequest) (orphans : List String) :
    (systemMessages env req modelId).map (removeOrphans orphans) =
      systemMessages env req modelId := by
  have pair : ∀ content, (systemPair env content modelId).map (removeOrphans orphans) =
      systemPair env content modelId := fun _ => rfl
  unfold systemMessages
  cases req.system with
  | none =>
    dsimp only
    split
    · exact pair _
    · rfl
  | some system =>
    dsimp only
    split
    · rfl
    · split
      · split
        · exact pair _
        · exact pair _
      · exact pair _

theorem foldl_pairResult_filtered (results : List ToolResult) (loop : PairingLoop) :
    (results.foldl pairResult loop).filtered = loop.filtered ++
      (unseen (·.toolUseId) [] results).filter fun r => r.toolUseId ∈ loop.unpaired := by
  induction results generalizing loop with
  | nil => simp [unseen]
  | cons r results ih =>
    have rest : unseen (·.toolUseId) [r.toolUseId] results =
        (unseen (·.toolUseId) [] results).filter (·.toolUseId ≠ r.toolUseId) :=
      unseen_cons_seen _ _ _
    rw [List.foldl_cons, ih, unseen, if_neg List.not_mem_nil, rest]
    by_cases mem : r.toolUseId ∈ loop.unpaired
    · have step : pairResult loop r =
          { unpaired := loop.unpaired.filter (· ≠ r.toolUseId),
            filtered := loop.filtered ++ [r] } := if_pos (by simpa using mem)
      rw [step, List.filter_cons_of_pos (by simpa using mem), List.append_assoc,
        List.filter_filter]
      refine congrArg _ (congrArg _ (List.filter_congr fun other _ => ?_))
      simp
    · have step : pairResult loop r = loop := if_neg (by simpa using mem)
      rw [step, List.filter_cons_of_neg (by simpa using mem), List.filter_filter]
      refine congrArg _ (List.filter_congr fun other _ => ?_)
      by_cases opened : other.toolUseId ∈ loop.unpaired
      · have ne : other.toolUseId ≠ r.toolUseId := by
          intro eq
          exact mem (by rw [← eq]; exact opened)
        simp [opened, ne]
      · simp [opened]

theorem lastOf_ok {messages : List Message} {last : Message} (ok : lastOf messages = .ok last) :
    messages = messages.dropLast ++ [last] := by
  unfold lastOf at ok
  split at ok
  · rename_i m found
    cases ok
    exact (List.dropLast_append_getLast? last found).symm
  · cases ok

theorem role_of_sentMessages {req : MessagesRequest} {before : List Message} {last : Message}
    (sent : sentMessages req = before ++ [last]) : last.role = "user" := by
  have nonempty : sentMessages req ≠ [] := by simp [sent]
  have kept := List.rdropWhile_last_not _ _ nonempty
  have is_last : (sentMessages req).getLast nonempty = last := by simp [sent]
  unfold sentMessages at is_last
  rw [is_last] at kept
  simpa using kept

theorem History.orphansRemoved {req : MessagesRequest} {runs : List (List Message)}
    {history body ending : List Conversation.Message} {spoken : List Message → List String}
    (h : History env mode spoken [] runs body)
    (split : history = systemMessages env req modelId ++ body ++ ending)
    (ends : ending = [] ∨ ending = [.assistant (.new "OK")]) (orphans : List String) :
    ∃ body', removeOrphanedToolUses history orphans =
        systemMessages env req modelId ++ body' ++ ending ∧
      History env mode spoken orphans runs body' := by
  unfold removeOrphanedToolUses
  split_ifs with empty
  · rw [List.isEmpty_iff.mp empty]
    exact ⟨body, split, h⟩
  · refine ⟨_, ?_, h.removeOrphans orphans⟩
    have last : ending.map (Conversion.removeOrphans orphans) = ending := by
      rcases ends with rfl | rfl
      · rfl
      · rfl
    rw [split, List.map_append, List.map_append, removeOrphans_systemMessages, last]

/-- A request of messages of the user and the assistant is converted into one that carries them:
texts, tool uses and tool results in their order and once each, images at first sight. -/
theorem conserved (env : Env) (mode : ToolCompatibilityMode) (req : MessagesRequest)
    (result : ConversionResult)
    (roles : ∀ m ∈ req.messages, m.role = "user" ∨ m.role = "assistant")
    (ok : convertRequestWithMode env mode req = .ok result) :
    Conserves env mode spokenTexts req result := by
  obtain ⟨modelId, -, rest⟩ := bind_ok ok
  obtain ⟨messages, trimmed, rest⟩ := bind_ok rest
  obtain ⟨conversationId, -, rest⟩ := bind_ok rest
  obtain ⟨last, is_last, rest⟩ := bind_ok rest
  obtain ⟨current, processed, rest⟩ := bind_ok rest
  obtain ⟨converted, -, rest⟩ := bind_ok rest
  obtain ⟨built, build, rest⟩ := bind_ok rest
  cases rest
  have sent : sentMessages req = messages := (trimPrefill_ok trimmed).1.symm
  have split : sentMessages req = messages.dropLast ++ [last] := by
    rw [sent]
    exact lastOf_ok is_last
  have each : ∀ m ∈ messages, m.role = "user" ∨ m.role = "assistant" := by
    intro m mem
    rw [← sent] at mem
    exact roles m ((List.rdropWhile_prefix _ _).subset mem)
  obtain ⟨runs, body, ending, all, history, ends, carried⟩ := buildHistory_spec each build
  obtain ⟨took, texts, results⟩ :=
    processMessageContentDedup_spec (role_of_sentMessages split) processed
  obtain ⟨⟨new, images, first⟩, -⟩ := took
  have before : built.1.flatMap sidesOf = clientTranscript req := by
    rw [sidesOf_buildHistory build, clientTranscript, sent]
  have late := currentResults_of_ok trimmed is_last processed
  obtain ⟨-, orphans⟩ := validateToolPairing_spec built.1 current.toolResults
  rw [late, before] at orphans
  have opens : unanswered (clientTranscript req) =
      ((built.1.flatMap toolUsesOf).map (·.toolUseId)).filter fun id =>
        !((built.1.flatMap toolResultsOf).map (·.toolUseId)).contains id := by
    rw [← before, unanswered, Pairing.calls_sidesOf, Pairing.answers_sidesOf]
    refine List.filter_congr fun id _ => ?_
    simp
  have orphans_iff : ∀ id, id ∈ (validateToolPairing built.1 current.toolResults).2 ↔
      id ∈ calls (clientTranscript req) ∧ id ∉ answers (clientTranscript req) ∧
        id ∉ currentResults req := by
    intro id
    rw [orphans, mem_stillOpen, unanswered, List.mem_filter, decide_eq_true_eq, and_assoc]
  obtain ⟨body', removed, carried'⟩ := carried.orphansRemoved history ends
    (validateToolPairing built.1 current.toolResults).2
  refine ⟨runs, last, modelId, body', ending, _, ?_, removed, ends, carried', orphans_iff, texts,
    ?_, current.toolResults, results, ?_⟩
  · rw [split, all]
  · change List.Forall₂ _ _ current.images
    rw [images, List.nil_append]
    exact first
  · rw [opens]
    exact foldl_pairResult_filtered current.toolResults { unpaired := _ }

private def saidLength : Conversation.Message → Nat
  | .user _ => 0
  | .assistant a => a.content.length

private def textLength (m : Message) : Nat :=
  if m.role = "assistant" then ((textsOf m).map String.length).sum else 0

private theorem length_le_of_carries {texts : List String} {content : String}
    (h : Carries texts content) : (texts.map String.length).sum ≤ content.length := by
  have fits := (Woven.sublist h).length_le
  rw [List.length_flatten, List.map_map, String.length_toList] at fits
  exact fits

private theorem textLength_le {runs : List (List Message)} {body : List Conversation.Message}
    {orphans : List String}
    (h : History env mode (fun run => run.flatMap textsOf) orphans runs body) :
    (runs.flatten.map textLength).sum ≤ (body.map saidLength).sum := by
  induction h with
  | nil => exact Nat.le_refl 0
  | user _ carries ih =>
    rename_i run u _
    have silent : run.map textLength = run.map fun _ => 0 := by
      refine List.map_congr_left fun m mem => ?_
      unfold textLength
      rw [if_neg (by rw [carries.users m mem]; decide)]
    simpa [silent, saidLength] using ih
  | assistant _ carries ih =>
    rename_i run a _
    have spoken : (run.map textLength).sum = ((run.flatMap textsOf).map String.length).sum := by
      rw [List.map_flatMap, List.flatMap_def, List.sum_flatten, List.map_map]
      refine congrArg List.sum (List.map_congr_left fun m mem => ?_)
      unfold textLength
      rw [if_pos (carries.assistants m mem)]
      rfl
    have fits := length_le_of_carries carries.texts
    simp only [List.flatten_append, List.flatten_singleton, List.map_append, List.sum_append,
      List.map_singleton, List.sum_singleton, saidLength]
    omega

private def blankFirst : MessagesRequest where
  model := "claude-sonnet-4-5"
  messages := [⟨"user", .string "hi"⟩, ⟨"assistant", .array [.obj [("type", .string "text"),
    ("text", .string "   ")]]⟩, ⟨"assistant", .string "yes"⟩, ⟨"user", .string "thanks"⟩]

private theorem exists_blankFirst : ∃ result,
    convertRequestWithMode Env.sample .claudeCode blankFirst = .ok result ∧
      (result.conversationState.history.map saidLength).sum = 3 := by
  have run : (convertRequestWithMode Env.sample .claudeCode blankFirst).toOption.map
      (fun result => (result.conversationState.history.map saidLength).sum) = some 3 := by
    decide +kernel
  cases ran : convertRequestWithMode Env.sample .claudeCode blankFirst with
  | error e =>
    rw [ran] at run
    cases run
  | ok result =>
    rw [ran] at run
    exact ⟨result, rfl, Option.some.inj run⟩

/-- The text of a blank message is lost where messages of the assistant are merged. -/
theorem blank_text_lost :
    ¬ ∀ (env : Env) (mode : ToolCompatibilityMode) (req : MessagesRequest)
      (result : ConversionResult), (∀ m ∈ req.messages, m.role = "user" ∨ m.role = "assistant") →
      convertRequestWithMode env mode req = .ok result →
      Conserves env mode (fun run => run.flatMap textsOf) req result := by
  intro claim
  obtain ⟨result, ok, said⟩ := exists_blankFirst
  obtain ⟨runs, last, modelId, body, ending, orphans, sent, split, -, history, -⟩ :=
    claim _ _ _ result (by decide) ok
  have fits := textLength_le history
  have asked : ((sentMessages blankFirst).dropLast.map textLength).sum = 6 := by decide +kernel
  rw [sent, List.dropLast_concat] at asked
  rw [split, List.map_append, List.map_append, List.sum_append, List.sum_append] at said
  omega

theorem conserved_blankFirst : ∃ result,
    convertRequestWithMode Env.sample .claudeCode blankFirst = .ok result ∧
      Conserves Env.sample .claudeCode spokenTexts blankFirst result := by
  obtain ⟨result, ok, -⟩ := exists_blankFirst
  exact ⟨result, ok, conserved _ _ _ result (by decide) ok⟩

end KiroRs.Converter.Conservation
