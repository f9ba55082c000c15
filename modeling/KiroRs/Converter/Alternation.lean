/- Path: KiroRs/Converter/Alternation
   source: src/anthropic/converter.rs
   digest: Which requests give a history in which the user and the assistant take turns. -/

import KiroRs.Converter.Conversion
import KiroRs.Lib.Results
import Mathlib.Data.List.Chain

set_option autoImplicit false
set_option relaxedAutoImplicit false

namespace KiroRs.Converter.Alternation

open KiroRs.Lib
open KiroRs.Lib.Results
open KiroRs.Converter.Models
open KiroRs.Converter.ToolNames
open KiroRs.Converter.Tools
open KiroRs.Converter.Messages
open KiroRs.Converter.Conversion
open KiroRs.Converter.Requests (MessagesRequest)
open KiroRs.Converter.Conversation

inductive Role where
  | user
  | assistant
  deriving DecidableEq, Repr

/-- Whose message of the history it is. -/
def roleOf : Message → Role
  | .user _ => .user
  | .assistant _ => .assistant

def speaker (m : Requests.Message) : Option Role :=
  if m.role = "user" then some .user
  else if m.role = "assistant" then some .assistant
  else none

def spoken (messages : List Requests.Message) : List Role := messages.filterMap speaker

/-- The user and the assistant take turns, the user first and the assistant last, or nobody
speaks. -/
structure Alternating (roles : List Role) : Prop where
  alternates : roles.IsChain (· ≠ ·)
  starts : ∀ r ∈ roles.head?, r = .user
  ends : ∀ r ∈ roles.getLast?, r = .assistant

/-- No message of the assistant stands before the first one of the user. -/
def UserSpeaksFirst (req : MessagesRequest) : Prop :=
  (spoken req.messages).head? = some .user

/-- Who speaks in the words, once for each run of words of one side. -/
structure TurnsOf (words turns : List Role) : Prop where
  chain : turns.IsChain (· ≠ ·)
  first : turns.head? = words.head?
  last : turns.getLast? = words.getLast?

theorem TurnsOf.nil : TurnsOf [] [] := ⟨List.IsChain.nil, rfl, rfl⟩

theorem head?_append_of_last {words : List Role} {r : Role} (last : words.getLast? = some r)
    (more : List Role) : (words ++ more).head? = words.head? := by
  cases words with
  | nil => cases last
  | cons a words => rfl

theorem TurnsOf.again {words turns : List Role} {r : Role} (h : TurnsOf words turns)
    (last : words.getLast? = some r) : TurnsOf (words ++ [r]) turns where
  chain := h.chain
  first := by rw [h.first, head?_append_of_last last]
  last := by rw [h.last, last, List.getLast?_concat]

theorem TurnsOf.change {words turns : List Role} {r : Role} (h : TurnsOf words turns)
    (other : words.getLast? ≠ some r) : TurnsOf (words ++ [r]) (turns ++ [r]) where
  chain := by
    refine List.isChain_append.mpr ⟨h.chain, List.isChain_singleton r, ?_⟩
    intro x is_last y is_head
    rw [List.head?_cons, Option.mem_some_iff] at is_head
    rw [h.last] at is_last
    intro same
    rw [same, ← is_head] at is_last
    exact other is_last
  first := by
    cases words with
    | nil =>
      have empty : turns = [] := List.head?_eq_none_iff.mp h.first
      rw [empty]
    | cons a words =>
      have first := h.first
      cases turns with
      | nil => cases first
      | cons b turns => exact first
  last := by rw [List.getLast?_concat, List.getLast?_concat]

def closing (words : List Role) : List Role :=
  if words.getLast? = some .user then [.assistant] else []

theorem alternating_closed {turns words : List Role} (h : TurnsOf words turns)
    (user_first : words.head? ≠ some .assistant) : Alternating (turns ++ closing words) where
  alternates := by
    unfold closing
    split_ifs with last
    · refine List.isChain_append.mpr ⟨h.chain, List.isChain_singleton _, ?_⟩
      intro x is_last y is_head
      rw [h.last, last, Option.mem_some_iff] at is_last
      rw [List.head?_cons, Option.mem_some_iff] at is_head
      rw [← is_last, ← is_head]
      decide
    · rw [List.append_nil]
      exact h.chain
  starts := by
    intro r is_head
    cases turns with
    | nil =>
      have nobody : words.getLast? = none := h.last.symm
      unfold closing at is_head
      rw [nobody] at is_head
      cases is_head
    | cons a turns =>
      have first : some a = words.head? := h.first
      have same : a = r := Option.some.inj is_head
      rw [← first] at user_first
      cases a with
      | user => exact same.symm
      | assistant => exact absurd rfl user_first
  ends := by
    intro r is_last
    unfold closing at is_last
    split_ifs at is_last with last
    · rw [List.getLast?_concat, Option.mem_some_iff] at is_last
      exact is_last.symm
    · rw [List.append_nil, h.last] at is_last
      cases r with
      | user => exact absurd is_last last
      | assistant => rfl

theorem head?_append_closing {words turns : List Role} (h : TurnsOf words turns) :
    (turns ++ closing words).head? = words.head? := by
  cases turns with
  | nil =>
    have nobody : words = [] := List.getLast?_eq_none_iff.mp h.last.symm
    rw [nobody]
    rfl
  | cons a turns => exact h.first

theorem alternating_closed_iff {base words turns : List Role}
    (exchange : base = [] ∨ base = [.user, .assistant]) (h : TurnsOf words turns) :
    Alternating (base ++ (turns ++ closing words)) ↔ words.head? ≠ some .assistant := by
  have head := head?_append_closing h
  constructor
  · intro alternating assistant_first
    rw [assistant_first] at head
    rcases exchange with rfl | rfl
    · have := alternating.starts .assistant head
      cases this
    · have joined := (List.isChain_append.mp alternating.alternates).2.2
      exact joined .assistant rfl .assistant head rfl
  · intro user_first
    have closed := alternating_closed h user_first
    rcases exchange with rfl | rfl
    · exact closed
    · constructor
      · refine List.isChain_append.mpr ⟨by decide, closed.alternates, ?_⟩
        intro x is_last y is_head
        have is_assistant : Role.assistant = x := Option.some.inj is_last
        rw [closed.starts y is_head, ← is_assistant]
        decide
      · intro r is_head
        exact (Option.some.inj is_head).symm
      · intro r is_last
        rw [List.getLast?_append] at is_last
        cases last : (turns ++ closing words).getLast? with
        | none =>
          rw [last] at is_last
          exact (Option.some.inj is_last).symm
        | some r' =>
          rw [last] at is_last
          have same : r' = r := Option.some.inj is_last
          rw [← same]
          exact closed.ends r' last

variable {env : Env} {mode : ToolCompatibilityMode} {modelId : String}

def userTurn (loop : HistoryLoop) : List Role :=
  if loop.userBuffer.isEmpty then [] else [.user]

def assistantTurn (loop : HistoryLoop) : List Role :=
  if loop.assistantBuffer.isEmpty then [] else [.assistant]

/-- The history so far and the buffer in use hold the turns of the words, and the buffer in use is
the last speaker's. -/
structure Taken (base words : List Role) (loop : HistoryLoop) : Prop where
  user : userTurn loop = if words.getLast? = some .user then [.user] else []
  assistant : assistantTurn loop = if words.getLast? = some .assistant then [.assistant] else []
  turns : ∃ turns, TurnsOf words turns ∧
    loop.history.map roleOf ++ (userTurn loop ++ assistantTurn loop) = base ++ turns

theorem flushAssistant_roles {loop loop' : HistoryLoop}
    (ok : flushAssistant env mode loop = .ok loop') :
    loop'.userBuffer = loop.userBuffer ∧ loop'.assistantBuffer = [] ∧
      loop'.history.map roleOf = loop.history.map roleOf ++ assistantTurn loop := by
  unfold flushAssistant at ok
  unfold assistantTurn
  split_ifs at ok ⊢ with empty
  · cases ok
    exact ⟨rfl, List.isEmpty_iff.mp empty, (List.append_nil _).symm⟩
  · obtain ⟨merged, -, rest⟩ := bind_ok ok
    cases rest
    exact ⟨rfl, rfl, List.map_append⟩

theorem flushUser_roles {loop loop' : HistoryLoop} (ok : flushUser env modelId loop = .ok loop') :
    loop'.assistantBuffer = loop.assistantBuffer ∧ loop'.userBuffer = [] ∧
      loop'.history.map roleOf = loop.history.map roleOf ++ userTurn loop := by
  unfold flushUser at ok
  unfold userTurn
  split_ifs at ok ⊢ with empty
  · cases ok
    exact ⟨rfl, List.isEmpty_iff.mp empty, (List.append_nil _).symm⟩
  · obtain ⟨merged, -, rest⟩ := bind_ok ok
    cases rest
    exact ⟨rfl, rfl, List.map_append⟩

theorem userTurn_push (loop : HistoryLoop) (msg : Requests.Message) :
    userTurn { loop with userBuffer := loop.userBuffer ++ [msg] } = [.user] := by
  unfold userTurn
  simp

theorem assistantTurn_push (loop : HistoryLoop) (msg : Requests.Message) :
    assistantTurn { loop with assistantBuffer := loop.assistantBuffer ++ [msg] } =
      [.assistant] := by
  unfold assistantTurn
  simp

theorem userTurn_nil {loop : HistoryLoop} (empty : loop.userBuffer = []) : userTurn loop = [] := by
  unfold userTurn
  rw [empty]
  rfl

theorem assistantTurn_nil {loop : HistoryLoop} (empty : loop.assistantBuffer = []) :
    assistantTurn loop = [] := by
  unfold assistantTurn
  rw [empty]
  rfl

theorem Taken.speakUser {base words : List Role} {loop loop' : HistoryLoop}
    (h : Taken base words loop) {msg : Requests.Message}
    (ok : flushAssistant env mode loop = .ok loop') :
    Taken base (words ++ [.user]) { loop' with userBuffer := loop'.userBuffer ++ [msg] } := by
  obtain ⟨-, no_assistants, roles⟩ := flushAssistant_roles ok
  obtain ⟨turns, turns_of, eq⟩ := h.turns
  have user_now := userTurn_push loop' msg
  have assistant_now :
      assistantTurn { loop' with userBuffer := loop'.userBuffer ++ [msg] } = [] :=
    assistantTurn_nil no_assistants
  constructor
  · rw [user_now, List.getLast?_concat, if_pos rfl]
  · rw [assistant_now, List.getLast?_concat, if_neg (by decide)]
  · rw [user_now, assistant_now, List.append_nil, roles]
    have user_before := h.user
    have assistant_before := h.assistant
    by_cases last : words.getLast? = some .user
    · rw [if_pos last] at user_before
      rw [last, if_neg (by decide)] at assistant_before
      rw [user_before, assistant_before, List.append_nil] at eq
      rw [assistant_before, List.append_nil]
      exact ⟨turns, turns_of.again last, eq⟩
    · rw [if_neg last] at user_before
      rw [user_before, List.nil_append] at eq
      refine ⟨turns ++ [.user], turns_of.change last, ?_⟩
      rw [eq, List.append_assoc]

theorem Taken.speakAssistant {base words : List Role} {loop loop' : HistoryLoop}
    (h : Taken base words loop) {msg : Requests.Message}
    (ok : flushUser env modelId loop = .ok loop') :
    Taken base (words ++ [.assistant])
      { loop' with assistantBuffer := loop'.assistantBuffer ++ [msg] } := by
  obtain ⟨-, no_users, roles⟩ := flushUser_roles ok
  obtain ⟨turns, turns_of, eq⟩ := h.turns
  have assistant_now := assistantTurn_push loop' msg
  have user_now :
      userTurn { loop' with assistantBuffer := loop'.assistantBuffer ++ [msg] } = [] :=
    userTurn_nil no_users
  constructor
  · rw [user_now, List.getLast?_concat, if_neg (by decide)]
  · rw [assistant_now, List.getLast?_concat, if_pos rfl]
  · rw [user_now, assistant_now, List.nil_append, roles]
    have user_before := h.user
    have assistant_before := h.assistant
    by_cases last : words.getLast? = some .assistant
    · rw [if_pos last] at assistant_before
      rw [last, if_neg (by decide)] at user_before
      rw [user_before, assistant_before, List.nil_append] at eq
      rw [user_before, List.append_nil]
      exact ⟨turns, turns_of.again last, eq⟩
    · rw [if_neg last] at assistant_before
      rw [assistant_before, List.append_nil] at eq
      refine ⟨turns ++ [.assistant], turns_of.change last, ?_⟩
      rw [eq, List.append_assoc]

theorem Taken.step {base : List Role} {done : List Requests.Message} {loop loop' : HistoryLoop}
    (h : Taken base (spoken done) loop) {msg : Requests.Message}
    (ok : historyStep env mode modelId loop msg = .ok loop') :
    Taken base (spoken (done ++ [msg])) loop' := by
  have words : spoken (done ++ [msg]) = spoken done ++ (speaker msg).toList := by
    unfold spoken
    rw [List.filterMap_append]
    cases eq : speaker msg <;> simp [eq]
  rw [words]
  unfold historyStep at ok
  unfold speaker
  split_ifs at ok ⊢ with user assistant
  · obtain ⟨flushed, done, rest⟩ := bind_ok ok
    cases rest
    exact h.speakUser done
  · obtain ⟨flushed, done, rest⟩ := bind_ok ok
    cases rest
    exact h.speakAssistant done
  · cases ok
    rw [Option.toList_none, List.append_nil]
    exact h

theorem systemMessages_roles (env : Env) (req : MessagesRequest) (modelId : String) :
    (systemMessages env req modelId).map roleOf = [] ∨
      (systemMessages env req modelId).map roleOf = [.user, .assistant] := by
  have pair : ∀ content, (systemPair env content modelId).map roleOf = [.user, .assistant] :=
    fun _ => rfl
  unfold systemMessages
  cases req.system with
  | none =>
    dsimp only
    split
    · exact .inr (pair _)
    · exact .inl rfl
  | some system =>
    dsimp only
    split
    · exact .inl rfl
    · split
      · split
        · exact .inr (pair _)
        · exact .inr (pair _)
      · exact .inr (pair _)

theorem roles_buildHistory {req : MessagesRequest} {messages : List Requests.Message}
    {map : ToolNameMap} {r : List Message × ToolNameMap}
    (ok : buildHistory env mode req messages modelId map = .ok r) :
    ∃ turns, TurnsOf (spoken messages.dropLast) turns ∧
      r.1.map roleOf = (systemMessages env req modelId).map roleOf ++
        (turns ++ closing (spoken messages.dropLast)) := by
  obtain ⟨loop, folded, rest⟩ := bind_ok ok
  obtain ⟨flushed, flush, rest⟩ := bind_ok rest
  obtain ⟨closed, close, rest⟩ := bind_ok rest
  cases rest
  have taken := foldlM_invariant
    (fun done loop => Taken ((systemMessages env req modelId).map roleOf) (spoken done) loop)
    ⟨rfl, rfl, [], TurnsOf.nil, rfl⟩
    (fun done msg loop loop' held stepped => held.step stepped) folded
  obtain ⟨users, -, roles⟩ := flushAssistant_roles flush
  obtain ⟨turns, turns_of, eq⟩ := taken.turns
  have user := taken.user
  have assistant := taken.assistant
  refine ⟨turns, turns_of, ?_⟩
  unfold closing
  unfold closeHistory at close
  have same_turn : userTurn flushed = userTurn loop := by
    unfold userTurn
    rw [users]
  by_cases last : (spoken messages.dropLast).getLast? = some .user
  · rw [if_pos last] at user ⊢
    rw [last, if_neg (by decide)] at assistant
    have waiting : ¬ flushed.userBuffer.isEmpty = true := by
      intro empty
      have nothing := userTurn_nil (List.isEmpty_iff.mp empty)
      rw [same_turn, user] at nothing
      cases nothing
    rw [if_neg waiting] at close
    obtain ⟨answered, flush, rest⟩ := bind_ok close
    cases rest
    obtain ⟨-, -, last_roles⟩ := flushUser_roles flush
    show (answered.history ++ [_]).map roleOf = _
    rw [List.map_append, last_roles, roles, same_turn, assistant, List.append_nil]
    rw [assistant, List.append_nil] at eq
    rw [eq, List.append_assoc]
    rfl
  · rw [if_neg last] at user ⊢
    have nothing : flushed.userBuffer.isEmpty = true := by
      by_contra waiting
      have turn : userTurn flushed = [.user] := if_neg waiting
      rw [same_turn, user] at turn
      cases turn
    rw [if_pos nothing] at close
    cases close
    rw [user, List.nil_append] at eq
    rw [roles, eq, List.append_nil]

@[simp] theorem roleOf_removeOrphans (ids : List String) (m : Message) :
    roleOf (removeOrphans ids m) = roleOf m := by
  cases m with
  | user m => rfl
  | assistant m =>
    obtain ⟨content, toolUses⟩ := m
    cases toolUses <;> rfl

theorem roles_removeOrphanedToolUses (history : List Message) (ids : List String) :
    (removeOrphanedToolUses history ids).map roleOf = history.map roleOf := by
  unfold removeOrphanedToolUses
  split_ifs
  · rfl
  · rw [List.map_map]
    exact List.map_congr_left fun m _ => roleOf_removeOrphans ids m

theorem userSpeaksFirst_iff {req : MessagesRequest} {messages : List Requests.Message}
    (trimmed : trimPrefill req.messages = .ok messages) :
    UserSpeaksFirst req ↔ (spoken messages.dropLast).head? ≠ some .assistant := by
  obtain ⟨sent, nonempty⟩ := trimPrefill_ok trimmed
  obtain ⟨rest, split⟩ : messages <+: req.messages := by
    rw [sent]
    exact List.rdropWhile_prefix _ _
  have last_user : speaker (messages.getLast nonempty) = some .user := by
    subst sent
    have not_dropped := List.rdropWhile_last_not _ req.messages nonempty
    exact if_pos (by simpa using not_dropped)
  have words : spoken req.messages = spoken messages.dropLast ++ (.user :: spoken rest) := by
    rw [← split, ← List.dropLast_append_getLast nonempty]
    unfold spoken
    rw [List.filterMap_append, List.filterMap_append, List.dropLast_concat, List.append_assoc]
    rw [List.filterMap_cons_some last_user]
    rfl
  unfold UserSpeaksFirst
  rw [words]
  cases spoken messages.dropLast with
  | nil => simp
  | cons r words => cases r <;> simp

/-- The history of a converted request alternates exactly when the client's first message that is
taken over is the user's. -/
theorem alternating_iff_userSpeaksFirst (env : Env) (mode : ToolCompatibilityMode)
    (req : MessagesRequest) (result : ConversionResult)
    (ok : convertRequestWithMode env mode req = .ok result) :
    Alternating (result.conversationState.history.map roleOf) ↔ UserSpeaksFirst req := by
  obtain ⟨modelId, -, rest⟩ := bind_ok ok
  obtain ⟨messages, trimmed, rest⟩ := bind_ok rest
  obtain ⟨conversationId, -, rest⟩ := bind_ok rest
  obtain ⟨lastMessage, -, rest⟩ := bind_ok rest
  obtain ⟨current, -, rest⟩ := bind_ok rest
  obtain ⟨converted, -, rest⟩ := bind_ok rest
  obtain ⟨built, build, rest⟩ := bind_ok rest
  cases rest
  obtain ⟨turns, turns_of, roles⟩ := roles_buildHistory build
  rw [userSpeaksFirst_iff trimmed,
    ← alternating_closed_iff (systemMessages_roles env req modelId) turns_of, ← roles]
  show Alternating ((removeOrphanedToolUses built.1 _).map roleOf) ↔ _
  rw [roles_removeOrphanedToolUses]

private def talk (first second : String) : MessagesRequest where
  model := "claude-sonnet-4-5"
  messages := [⟨first, .string "Hello."⟩, ⟨second, .string "Hi."⟩, ⟨"user", .string "Go on."⟩]

private def converted (req : MessagesRequest) : Option (List Role) :=
  (convertRequestWithMode Env.sample .claudeCode req).toOption.map fun result =>
    result.conversationState.history.map roleOf

private theorem exists_result {req : MessagesRequest} {roles : List Role}
    (run : converted req = some roles) : ∃ result,
      convertRequestWithMode Env.sample .claudeCode req = .ok result ∧
        result.conversationState.history.map roleOf = roles := by
  unfold converted at run
  cases ran : convertRequestWithMode Env.sample .claudeCode req with
  | error e =>
    rw [ran] at run
    cases run
  | ok result =>
    rw [ran] at run
    cases run
    exact ⟨result, rfl, rfl⟩

theorem alternating_iff_userSpeaksFirst_hello : ∃ result,
    convertRequestWithMode Env.sample .claudeCode (talk "user" "assistant") = .ok result ∧
      UserSpeaksFirst (talk "user" "assistant") := by
  have run : converted (talk "user" "assistant") = some [.user, .assistant] := by decide +kernel
  obtain ⟨result, ok, eq⟩ := exists_result run
  refine ⟨result, ok, (alternating_iff_userSpeaksFirst _ _ _ result ok).mp ?_⟩
  rw [eq]
  exact ⟨by decide, by decide, by decide⟩

/-- A conversation that the assistant begins: its message is the first of the history. -/
theorem assistant_begins :
    ¬ ∀ (env : Env) (mode : ToolCompatibilityMode) (req : MessagesRequest)
      (result : ConversionResult), convertRequestWithMode env mode req = .ok result →
        Alternating (result.conversationState.history.map roleOf) := by
  intro claim
  have run : converted (talk "assistant" "user") = some [.assistant, .user, .assistant] := by
    decide +kernel
  obtain ⟨result, ok, eq⟩ := exists_result run
  have starts := (claim _ _ _ result ok).starts
  rw [eq] at starts
  exact absurd (starts .assistant rfl) (by decide)

end KiroRs.Converter.Alternation
