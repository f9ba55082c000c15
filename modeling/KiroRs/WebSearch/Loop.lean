/- Path: KiroRs/WebSearch/Loop
   source: src/anthropic/websearch_loop.rs, src/anthropic/websearch.rs, src/anthropic/handlers.rs
   digest: The requests that are routed to the web search loop, and the loop with its state, its
   usage records and its ends. -/

import KiroRs.Lib.Results
import KiroRs.Lib.Rounds
import KiroRs.WebSearch.Rounds

set_option autoImplicit false
set_option relaxedAutoImplicit false

namespace KiroRs.WebSearch.Loop

open KiroRs.Lib.Results (map_ok)
open KiroRs.Lib.Rounds
open KiroRs.Lib.Text (trim)
open KiroRs.Admin.UsageStats (UsageRecord)
open KiroRs.Converter.Conversion (ConversionResult)
open KiroRs.Converter.Json
open KiroRs.Converter.Requests (Message MessagesRequest Tool)
open KiroRs.Converter.ToolNames (ToolCompatibilityMode)
open KiroRs.Stream.Events
open KiroRs.WebSearch.Rounds

def normalizeTool (tool : Tool) : Tool :=
  if tool.name = "WebSearch" then { tool with name := "web_search" } else tool

def normalizeWebSearchTool (payload : MessagesRequest) : MessagesRequest :=
  { payload with tools := payload.tools.map (·.map normalizeTool) }

def hasWebSearchTool (req : MessagesRequest) : Bool :=
  req.tools.any fun tools => tools.length == 1 && tools.head?.any (·.name == "web_search")

def hasWebSearchAmongTools (req : MessagesRequest) : Bool :=
  req.tools.any fun tools => 1 < tools.length && tools.any (·.name == "web_search")

def directWebSearchPrefix : String := "Perform a web search for the query: "

def textOfBlock (block : Value) : Option String :=
  if (block.get "type").bind Value.asStr = some "text" then (block.get "text").bind Value.asStr
  else none

def userTexts (msg : Message) : List String :=
  match msg.content with
  | .string s => [s]
  | .array blocks => blocks.filterMap textOfBlock
  | _ => []

def iterUserTextBlocks (req : MessagesRequest) : List String :=
  (req.messages.filter (·.role == "user")).flatMap userTexts

def directQuery (text : String) : Option String :=
  if directWebSearchPrefix.toList.isPrefixOf text.toList then
    let query := trim (String.ofList (text.toList.drop directWebSearchPrefix.toList.length))
    if query.isEmpty then none else some query
  else none

def extractSearchQuery (req : MessagesRequest) : Option String :=
  (iterUserTextBlocks req).findSome? directQuery

def isDirectWebSearchRequest (req : MessagesRequest) : Bool := (extractSearchQuery req).isSome

/-- What the loop gets of a request, where it gets it. -/
def routeToLoop (req : MessagesRequest) : Option MessagesRequest :=
  let payload := normalizeWebSearchTool req
  if hasWebSearchTool payload && isDirectWebSearchRequest payload then none
  else if hasWebSearchTool payload || hasWebSearchAmongTools payload then some payload
  else none

def maxWebSearchRounds : Nat := 5

def shouldSearchRound (roundIdx : Nat) (toolUses : List DecodedToolUse) : Bool :=
  let onlyWebSearch := !toolUses.isEmpty && toolUses.all (·.name == "web_search")
  onlyWebSearch && roundIdx < maxWebSearchRounds

structure WebSearchLoopSuccess where
  model : String
  content : List Value
  stopReason : String
  inputTokens : Int
  outputTokens : Int
  cacheCreationTokens : Int
  cacheReadTokens : Int

structure LoopState where
  payload : MessagesRequest
  presentation : List Value := []
  lastCredentialId : Nat := 0
  lastContextInput : Option Int := none
  totalCredits : UInt64 := 0

/-- What the outside answers in one round: the call, its searches, and the identifiers made for
these. -/
structure RoundReply where
  call : Except String StreamReply
  mcp : Nat → Except String McpResponse
  srvIds : Nat → String

/-- What stays the same in all rounds of a request. -/
structure LoopSetting extends Setting where
  cacheUsage : CacheUsage
  thinkingEnabled : Bool

def LoopSetting.start (env : SearchEnv) (mode : ToolCompatibilityMode) (hook : UsageRecordHook)
    (cacheUsage : CacheUsage) (payload : MessagesRequest) : LoopSetting where
  mode := mode
  hook := hook
  fallbackInputTokens := wrapI32 (env.countAllTokens payload)
  cacheUsage := cacheUsage
  thinkingEnabled := payload.thinking.any (·.isEnabled)

def appendSearchRound (env : SearchEnv) (s : LoopState) (round : RoundOutcome)
    (searched : List (Option WebSearchResults)) (srvIds : Nat → String) (thinkingEnabled : Bool) :
    LoopState :=
  { s with
    payload := { s.payload with
      messages := s.payload.messages ++ searchMessages round searched thinkingEnabled }
    presentation := s.presentation ++ (round.toolUses.zip searched).zipIdx.flatMap fun p =>
      presentationBlocks env (srvIds p.2) p.1.1 p.1.2 }

/-- The state once the round is decoded. -/
def LoopState.decoded (env : SearchEnv) (s : LoopState) (round : RoundOutcome)
    (credentialId : Nat) : LoopState :=
  { s with
    lastCredentialId := credentialId
    lastContextInput := round.contextInputTokens.or s.lastContextInput
    totalCredits := env.addF64 s.totalCredits round.credits }

/-- A record without tokens of the answer, for an end that is not a success. -/
def loopFailed (env : SearchEnv) (setting : LoopSetting) (s : LoopState) (e : LoopError) :
    List Effect × Except LoopError WebSearchLoopSuccess :=
  ([.recorded (setting.hook.record env s.lastCredentialId setting.fallbackInputTokens 0 0 0
    s.totalCredits "error")], .error e)

/-- The searches of a decoded round. Any that fails ends the loop. -/
def searchRound (env : SearchEnv) (setting : LoopSetting) (s : LoopState) (round : RoundOutcome)
    (reply : RoundReply) : List Effect × Next LoopState (Except LoopError WebSearchLoopSuccess) :=
  match searchAll env reply.mcp 0 round.toolUses with
  | (effects, .error e) =>
    let failed := loopFailed env setting s (.search e)
    (effects ++ failed.1, .stop failed.2)
  | (effects, .ok searched) =>
    (effects, .again (appendSearchRound env s round searched reply.srvIds setting.thinkingEnabled))

/-- The answer to the client. -/
def finishLoop (env : SearchEnv) (setting : LoopSetting) (s : LoopState) (round : RoundOutcome) :
    List Effect × Except LoopError WebSearchLoopSuccess :=
  let stopReason := round.stopReasonOverride.getD
    (if round.toolUses.isEmpty then "end_turn" else "tool_use")
  let totalInput := s.lastContextInput.getD setting.fallbackInputTokens
  let (finalInput, creation, read) := env.splitAgainstTotal setting.cacheUsage totalInput
  let content := s.presentation ++ roundBlocks round setting.thinkingEnabled
  let outputTokens := env.estimateOutputTokens content
  ([.recorded (setting.hook.record env s.lastCredentialId finalInput outputTokens creation read
      s.totalCredits "success")],
    .ok {
      model := s.payload.model
      content := content
      stopReason := stopReason
      inputTokens := finalInput
      outputTokens := outputTokens
      cacheCreationTokens := creation
      cacheReadTokens := read })

/-- The body of the loop. -/
def roundStep (env : SearchEnv) (setting : LoopSetting) (replies : Nat → RoundReply)
    (roundIdx : Nat) (s : LoopState) :
    List Effect × Next LoopState (Except LoopError WebSearchLoopSuccess) :=
  match runRound env setting.toSetting s.payload (replies roundIdx).call with
  | (effects, .error e) => (effects, .stop (.error e))
  | (effects, .ok (round, credentialId)) =>
    let s := s.decoded env round credentialId
    if shouldSearchRound roundIdx round.toolUses then
      let searched := searchRound env setting s round (replies roundIdx)
      (effects ++ searched.1, searched.2)
    else
      let finished := finishLoop env setting s round
      (effects ++ finished.1, .stop finished.2)

/-- `run_web_search_loop_inner`. The replies are given by the round they answer. -/
def runWebSearchLoopInner (env : SearchEnv) (mode : ToolCompatibilityMode) (hook : UsageRecordHook)
    (cacheUsage : CacheUsage) (payload : MessagesRequest) (replies : Nat → RoundReply) :
    List Effect × Except LoopError WebSearchLoopSuccess :=
  let setting := LoopSetting.start env mode hook cacheUsage payload
  rounds (roundStep env setting replies)
    -- the statement after the loop
    (fun s => loopFailed env setting s .exitedUnexpectedly)
    (List.range (maxWebSearchRounds + 1)) { payload := payload }

/-- The round is converted, sent and answered, and its answer is decoded to the end. -/
structure Decoded (env : SearchEnv) (setting : Setting) (payload : MessagesRequest)
    (call : Except String StreamReply) (conversion : ConversionResult) (reply : StreamReply) :
    Prop where
  converted : convertBlocking env setting.mode payload = .ok conversion
  serialized : ∃ body, env.serialize conversion.conversationState
    conversion.additionalModelRequestFields = .ok body
  answered : call = .ok reply
  parsed : (decodeRound env payload.model conversion.toolNameMap reply).toolJsonError = none
  complete : reply.readError = false

/-- Requests and answers, neither searches nor records. -/
def IsExchange : Effect → Prop
  | .sent _ | .received _ => True
  | .searched _ | .recorded _ => False

/-- A round is decoded, or it fails and writes a record without credits. -/
theorem runRound_cases (env : SearchEnv) (setting : Setting) (payload : MessagesRequest)
    (call : Except String StreamReply) :
    (∃ conversion body reply, Decoded env setting payload call conversion reply ∧
      runRound env setting payload call = ([.sent body, .received reply.events],
        .ok (decodeRound env payload.model conversion.toolNameMap reply, reply.credentialId))) ∨
    ((¬ ∃ conversion reply, Decoded env setting payload call conversion reply) ∧
      ∃ before inputTokens e, (∀ x ∈ before, IsExchange x) ∧ e ≠ .exitedUnexpectedly ∧
        runRound env setting payload call =
          (before ++ [.recorded (setting.hook.record env 0 inputTokens 0 0 0 0 "error")],
            .error e)) := by
  cases converted : convertBlocking env setting.mode payload with
  | error e =>
    refine .inr ⟨?_, [], 0, .conversion e, by simp, by simp, ?_⟩
    · rintro ⟨conversion, reply, decoded⟩
      have := decoded.converted
      rw [converted] at this
      cases this
    · simp only [runRound, converted, roundFailed, List.nil_append]
  | ok conversion =>
    have same : ∀ {conversion' reply}, Decoded env setting payload call conversion' reply →
        conversion' = conversion := by
      intro conversion' reply decoded
      have := decoded.converted
      rw [converted] at this
      exact (Except.ok.inj this).symm
    cases serialized : env.serialize conversion.conversationState
        conversion.additionalModelRequestFields with
    | error e =>
      refine .inr ⟨?_, [], 0, .serialization e, by simp, by simp, ?_⟩
      · rintro ⟨conversion', reply, decoded⟩
        obtain ⟨body, ok⟩ := decoded.serialized
        rw [same decoded, serialized] at ok
        cases ok
      · simp only [runRound, converted, serialized, roundFailed, List.nil_append]
    | ok body =>
      cases call with
      | error e =>
        refine .inr ⟨?_, [.sent body], setting.fallbackInputTokens, .upstreamCall e,
          by simp [IsExchange], by simp, ?_⟩
        · rintro ⟨conversion', reply, decoded⟩
          cases decoded.answered
        · simp only [runRound, converted, serialized, roundFailed, List.singleton_append]
      | ok reply =>
        cases parsed :
            (decodeRound env payload.model conversion.toolNameMap reply).toolJsonError with
        | some message =>
          refine .inr ⟨?_, [.sent body, .received reply.events], setting.fallbackInputTokens,
            .toolJson message, by simp [IsExchange], by simp, ?_⟩
          · rintro ⟨conversion', reply', decoded⟩
            have := decoded.parsed
            rw [same decoded, ← Except.ok.inj decoded.answered, parsed] at this
            cases this
          · simp only [runRound, converted, serialized, parsed, roundFailed, List.cons_append,
              List.nil_append]
        | none =>
          cases broken : reply.readError with
          | true =>
            refine .inr ⟨?_, [.sent body, .received reply.events], setting.fallbackInputTokens,
              .interrupted, by simp [IsExchange], by simp, ?_⟩
            · rintro ⟨conversion', reply', decoded⟩
              have := decoded.complete
              rw [← Except.ok.inj decoded.answered, broken] at this
              cases this
            · simp only [runRound, converted, serialized, parsed, decodeRound_streamError, broken,
                if_true, roundFailed, List.cons_append, List.nil_append]
          | false =>
            refine .inl ⟨conversion, body, reply,
              ⟨converted, ⟨body, serialized⟩, rfl, parsed, broken⟩, ?_⟩
            simp only [runRound, converted, serialized, parsed, decodeRound_streamError, broken,
              Bool.false_eq_true, if_false]

variable {env : SearchEnv} {setting : LoopSetting} {replies : Nat → RoundReply} {i : Nat}
  {s s' : LoopState} {conversion : ConversionResult} {reply : StreamReply}

theorem Decoded.runRound_eq {setting : Setting} {payload : MessagesRequest}
    {call : Except String StreamReply}
    (decoded : Decoded env setting payload call conversion reply) :
    ∃ body, runRound env setting payload call = ([.sent body, .received reply.events],
      .ok (decodeRound env payload.model conversion.toolNameMap reply, reply.credentialId)) := by
  rcases runRound_cases env setting payload call with
    ⟨conversion', body, reply', decoded', eq⟩ | ⟨fails, -⟩
  · have replies := decoded.answered
    rw [decoded'.answered] at replies
    cases replies
    have conversions := decoded.converted
    rw [decoded'.converted] at conversions
    cases conversions
    exact ⟨body, eq⟩
  · exact absurd ⟨conversion, reply, decoded⟩ fails

/-- The round of a reply, as the loop sees it. -/
def roundOf (env : SearchEnv) (s : LoopState) (conversion : ConversionResult)
    (reply : StreamReply) : RoundOutcome :=
  decodeRound env s.payload.model conversion.toolNameMap reply

/-- The loop state behind the decoding of that round. -/
def stateOf (env : SearchEnv) (s : LoopState) (conversion : ConversionResult)
    (reply : StreamReply) : LoopState :=
  s.decoded env (roundOf env s conversion reply) reply.credentialId

theorem Decoded.roundStep_search
    (decoded : Decoded env setting.toSetting s.payload (replies i).call conversion reply)
    (search : shouldSearchRound i (roundOf env s conversion reply).toolUses = true) :
    ∃ body, roundStep env setting replies i s =
      (.sent body :: .received reply.events ::
          (searchRound env setting (stateOf env s conversion reply)
            (roundOf env s conversion reply) (replies i)).1,
        (searchRound env setting (stateOf env s conversion reply)
          (roundOf env s conversion reply) (replies i)).2) := by
  obtain ⟨body, ran⟩ := decoded.runRound_eq
  refine ⟨body, ?_⟩
  unfold roundStep
  rw [ran]
  exact if_pos search

theorem Decoded.roundStep_finish
    (decoded : Decoded env setting.toSetting s.payload (replies i).call conversion reply)
    (finish : shouldSearchRound i (roundOf env s conversion reply).toolUses = false) :
    ∃ body, roundStep env setting replies i s =
      (.sent body :: .received reply.events ::
          (finishLoop env setting (stateOf env s conversion reply)
            (roundOf env s conversion reply)).1,
        .stop (finishLoop env setting (stateOf env s conversion reply)
          (roundOf env s conversion reply)).2) := by
  obtain ⟨body, ran⟩ := decoded.runRound_eq
  refine ⟨body, ?_⟩
  unfold roundStep
  rw [ran]
  exact if_neg (Bool.eq_false_iff.mp finish)

theorem roundStep_failed
    (fails : ¬ ∃ conversion reply,
      Decoded env setting.toSetting s.payload (replies i).call conversion reply) :
    ∃ before inputTokens e, (∀ x ∈ before, IsExchange x) ∧ e ≠ .exitedUnexpectedly ∧
      roundStep env setting replies i s =
        (before ++ [.recorded (setting.hook.record env 0 inputTokens 0 0 0 0 "error")],
          .stop (.error e)) := by
  rcases runRound_cases env setting.toSetting s.payload (replies i).call with
    ⟨conversion, body, reply, decoded, -⟩ | ⟨-, before, inputTokens, e, exchange, ne, eq⟩
  · exact absurd ⟨conversion, reply, decoded⟩ fails
  · refine ⟨before, inputTokens, e, exchange, ne, ?_⟩
    unfold roundStep
    rw [eq]

theorem searchAll_ok {mcp : Nat → Except String McpResponse} {n : Nat} {uses : List DecodedToolUse}
    {searched : List (Option WebSearchResults)}
    (ok : (searchAll env mcp n uses).2 = .ok searched) :
    (searchAll env mcp n uses).1 = uses.map (fun t => .searched (query t)) ∧
      searched.length = uses.length := by
  induction uses generalizing n searched with
  | nil =>
    cases ok
    exact ⟨rfl, rfl⟩
  | cons t rest ih =>
    cases called : callMcpApi (mcp n) with
    | error e =>
      simp only [searchAll, called] at ok
      cases ok
    | ok response =>
      simp only [searchAll, called] at ok ⊢
      obtain ⟨later, ok_later, eq⟩ := map_ok ok
      obtain ⟨effects, length⟩ := ih ok_later
      rw [effects, ← eq, List.length_cons, length]
      exact ⟨rfl, rfl⟩

theorem searchAll_error {mcp : Nat → Except String McpResponse} {n : Nat}
    {uses : List DecodedToolUse} {e : String} (failed : (searchAll env mcp n uses).2 = .error e) :
    ∃ t before, t :: before <+: uses ∧
      (searchAll env mcp n uses).1 = (t :: before).map fun t => .searched (query t) := by
  induction uses generalizing n e with
  | nil => cases failed
  | cons t rest ih =>
    cases called : callMcpApi (mcp n) with
    | error e =>
      refine ⟨t, [], by simp, ?_⟩
      simp only [searchAll, called, List.map_cons, List.map_nil]
    | ok response =>
      simp only [searchAll, called] at failed ⊢
      cases later : (searchAll env mcp (n + 1) rest).2 with
      | ok searched =>
        rw [later] at failed
        cases failed
      | error e' =>
        obtain ⟨u, before, leads, effects⟩ := ih later
        refine ⟨t, u :: before, ?_, ?_⟩
        · exact List.cons_prefix_cons.mpr ⟨rfl, leads⟩
        · rw [effects]
          rfl

theorem searchRound_ok {round : RoundOutcome} {answer : RoundReply}
    {searched : List (Option WebSearchResults)}
    (ok : (searchAll env answer.mcp 0 round.toolUses).2 = .ok searched) :
    searchRound env setting s round answer =
      (round.toolUses.map (fun t => .searched (query t)),
        .again (appendSearchRound env s round searched answer.srvIds setting.thinkingEnabled)) := by
  have effects := (searchAll_ok ok).1
  unfold searchRound
  cases ran : searchAll env answer.mcp 0 round.toolUses with
  | mk first result =>
    rw [ran] at ok effects
    cases ok
    cases effects
    rfl

theorem searchRound_error {round : RoundOutcome} {answer : RoundReply} {e : String}
    (failed : (searchAll env answer.mcp 0 round.toolUses).2 = .error e) :
    ∃ t before, t :: before <+: round.toolUses ∧
      searchRound env setting s round answer =
        ((t :: before).map (fun t => .searched (query t)) ++
            (loopFailed env setting s (.search e)).1,
          .stop (loopFailed env setting s (.search e)).2) := by
  obtain ⟨t, before, leads, effects⟩ := searchAll_error failed
  refine ⟨t, before, leads, ?_⟩
  unfold searchRound
  cases ran : searchAll env answer.mcp 0 round.toolUses with
  | mk first result =>
    rw [ran] at failed effects
    cases failed
    cases effects
    rfl

theorem roundStep_goesOnBelow (env : SearchEnv) (setting : LoopSetting)
    (replies : Nat → RoundReply) :
    GoesOnBelow (roundStep env setting replies) maxWebSearchRounds := by
  intro i s s' goes_on
  unfold roundStep at goes_on
  split at goes_on
  · cases goes_on
  · dsimp only at goes_on
    split_ifs at goes_on with search
    simp only [shouldSearchRound, Bool.and_eq_true, decide_eq_true_eq] at search
    exact search.2

end KiroRs.WebSearch.Loop
