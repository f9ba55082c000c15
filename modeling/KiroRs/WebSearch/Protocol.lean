/- Path: KiroRs/WebSearch/Protocol
   source: src/anthropic/websearch_loop.rs, src/anthropic/converter.rs
   digest: What the web search loop does with the calls of a round, the messages it adds, and the
   request for which it hands searches to the client instead of running them. -/

import KiroRs.Converter.NameMaps
import KiroRs.Converter.Pairing
import KiroRs.WebSearch.RestoredCalls

set_option autoImplicit false
set_option relaxedAutoImplicit false

namespace KiroRs.WebSearch.Protocol

open KiroRs.Lib
open KiroRs.Lib.Rounds
open KiroRs.Converter.Conversion (ConversionResult convertRequestWithMode sentMessages)
open KiroRs.Converter.Json
open KiroRs.Converter.Messages (blocksOf contentBlocks)
open KiroRs.Converter.NameMaps
open KiroRs.Converter.NameRoundTrip
open KiroRs.Converter.Pairing (resultId resultIds useId useIds)
open KiroRs.Converter.Requests (ContentBlock Message MessagesRequest Tool)
open KiroRs.Converter.ToolNames
open KiroRs.Stream.Events
open KiroRs.WebSearch.Rounds
open KiroRs.WebSearch.Loop
open KiroRs.WebSearch.RestoredCalls

def searchOf : Effect → Option String
  | .searched q => some q
  | _ => none

def searches (log : List Effect) : List String := log.filterMap searchOf

/-- The upstream calls nothing but searches. -/
def OnlySearches (calls : List DecodedToolUse) : Prop :=
  calls ≠ [] ∧ ∀ call ∈ calls, call.name = "web_search"

def Searched (calls : List DecodedToolUse)
    (done : List Effect × Next LoopState (Except LoopError WebSearchLoopSuccess)) : Prop :=
  (searches done.1 = calls.map query ∧ ∃ s, done.2 = .again s) ∨
    (searches done.1 ≠ [] ∧ searches done.1 <+: calls.map query ∧
      ∃ e, done.2 = .stop (.error (.search e)))

def Returned (map : ToolNameMap) (ups : List DecodedToolUse)
    (done : List Effect × Next LoopState (Except LoopError WebSearchLoopSuccess)) : Prop :=
  searches done.1 = [] ∧ ∃ success calls, done.2 = .stop (.ok success) ∧
    List.Forall₂ (Restores map) ups calls ∧ calls.map toolUseBlock <:+ success.content

/-- A round of searches and the message with their results, one for each search in its order. -/
structure Exchange (p : Message × Message) : Prop where
  asked : p.1.role = "assistant"
  answered : p.2.role = "user"
  searched : ∀ name ∈ messageNames p.1, name = "web_search"
  nonempty : useIds p.1.content ≠ []
  paired : resultIds p.2.content = useIds p.1.content

/-- The messages of the client with those of the rounds behind them. -/
def Extends (payload payload' : MessagesRequest) (rounds : Nat) : Prop :=
  ∃ pairs : List (Message × Message), pairs.length = rounds ∧ (∀ p ∈ pairs, Exchange p) ∧
    payload' = { payload with messages := payload.messages ++ pairs.flatMap fun p => [p.1, p.2] }

/-- A round that the loop begins on a request, in its state and behind what was done before. -/
abbrev Begins (env : SearchEnv) (mode : ToolCompatibilityMode) (hook : UsageRecordHook)
    (cacheUsage : CacheUsage) (payload : MessagesRequest) (replies : Nat → RoundReply) :
    Nat → LoopState → List Effect → Prop :=
  Reaches (roundStep env (.start env mode hook cacheUsage payload) replies) { payload := payload }

/-- What the loop is to keep to on a request, whatever the answers to its rounds. -/
structure KeepsProtocol (env : SearchEnv) (mode : ToolCompatibilityMode) (hook : UsageRecordHook)
    (cacheUsage : CacheUsage) (payload : MessagesRequest) (replies : Nat → RoundReply) : Prop where
  searched : ∀ i s log, Begins env mode hook cacheUsage payload replies i s log →
    ∀ conversion reply, Decoded env (LoopSetting.start env mode hook cacheUsage payload).toSetting
        s.payload (replies i).call conversion reply →
      i < maxWebSearchRounds → OnlySearches (upstreamCalls env reply) →
      Searched (upstreamCalls env reply)
        (roundStep env (.start env mode hook cacheUsage payload) replies i s)
  limited : ∀ i s log, Begins env mode hook cacheUsage payload replies i s log →
    searches (roundStep env (.start env mode hook cacheUsage payload) replies i s).1 ≠ [] →
      i < maxWebSearchRounds
  ended : ∃ i s log b, Begins env mode hook cacheUsage payload replies i s log ∧
    (roundStep env (.start env mode hook cacheUsage payload) replies i s).2 = .stop b ∧
    runWebSearchLoopInner env mode hook cacheUsage payload replies =
      (log ++ (roundStep env (.start env mode hook cacheUsage payload) replies i s).1, b) ∧
    b ≠ .error .exitedUnexpectedly
  paired : ∀ i s log, Begins env mode hook cacheUsage payload replies i s log →
    Extends payload s.payload i
  returned : ∀ i s log, Begins env mode hook cacheUsage payload replies i s log →
    ∀ conversion reply, Decoded env (LoopSetting.start env mode hook cacheUsage payload).toSetting
        s.payload (replies i).call conversion reply →
      (∃ call ∈ upstreamCalls env reply, call.name ≠ "web_search") →
      Returned conversion.toolNameMap (upstreamCalls env reply)
        (roundStep env (.start env mode hook cacheUsage payload) replies i s)

/-- The client's own name for a search is among the names that round maps. The first round maps
those of the messages before the current one. -/
def NamesWebSearch (mode : ToolCompatibilityMode) (payload : MessagesRequest) (round : Nat) :
    Prop :=
  mode = .claudeCode ∧ "WebSearch" ∈
    if round = 0 then historyNames payload else payload.messages.flatMap messageNames

variable {env : SearchEnv} {setting : LoopSetting} {replies : Nat → RoundReply} {i : Nat}
  {s s' : LoopState} {conversion : ConversionResult} {reply : StreamReply}

theorem fromValue_toolUseBlock (t : DecodedToolUse) :
    ∃ block, ContentBlock.fromValue (toolUseBlock t) = some block ∧
      useId block = some t.id ∧ useName block = some t.name := by
  simp [toolUseBlock, Value.obj, Dicts.ofList, ContentBlock.fromValue,
    Converter.Requests.contentBlockFields, structFields, Dicts.get_insert, reqString, optString,
    optBool, optStruct, Value.asStr, useId, useName]

theorem fromValue_toolResultBlock (t : DecodedToolUse) (results : Option WebSearchResults) :
    ∃ block, ContentBlock.fromValue (toolResultBlock t results) = some block ∧
      resultId block = some t.id := by
  simp [toolResultBlock, Value.obj, Dicts.ofList, ContentBlock.fromValue,
    Converter.Requests.contentBlockFields, structFields, Dicts.get_insert, reqString, optString,
    optBool, optStruct, Value.asStr, resultId]

theorem blocksOf_toolUseBlocks (uses : List DecodedToolUse) :
    (blocksOf (uses.map toolUseBlock)).filterMap useId = uses.map (·.id) ∧
      (blocksOf (uses.map toolUseBlock)).filterMap useName = uses.map (·.name) := by
  induction uses with
  | nil => exact ⟨rfl, rfl⟩
  | cons t rest ih =>
    obtain ⟨block, read, id, name⟩ := fromValue_toolUseBlock t
    rw [List.map_cons, blocksOf, List.filterMap_cons_some read, List.filterMap_cons_some id,
      List.filterMap_cons_some name]
    exact ⟨congrArg _ ih.1, congrArg _ ih.2⟩

theorem type_of_fromValue {entries : Dicts.Dict Value} {block : Converter.Requests.ContentBlock}
    (read : ContentBlock.fromValue (.object entries) = some block) :
    (Dicts.get entries "type").getD .null = .string block.blockType := by
  simp only [ContentBlock.fromValue, Converter.Requests.contentBlockFields, structFields,
    List.map_cons, List.map_nil] at read
  obtain ⟨type, typed, rest⟩ := Option.bind_eq_some_iff.mp read
  have same : block.blockType = type := by
    simp only [Option.bind_eq_bind, Option.pure_def, Option.bind_eq_some_iff] at rest
    obtain ⟨_, -, _, -, _, -, _, -, _, -, _, -, _, -, _, -, eq⟩ := rest
    rw [← Option.some.inj eq]
  rw [same]
  cases found : (Dicts.get entries "type").getD .null with
  | string s =>
    rw [found] at typed
    rw [Option.some.inj typed]
  | null | bool | number | array | object =>
    rw [found] at typed
    cases typed

/-- No tool is called in these blocks. -/
def Toolless (items : List Value) : Prop :=
  (blocksOf items).filterMap useId = [] ∧ (blocksOf items).filterMap useName = []

theorem Toolless.append {items items' : List Value} (first : Toolless items) (later : Toolless items') :
    Toolless (items ++ items') := by
  have both : blocksOf (items ++ items') = blocksOf items ++ blocksOf items' :=
    List.filterMap_append
  unfold Toolless
  rw [both, List.filterMap_append, List.filterMap_append, first.1, first.2, later.1, later.2]
  exact ⟨rfl, rfl⟩

theorem Toolless.ite {items : List Value} (none_ : Toolless items) (c : Prop) [Decidable c] :
    Toolless (if c then items else []) := by
  split_ifs
  · exact none_
  · exact ⟨rfl, rfl⟩

theorem toolless_of_type {entries : List (String × Value)} {type : String}
    (typed : Dicts.get (Dicts.ofList entries) "type" = some (.string type))
    (other : type ≠ "tool_use") : Toolless [.obj entries] := by
  unfold Toolless
  cases read : ContentBlock.fromValue (.obj entries) with
  | none =>
    rw [blocksOf, List.filterMap_cons_none read]
    exact ⟨rfl, rfl⟩
  | some block =>
    have same := type_of_fromValue read
    rw [typed, Option.getD_some, Value.string.injEq] at same
    have id : useId block = none := if_neg (same ▸ other)
    have name : useName block = none := if_neg (same ▸ other)
    rw [blocksOf, List.filterMap_cons_some read, List.filterMap_cons_none id,
      List.filterMap_cons_none name]
    exact ⟨rfl, rfl⟩

theorem toolless_spoken (round : RoundOutcome) (thinkingEnabled : Bool) :
    ∃ spoken, roundBlocks round thinkingEnabled = spoken ++ round.toolUses.map toolUseBlock ∧
      Toolless spoken := by
  have thinking (reasoning signature : Value) : Toolless [.obj [("type", .string "thinking"),
      ("thinking", reasoning), ("signature", signature)]] :=
    @toolless_of_type _ "thinking" (by simp [Dicts.ofList, Dicts.get_insert]) (by decide)
  have redacted (data : Value) :
      Toolless [.obj [("type", .string "redacted_thinking"), ("data", data)]] :=
    @toolless_of_type _ "redacted_thinking" (by simp [Dicts.ofList, Dicts.get_insert]) (by decide)
  have text (text : Value) : Toolless [.obj [("type", .string "text"), ("text", text)]] :=
    @toolless_of_type _ "text" (by simp [Dicts.ofList, Dicts.get_insert]) (by decide)
  exact ⟨_, rfl, (((thinking _ _).ite _).append ((redacted _).ite _)).append ((text _).ite _)⟩

theorem useIds_roundBlocks (round : RoundOutcome) (thinkingEnabled : Bool) :
    useIds (.array (roundBlocks round thinkingEnabled)) = round.toolUses.map (·.id) ∧
      (contentBlocks (.array (roundBlocks round thinkingEnabled))).filterMap useName =
        round.toolUses.map (·.name) := by
  obtain ⟨spoken, split, ids, names⟩ := toolless_spoken round thinkingEnabled
  have blocks : contentBlocks (.array (spoken ++ round.toolUses.map toolUseBlock)) =
      blocksOf spoken ++ blocksOf (round.toolUses.map toolUseBlock) := List.filterMap_append
  unfold useIds
  rw [split, blocks, List.filterMap_append, List.filterMap_append, ids, names]
  exact blocksOf_toolUseBlocks round.toolUses

theorem resultIds_toolResultBlocks (uses : List DecodedToolUse)
    (searched : List (Option WebSearchResults)) (length : searched.length = uses.length) :
    resultIds (.array ((uses.zip searched).map fun p => toolResultBlock p.1 p.2)) =
      uses.map (·.id) := by
  induction uses generalizing searched with
  | nil => rfl
  | cons t rest ih =>
    cases searched with
    | nil => cases length
    | cons results searched =>
      obtain ⟨block, read, id⟩ := fromValue_toolResultBlock t results
      have later := ih searched (Nat.succ.inj length)
      have first : contentBlocks (.array (((t :: rest).zip (results :: searched)).map fun p =>
          toolResultBlock p.1 p.2)) =
          block :: contentBlocks (.array ((rest.zip searched).map fun p =>
            toolResultBlock p.1 p.2)) := List.filterMap_cons_some read
      unfold resultIds at later ⊢
      rw [first, List.filterMap_cons_some id, later, List.map_cons]

theorem exchange_searchMessages {round : RoundOutcome} {searched : List (Option WebSearchResults)}
    (thinkingEnabled : Bool) (nonempty : round.toolUses ≠ [])
    (only : ∀ call ∈ round.toolUses, call.name = "web_search")
    (length : searched.length = round.toolUses.length) :
    ∃ p, Exchange p ∧ searchMessages round searched thinkingEnabled = [p.1, p.2] := by
  obtain ⟨ids, names⟩ := useIds_roundBlocks round thinkingEnabled
  refine ⟨(_, _), ⟨rfl, rfl, ?_, ?_, ?_⟩, rfl⟩
  · intro name mem
    unfold messageNames at mem
    rw [if_pos rfl, names] at mem
    obtain ⟨call, mem_call, rfl⟩ := List.mem_map.mp mem
    exact only call mem_call
  · rw [ids]
    simpa using nonempty
  · rw [ids]
    exact resultIds_toolResultBlocks round.toolUses searched length

theorem shouldSearchRound_iff {calls : List DecodedToolUse} :
    shouldSearchRound i calls = true ↔ OnlySearches calls ∧ i < maxWebSearchRounds := by
  unfold shouldSearchRound OnlySearches
  simp

theorem again_cases (goes_on : (roundStep env setting replies i s).2 = .again s') :
    ∃ conversion reply searched,
      Decoded env setting.toSetting s.payload (replies i).call conversion reply ∧
      OnlySearches (roundOf env s conversion reply).toolUses ∧
      searched.length = (roundOf env s conversion reply).toolUses.length ∧
      s' = appendSearchRound env (stateOf env s conversion reply) (roundOf env s conversion reply)
        searched (replies i).srvIds setting.thinkingEnabled := by
  by_cases decodes : ∃ conversion reply,
      Decoded env setting.toSetting s.payload (replies i).call conversion reply
  · obtain ⟨conversion, reply, decoded⟩ := decodes
    cases search : shouldSearchRound i (roundOf env s conversion reply).toolUses with
    | false =>
      obtain ⟨body, eq⟩ := decoded.roundStep_finish search
      rw [eq] at goes_on
      cases goes_on
    | true =>
      obtain ⟨body, eq⟩ := decoded.roundStep_search search
      rw [eq] at goes_on
      cases ran : (searchAll env (replies i).mcp 0 (roundOf env s conversion reply).toolUses).2 with
      | error e =>
        obtain ⟨t, before, -, failed⟩ := searchRound_error ran
        rw [failed] at goes_on
        cases goes_on
      | ok searched =>
        rw [searchRound_ok ran] at goes_on
        cases goes_on
        exact ⟨conversion, reply, searched, decoded, (shouldSearchRound_iff.mp search).1,
          (searchAll_ok ran).2, rfl⟩
  · obtain ⟨before, inputTokens, e, -, -, eq⟩ := roundStep_failed decodes
    rw [eq] at goes_on
    cases goes_on

theorem Extends.step {payload : MessagesRequest} (h : Extends payload s.payload i)
    (goes_on : (roundStep env setting replies i s).2 = .again s') :
    Extends payload s'.payload (i + 1) := by
  obtain ⟨pairs, length, exchanges, eq⟩ := h
  obtain ⟨conversion, reply, searched, -, only, results, rfl⟩ := again_cases goes_on
  obtain ⟨p, exchange, messages⟩ :=
    exchange_searchMessages setting.thinkingEnabled only.1 only.2 results
  refine ⟨pairs ++ [p], by rw [List.length_append, length]; rfl, ?_, ?_⟩
  · intro q mem
    rcases List.mem_append.mp mem with old | new
    · exact exchanges q old
    · rw [List.mem_singleton.mp new]
      exact exchange
  · unfold appendSearchRound stateOf LoopState.decoded
    dsimp only
    rw [messages, eq, List.flatMap_append, ← List.append_assoc]
    rfl

theorem extends_of_reaches {payload : MessagesRequest} {log : List Effect}
    (reached : Reaches (roundStep env setting replies) { payload := payload } i s log) :
    Extends payload s.payload i := by
  induction reached with
  | start =>
    refine ⟨[], rfl, by simp, ?_⟩
    rw [List.flatMap_nil, List.append_nil]
  | again _ goes_on ih => exact ih.step goes_on

theorem sentMessages_of_user {messages : List Message} {last : Message}
    (user : last.role = "user") {req : MessagesRequest} (eq : req.messages = messages ++ [last]) :
    sentMessages req = messages ++ [last] := by
  unfold sentMessages
  rw [eq, List.rdropWhile_concat_neg]
  simpa using user

theorem messageNames_exchange {p : Message × Message} (exchange : Exchange p) :
    "WebSearch" ∉ messageNames p.1 ∧ messageNames p.2 = [] := by
  constructor
  · intro mem
    exact absurd (exchange.searched _ mem) (by decide)
  · unfold messageNames
    rw [if_neg (by rw [exchange.answered]; decide)]

theorem historyNames_extends {payload payload' : MessagesRequest} (h : Extends payload payload' i) :
    "WebSearch" ∈ historyNames payload' ↔ "WebSearch" ∈
      if i = 0 then historyNames payload else payload.messages.flatMap messageNames := by
  obtain ⟨pairs, length, exchanges, rfl⟩ := h
  rcases List.eq_nil_or_concat pairs with rfl | ⟨before, p, rfl⟩
  · rw [List.length_nil] at length
    rw [if_pos length.symm, List.flatMap_nil, List.append_nil]
  · have some_round : i ≠ 0 := by
      intro zero
      rw [zero, List.concat_eq_append, List.length_append] at length
      cases length
    have split : payload.messages ++ (before.concat p).flatMap (fun p => [p.1, p.2]) =
        (payload.messages ++ before.flatMap (fun p => [p.1, p.2]) ++ [p.1]) ++ [p.2] := by
      simp
    have exchange := exchanges p (by simp)
    unfold historyNames
    rw [if_neg some_round, sentMessages_of_user exchange.answered split, List.dropLast_concat,
      List.flatMap_append, List.flatMap_append, List.mem_append, List.mem_append]
    constructor
    · rintro ((own | later) | last)
      · exact own
      · obtain ⟨m, mem, named⟩ := List.mem_flatMap.mp later
        obtain ⟨q, mem_q, at_q⟩ := List.mem_flatMap.mp mem
        obtain ⟨not_asked, no_names⟩ := messageNames_exchange (exchanges q (by simp [mem_q]))
        rcases List.mem_cons.mp at_q with rfl | at_q
        · exact absurd named not_asked
        · rw [List.mem_singleton.mp at_q, no_names] at named
          cases named
      · rw [List.flatMap_singleton] at last
        exact absurd last (messageNames_exchange exchange).1
    · intro own
      exact .inl (.inl own)

theorem not_mem_tools_of_routed {req payload : MessagesRequest}
    (routed : routeToLoop req = some payload) :
    "WebSearch" ∉ (visibleTools (payload.tools.getD [])).map (·.name) := by
  have normalized : payload = normalizeWebSearchTool req := by
    unfold routeToLoop at routed
    dsimp only at routed
    split_ifs at routed
    exact (Option.some.inj routed).symm
  intro mem
  obtain ⟨tool, visible, name⟩ := List.mem_map.mp mem
  have declared := (List.mem_filter.mp visible).1
  rw [normalized] at declared
  unfold normalizeWebSearchTool at declared
  cases tools : req.tools with
  | none => simp [tools] at declared
  | some tools' =>
    simp only [tools, Option.map_some, Option.getD_some] at declared
    obtain ⟨original, -, rfl⟩ := List.mem_map.mp declared
    unfold normalizeTool at name
    split_ifs at name with client
    · have : ("web_search" : String) ≠ "WebSearch" := by decide
      exact this name
    · exact client name

theorem convertBlocking_ok {mode : ToolCompatibilityMode} {payload : MessagesRequest}
    (ok : convertBlocking env mode payload = .ok conversion) :
    convertRequestWithMode env.toEnv mode payload = .ok conversion := by
  unfold convertBlocking at ok
  split at ok <;> cases ok
  assumption

theorem searches_map (uses : List DecodedToolUse) :
    searches (uses.map fun t => .searched (query t)) = uses.map query := by
  induction uses with
  | nil => rfl
  | cons t rest ih => exact congrArg (query t :: ·) ih

theorem searched_of_decoded
    (decoded : Decoded env setting.toSetting s.payload (replies i).call conversion reply)
    (search : shouldSearchRound i (roundOf env s conversion reply).toolUses = true) :
    Searched (roundOf env s conversion reply).toolUses (roundStep env setting replies i s) := by
  obtain ⟨body, eq⟩ := decoded.roundStep_search search
  rw [eq]
  cases ran : (searchAll env (replies i).mcp 0 (roundOf env s conversion reply).toolUses).2 with
  | error e =>
    obtain ⟨t, before, leads, failed⟩ := searchRound_error ran
    have done : searches (.sent body :: .received reply.events ::
        (searchRound env setting (stateOf env s conversion reply)
          (roundOf env s conversion reply) (replies i)).1) = (t :: before).map query := by
      rw [failed]
      change searches (_ ++ _) = _
      unfold searches
      rw [List.filterMap_append]
      exact (List.append_nil _).trans (searches_map (t :: before))
    refine .inr ⟨?_, ?_, e, ?_⟩
    · rw [done]
      simp
    · rw [done]
      exact leads.map query
    · rw [failed]
      rfl
  | ok results =>
    rw [searchRound_ok ran]
    exact .inl ⟨searches_map _, _, rfl⟩

theorem returned_of_decoded
    (decoded : Decoded env setting.toSetting s.payload (replies i).call conversion reply)
    (finish : shouldSearchRound i (roundOf env s conversion reply).toolUses = false) :
    Returned conversion.toolNameMap (upstreamCalls env reply)
      (roundStep env setting replies i s) := by
  obtain ⟨body, eq⟩ := decoded.roundStep_finish finish
  rw [eq]
  refine ⟨rfl, _, (roundOf env s conversion reply).toolUses, rfl,
    decodeRound_restores env _ _ _, ?_⟩
  exact (List.suffix_append _ _).trans (List.suffix_append _ _)

theorem not_searched_of_returned {map : ToolNameMap} {ups : List DecodedToolUse}
    {round : List Effect × Next LoopState (Except LoopError WebSearchLoopSuccess)}
    (returned : Returned map ups round) (nonempty : ups ≠ []) : ¬ Searched ups round := by
  obtain ⟨none, -⟩ := returned
  rintro (⟨all, -⟩ | ⟨some, -⟩)
  · rw [none] at all
    exact nonempty (List.map_eq_nil_iff.mp all.symm)
  · exact some none

theorem calls_eq_of_unmapped {map : ToolNameMap} {ups calls : List DecodedToolUse}
    (restores : List.Forall₂ (Restores map) ups calls)
    (only : ∀ up ∈ ups, up.name = "web_search") (unmapped : Dicts.get map "web_search" = none) :
    calls = ups := by
  induction restores with
  | nil => rfl
  | cons first _ ih =>
    have name := only _ List.mem_cons_self
    rw [first.unmapped (by rw [name]; exact unmapped),
      ih fun up mem => only up (List.mem_cons_of_mem _ mem)]

theorem not_onlySearches {map : ToolNameMap} {ups calls : List DecodedToolUse}
    (restores : List.Forall₂ (Restores map) ups calls)
    (other : ∃ up ∈ ups, (Dicts.get map up.name).getD up.name ≠ "web_search") :
    ¬ OnlySearches calls := by
  rintro ⟨-, only⟩
  obtain ⟨up, mem, ne⟩ := other
  induction restores with
  | nil => cases mem
  | cons first _ ih =>
    rcases List.mem_cons.mp mem with rfl | later
    · rw [← first.name_eq] at ne
      exact ne (only _ List.mem_cons_self)
    · exact ih (fun call mem => only call (List.mem_cons_of_mem _ mem)) later

theorem searched_iff
    (decoded : Decoded env setting.toSetting s.payload (replies i).call conversion reply)
    (below : i < maxWebSearchRounds) (only : OnlySearches (upstreamCalls env reply)) :
    Searched (upstreamCalls env reply) (roundStep env setting replies i s) ↔
      ¬ (setting.mode = .claudeCode ∧ "WebSearch" ∈ mappedNames s.payload) := by
  have restores := decodeRound_restores env s.payload.model conversion.toolNameMap reply
  have held := get_web_search (convertBlocking_ok decoded.converted)
  by_cases named : setting.mode = .claudeCode ∧ "WebSearch" ∈ mappedNames s.payload
  · rw [if_pos named] at held
    have finish : shouldSearchRound i (roundOf env s conversion reply).toolUses = false := by
      rw [Bool.eq_false_iff, ne_eq, shouldSearchRound_iff]
      rintro ⟨searches, -⟩
      obtain ⟨up, mem⟩ := List.exists_mem_of_ne_nil _ only.1
      refine not_onlySearches restores ⟨up, mem, ?_⟩ searches
      rw [only.2 up mem, held]
      decide
    constructor
    · intro searched
      exact absurd searched (not_searched_of_returned (returned_of_decoded decoded finish) only.1)
    · intro not_named
      exact absurd named not_named
  · rw [if_neg named] at held
    have same : (roundOf env s conversion reply).toolUses = upstreamCalls env reply :=
      calls_eq_of_unmapped restores only.2 held
    have search : shouldSearchRound i (roundOf env s conversion reply).toolUses = true := by
      rw [shouldSearchRound_iff, same]
      exact ⟨only, below⟩
    constructor
    · intro _
      exact named
    · intro _
      rw [← same]
      exact searched_of_decoded decoded search

theorem searches_of_exchange {log : List Effect} (exchange : ∀ x ∈ log, IsExchange x) :
    searches log = [] := by
  apply List.filterMap_eq_nil_iff.mpr
  intro x mem
  have := exchange x mem
  cases x <;> first | rfl | cases this

theorem lt_of_searches (some : searches (roundStep env setting replies i s).1 ≠ []) :
    i < maxWebSearchRounds := by
  by_contra limit
  apply some
  by_cases decodes : ∃ conversion reply,
      Decoded env setting.toSetting s.payload (replies i).call conversion reply
  · obtain ⟨conversion, reply, decoded⟩ := decodes
    have finish : shouldSearchRound i (roundOf env s conversion reply).toolUses = false := by
      rw [Bool.eq_false_iff, ne_eq, shouldSearchRound_iff]
      rintro ⟨-, below⟩
      exact limit below
    exact (returned_of_decoded decoded finish).1
  · obtain ⟨before, inputTokens, e, exchange, -, eq⟩ := roundStep_failed decodes
    rw [eq]
    unfold searches
    rw [List.filterMap_append]
    exact (List.append_nil _).trans (searches_of_exchange exchange)

theorem stop_ne_exitedUnexpectedly {b : Except LoopError WebSearchLoopSuccess}
    (stops : (roundStep env setting replies i s).2 = .stop b) :
    b ≠ .error .exitedUnexpectedly := by
  by_cases decodes : ∃ conversion reply,
      Decoded env setting.toSetting s.payload (replies i).call conversion reply
  · obtain ⟨conversion, reply, decoded⟩ := decodes
    cases search : shouldSearchRound i (roundOf env s conversion reply).toolUses with
    | false =>
      obtain ⟨-, success, calls, eq, -⟩ := returned_of_decoded decoded search
      rw [eq] at stops
      cases stops
      simp
    | true =>
      rcases searched_of_decoded decoded search with ⟨-, s', eq⟩ | ⟨-, -, e, eq⟩
      · rw [eq] at stops
        cases stops
      · rw [eq] at stops
        cases stops
        simp
  · obtain ⟨before, inputTokens, e, -, ne, eq⟩ := roundStep_failed decodes
    rw [eq] at stops
    cases stops
    simpa using ne

/-- For a request that is routed to the loop and any answers to its rounds, the loop keeps to its
protocol if and only if no round that the upstream makes one of searches maps the client's own name
for a search out of the messages. -/
theorem keepsProtocol_iff (env : SearchEnv) (mode : ToolCompatibilityMode) (hook : UsageRecordHook)
    (cacheUsage : CacheUsage) (req payload : MessagesRequest) (replies : Nat → RoundReply)
    (routed : routeToLoop req = some payload) :
    KeepsProtocol env mode hook cacheUsage payload replies ↔
      ∀ i s log, Begins env mode hook cacheUsage payload replies i s log →
        ∀ conversion reply, Decoded env
            (LoopSetting.start env mode hook cacheUsage payload).toSetting s.payload
            (replies i).call conversion reply →
          i < maxWebSearchRounds → OnlySearches (upstreamCalls env reply) →
          ¬ NamesWebSearch mode payload i := by
  have mapped_iff : ∀ i s log, Begins env mode hook cacheUsage payload replies i s log →
      ((mode = .claudeCode ∧ "WebSearch" ∈ mappedNames s.payload) ↔
        NamesWebSearch mode payload i) := by
    intro i s log begins
    have extended := extends_of_reaches begins
    have names := historyNames_extends extended
    obtain ⟨pairs, -, -, eq⟩ := extended
    have tools : s.payload.tools = payload.tools := by rw [eq]
    unfold NamesWebSearch mappedNames
    rw [List.mem_append, tools, names, or_iff_right (not_mem_tools_of_routed routed)]
  have searched_iff_unnamed : ∀ i s log, Begins env mode hook cacheUsage payload replies i s log →
      ∀ conversion reply, Decoded env
          (LoopSetting.start env mode hook cacheUsage payload).toSetting s.payload
          (replies i).call conversion reply →
        i < maxWebSearchRounds → OnlySearches (upstreamCalls env reply) →
        (Searched (upstreamCalls env reply)
          (roundStep env (.start env mode hook cacheUsage payload) replies i s) ↔
          ¬ NamesWebSearch mode payload i) := by
    intro i s log begins conversion reply decoded below only
    rw [searched_iff decoded below only, ← mapped_iff i s log begins]
    rfl
  constructor
  · intro keeps i s log begins conversion reply decoded below only
    exact (searched_iff_unnamed i s log begins conversion reply decoded below only).mp
      (keeps.searched i s log begins conversion reply decoded below only)
  · intro unnamed
    refine ⟨?_, ?_, ?_, ?_, ?_⟩
    · intro i s log begins conversion reply decoded below only
      exact (searched_iff_unnamed i s log begins conversion reply decoded below only).mpr
        (unnamed i s log begins conversion reply decoded below only)
    · intro i s log _ some
      exact lt_of_searches some
    · have below := roundStep_goesOnBelow env (.start env mode hook cacheUsage payload) replies
      obtain ⟨i, s, log, b, begins, stops⟩ := exists_stop below { payload := payload }
      exact ⟨i, s, log, b, begins, stops, begins.rounds_of_stop below stops,
        stop_ne_exitedUnexpectedly stops⟩
    · intro i s log begins
      exact extends_of_reaches begins
    · intro i s log begins conversion reply decoded other
      have finish : shouldSearchRound i (roundOf env s conversion reply).toolUses = false := by
        rw [Bool.eq_false_iff, ne_eq, shouldSearchRound_iff]
        rintro ⟨searches, -⟩
        obtain ⟨up, mem, ne⟩ := other
        refine not_onlySearches (decodeRound_restores env _ _ reply) ⟨up, mem, ?_⟩ searches
        cases held : Dicts.get conversion.toolNameMap up.name with
        | none => exact ne
        | some name =>
          intro eq
          apply get_ne_web_search (convertBlocking_ok decoded.converted) up.name
          rw [held]
          exact congrArg some eq
      exact returned_of_decoded decoded finish

private def asking (history : List Message) : MessagesRequest where
  model := "claude-sonnet-4-5"
  messages := history ++ [⟨"user", .string "what is new?"⟩]
  tools := some [{ name := "web_search" }, { name := "exec" }]

private def searchedByClient : List Message :=
  [⟨"user", .string "what was new?"⟩,
    ⟨"assistant", .array [.obj [("type", .string "tool_use"), ("id", .string "toolu_1"),
      ("name", .string "WebSearch"), ("input", .obj [])]]⟩,
    ⟨"user", .array [.obj [("type", .string "tool_result"), ("tool_use_id", .string "toolu_1"),
      ("content", .string "nothing")]]⟩,
    ⟨"assistant", .string "Nothing."⟩]

private def searchReply : RoundReply where
  call := .ok {
    credentialId := 1
    events := [.toolUse { toolUseId := "toolu_2", name := "web_search", input := "", stop := true }] }
  mcp := fun _ => .ok {}
  srvIds := fun _ => "srvtoolu_1"

private def hookSample : UsageRecordHook := { keyId := 1, model := "claude-sonnet-4-5" }

/-- Behind a search that the client has run as its own tool, the searches of the upstream are given
to the client. -/
theorem search_handed_to_client :
    ¬ ∀ (env : SearchEnv) (mode : ToolCompatibilityMode) (hook : UsageRecordHook)
      (cacheUsage : CacheUsage) (req payload : MessagesRequest) (replies : Nat → RoundReply),
      routeToLoop req = some payload →
      KeepsProtocol env mode hook cacheUsage payload replies := by
  intro claim
  have keeps := claim .sample .claudeCode hookSample {} (asking searchedByClient)
    (asking searchedByClient) (fun _ => searchReply) rfl
  have converts : (convertBlocking .sample .claudeCode
      (asking searchedByClient)).toOption.isSome = true := by decide +kernel
  have unsearched : searches (roundStep .sample
      (.start .sample .claudeCode hookSample {} (asking searchedByClient)) (fun _ => searchReply) 0
      { payload := asking searchedByClient }).1 = [] := by decide +kernel
  cases converted : convertBlocking .sample .claudeCode (asking searchedByClient) with
  | error e =>
    rw [converted] at converts
    cases converts
  | ok conversion =>
    have done := keeps.searched 0 _ _ .start conversion _
      ⟨converted, ⟨_, rfl⟩, rfl, rfl, rfl⟩ (by decide)
      ⟨by decide +kernel, by decide +kernel⟩
    rcases done with ⟨all, -⟩ | ⟨some, -⟩
    · rw [unsearched] at all
      exact absurd all (by decide +kernel)
    · exact some unsearched

theorem keepsProtocol_iff_asking :
    KeepsProtocol .sample .claudeCode hookSample {} (asking []) fun _ => searchReply := by
  refine (keepsProtocol_iff .sample .claudeCode hookSample {} (asking []) (asking [])
    (fun _ => searchReply) rfl).mpr ?_
  rintro i s log - conversion reply - - - ⟨-, named⟩
  split_ifs at named
  · exact absurd named (by decide +kernel)
  · exact absurd named (by decide +kernel)

end KiroRs.WebSearch.Protocol
