/- Path: KiroRs/WebSearch/DirectSearch
   source: src/anthropic/websearch.rs
   digest: The answer to a request that is a search and nothing else, and the message that its client
   assembles. -/

import KiroRs.WebSearch.Rendering

set_option autoImplicit false
set_option relaxedAutoImplicit false

namespace KiroRs.WebSearch.DirectSearch

open KiroRs.Lib
open KiroRs.Converter.Json
open KiroRs.Converter.Requests (MessagesRequest)
open KiroRs.Delivery.SseText (ofInt usageData get_obj)
open KiroRs.Stream.Events
open KiroRs.WebSearch.Assembly
open KiroRs.WebSearch.Loop
open KiroRs.WebSearch.Rendering
open KiroRs.WebSearch.Rounds

/-- `chunks(size)`: pieces of that size, the last one with what is left. -/
def piecesUpTo {α : Type} (size : Nat) : Nat → List α → List (List α)
  | 0, _ => []
  | n + 1, l => if l.isEmpty then [] else l.take size :: piecesUpTo size n (l.drop size)

def pieces {α : Type} (size : Nat) (l : List α) : List (List α) := piecesUpTo size l.length l

theorem flatten_piecesUpTo {α : Type} {size : Nat} (some : 0 < size) {n : Nat} {l : List α}
    (enough : l.length ≤ n) : (piecesUpTo size n l).flatten = l := by
  induction n generalizing l with
  | zero => rw [piecesUpTo, List.length_eq_zero_iff.mp (Nat.le_zero.mp enough), List.flatten_nil]
  | succ n ih =>
    cases l with
    | nil => rfl
    | cons a rest =>
      have shorter : ((a :: rest).drop size).length ≤ n := by
        rw [List.length_drop]
        omega
      rw [piecesUpTo, List.isEmpty_cons, if_neg Bool.false_ne_true, List.flatten_cons, ih shorter,
        List.take_append_drop]

theorem foldl_append_pieces (texts : List (List Char)) (t : String) :
    (texts.map String.ofList).foldl (· ++ ·) t = t ++ String.ofList texts.flatten := by
  induction texts generalizing t with
  | nil => rw [List.flatten_nil, String.ofList_nil, String.append_empty]; rfl
  | cons text rest ih =>
    rw [List.map_cons, List.foldl_cons, ih, List.flatten_cons, String.ofList_append,
      String.append_assoc]

def decisionText (query : String) : String := "I'll search for \"" ++ query ++ "\"."

def serverToolUseBlock (toolUseId query : String) : Value :=
  .obj [("id", .string toolUseId), ("type", .string "server_tool_use"),
    ("name", .string "web_search"), ("input", .obj [("query", .string query)])]

def searchResultBlock (env : SearchEnv) (results : Option WebSearchResults) : Value :=
  .obj [("type", .string "web_search_tool_result"), ("content", .array (buildResultBlock env results))]

def textStart : Value := .obj [("type", .string "text"), ("text", .string "")]

def textDelta (text : String) : Value :=
  .obj [("type", .string "text_delta"), ("text", .string text)]

/-- About four bytes are a token. -/
def summaryTokens (summary : String) : Int := (wrapI32 (wrapI32 summary.utf8ByteSize + 3)).tdiv 4

/-- `generate_websearch_events`. The summary goes out in pieces of a hundred characters. -/
def generateWebsearchEvents (env : SearchEnv) (messageId model query toolUseId : String)
    (results : Option WebSearchResults) (inputTokens creation read : Int) : List SentEvent :=
  let summary := generateSearchSummary query results
  [⟨"message_start", .obj [("type", .string "message_start"), ("message", .obj [
      ("id", .string messageId), ("type", .string "message"), ("role", .string "assistant"),
      ("model", .string model), ("content", .array []), ("stop_reason", .null),
      ("usage", usageData ⟨inputTokens, 0, creation, read⟩)])]⟩] ++
    [blockStart 0 textStart, blockDelta 0 (textDelta (decisionText query)), blockStop 0] ++
    [blockStart 1 (serverToolUseBlock toolUseId query), blockStop 1] ++
    [blockStart 2 (searchResultBlock env results), blockStop 2] ++
    (blockStart 3 textStart ::
      ((pieces 100 summary.toList).map (fun text => blockDelta 3 (textDelta (String.ofList text))) ++
        [blockStop 3])) ++
    [⟨"message_delta", .obj [("type", .string "message_delta"),
        ("delta", .obj [("stop_reason", .string "end_turn")]),
        ("usage", .obj [("output_tokens", ofInt (summaryTokens summary)),
          ("cache_creation_input_tokens", ofInt creation), ("cache_read_input_tokens", ofInt read),
          ("server_tool_use", .obj [("web_search_requests", ofInt 1)])])]⟩,
      ⟨"message_stop", .obj [("type", .string "message_stop")]⟩]

/-- `handle_websearch_request`, with the answer of the search and the identifiers made for it. A
search that fails is one without results. -/
def handleWebsearchRequest (env : SearchEnv) (payload : MessagesRequest)
    (messageId toolUseId : String) (mcp : Except String McpResponse)
    (inputTokens creation read : Int) : Except ErrorResponse (List SentEvent) :=
  match extractSearchQuery payload with
  | none => .error ⟨400, "invalid_request_error", "无法从消息中提取搜索查询"⟩
  | some query =>
    let results :=
      match callMcpApi mcp with
      | .ok response => parseSearchResults env response
      | .error _ => none
    .ok (generateWebsearchEvents env messageId payload.model query toolUseId results inputTokens
      creation read)

/-- The message that the answer is. -/
def answerMessage (env : SearchEnv) (messageId model query toolUseId : String)
    (results : Option WebSearchResults) (inputTokens creation read : Int) : Value :=
  let summary := generateSearchSummary query results
  .obj [("id", .string messageId), ("type", .string "message"), ("role", .string "assistant"),
    ("model", .string model), ("content", .array [
      .obj [("type", .string "text"), ("text", .string (decisionText query))],
      serverToolUseBlock toolUseId query, searchResultBlock env results,
      .obj [("type", .string "text"), ("text", .string summary)]]),
    ("stop_reason", .string "end_turn"),
    ("usage", .obj [("input_tokens", ofInt inputTokens),
      ("output_tokens", ofInt (summaryTokens summary)),
      ("cache_creation_input_tokens", ofInt creation), ("cache_read_input_tokens", ofInt read),
      ("server_tool_use", .obj [("web_search_requests", ofInt 1)])])]

section Client

variable {parse : String → Option Value} {c : Client} {m : Value}

theorem receiveAll_textPieces (between : Between m c) (small : c.content.length < 2 ^ 31)
    (texts : List (List Char)) :
    receiveAll parse c (blockStart c.content.length textStart ::
        (texts.map (fun text => blockDelta c.content.length (textDelta (String.ofList text))) ++
          [blockStop c.content.length])) =
      some { c with content := c.content ++
        [.obj [("type", .string "text"), ("text", .string (String.ofList texts.flatten))]] } := by
  have whole := @receiveAll_block parse c m between small textStart
    ((texts.map String.ofList).map textDelta)
  have added : applyDeltas (textStart, none) ((texts.map String.ofList).map textDelta) = _ :=
    applyDeltas_text (texts.map String.ofList) ""
  rw [added, foldl_append_pieces, String.empty_append] at whole
  rw [List.map_map, List.map_map] at whole
  exact whole

end Client

theorem assemble_generateWebsearchEvents (env : SearchEnv) (messageId model query toolUseId : String)
    (results : Option WebSearchResults) (inputTokens creation read : Int)
    (parse : String → Option Value) :
    assemble parse (generateWebsearchEvents env messageId model query toolUseId results inputTokens
        creation read) =
      some (answerMessage env messageId model query toolUseId results inputTokens creation read) := by
  let summary := generateSearchSummary query results
  let m : Value := .obj [("id", .string messageId), ("type", .string "message"),
    ("role", .string "assistant"), ("model", .string model), ("content", .array []),
    ("stop_reason", .null), ("usage", usageData ⟨inputTokens, 0, creation, read⟩)]
  let text (t : String) : Value := .obj [("type", .string "text"), ("text", .string t)]
  let search := serverToolUseBlock toolUseId query
  let found := searchResultBlock env results
  let c₀ : Client := { message := some m }
  let c₁ : Client := { c₀ with content := [text (decisionText query)] }
  let c₂ : Client := { c₀ with content := [text (decisionText query), search] }
  let c₃ : Client := { c₀ with content := [text (decisionText query), search, found] }
  let c₄ : Client := { c₀ with content := [text (decisionText query), search, found, text summary] }
  have announced : receiveAll parse c₀
      [blockStart 0 textStart, blockDelta 0 (textDelta (decisionText query)), blockStop 0] =
        some c₁ := by
    have pieces := @receiveAll_textPieces parse c₀ m ⟨rfl, rfl, rfl⟩
      (show 0 < 2 ^ 31 by decide)
      [(decisionText query).toList]
    rw [List.flatten_singleton, String.ofList_toList, List.map_singleton,
      String.ofList_toList] at pieces
    exact pieces
  have searched : receiveAll parse c₁ [blockStart 1 search, blockStop 1] = some c₂ :=
    @receiveAll_plainBlock parse c₁ m ⟨rfl, rfl, rfl⟩
      (show 1 < 2 ^ 31 by decide) search
  have shown : receiveAll parse c₂ [blockStart 2 found, blockStop 2] = some c₃ :=
    @receiveAll_plainBlock parse c₂ m ⟨rfl, rfl, rfl⟩
      (show 2 < 2 ^ 31 by decide) found
  have summed : receiveAll parse c₃ (blockStart 3 textStart ::
      ((pieces 100 summary.toList).map (fun t => blockDelta 3 (textDelta (String.ofList t))) ++
        [blockStop 3])) = some c₄ := by
    have whole := @receiveAll_textPieces parse c₃ m ⟨rfl, rfl, rfl⟩
      (show 3 < 2 ^ 31 by decide)
      (pieces 100 summary.toList)
    rw [pieces, flatten_piecesUpTo (by decide) (le_refl _), String.ofList_toList] at whole
    exact whole
  have ended : Between m c₄ := ⟨rfl, rfl, rfl⟩
  have usage : field (merge m (.obj [("stop_reason", .string "end_turn")])) "usage" =
      usageData ⟨inputTokens, 0, creation, read⟩ := by
    rw [merge_obj, field, get_obj]
    rfl
  have counted : merge (usageData ⟨inputTokens, 0, creation, read⟩)
      (.obj [("output_tokens", ofInt (summaryTokens summary)),
        ("cache_creation_input_tokens", ofInt creation), ("cache_read_input_tokens", ofInt read),
        ("server_tool_use", .obj [("web_search_requests", ofInt 1)])]) =
      .obj [("input_tokens", ofInt inputTokens), ("output_tokens", ofInt (summaryTokens summary)),
        ("cache_creation_input_tokens", ofInt creation), ("cache_read_input_tokens", ofInt read),
        ("server_tool_use", .obj [("web_search_requests", ofInt 1)])] := by
    rw [usageData, merge_obj]
    refine obj_congr fun key => ?_
    simp only [List.cons_append, List.nil_append, List.reverse_cons, List.reverse_nil,
      List.lookup_cons]
    grind
  rw [assemble, generateWebsearchEvents]
  simp only [List.append_assoc]
  rw [List.singleton_append, receiveAll_cons, receive_messageStart, Option.bind_some,
    receiveAll_append, announced, Option.bind_some, receiveAll_append, searched, Option.bind_some,
    receiveAll_append, shown, Option.bind_some, receiveAll_append, summed, Option.bind_some,
    receiveAll_ends ended, usage, counted, merge_obj, setField_obj, Option.bind_some]
  show some (setField _ "content" _) = _
  rw [setField_obj, answerMessage]
  refine congrArg some (obj_congr fun key => ?_)
  clear * -
  simp only [List.cons_append, List.nil_append, List.reverse_cons, List.reverse_nil,
    Dicts.lookup_cons_eq]
  split_ifs <;> first | rfl | simp_all

/-- The client of a direct search assembles one message: the announcement, the search, its results
and their whole summary, wherever that was cut into pieces. A search that fails has no results. -/
theorem direct_search_assembled (env : SearchEnv) (payload : MessagesRequest)
    (messageId toolUseId : String) (mcp : Except String McpResponse)
    (inputTokens creation read : Int) (parse : String → Option Value)
    (direct : isDirectWebSearchRequest payload = true) :
    ∃ query events, extractSearchQuery payload = some query ∧
      handleWebsearchRequest env payload messageId toolUseId mcp inputTokens creation read =
        .ok events ∧
      assemble parse events = some (answerMessage env messageId payload.model query toolUseId
        ((callMcpApi mcp).toOption.bind (parseSearchResults env)) inputTokens creation read) := by
  obtain ⟨query, found⟩ := Option.isSome_iff_exists.mp direct
  refine ⟨query, _, found, ?_, assemble_generateWebsearchEvents env messageId payload.model query
    toolUseId _ inputTokens creation read parse⟩
  rw [handleWebsearchRequest, found]
  cases callMcpApi mcp with
  | error e => rfl
  | ok response => rfl

private def directRequest : MessagesRequest where
  model := "claude-sonnet-4-5"
  messages := [⟨"user", .string "Perform a web search for the query: lean"⟩]
  tools := some [{ name := "web_search" }]

theorem direct_search_assembled_unreachable : ∃ query events,
    extractSearchQuery directRequest = some query ∧
    handleWebsearchRequest .sample directRequest "msg_1" "srvtoolu_1" (.error "unreachable") 5 0 0 =
      .ok events ∧
    assemble (fun _ => none) events =
      some (answerMessage .sample "msg_1" "claude-sonnet-4-5" query "srvtoolu_1" none 5 0 0) :=
  direct_search_assembled .sample directRequest "msg_1" "srvtoolu_1" (.error "unreachable") 5 0 0
    (fun _ => none) (by decide +kernel)

end KiroRs.WebSearch.DirectSearch
