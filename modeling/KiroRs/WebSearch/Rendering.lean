/- Path: KiroRs/WebSearch/Rendering
   source: src/anthropic/websearch_loop.rs, src/anthropic/websearch.rs
   digest: The answer of the web search loop as an event stream and as one JSON body, the answer to a
   direct search, and the messages that clients make of them. -/

import KiroRs.WebSearch.Assembly
import KiroRs.WebSearch.Protocol

set_option autoImplicit false
set_option relaxedAutoImplicit false

namespace KiroRs.WebSearch.Rendering

open KiroRs.Lib
open KiroRs.Lib.Rounds
open KiroRs.Converter.Json
open KiroRs.Converter.Requests (MessagesRequest)
open KiroRs.Converter.ToolNames (ToolCompatibilityMode)
open KiroRs.Delivery.SseText (ofInt usageData get_obj)
open KiroRs.Stream.Context (thinkingSignaturePlaceholder)
open KiroRs.Stream.Events
open KiroRs.WebSearch.Assembly
open KiroRs.WebSearch.Loop
open KiroRs.WebSearch.Protocol (again_cases)
open KiroRs.WebSearch.Rounds

def blockEvents (formatFloat : Int → Int → String) (index : Int) (block : Value) :
    List SentEvent :=
  match textField block "type" with
  | "thinking" =>
    let thinking := textField block "thinking"
    let deltas := (if thinking.isEmpty then []
      else [.obj [("type", .string "thinking_delta"), ("thinking", .string thinking)]]) ++
        [.obj [("type", .string "signature_delta"),
          ("signature", .string thinkingSignaturePlaceholder)]]
    blockStart index (.obj [("type", .string "thinking"), ("thinking", .string "")]) ::
      (deltas.map (blockDelta index) ++ [blockStop index])
  | "redacted_thinking" =>
    [blockStart index (.obj [("type", .string "redacted_thinking"),
      ("data", .string (textField block "data"))]), blockStop index]
  | "text" =>
    [blockStart index (.obj [("type", .string "text"), ("text", .string "")]),
      blockDelta index (.obj [("type", .string "text_delta"),
        ("text", .string (textField block "text"))]), blockStop index]
  | "tool_use" =>
    let input := (block.get "input").getD (.obj [])
    [blockStart index (.obj [("type", .string "tool_use"), ("id", .string (textField block "id")),
        ("name", .string (textField block "name")), ("input", .obj [])]),
      blockDelta index (.obj [("type", .string "input_json_delta"),
        ("partial_json", .string (input.render formatFloat))]), blockStop index]
  | "server_tool_use" | "web_search_tool_result" => [blockStart index block, blockStop index]
  | _ => []

def buildSseEvents (formatFloat : Int → Int → String) (messageId : String)
    (r : WebSearchLoopSuccess) : List SentEvent :=
  [⟨"message_start", .obj [("type", .string "message_start"), ("message", .obj [
      ("id", .string messageId), ("type", .string "message"), ("role", .string "assistant"),
      ("model", .string r.model), ("content", .array []), ("stop_reason", .null),
      ("stop_sequence", .null),
      ("usage", usageData ⟨r.inputTokens, 0, r.cacheCreationTokens, r.cacheReadTokens⟩)])]⟩] ++
    (r.content.zipIdx.flatMap fun p => blockEvents formatFloat (wrapI32 p.2) p.1) ++
    [⟨"message_delta", .obj [("type", .string "message_delta"),
        ("delta", .obj [("stop_reason", .string r.stopReason)]),
        ("usage", .obj [("output_tokens", ofInt r.outputTokens),
          ("cache_creation_input_tokens", ofInt r.cacheCreationTokens),
          ("cache_read_input_tokens", ofInt r.cacheReadTokens)])]⟩,
      ⟨"message_stop", .obj [("type", .string "message_stop")]⟩]

/-- The body of `render_json`. -/
def renderJson (messageId : String) (r : WebSearchLoopSuccess) : Value :=
  .obj [("id", .string messageId), ("type", .string "message"), ("role", .string "assistant"),
    ("content", .array r.content), ("model", .string r.model),
    ("stop_reason", .string r.stopReason), ("stop_sequence", .null),
    ("usage", usageData ⟨r.inputTokens, r.outputTokens, r.cacheCreationTokens,
      r.cacheReadTokens⟩)]

inductive Shown : Value → Prop where
  | thinking (text : String) : Shown (.obj [("type", .string "thinking"),
      ("thinking", .string text), ("signature", .string thinkingSignaturePlaceholder)])
  | redactedThinking (data : String) :
    Shown (.obj [("type", .string "redacted_thinking"), ("data", .string data)])
  | text (text : String) : Shown (.obj [("type", .string "text"), ("text", .string text)])
  | toolUse (t : DecodedToolUse) : Shown (toolUseBlock t)
  | serverToolUse (id query : String) : Shown (.obj [("type", .string "server_tool_use"),
      ("id", .string id), ("name", .string "web_search"),
      ("input", .obj [("query", .string query)])])
  | searchResult (results : List Value) : Shown (.obj [
      ("type", .string "web_search_tool_result"), ("content", .array results)])

/-- The parser reads the inputs of the tool calls as they were printed. -/
def ReadsInputs (parse : String → Option Value) (formatFloat : Int → Int → String)
    (content : List Value) : Prop :=
  ∀ b ∈ content, b.get "type" = some (.string "tool_use") → ∀ input, b.get "input" = some input →
    parse (input.render formatFloat) = some input

section Blocks

variable {parse : String → Option Value} {formatFloat : Int → Int → String} {c : Client}
  {m b : Value}

theorem receiveAll_plainBlock (between : Between m c) (small : c.content.length < 2 ^ 31)
    (block : Value) :
    receiveAll parse c [blockStart c.content.length block, blockStop c.content.length] =
      some { c with content := c.content ++ [block] } :=
  receiveAll_block between small block []

theorem receiveAll_thinking (between : Between m c) (small : c.content.length < 2 ^ 31)
    (text : String) :
    receiveAll parse c (blockEvents formatFloat c.content.length (.obj [
        ("type", .string "thinking"), ("thinking", .string text),
        ("signature", .string thinkingSignaturePlaceholder)])) =
      some { c with content := c.content ++ [.obj [("type", .string "thinking"),
        ("thinking", .string text), ("signature", .string thinkingSignaturePlaceholder)]] } := by
  have thinking : textField (.obj [("type", .string "thinking"), ("thinking", .string text),
      ("signature", .string thinkingSignaturePlaceholder)]) "thinking" = text := textField_obj rfl
  rw [blockEvents, textField_obj (t := "thinking") rfl]
  simp only [thinking]
  rw [receiveAll_block between small]
  by_cases empty : text.isEmpty = true
  · have none_ : text = "" := String.isEmpty_iff.mp empty
    rw [if_pos empty, List.nil_append, applyDeltas, List.foldlM_cons, applyDelta_signature,
      setField_obj, none_]
    rfl
  · rw [if_neg empty, List.singleton_append, applyDeltas, List.foldlM_cons, applyDelta_thinking,
      textField_obj (t := "") rfl, setField_obj, String.empty_append]
    show Option.map _ (Option.bind (List.foldlM _ _ _) _) = _
    rw [List.foldlM_cons, applyDelta_signature, setField_obj]
    have same : Value.obj ([("type", .string "thinking"), ("thinking", .string "")] ++
        [("thinking", .string text)] ++ [("signature", .string thinkingSignaturePlaceholder)]) =
        .obj [("type", .string "thinking"), ("thinking", .string text),
          ("signature", .string thinkingSignaturePlaceholder)] := by
      refine obj_congr fun key => ?_
      simp only [List.cons_append, List.nil_append, List.reverse_cons, List.reverse_nil,
        List.lookup_cons]
      grind
    rw [← same]
    rfl

theorem applyDeltas_text (texts : List String) (t : String) :
    applyDeltas (.obj [("type", .string "text"), ("text", .string t)], none)
        (texts.map fun text => .obj [("type", .string "text_delta"), ("text", .string text)]) =
      some (.obj [("type", .string "text"), ("text", .string (texts.foldl (· ++ ·) t))], none) := by
  induction texts generalizing t with
  | nil => rfl
  | cons text rest ih =>
    have same : Value.obj ([("type", .string "text"), ("text", .string t)] ++
        [("text", .string (t ++ text))]) =
          .obj [("type", .string "text"), ("text", .string (t ++ text))] := by
      refine obj_congr fun key => ?_
      simp only [List.cons_append, List.nil_append, List.reverse_cons, List.reverse_nil,
        List.lookup_cons]
      grind
    have here : textField (.obj [("type", .string "text"), ("text", .string t)]) "text" = t :=
      textField_obj rfl
    rw [List.map_cons, applyDeltas, List.foldlM_cons, applyDelta_text, here, setField_obj, same]
    exact ih (t ++ text)

theorem receiveAll_text (between : Between m c) (small : c.content.length < 2 ^ 31)
    (text : String) :
    receiveAll parse c (blockEvents formatFloat c.content.length
        (.obj [("type", .string "text"), ("text", .string text)])) =
      some { c with content := c.content ++
        [.obj [("type", .string "text"), ("text", .string text)]] } := by
  have held : textField (.obj [("type", .string "text"), ("text", .string text)]) "text" = text :=
    textField_obj rfl
  have whole := @receiveAll_block parse c m between small
    (.obj [("type", .string "text"), ("text", .string "")])
    ([text].map fun text => .obj [("type", .string "text_delta"), ("text", .string text)])
  rw [applyDeltas_text, List.foldl_cons, List.foldl_nil, String.empty_append] at whole
  rw [blockEvents, textField_obj (t := "text") rfl]
  simp only [held]
  exact whole

theorem receiveAll_toolUse (between : Between m c) (small : c.content.length < 2 ^ 31)
    (t : DecodedToolUse) (reads : parse (t.input.render formatFloat) = some t.input) :
    receiveAll parse c (blockEvents formatFloat c.content.length (toolUseBlock t)) =
      some { c with content := c.content ++ [toolUseBlock t] } := by
  have type : textField (toolUseBlock t) "type" = "tool_use" := textField_obj rfl
  have id : textField (toolUseBlock t) "id" = t.id := textField_obj rfl
  have name : textField (toolUseBlock t) "name" = t.name := textField_obj rfl
  have input : (toolUseBlock t).get "input" = some t.input := get_obj _ _
  have whole := @receiveAll_block parse c m between small
    (.obj [("type", .string "tool_use"), ("id", .string t.id), ("name", .string t.name),
      ("input", .obj [])])
    [.obj [("type", .string "input_json_delta"),
      ("partial_json", .string (t.input.render formatFloat))]]
  rw [applyDeltas, List.foldlM_cons, applyDelta_inputJson, Option.getD_none,
    String.empty_append] at whole
  have same : Value.obj ([("type", .string "tool_use"), ("id", .string t.id),
      ("name", .string t.name), ("input", .obj [])] ++ [("input", t.input)]) = toolUseBlock t := by
    refine obj_congr fun key => ?_
    simp only [List.cons_append, List.nil_append, List.reverse_cons, List.reverse_nil,
      List.lookup_cons]
    grind
  have finished : finishBlock parse (.obj [("type", .string "tool_use"), ("id", .string t.id),
      ("name", .string t.name), ("input", .obj [])]) (some (t.input.render formatFloat)) =
        some (toolUseBlock t) := by
    rw [finishBlock, reads, Option.map_some, setField_obj, same]
  rw [blockEvents, type]
  simp only [id, name, input, Option.getD_some]
  exact whole.trans
    (congrArg (Option.map fun b => { c with content := c.content ++ [b] }) finished)

theorem receiveAll_blockEvents (between : Between m c) (small : c.content.length < 2 ^ 31)
    (shown : Shown b) (reads : ReadsInputs parse formatFloat [b]) :
    receiveAll parse c (blockEvents formatFloat c.content.length b) =
      some { c with content := c.content ++ [b] } := by
  cases shown with
  | thinking text => exact receiveAll_thinking between small text
  | redactedThinking data =>
    have held : textField (.obj [("type", .string "redacted_thinking"), ("data", .string data)])
        "data" = data := textField_obj rfl
    rw [blockEvents, textField_obj (t := "redacted_thinking") rfl]
    simp only [held]
    exact receiveAll_plainBlock between small _
  | text text => exact receiveAll_text between small text
  | toolUse t =>
    exact receiveAll_toolUse between small t
      (reads _ (List.mem_singleton_self _) (get_obj _ _) _ (get_obj _ _))
  | serverToolUse id query =>
    rw [blockEvents, textField_obj (t := "server_tool_use") rfl]
    exact receiveAll_plainBlock between small _
  | searchResult results =>
    rw [blockEvents, textField_obj (t := "web_search_tool_result") rfl]
    exact receiveAll_plainBlock between small _

theorem receiveAll_content (blocks : List Value) (between : Between m c)
    (small : c.content.length + blocks.length ≤ 2 ^ 31) (shown : ∀ b ∈ blocks, Shown b)
    (reads : ReadsInputs parse formatFloat blocks) :
    receiveAll parse c ((blocks.zipIdx c.content.length).flatMap fun p =>
        blockEvents formatFloat (wrapI32 p.2) p.1) =
      some { c with content := c.content ++ blocks } := by
  induction blocks generalizing c with
  | nil =>
    rw [List.append_nil]
    rfl
  | cons b rest ih =>
    have small_rest : c.content.length + (rest.length + 1) ≤ 2 ^ 31 := small
    have here : c.content.length < 2 ^ 31 := by omega
    obtain ⟨first, others⟩ := List.forall_mem_cons.mp shown
    obtain ⟨reads_first, reads_rest⟩ := List.forall_mem_cons.mp reads
    have one : ReadsInputs parse formatFloat [b] := List.forall_mem_singleton.mpr reads_first
    have length : (c.content ++ [b]).length = c.content.length + 1 := List.length_append
    have later := @ih { c with content := c.content ++ [b] } (between.push b)
      (by rw [length]; omega) others reads_rest
    rw [List.zipIdx_cons, List.flatMap_cons, receiveAll_append,
      wrapI32_of_lt (Int.natCast_nonneg _) (by omega),
      receiveAll_blockEvents between here first one, Option.bind_some, ← length, later,
      List.append_assoc, List.singleton_append]

end Blocks

/-- A client that assembles the event stream of an answer gets what the JSON body has. -/
theorem assemble_buildSseEvents {parse : String → Option Value}
    {formatFloat : Int → Int → String} (messageId : String) {r : WebSearchLoopSuccess}
    (fits : r.content.length ≤ 2 ^ 31) (shown : ∀ b ∈ r.content, Shown b)
    (reads : ReadsInputs parse formatFloat r.content) :
    assemble parse (buildSseEvents formatFloat messageId r) = some (renderJson messageId r) := by
  let m : Value := .obj [("id", .string messageId), ("type", .string "message"),
    ("role", .string "assistant"), ("model", .string r.model), ("content", .array []),
    ("stop_reason", .null), ("stop_sequence", .null),
    ("usage", usageData ⟨r.inputTokens, 0, r.cacheCreationTokens, r.cacheReadTokens⟩)]
  have started : Between m { message := some m } := ⟨rfl, rfl, rfl⟩
  have content : receiveAll parse { message := some m } (r.content.zipIdx.flatMap fun p =>
      blockEvents formatFloat (wrapI32 p.2) p.1) = some { message := some m, content := r.content } :=
    receiveAll_content r.content started (by rw [List.length_nil, Nat.zero_add]; exact fits) shown
      reads
  have ended : Between m { message := some m, content := r.content } := ⟨rfl, rfl, rfl⟩
  have usage : field (merge m (.obj [("stop_reason", .string r.stopReason)])) "usage" =
      usageData ⟨r.inputTokens, 0, r.cacheCreationTokens, r.cacheReadTokens⟩ := by
    rw [merge_obj, field, get_obj]
    rfl
  have counted : merge (usageData ⟨r.inputTokens, 0, r.cacheCreationTokens, r.cacheReadTokens⟩)
      (.obj [("output_tokens", ofInt r.outputTokens),
        ("cache_creation_input_tokens", ofInt r.cacheCreationTokens),
        ("cache_read_input_tokens", ofInt r.cacheReadTokens)]) =
      usageData ⟨r.inputTokens, r.outputTokens, r.cacheCreationTokens, r.cacheReadTokens⟩ := by
    rw [usageData, merge_obj]
    refine obj_congr fun key => ?_
    simp only [List.cons_append, List.nil_append, List.reverse_cons, List.reverse_nil,
      List.lookup_cons]
    grind
  rw [assemble, buildSseEvents, List.append_assoc, List.singleton_append, receiveAll_cons,
    receive_messageStart, Option.bind_some, receiveAll_append, content, Option.bind_some,
    receiveAll_ends ended, usage, counted, merge_obj, setField_obj, Option.bind_some]
  show some (setField _ "content" _) = _
  rw [setField_obj, renderJson]
  refine congrArg some (obj_congr fun key => ?_)
  clear * -
  simp only [List.cons_append, List.nil_append, List.reverse_cons, List.reverse_nil,
    Dicts.lookup_cons_eq]
  split_ifs <;> first | rfl | simp_all

theorem shown_roundBlocks (round : RoundOutcome) (thinkingEnabled : Bool) :
    ∀ b ∈ roundBlocks round thinkingEnabled, Shown b := by
  intro b mem
  simp only [roundBlocks, List.mem_append, List.mem_map] at mem
  rcases mem with ((thinking | redacted) | text) | ⟨t, -, rfl⟩
  · split_ifs at thinking
    · rw [List.mem_singleton.mp thinking]
      exact .thinking _
    · cases thinking
  · split_ifs at redacted
    · rw [List.mem_singleton.mp redacted]
      exact .redactedThinking _
    · cases redacted
  · split_ifs at text
    · rw [List.mem_singleton.mp text]
      exact .text _
    · cases text
  · exact .toolUse t

theorem shown_presentationBlocks (env : SearchEnv) (srvId : String) (t : DecodedToolUse)
    (results : Option WebSearchResults) :
    ∀ b ∈ presentationBlocks env srvId t results, Shown b := by
  intro b mem
  simp only [presentationBlocks, List.mem_cons, List.not_mem_nil, or_false] at mem
  rcases mem with rfl | rfl
  · exact .serverToolUse srvId (query t)
  · exact .searchResult _

variable {env : SearchEnv} {setting : LoopSetting} {replies : Nat → RoundReply} {i : Nat}
  {s : LoopState} {payload : MessagesRequest} {log : List Effect}

theorem shown_of_reaches
    (reached : Reaches (roundStep env setting replies) { payload := payload } i s log) :
    ∀ b ∈ s.presentation, Shown b := by
  induction reached with
  | start => exact fun b mem => nomatch mem
  | again reached goes_on ih =>
    obtain ⟨conversion, reply, searched, -, -, -, rfl⟩ := again_cases goes_on
    intro b mem
    rcases List.mem_append.mp mem with old | new
    · exact ih b old
    · obtain ⟨p, -, inside⟩ := List.mem_flatMap.mp new
      exact shown_presentationBlocks _ _ _ _ b inside

theorem shown_of_stop {r : WebSearchLoopSuccess}
    (reached : Reaches (roundStep env setting replies) { payload := payload } i s log)
    (stops : (roundStep env setting replies i s).2 = .stop (.ok r)) :
    ∀ b ∈ r.content, Shown b := by
  by_cases decodes : ∃ conversion reply,
      Decoded env setting.toSetting s.payload (replies i).call conversion reply
  · obtain ⟨conversion, reply, decoded⟩ := decodes
    cases search : shouldSearchRound i (roundOf env s conversion reply).toolUses with
    | false =>
      obtain ⟨body, eq⟩ := decoded.roundStep_finish search
      rw [eq] at stops
      cases stops
      intro b mem
      rcases List.mem_append.mp mem with old | new
      · exact shown_of_reaches reached b old
      · exact shown_roundBlocks _ _ b new
    | true =>
      obtain ⟨body, eq⟩ := decoded.roundStep_search search
      rw [eq] at stops
      cases ran : (searchAll env (replies i).mcp 0 (roundOf env s conversion reply).toolUses).2 with
      | error e =>
        obtain ⟨t, before, -, failed⟩ := searchRound_error ran
        rw [failed] at stops
        cases stops
      | ok searched =>
        rw [searchRound_ok ran] at stops
        cases stops
  · obtain ⟨before, inputTokens, e, -, -, eq⟩ := roundStep_failed decodes
    rw [eq] at stops
    cases stops

theorem shown_answer {env : SearchEnv} {mode : ToolCompatibilityMode} {hook : UsageRecordHook}
    {cacheUsage : CacheUsage} {payload : MessagesRequest} {replies : Nat → RoundReply}
    {effects : List Effect} {r : WebSearchLoopSuccess}
    (answered : runWebSearchLoopInner env mode hook cacheUsage payload replies = (effects, .ok r)) :
    ∀ b ∈ r.content, Shown b := by
  obtain ⟨i, s, log, b, reached, stops⟩ := exists_stop
    (roundStep_goesOnBelow env (.start env mode hook cacheUsage payload) replies)
    ({ payload := payload } : LoopState)
  have ends : runWebSearchLoopInner env mode hook cacheUsage payload replies = (_, b) :=
    reached.rounds_of_stop (roundStep_goesOnBelow _ _ _) stops
  rw [ends] at answered
  cases answered
  exact shown_of_stop reached stops

end KiroRs.WebSearch.Rendering
