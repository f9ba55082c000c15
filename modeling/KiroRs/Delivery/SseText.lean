/- Path: KiroRs/Delivery/SseText
   source: src/anthropic/stream.rs, src/anthropic/handlers.rs
   digest: The text of what a stream sends, and that its client reads exactly that back. -/

import KiroRs.Converter.JsonText
import KiroRs.Delivery.Arrivals
import KiroRs.Lib.Literals

set_option autoImplicit false
set_option relaxedAutoImplicit false

namespace KiroRs.Delivery.SseText

open KiroRs.Lib
open KiroRs.Lib.EventStreams
open KiroRs.Converter.Json
open KiroRs.Converter.JsonText
open KiroRs.Stream.Events
open KiroRs.Delivery.Arrivals

/-- The number a `serde_json::json!` literal makes of an `i32`. -/
def ofInt (n : Int) : Value :=
  .number (if 0 ≤ n then .posInt (UInt64.ofNat n.toNat) else .negInt (Int64.ofInt n))

/-- The field `event`. -/
def eventName : SseEvent → String
  | .messageStart _ _ _ => "message_start"
  | .contentBlockStart _ _ => "content_block_start"
  | .contentBlockDelta _ _ => "content_block_delta"
  | .contentBlockStop _ => "content_block_stop"
  | .messageDelta _ _ => "message_delta"
  | .messageStop => "message_stop"
  | .error _ _ => "error"

def usageData (usage : Usage) : Value :=
  .obj [("input_tokens", ofInt usage.inputTokens), ("output_tokens", ofInt usage.outputTokens),
    ("cache_creation_input_tokens", ofInt usage.cacheCreationInputTokens),
    ("cache_read_input_tokens", ofInt usage.cacheReadInputTokens)]

def blockData : ContentBlock → Value
  | .text => .obj [("type", .string "text"), ("text", .string "")]
  | .thinking => .obj [("type", .string "thinking"), ("thinking", .string "")]
  | .redactedThinking data => .obj [("type", .string "redacted_thinking"), ("data", .string data)]
  | .toolUse id name =>
    .obj [("type", .string "tool_use"), ("id", .string id), ("name", .string name),
      ("input", .obj [])]

def deltaData : Delta → Value
  | .textDelta text =>
    .obj [("type", .string "text_delta"), ("text", .string (String.ofList text))]
  | .thinkingDelta thinking =>
    .obj [("type", .string "thinking_delta"), ("thinking", .string (String.ofList thinking))]
  | .signatureDelta signature =>
    .obj [("type", .string "signature_delta"), ("signature", .string signature)]
  | .inputJsonDelta partialJson =>
    .obj [("type", .string "input_json_delta"), ("partial_json", .string partialJson)]

/-- The field `data`. -/
def eventData : SseEvent → Value
  | .messageStart id model usage =>
    .obj [("type", .string "message_start"), ("message", .obj [
      ("id", .string id), ("type", .string "message"), ("role", .string "assistant"),
      ("content", .array []), ("model", .string model), ("stop_reason", .null),
      ("stop_sequence", .null), ("usage", usageData usage)])]
  | .contentBlockStart index block =>
    .obj [("type", .string "content_block_start"), ("index", ofInt index),
      ("content_block", blockData block)]
  | .contentBlockDelta index delta =>
    .obj [("type", .string "content_block_delta"), ("index", ofInt index),
      ("delta", deltaData delta)]
  | .contentBlockStop index =>
    .obj [("type", .string "content_block_stop"), ("index", ofInt index)]
  | .messageDelta stopReason usage =>
    .obj [("type", .string "message_delta"),
      ("delta", .obj [("stop_reason", .string stopReason), ("stop_sequence", .null)]),
      ("usage", usageData usage)]
  | .messageStop => .obj [("type", .string "message_stop")]
  | .error type message =>
    .obj [("type", .string "error"),
      ("error", .obj [("type", .string type), ("message", .string message)])]

def toSseString (formatFloat : Int → Int → String) (e : SseEvent) : Chars :=
  "event: ".toList ++ (eventName e).toList ++ "\ndata: ".toList ++
    ((eventData e).render formatFloat).toList ++ "\n\n".toList

def createPingSse : Chars := "event: ping\ndata: \x7b\"type\": \"ping\"\x7d\n\n".toList

def itemText (formatFloat : Int → Int → String) : Item → Chars
  | .ping => createPingSse
  | .event e => toSseString formatFloat e

def message (formatFloat : Int → Int → String) : Item → Message
  | .ping => ("ping".toList, "\x7b\"type\": \"ping\"\x7d".toList)
  | .event e => ((eventName e).toList, text formatFloat (eventData e))

/-- The text of a body: its items, one after the other. -/
def bodyText (formatFloat : Int → Int → String) (items : List Item) : Chars :=
  items.flatMap (itemText formatFloat)

theorem get_obj (entries : List (String × Value)) (key : String) :
    (Value.obj entries).get key = entries.reverse.lookup key :=
  Dicts.get_ofList entries key

theorem exactFields_insert {d : Dicts.Dict Value} {key : String} {value : Value}
    (all : exactFields d = true) (ints : exact value = true) :
    exactFields (Dicts.insert d key value) = true := by
  induction d with
  | nil =>
    rw [Dicts.insert, exactFields, exactFields, ints]
    rfl
  | cons p rest ih =>
    obtain ⟨k, v⟩ := p
    rw [exactFields, Bool.and_eq_true] at all
    rw [Dicts.insert]
    split_ifs
    · rw [exactFields, ints, all.2]
      rfl
    · rw [exactFields, exactFields, ints, all.1, all.2]
      rfl
    · rw [exactFields, all.1, ih all.2]
      rfl

theorem exact_obj {entries : List (String × Value)}
    (all : ∀ p ∈ entries, exact p.2 = true) : exact (Value.obj entries) = true := by
  rw [Value.obj, exact]
  induction entries using List.reverseRecOn with
  | nil => rfl
  | append_singleton rest p ih =>
    rw [List.forall_mem_append] at all
    rw [Dicts.ofList_append_singleton]
    exact exactFields_insert (ih all.1) (all.2 p (List.mem_singleton_self p))

/-- The number is an `i32`. -/
def InI32 (n : Int) : Prop := -2 ^ 31 ≤ n ∧ n < 2 ^ 31

theorem toInt_ofInt {n : Int} (range : InI32 n) : (Int64.ofInt n).toInt = n := by
  unfold InI32 at range
  have size : Int64.size = 18446744073709551616 := rfl
  rw [Int64.toInt_ofInt, size, Int.bmod_eq_of_le (by omega) (by omega)]

theorem exact_ofInt {n : Int} (range : InI32 n) : exact (ofInt n) = true := by
  rw [ofInt, exact]
  by_cases pos : 0 ≤ n
  · rw [if_pos pos]
    rfl
  · rw [if_neg pos, exactNumber, toInt_ofInt range]
    exact decide_eq_true (not_le.mp pos)

theorem numberOf_ofInt {n : Int} (range : InI32 n) :
    numberOf (if 0 ≤ n then .posInt (UInt64.ofNat n.toNat) else .negInt (Int64.ofInt n)) = n := by
  by_cases pos : 0 ≤ n
  · rw [if_pos pos, numberOf, UInt64.toNat_ofNat']
    unfold InI32 at range
    omega
  · rw [if_neg pos]
    exact toInt_ofInt range

theorem ofInt_inj {n m : Int} (range : InI32 n) (range' : InI32 m) (same : ofInt n = ofInt m) :
    n = m := by
  have numbers := congrArg numberOf (Value.number.inj same)
  rwa [numberOf_ofInt range, numberOf_ofInt range'] at numbers

/-- The counts of a usage and the index of a block are `i32`s. -/
def UsageInI32 (usage : Usage) : Prop :=
  InI32 usage.inputTokens ∧ InI32 usage.outputTokens ∧ InI32 usage.cacheCreationInputTokens ∧
    InI32 usage.cacheReadInputTokens

def EventInI32 : SseEvent → Prop
  | .messageStart _ _ usage => UsageInI32 usage
  | .contentBlockStart index _ => InI32 index
  | .contentBlockDelta index _ => InI32 index
  | .contentBlockStop index => InI32 index
  | .messageDelta _ usage => UsageInI32 usage
  | .messageStop => True
  | .error _ _ => True

def ItemInI32 : Item → Prop
  | .ping => True
  | .event e => EventInI32 e

theorem usageData_inj {u v : Usage} (range : UsageInI32 u) (range' : UsageInI32 v)
    (same : usageData u = usageData v) : u = v := by
  have fields (key : String) : (usageData u).get key = (usageData v).get key := by rw [same]
  have input := fields "input_tokens"
  have output := fields "output_tokens"
  have creation := fields "cache_creation_input_tokens"
  have read := fields "cache_read_input_tokens"
  simp [usageData, get_obj, List.lookup_cons] at input output creation read
  cases u
  cases v
  simp only [Usage.mk.injEq]
  exact ⟨ofInt_inj range.1 range'.1 input, ofInt_inj range.2.1 range'.2.1 output,
    ofInt_inj range.2.2.1 range'.2.2.1 creation, ofInt_inj range.2.2.2 range'.2.2.2 read⟩

theorem blockData_inj {b b' : ContentBlock} (same : blockData b = blockData b') : b = b' := by
  have fields (key : String) : (blockData b).get key = (blockData b').get key := by rw [same]
  have type := fields "type"
  have data := fields "data"
  have id := fields "id"
  have name := fields "name"
  cases b <;> cases b' <;>
    simp [blockData, get_obj, List.lookup_cons] at type data id name ⊢
  · exact data
  · exact ⟨id, name⟩

theorem deltaData_inj {d d' : Delta} (same : deltaData d = deltaData d') : d = d' := by
  have fields (key : String) : (deltaData d).get key = (deltaData d').get key := by rw [same]
  have type := fields "type"
  have text := fields "text"
  have thinking := fields "thinking"
  have signature := fields "signature"
  have input := fields "partial_json"
  cases d <;> cases d' <;>
    simp [deltaData, get_obj, List.lookup_cons] at type text thinking signature input ⊢
  · exact String.ofList_injective text
  · exact String.ofList_injective thinking
  · exact signature
  · exact input

theorem eventData_inj {e e' : SseEvent} (range : EventInI32 e) (range' : EventInI32 e')
    (same : eventData e = eventData e') : e = e' := by
  have fields (key : String) : (eventData e).get key = (eventData e').get key := by rw [same]
  have type := fields "type"
  have index := fields "index"
  have block := fields "content_block"
  have delta := fields "delta"
  have usage := fields "usage"
  have error := fields "error"
  have started := fields "message"
  cases e <;> cases e' <;>
    simp [eventData, get_obj, List.lookup_cons] at type index block delta usage error started ⊢
  · have parts (key : String) := congrArg (fun v => Value.get v key) started
    have id := parts "id"
    have model := parts "model"
    have usage := parts "usage"
    simp [get_obj, List.lookup_cons] at id model usage
    exact ⟨id, model, usageData_inj range range' usage⟩
  · exact ⟨ofInt_inj range range' index, blockData_inj block⟩
  · exact ⟨ofInt_inj range range' index, deltaData_inj delta⟩
  · exact ofInt_inj range range' index
  · have reason := congrArg (fun v => Value.get v "stop_reason") delta
    simp [get_obj, List.lookup_cons] at reason
    exact ⟨reason, usageData_inj range range' usage⟩
  · have parts (key : String) := congrArg (fun v => Value.get v key) error
    have type := parts "type"
    have text := parts "message"
    simp [get_obj, List.lookup_cons] at type text
    exact ⟨type, text⟩

theorem exact_usageData {usage : Usage} (range : UsageInI32 usage) :
    exact (usageData usage) = true := by
  apply exact_obj
  simp only [List.forall_mem_cons, exact_ofInt range.1, exact_ofInt range.2.1,
    exact_ofInt range.2.2.1, exact_ofInt range.2.2.2, List.not_mem_nil, false_imp_iff,
    implies_true, and_self]

theorem exact_blockData (block : ContentBlock) : exact (blockData block) = true := by
  cases block <;>
  · apply exact_obj
    simp [exact, Value.obj, Dicts.ofList, exactFields]

theorem exact_deltaData (delta : Delta) : exact (deltaData delta) = true := by
  cases delta <;>
  · apply exact_obj
    simp [exact]

theorem exact_eventData {e : SseEvent} (range : EventInI32 e) : exact (eventData e) = true := by
  cases e with
  | messageStart id model usage =>
    have inner : exact (.obj [
        ("id", .string id), ("type", .string "message"), ("role", .string "assistant"),
        ("content", .array []), ("model", .string model), ("stop_reason", .null),
        ("stop_sequence", .null), ("usage", usageData usage)]) = true := by
      apply exact_obj
      simp [exact, exactItems, exact_usageData range]
    apply exact_obj
    simp [exact, inner]
  | contentBlockStart index block =>
    apply exact_obj
    simp [exact, exact_ofInt range, exact_blockData]
  | contentBlockDelta index delta =>
    apply exact_obj
    simp [exact, exact_ofInt range, exact_deltaData]
  | contentBlockStop index =>
    apply exact_obj
    simp [exact, exact_ofInt range]
  | messageDelta reason usage =>
    have inner : exact (.obj [("stop_reason", .string reason), ("stop_sequence", .null)]) =
        true := by
      apply exact_obj
      simp [exact]
    apply exact_obj
    simp [exact, inner, exact_usageData range]
  | messageStop =>
    apply exact_obj
    simp [exact]
  | error type text =>
    have inner : exact (.obj [("type", .string type), ("message", .string text)]) = true := by
      apply exact_obj
      simp [exact]
    apply exact_obj
    simp [exact, inner]

theorem eventName_unbroken (e : SseEvent) :
    Unbroken (eventName e).toList ∧ (eventName e).toList ≠ [] ∧
      (eventName e).toList ≠ "ping".toList := by
  have named : eventName e ∈ ["message_start", "content_block_start", "content_block_delta",
      "content_block_stop", "message_delta", "message_stop", "error"] := by
    cases e <;> simp [eventName]
  have all : ["message_start", "content_block_start", "content_block_delta",
      "content_block_stop", "message_delta", "message_stop", "error"].all (fun s =>
        s.toList.all (fun x => x != '\n' && x != '\r') && s.toList != [] &&
          s.toList != "ping".toList) = true := by decide
  have here := List.all_eq_true.mp all _ named
  rw [Bool.and_eq_true, Bool.and_eq_true, bne_iff_ne, bne_iff_ne] at here
  exact ⟨unbroken_of_all here.1.1, here.1.2, here.2⟩

theorem message_plain (formatFloat : Int → Int → String) {i : Item} (range : ItemInI32 i) :
    Plain (message formatFloat i) := by
  cases i with
  | ping =>
    show Plain ("ping".toList, "\x7b\"type\": \"ping\"\x7d".toList)
    exact ⟨unbroken_of_all (by decide), by decide, unbroken_of_all (by decide)⟩
  | event e =>
    obtain ⟨unbroken, named, -⟩ := eventName_unbroken e
    exact ⟨unbroken, named, unbroken_exact (exact_eventData range)⟩

theorem itemText_eq (formatFloat : Int → Int → String) (i : Item) :
    itemText formatFloat i = frame (message formatFloat i) := by
  cases i with
  | ping =>
    show createPingSse = frame ("ping".toList, "\x7b\"type\": \"ping\"\x7d".toList)
    decide +kernel
  | event e =>
    have before : "event: ".toList = EventStreams.eventName ++ [':', ' '] := by decide
    have between : "\ndata: ".toList = ['\n'] ++ (dataName ++ [':', ' ']) := by decide
    have behind : "\n\n".toList = ['\n'] ++ ['\n'] := by decide
    show "event: ".toList ++ (eventName e).toList ++ "\ndata: ".toList ++
      ((eventData e).render formatFloat).toList ++ "\n\n".toList =
        frame ((eventName e).toList, text formatFloat (eventData e))
    rw [before, between, behind, toList_render, frame]
    simp only [List.append_assoc]

theorem message_inj {formatFloat : Int → Int → String} {i j : Item} (range : ItemInI32 i)
    (range' : ItemInI32 j) (same : message formatFloat i = message formatFloat j) : i = j := by
  obtain ⟨type, data⟩ := Prod.mk.inj same
  cases i with
  | ping =>
    cases j with
    | ping => rfl
    | event e => exact absurd type.symm (eventName_unbroken e).2.2
  | event e =>
    cases j with
    | ping => exact absurd type (eventName_unbroken e).2.2
    | event e' =>
      have delimited : Delimited [] := fun c mem => nomatch mem
      have same_text : text formatFloat (eventData e) ++ [] =
          text formatFloat (eventData e') ++ [] := by
        rw [List.append_nil, List.append_nil]
        exact data
      have same_data := (text_inj _ _ (exact_eventData range) (exact_eventData range') delimited
        delimited same_text).1
      rw [eventData_inj range range' same_data]

theorem messages_inj {formatFloat : Int → Int → String} {items items' : List Item}
    (range : ∀ i ∈ items, ItemInI32 i) (range' : ∀ i ∈ items', ItemInI32 i)
    (same : items.map (message formatFloat) = items'.map (message formatFloat)) :
    items = items' := by
  induction items generalizing items' with
  | nil =>
    cases items' with
    | nil => rfl
    | cons i' rest' => cases same
  | cons i rest ih =>
    cases items' with
    | nil => cases same
    | cons i' rest' =>
      obtain ⟨here, later⟩ := List.cons.inj same
      obtain ⟨first, others⟩ := List.forall_mem_cons.mp range
      obtain ⟨first', others'⟩ := List.forall_mem_cons.mp range'
      rw [message_inj first first' here, ih others others' later]

theorem receive_bodyText (formatFloat : Int → Int → String) {items : List Item}
    (range : ∀ i ∈ items, ItemInI32 i) :
    receive {} (bodyText formatFloat items) = (items.map (message formatFloat), {}) := by
  have framed : bodyText formatFloat items =
      (items.map (message formatFloat)).flatMap frame := by
    rw [bodyText, List.flatMap_map]
    exact List.flatMap_congr fun i _ => itemText_eq formatFloat i
  have plain : ∀ m ∈ items.map (message formatFloat), Plain m := by
    intro m mem
    obtain ⟨i, inside, rfl⟩ := List.mem_map.mp mem
    exact message_plain formatFloat (range i inside)
  rw [framed, receive_frames plain]

/-- However the text of a body is cut on its way, its client reads the message of each item once and
in order, and no other list of items has that text: nothing that a model writes into an event can
end a line, close an event or forge another one. -/
theorem body_read_back (formatFloat : Int → Int → String) (items : List Item)
    (range : ∀ i ∈ items, ItemInI32 i) (pieces : List Chars)
    (cut : pieces.flatten = bodyText formatFloat items) :
    receiveAll {} pieces = (items.map (message formatFloat), {}) ∧
      ∀ items', (∀ i ∈ items', ItemInI32 i) →
        bodyText formatFloat items' = bodyText formatFloat items → items' = items := by
  refine ⟨?_, ?_⟩
  · rw [receiveAll_eq, cut, receive_bodyText formatFloat range]
  · intro items' range' same
    have messages := receive_bodyText formatFloat range'
    rw [same, receive_bodyText formatFloat range] at messages
    exact (messages_inj range range' (congrArg Prod.fst messages)).symm

/-- A text delta that holds the text of another event, cut in the middle of that text. -/
theorem body_read_back_forged :
    let delta : SseEvent := .contentBlockDelta 0
      (.textDelta "\n\nevent: message_stop\ndata: \x7b\x7d\n\n".toList)
    receiveAll {} [(bodyText (fun _ _ => "") [.event delta, .ping]).take 60,
        (bodyText (fun _ _ => "") [.event delta, .ping]).drop 60] =
      ([message (fun _ _ => "") (.event delta), message (fun _ _ => "") .ping], {}) :=
  (body_read_back (fun _ _ => "") [.event (.contentBlockDelta 0
      (.textDelta "\n\nevent: message_stop\ndata: \x7b\x7d\n\n".toList)), .ping]
    (by
      simp only [List.forall_mem_cons, ItemInI32, EventInI32, InI32]
      exact ⟨by decide, trivial, fun i mem => nomatch mem⟩) _
    (by rw [List.flatten_cons, List.flatten_singleton, List.take_append_drop])).1

end KiroRs.Delivery.SseText
