/- Path: KiroRs/WebSearch/Assembly
   source: src/anthropic/stream.rs, src/anthropic/websearch_loop.rs, src/anthropic/websearch.rs
   digest: The message that a client assembles from the events of a stream: what each event does to
   it, and what it makes of the events of one block. -/

import KiroRs.Delivery.SseText
import KiroRs.Stream.Context

set_option autoImplicit false
set_option relaxedAutoImplicit false

namespace KiroRs.WebSearch.Assembly

open KiroRs.Lib
open KiroRs.Converter.Json
open KiroRs.Delivery.SseText (ofInt get_obj)
open KiroRs.Stream.Context (thinkingSignaturePlaceholder)

/-- `SseEvent`, by its two fields. -/
structure SentEvent where
  event : String
  data : Value

def field (v : Value) (key : String) : Value := (v.get key).getD .null

def textField (v : Value) (key : String) : String := ((v.get key).bind Value.asStr).getD ""

def setField (v : Value) (key : String) (new : Value) : Value :=
  match v with
  | .object fields => .object (Dicts.insert fields key new)
  | other => other

def merge (v changes : Value) : Value :=
  match changes with
  | .object fields => fields.foldl (fun v p => setField v p.1 p.2) v
  | _ => v

/-- What a client has: the message without its content, the blocks that are complete, and the open
one with the text of its input so far. -/
structure Client where
  message : Option Value := none
  content : List Value := []
  current : Option (Value × Option String) := none
  stopped : Bool := false

def applyDelta (block : Value) (json : Option String) (delta : Value) :
    Option (Value × Option String) :=
  match textField delta "type" with
  | "text_delta" =>
    some (setField block "text" (.string (textField block "text" ++ textField delta "text")), json)
  | "thinking_delta" =>
    some (setField block "thinking"
      (.string (textField block "thinking" ++ textField delta "thinking")), json)
  | "signature_delta" => some (setField block "signature" (field delta "signature"), json)
  | "input_json_delta" => some (block, some (json.getD "" ++ textField delta "partial_json"))
  | _ => none

/-- A block that ends. Where its input came as text, that text has to parse. -/
def finishBlock (parse : String → Option Value) (block : Value) : Option String → Option Value
  | none => some block
  | some json => (parse json).map (setField block "input" ·)

/-- The event is about the block behind those that are complete. -/
def atEnd (c : Client) (data : Value) : Bool :=
  ((data.get "index").bind Value.asI64).map Int64.toInt == some (c.content.length : Int)

/-- One event. Blocks come one after the other, and only a ping comes between the events of one. -/
def receive (parse : String → Option Value) (c : Client) (e : SentEvent) : Option Client :=
  if c.stopped then none
  else
    match e.event, c.message, c.current with
    | "ping", _, _ => some c
    | "message_start", none, none => some { c with message := some (field e.data "message") }
    | "content_block_start", some _, none =>
      if atEnd c e.data then some { c with current := some (field e.data "content_block", none) }
      else none
    | "content_block_delta", some _, some (block, json) =>
      if atEnd c e.data then
        (applyDelta block json (field e.data "delta")).map fun open_ =>
          { c with current := some open_ }
      else none
    | "content_block_stop", some _, some (block, json) =>
      if atEnd c e.data then
        (finishBlock parse block json).map fun b =>
          { c with content := c.content ++ [b], current := none }
      else none
    | "message_delta", some m, none =>
      let m := merge m (field e.data "delta")
      let usage := merge (field m "usage") (field e.data "usage")
      some { c with message := some (setField m "usage" usage) }
    | "message_stop", some _, none => some { c with stopped := true }
    | _, _, _ => none

def receiveAll (parse : String → Option Value) (c : Client) (events : List SentEvent) :
    Option Client :=
  events.foldlM (receive parse) c

/-- The message of a client whose stream has come to its end. -/
def Client.whole (c : Client) : Option Value :=
  if c.stopped then c.message.map fun m => setField m "content" (.array c.content) else none

def assemble (parse : String → Option Value) (events : List SentEvent) : Option Value :=
  (receiveAll parse {} events).bind Client.whole

variable {parse : String → Option Value} {c : Client} {m : Value}

theorem receiveAll_append (c : Client) (first later : List SentEvent) :
    receiveAll parse c (first ++ later) =
      (receiveAll parse c first).bind fun c => receiveAll parse c later := by
  unfold receiveAll
  rw [List.foldlM_append]
  rfl

theorem receiveAll_cons (c : Client) (e : SentEvent) (later : List SentEvent) :
    receiveAll parse c (e :: later) =
      (receive parse c e).bind fun c => receiveAll parse c later := by
  unfold receiveAll
  rw [List.foldlM_cons]
  rfl

/-- The bytes of `create_ping_sse`. -/
def ping : SentEvent := ⟨"ping", .obj [("type", .string "ping")]⟩

theorem receive_ping (running : c.stopped = false) : receive parse c ping = some c := by
  obtain ⟨message, content, current, stopped⟩ := c
  cases running
  rfl

theorem assemble_ping (events : List SentEvent) :
    assemble parse (ping :: events) = assemble parse events := by
  rw [assemble, receiveAll_cons, receive_ping rfl, Option.bind_some]
  rfl

theorem setField_obj (entries : List (String × Value)) (key : String) (new : Value) :
    setField (.obj entries) key new = .obj (entries ++ [(key, new)]) := by
  rw [Value.obj, Value.obj, Dicts.ofList_append_singleton]
  rfl

theorem merge_obj (entries changes : List (String × Value)) :
    merge (.obj entries) (.obj changes) = .obj (entries ++ changes) := by
  have folded (fields : List (String × Value)) (d : Dicts.Dict Value) :
      fields.foldl (fun v p => setField v p.1 p.2) (.object d) =
        .object (fields.foldl (fun d p => Dicts.insert d p.1 p.2) d) := by
    induction fields generalizing d with
    | nil => rfl
    | cons p rest ih => exact ih _
  have all : merge (.obj entries) (.obj changes) =
      (Dicts.ofList changes).foldl (fun v p => setField v p.1 p.2)
        (.object (Dicts.ofList entries)) := rfl
  rw [all, folded, Dicts.foldl_insert_ofList changes (Dicts.sorted_ofList entries), Value.obj,
    Dicts.ofList, Dicts.ofList, List.foldl_append]

theorem obj_congr {entries entries' : List (String × Value)}
    (same : ∀ key, entries.reverse.lookup key = entries'.reverse.lookup key) :
    Value.obj entries = Value.obj entries' := by
  rw [Value.obj, Value.obj, Dicts.ofList_congr same]

theorem asI64_ofInt {n : Nat} (small : n < 2 ^ 31) :
    ((ofInt n).asI64).map Int64.toInt = some (n : Int) := by
  have pos : (0 : Int) ≤ n := Int.natCast_nonneg n
  have fits : n < 2 ^ 64 := by omega
  have value : (UInt64.ofNat n).toNat = n := by
    rw [UInt64.toNat_ofNat']
    omega
  rw [ofInt, if_pos pos, Int.toNat_natCast, Value.asI64]
  have le : UInt64.ofNat n ≤ 9223372036854775807 := by
    rw [UInt64.le_iff_toNat_le, value]
    show n ≤ 9223372036854775807
    omega
  rw [if_pos le, Option.map_some, UInt64.toInt64_ofNat', Int64.toInt_ofNat_of_lt (by omega)]

def blockStart (index : Int) (block : Value) : SentEvent :=
  ⟨"content_block_start", .obj [("type", .string "content_block_start"), ("index", ofInt index),
    ("content_block", block)]⟩

def blockDelta (index : Int) (delta : Value) : SentEvent :=
  ⟨"content_block_delta", .obj [("type", .string "content_block_delta"), ("index", ofInt index),
    ("delta", delta)]⟩

def blockStop (index : Int) : SentEvent :=
  ⟨"content_block_stop", .obj [("type", .string "content_block_stop"), ("index", ofInt index)]⟩

/-- The client is within a message, between two blocks. -/
structure Between (m : Value) (c : Client) : Prop where
  message : c.message = some m
  current : c.current = none
  running : c.stopped = false

theorem receive_messageStart (type message : Value) :
    receive parse {} ⟨"message_start", .obj [("type", type), ("message", message)]⟩ =
      some { message := some message } := by
  have held : field (.obj [("type", type), ("message", message)]) "message" = message := by
    simp [field, get_obj]
  exact congrArg (fun m => some ({ message := some m } : Client)) held

/-- The two events that end a message. -/
theorem receiveAll_ends (between : Between m c) (type type' delta usage : Value) :
    receiveAll parse c [⟨"message_delta", .obj [("type", type), ("delta", delta),
        ("usage", usage)]⟩, ⟨"message_stop", .obj [("type", type')]⟩] =
      some { c with
        message := some (setField (merge m delta) "usage"
          (merge (field (merge m delta) "usage") usage))
        stopped := true } := by
  have delta_eq : field (.obj [("type", type), ("delta", delta), ("usage", usage)]) "delta" =
      delta := by
    simp [field, get_obj, List.lookup_cons]
  have usage_eq : field (.obj [("type", type), ("delta", delta), ("usage", usage)]) "usage" =
      usage := by
    simp [field, get_obj]
  generalize (Value.obj [("type", type), ("delta", delta), ("usage", usage)]) = data at *
  obtain ⟨_, content, _, _⟩ := c
  obtain ⟨rfl, rfl, rfl⟩ := between
  rw [← delta_eq, ← usage_eq]
  rfl

theorem atEnd_of {data : Value} (index : data.get "index" = some (ofInt c.content.length))
    (small : c.content.length < 2 ^ 31) : atEnd c data = true := by
  rw [atEnd, index, Option.bind_some, asI64_ofInt small]
  exact beq_self_eq_true _

theorem receive_blockStart (between : Between m c) (small : c.content.length < 2 ^ 31)
    (block : Value) : receive parse c (blockStart c.content.length block) =
      some { c with current := some (block, none) } := by
  have here : atEnd c (blockStart c.content.length block).data = true :=
    atEnd_of (by simp [blockStart, get_obj, List.lookup_cons]) small
  have block_eq : field (blockStart c.content.length block).data "content_block" = block := by
    simp [blockStart, field, get_obj]
  obtain ⟨message, content, current, stopped⟩ := c
  obtain ⟨rfl, rfl, rfl⟩ := between
  exact (if_pos here).trans (by rw [block_eq])

theorem receive_blockDelta {block : Value} {json : Option String} (message : c.message = some m)
    (current : c.current = some (block, json)) (running : c.stopped = false)
    (small : c.content.length < 2 ^ 31) (delta : Value) :
    receive parse c (blockDelta c.content.length delta) =
      (applyDelta block json delta).map fun open_ => { c with current := some open_ } := by
  have here : atEnd c (blockDelta c.content.length delta).data = true :=
    atEnd_of (by simp [blockDelta, get_obj, List.lookup_cons]) small
  have delta_eq : field (blockDelta c.content.length delta).data "delta" = delta := by
    simp [blockDelta, field, get_obj]
  obtain ⟨_, content, _, _⟩ := c
  cases message
  cases current
  cases running
  exact (if_pos here).trans (by rw [delta_eq])

theorem receive_blockStop {block : Value} {json : Option String} (message : c.message = some m)
    (current : c.current = some (block, json)) (running : c.stopped = false)
    (small : c.content.length < 2 ^ 31) :
    receive parse c (blockStop c.content.length) =
      (finishBlock parse block json).map fun b =>
        { c with content := c.content ++ [b], current := none } := by
  have here : atEnd c (blockStop c.content.length).data = true :=
    atEnd_of (by simp [blockStop, get_obj]) small
  obtain ⟨_, content, _, _⟩ := c
  cases message
  cases current
  cases running
  exact if_pos here

theorem textField_obj {entries : List (String × Value)} {key t : String}
    (held : entries.reverse.lookup key = some (.string t)) :
    textField (.obj entries) key = t := by
  rw [textField, get_obj, held]
  rfl

theorem applyDelta_text (block : Value) (json : Option String) (text : String) :
    applyDelta block json (.obj [("type", .string "text_delta"), ("text", .string text)]) =
      some (setField block "text" (.string (textField block "text" ++ text)), json) := by
  have delta : textField (.obj [("type", .string "text_delta"), ("text", .string text)]) "text" =
      text := textField_obj rfl
  rw [applyDelta, textField_obj (t := "text_delta") rfl, delta]
  rfl

theorem applyDelta_thinking (block : Value) (json : Option String) (text : String) :
    applyDelta block json (.obj [("type", .string "thinking_delta"),
        ("thinking", .string text)]) =
      some (setField block "thinking" (.string (textField block "thinking" ++ text)), json) := by
  have delta : textField (.obj [("type", .string "thinking_delta"), ("thinking", .string text)])
      "thinking" = text := textField_obj rfl
  rw [applyDelta, textField_obj (t := "thinking_delta") rfl, delta]
  rfl

theorem applyDelta_signature (block : Value) (json : Option String) (signature : Value) :
    applyDelta block json (.obj [("type", .string "signature_delta"),
        ("signature", signature)]) = some (setField block "signature" signature, json) := by
  have delta : field (.obj [("type", .string "signature_delta"), ("signature", signature)])
      "signature" = signature := by
    rw [field, get_obj]
    rfl
  rw [applyDelta, textField_obj (t := "signature_delta") rfl, delta]
  rfl

theorem applyDelta_inputJson (block : Value) (json : Option String) (partialJson : String) :
    applyDelta block json (.obj [("type", .string "input_json_delta"),
        ("partial_json", .string partialJson)]) = some (block, some (json.getD "" ++ partialJson)) := by
  have delta : textField (.obj [("type", .string "input_json_delta"),
      ("partial_json", .string partialJson)]) "partial_json" = partialJson :=
    textField_obj rfl
  rw [applyDelta, textField_obj (t := "input_json_delta") rfl, delta]
  rfl

def applyDeltas (open_ : Value × Option String) (deltas : List Value) : Option (Value × Option String) :=
  deltas.foldlM (fun open_ delta => applyDelta open_.1 open_.2 delta) open_

theorem receiveAll_deltas {open_ : Value × Option String} (message : c.message = some m)
    (current : c.current = some open_) (running : c.stopped = false)
    (small : c.content.length < 2 ^ 31) (deltas : List Value) :
    receiveAll parse c (deltas.map (blockDelta c.content.length) ++ [blockStop c.content.length]) =
      ((applyDeltas open_ deltas).bind fun last => finishBlock parse last.1 last.2).map fun b =>
        { c with content := c.content ++ [b], current := none } := by
  induction deltas generalizing c open_ with
  | nil =>
    rw [List.map_nil, List.nil_append, receiveAll_cons,
      receive_blockStop message current running small]
    show Option.bind _ (fun c => some c) = Option.map _ ((some open_).bind _)
    rw [Option.bind_some]
    exact Option.bind_fun_some _
  | cons delta rest ih =>
    rw [List.map_cons, List.cons_append, receiveAll_cons,
      receive_blockDelta message current running small]
    have first : applyDeltas open_ (delta :: rest) =
        (applyDelta open_.1 open_.2 delta).bind fun next => applyDeltas next rest := by
      rw [applyDeltas, List.foldlM_cons]
      rfl
    rw [first]
    cases applied : applyDelta open_.1 open_.2 delta with
    | none => rfl
    | some next => exact ih (c := { c with current := some next }) message rfl running small

/-- The events of a block: it is complete if its deltas and its input are good. -/
theorem receiveAll_block (between : Between m c) (small : c.content.length < 2 ^ 31)
    (block : Value) (deltas : List Value) :
    receiveAll parse c (blockStart c.content.length block ::
        (deltas.map (blockDelta c.content.length) ++ [blockStop c.content.length])) =
      ((applyDeltas (block, none) deltas).bind fun last => finishBlock parse last.1 last.2).map
        fun b => { c with content := c.content ++ [b] } := by
  rw [receiveAll_cons, receive_blockStart between small, Option.bind_some]
  have rest := @receiveAll_deltas parse { c with current := some (block, none) } m (block, none)
    between.message rfl between.running small deltas
  have closed (b : Value) : { c with content := c.content ++ [b], current := none } =
      { c with content := c.content ++ [b] } := by
    rw [← between.current]
  rw [rest]
  simp only [closed]

theorem Between.push (between : Between m c) (b : Value) :
    Between m { c with content := c.content ++ [b] } :=
  ⟨between.message, between.current, between.running⟩

end KiroRs.WebSearch.Assembly
