/- Path: KiroRs/Images/Coverage
   source: src/anthropic/handlers.rs, src/anthropic/converter.rs
   digest: Which images of a request the scan counts, and when its check bounds the work of
   conversion. -/

import KiroRs.Images.Budget
import Mathlib.Algebra.Order.BigOperators.Group.List

set_option autoImplicit false
set_option relaxedAutoImplicit false

namespace KiroRs.Images.Coverage

open KiroRs.Lib
open KiroRs.Lib.Logs
open KiroRs.Converter.Json
open KiroRs.Converter.Models
open KiroRs.Converter.ToolNames
open KiroRs.Converter.Messages
open KiroRs.Converter.Content
open KiroRs.Converter.Conversion
open KiroRs.Converter.Requests (ContentBlock ImageSource Message MessagesRequest)
open KiroRs.Images.Budget
open KiroRs.Images.Resize

/-- If the request passes the check, what its conversion decodes and forwards keeps to the
limits. -/
def Bounded (env : Env) (mode : ToolCompatibilityMode) (limits : RequestImageLimits)
    (req : MessagesRequest) : Prop :=
  limits.validate (countImageBudget req).count (countImageBudget req).totalB64Bytes = .ok () →
    (decoded env mode req).length ≤ limits.maxCount ∧
    ((decoded env mode req).map (·.data.utf8ByteSize)).sum ≤ limits.maxTotalBase64Bytes ∧
    ∀ result, convertRequestWithMode env mode req = .ok result →
      (forwarded result).length ≤ limits.maxCount

/-- Where the conversion finds an image: a block of its own, or an item of a tool result, which
may be written as an object or as an array. -/
inductive Place where
  | block (item : Value)
  | inResult (asObject : Bool) (item : Value)

/-- The source of the item is written as an object of type `base64`. -/
def Inline (item : Value) : Prop := (item.get "source").bind typeOf = some "base64"

def Place.Scanned : Place → Prop
  | .block item => Inline item
  | .inResult asObject item => asObject = true ∧ Inline item

def blockSource (item : Value) : Option ImageSource :=
  (ContentBlock.fromValue item).bind fun block =>
    if block.blockType = "image" then block.source.filter supported else none

/-- The conversion takes the image. -/
def Place.Taken : Place → Prop
  | .block item => (blockSource item).isSome
  | .inResult _ item => (itemSource item).isSome

def isObject : Value → Bool
  | .object _ => true
  | _ => false

def contentItems : Option Value → List Value
  | some (.array items) => items
  | _ => []

def placesOf (item : Value) : List Place :=
  match ContentBlock.fromValue item with
  | none => []
  | some block =>
    if block.blockType = "image" then
      if (block.source.filter supported).isSome then [.block item] else []
    else if block.blockType = "tool_result" then
      block.toolUseId.elim [] fun _ =>
        ((contentItems block.content).filter fun inner => (itemSource inner).isSome).map
          (.inResult (isObject item))
    else []

def messagePlaces (m : Message) : List Place :=
  if m.role = "user" then (contentItems (some m.content)).flatMap placesOf else []

/-- The images of the user messages that are sent. -/
def places (req : MessagesRequest) : List Place := (sentMessages req).flatMap messagePlaces

/-- Images with these data are counted between two states of the scan. -/
structure Counts (budget : ImageBudget) (sources : List ImageSource) (budget' : ImageBudget) :
    Prop where
  count : budget.count + sources.length ≤ budget'.count
  total : budget.totalB64Bytes + (sources.map (·.data.utf8ByteSize)).sum ≤ budget'.totalB64Bytes

variable {b b' b'' : ImageBudget} {item : Value} {items : List Value}

theorem Counts.refl (b : ImageBudget) : Counts b [] b := ⟨le_refl _, le_refl _⟩

theorem Counts.trans {sources sources' : List ImageSource} (h : Counts b sources b')
    (h' : Counts b' sources' b'') : Counts b (sources ++ sources') b'' := by
  obtain ⟨count, total⟩ := h
  obtain ⟨count', total'⟩ := h'
  refine ⟨?_, ?_⟩
  · rw [List.length_append]
    omega
  · rw [List.map_append, List.sum_append]
    omega

theorem counts_none_source (source : Option Value) (b : ImageBudget) :
    Counts b [] (countImageSource source b) := by
  unfold countImageSource
  split
  · exact Counts.refl b
  · split_ifs
    · exact ⟨Nat.le_succ _, Nat.le_add_right _ _⟩
    · exact Counts.refl b

theorem scan_image (image : typeOf item = some "image") (items : List Value) (b : ImageBudget) :
    countImagesInBlocks (item :: items) b =
      countImagesInBlocks items (countImageSource (item.get "source") b) := by
  rw [countImagesInBlocks]
  simp only [image]

theorem scan_result {inner : List Value} (result : typeOf item = some "tool_result")
    (content : item.get "content" = some (.array inner)) (items : List Value) (b : ImageBudget) :
    countImagesInBlocks (item :: items) b =
      countImagesInBlocks items (countImagesInBlocks inner b) := by
  rw [countImagesInBlocks]
  simp only [result]
  split
  · rename_i again
    rw [content] at again
    cases again
    rfl
  · rename_i other
    exact absurd content (other inner)

theorem scan_other (no_image : typeOf item ≠ some "image")
    (no_result : typeOf item = some "tool_result" → ∀ inner, item.get "content" ≠ some (.array inner))
    (items : List Value) (b : ImageBudget) :
    countImagesInBlocks (item :: items) b = countImagesInBlocks items b := by
  rw [countImagesInBlocks]
  split
  · rename_i image
    exact absurd image no_image
  · rename_i result
    split
    · rename_i inner content
      exact absurd content (no_result result inner)
    · rfl
  · rfl

theorem scan_cases (item : Value) : typeOf item = some "image" ∨
    (∃ inner, typeOf item = some "tool_result" ∧ item.get "content" = some (.array inner)) ∨
    (typeOf item ≠ some "image" ∧
      (typeOf item = some "tool_result" → ∀ inner, item.get "content" ≠ some (.array inner))) := by
  by_cases image : typeOf item = some "image"
  · exact .inl image
  · by_cases result : ∃ inner, typeOf item = some "tool_result" ∧
        item.get "content" = some (.array inner)
    · exact .inr (.inl result)
    · exact .inr (.inr ⟨image, fun is_result inner content => result ⟨inner, is_result, content⟩⟩)

theorem scan_cons (item : Value) (items : List Value) (b : ImageBudget) :
    countImagesInBlocks (item :: items) b =
      countImagesInBlocks items (countImagesInBlocks [item] b) := by
  have nothing : ∀ b, countImagesInBlocks [] b = b := fun b => by rw [countImagesInBlocks]
  rcases scan_cases item with image | ⟨inner, result, content⟩ | ⟨no_image, no_result⟩
  · rw [scan_image image, scan_image image, nothing]
  · rw [scan_result result content, scan_result result content, nothing]
  · rw [scan_other no_image no_result, scan_other no_image no_result, nothing]

theorem counts_none (items : List Value) (b : ImageBudget) :
    Counts b [] (countImagesInBlocks items b) := by
  induction items, b using countImagesInBlocks.induct with
  | case1 b =>
    rw [countImagesInBlocks]
    exact Counts.refl b
  | case2 item items b image ih =>
    rw [scan_image image]
    exact (counts_none_source _ b).trans ih
  | case3 item items b result inner content ih ih' =>
    rw [scan_result result content]
    exact ih.trans ih'
  | case4 item items b result other ih =>
    rw [scan_other (by rw [result]; decide) fun _ inner content => other inner content]
    exact ih
  | case5 item items b no_image no_result ih =>
    rw [scan_other no_image fun result => absurd result no_result]
    exact ih

theorem block_fields {block : ContentBlock} {fields : List (String × Value)}
    (read : ContentBlock.fromValue (.object fields) = some block) :
    typeOf (.object fields) = some block.blockType ∧
      block.content = optValue ((Dicts.get fields "content").getD .null) ∧
      optStruct ImageSource.fromValue ((Dicts.get fields "source").getD .null) =
        some block.source := by
  simp only [ContentBlock.fromValue, Converter.Requests.contentBlockFields, structFields,
    List.map_cons, List.map_nil, Option.bind_eq_bind, Option.bind_eq_some_iff, Option.pure_def,
    Option.some.injEq] at read
  obtain ⟨type, is_type, text, -, thinking, -, id, -, name, -, use, -, err, -, source, is_source,
    cache, -, rfl⟩ := read
  refine ⟨?_, rfl, is_source⟩
  have get : (Value.object fields).get "type" = Dicts.get fields "type" := rfl
  unfold typeOf
  rw [get]
  cases found : Dicts.get fields "type" with
  | none =>
    rw [found] at is_type
    cases is_type
  | some v =>
    rw [found] at is_type
    exact is_type

theorem object_of_get {v w : Value} {key : String} (found : v.get key = some w) :
    ∃ fields, v = .object fields := by
  cases v with
  | object fields => exact ⟨fields, rfl⟩
  | null => cases found
  | bool b => cases found
  | number n => cases found
  | string s => cases found
  | array items => cases found

theorem object_of_typeOf {v : Value} {type : String} (has : typeOf v = some type) :
    ∃ fields, v = .object fields := by
  obtain ⟨w, found, -⟩ := Option.bind_eq_some_iff.mp has
  exact object_of_get found

theorem object_of_inline {v : Value} (inline : Inline v) : ∃ fields, v = .object fields := by
  obtain ⟨w, found, -⟩ := Option.bind_eq_some_iff.mp inline
  exact object_of_get found

theorem source_data {v : Value} {source : ImageSource} (read : ImageSource.fromValue v = some source)
    (base64 : typeOf v = some "base64") : (v.get "data").bind Value.asStr = some source.data := by
  obtain ⟨fields, rfl⟩ := object_of_typeOf base64
  simp only [ImageSource.fromValue, structFields, List.map_cons, List.map_nil,
    Option.bind_eq_bind, Option.bind_eq_some_iff, Option.pure_def, Option.some.injEq] at read
  obtain ⟨type, -, media, -, data, is_data, rfl⟩ := read
  have get : (Value.object fields).get "data" = Dicts.get fields "data" := rfl
  rw [get]
  cases found : Dicts.get fields "data" with
  | none =>
    rw [found] at is_data
    cases is_data
  | some v =>
    rw [found] at is_data
    exact is_data

theorem counts_source {v : Value} {block : ContentBlock} {source : ImageSource}
    (read : ContentBlock.fromValue v = some block) (has : block.source = some source)
    (inline : Inline v) (b : ImageBudget) :
    Counts b [source] (countImageSource (v.get "source") b) := by
  obtain ⟨fields, rfl⟩ := object_of_inline inline
  obtain ⟨-, -, is_source⟩ := block_fields read
  obtain ⟨src, found, base64⟩ := Option.bind_eq_some_iff.mp inline
  have get : Dicts.get fields "source" = some src := found
  obtain ⟨inner, rfl⟩ := object_of_typeOf base64
  rw [get, has] at is_source
  obtain ⟨read', is_read, same⟩ := Option.map_eq_some_iff.mp is_source
  cases same
  have data : ((Value.object inner).get "data").bind Value.asStr = some source.data :=
    source_data is_read base64
  rw [found]
  unfold countImageSource
  dsimp only
  rw [if_pos base64, data]
  refine ⟨le_refl _, ?_⟩
  simp

theorem itemSource_some {source : ImageSource} (taken : itemSource item = some source) :
    typeOf item = some "image" ∧ ∃ block, ContentBlock.fromValue item = some block ∧
      block.source = some source ∧ supported source = true := by
  unfold itemSource at taken
  split at taken
  · cases taken
  · obtain ⟨read, kept⟩ := Option.filter_eq_some_iff.mp taken
    unfold imageSourceOf at read
    split_ifs at read with image
    obtain ⟨block, is_block, has⟩ := Option.bind_eq_some_iff.mp read
    exact ⟨image, block, is_block, has, kept⟩

theorem counts_item {source : ImageSource} (taken : itemSource item = some source)
    (inline : Inline item) (b : ImageBudget) :
    Counts b [source] (countImagesInBlocks [item] b) := by
  obtain ⟨image, block, read, has, -⟩ := itemSource_some taken
  rw [scan_image image]
  have more := (counts_source read has inline b).trans (counts_none [] _)
  rwa [List.append_nil] at more

theorem counts_items (inline : ∀ item ∈ items, (itemSource item).isSome → Inline item)
    (b : ImageBudget) : Counts b (items.filterMap itemSource) (countImagesInBlocks items b) := by
  induction items generalizing b with
  | nil => exact counts_none [] b
  | cons item items ih =>
    have later := ih (fun item mem => inline item (List.mem_cons_of_mem _ mem))
      (countImagesInBlocks [item] b)
    rw [scan_cons]
    cases taken : itemSource item with
    | none =>
      rw [List.filterMap_cons_none taken]
      exact (counts_none [item] b).trans later
    | some source =>
      rw [List.filterMap_cons_some taken]
      have here := inline item List.mem_cons_self (by rw [taken]; rfl)
      exact (counts_item taken here b).trans later

theorem itemSources_eq (content : Option Value) :
    itemSources content = (contentItems content).filterMap itemSource := by
  cases content with
  | none => rfl
  | some v => cases v <;> rfl

/-- A tool result with an image that is scanned is written as an object, so its items are
scanned. -/
theorem counts_result {block : ContentBlock} (read : ContentBlock.fromValue item = some block)
    (result : block.blockType = "tool_result")
    (scanned : ∀ p ∈ ((contentItems block.content).filter fun inner =>
      (itemSource inner).isSome).map (.inResult (isObject item)), Place.Scanned p)
    (b : ImageBudget) :
    Counts b (itemSources block.content) (countImagesInBlocks [item] b) := by
  rw [itemSources_eq]
  have each : ∀ inner ∈ contentItems block.content, (itemSource inner).isSome →
      isObject item = true ∧ Inline inner := by
    intro inner mem taken
    exact scanned _ (List.mem_map_of_mem (List.mem_filter.mpr ⟨mem, taken⟩))
  by_cases none : (contentItems block.content).filterMap itemSource = []
  · rw [none]
    exact counts_none [item] b
  · obtain ⟨source, mem⟩ := List.exists_mem_of_ne_nil _ none
    obtain ⟨inner, inner_mem, taken⟩ := List.mem_filterMap.mp mem
    have object := (each inner inner_mem (by rw [taken]; rfl)).1
    cases item with
    | object fields =>
      obtain ⟨is_result, is_content, -⟩ := block_fields read
      rw [result] at is_result
      have content : (Value.object fields).get "content" =
          some (.array (contentItems block.content)) := by
        have get : (Value.object fields).get "content" = Dicts.get fields "content" := rfl
        rw [get]
        cases found : Dicts.get fields "content" with
        | none =>
          rw [is_content, found] at inner_mem
          cases inner_mem
        | some v =>
          rw [is_content, found] at inner_mem ⊢
          cases v with
          | array items => rfl
          | null => cases inner_mem
          | bool b => cases inner_mem
          | number n => cases inner_mem
          | string s => cases inner_mem
          | object fields => cases inner_mem
      rw [scan_result is_result content]
      have all := counts_items (fun inner mem taken => (each inner mem taken).2) b
      have more := all.trans (counts_none [] _)
      rwa [List.append_nil] at more
    | null => cases object
    | bool b => cases object
    | number n => cases object
    | string s => cases object
    | array items => cases object

theorem counts_block (scanned : ∀ p ∈ placesOf item, p.Scanned) (b : ImageBudget) :
    Counts b ((ContentBlock.fromValue item).toList.flatMap blockSources)
      (countImagesInBlocks [item] b) := by
  unfold placesOf at scanned
  cases read : ContentBlock.fromValue item with
  | none => exact counts_none [item] b
  | some block =>
    rw [read] at scanned
    rw [Option.toList_some, List.flatMap_singleton]
    unfold blockSources
    dsimp only at scanned
    split_ifs at scanned ⊢ with image supports result
    · obtain ⟨source, taken⟩ := Option.isSome_iff_exists.mp supports
      have inline : Inline item := scanned _ List.mem_cons_self
      obtain ⟨has, -⟩ := Option.filter_eq_some_iff.mp taken
      rw [taken, Option.toList_some]
      obtain ⟨fields, rfl⟩ := object_of_inline inline
      have is_image := (block_fields read).1
      rw [image] at is_image
      rw [scan_image is_image]
      have more := (counts_source read has inline b).trans (counts_none [] _)
      rwa [List.append_nil] at more
    · rw [Option.not_isSome_iff_eq_none.mp supports]
      exact counts_none [item] b
    · cases id : block.toolUseId with
      | none => exact counts_none [item] b
      | some id' =>
        rw [id] at scanned
        exact counts_result read result (fun p mem => scanned p mem) b
    · exact counts_none [item] b

theorem counts_content (scanned : ∀ p ∈ items.flatMap placesOf, p.Scanned) (b : ImageBudget) :
    Counts b ((blocksOf items).flatMap blockSources) (countImagesInBlocks items b) := by
  induction items generalizing b with
  | nil => exact counts_none [] b
  | cons item items ih =>
    have here := counts_block (fun p mem => scanned p (List.mem_append_left _ mem)) b
    have later := ih (fun p mem => scanned p (List.mem_append_right _ mem))
      (countImagesInBlocks [item] b)
    have split : blocksOf (item :: items) =
        (ContentBlock.fromValue item).toList ++ blocksOf items := by
      unfold blocksOf
      rw [List.filterMap_cons]
      cases ContentBlock.fromValue item <;> rfl
    rw [scan_cons, split, List.flatMap_append]
    exact here.trans later

def scanMessage (budget : ImageBudget) (msg : Message) : ImageBudget :=
  match msg.content with
  | .array items => countImagesInBlocks items budget
  | _ => budget

theorem counts_message {m : Message} (scanned : ∀ p ∈ messagePlaces m, p.Scanned)
    (b : ImageBudget) : Counts b (sourcesOf m) (scanMessage b m) := by
  unfold messagePlaces at scanned
  unfold sourcesOf scanMessage
  split_ifs at scanned ⊢ with user
  · cases content : m.content with
    | array items =>
      rw [content] at scanned
      exact counts_content scanned b
    | null => exact Counts.refl b
    | bool _ => exact Counts.refl b
    | number _ => exact Counts.refl b
    | string _ => exact Counts.refl b
    | object _ => exact Counts.refl b
  · cases m.content with
    | array items => exact counts_none items b
    | null => exact Counts.refl b
    | bool _ => exact Counts.refl b
    | number _ => exact Counts.refl b
    | string _ => exact Counts.refl b
    | object _ => exact Counts.refl b

theorem counts_messages {messages : List Message}
    (scanned : ∀ p ∈ messages.flatMap messagePlaces, p.Scanned) (b : ImageBudget) :
    Counts b (messages.flatMap sourcesOf) (messages.foldl scanMessage b) := by
  induction messages generalizing b with
  | nil => exact Counts.refl b
  | cons m messages ih =>
    have here := counts_message (fun p mem => scanned p (List.mem_append_left _ mem)) b
    exact here.trans (ih (fun p mem => scanned p (List.mem_append_right _ mem)) _)

theorem scan_keeps (messages : List Message) (b : ImageBudget) :
    Counts b [] (messages.foldl scanMessage b) := by
  induction messages generalizing b with
  | nil => exact Counts.refl b
  | cons m messages ih =>
    have here : Counts b [] (scanMessage b m) := by
      unfold scanMessage
      split
      · exact counts_none _ b
      · exact Counts.refl b
    exact here.trans (ih _)

theorem counts_request {req : MessagesRequest} (scanned : ∀ p ∈ places req, p.Scanned) :
    Counts {} ((sentMessages req).flatMap sourcesOf) (countImageBudget req) := by
  obtain ⟨dropped, split⟩ := List.rdropWhile_prefix (·.role ≠ "user") req.messages
  have all : countImageBudget req = dropped.foldl scanMessage
      ((sentMessages req).foldl scanMessage {}) := by
    have whole : countImageBudget req = req.messages.foldl scanMessage {} := rfl
    rw [whole, ← List.foldl_append]
    exact congrArg (fun messages => messages.foldl scanMessage {}) split.symm
  rw [all]
  have more := (counts_messages scanned {}).trans (scan_keeps dropped _)
  rwa [List.append_nil] at more

theorem validate_ok {limits : RequestImageLimits} {count total : Nat}
    (ok : limits.validate count total = .ok ()) :
    count ≤ limits.maxCount ∧ total ≤ limits.maxTotalBase64Bytes := by
  unfold RequestImageLimits.validate at ok
  split_ifs at ok with many large
  exact ⟨Nat.le_of_not_lt many, Nat.le_of_not_lt large⟩

theorem bounded_of_scanned {req : MessagesRequest} (scanned : ∀ p ∈ places req, p.Scanned)
    (env : Env) (mode : ToolCompatibilityMode) (limits : RequestImageLimits) :
    Bounded env mode limits req := by
  intro passes
  obtain ⟨few, small⟩ := validate_ok passes
  obtain ⟨count, total⟩ := counts_request scanned
  have within : (decoded env mode req).Subperm ((sentMessages req).flatMap sourcesOf) :=
    decoded_subperm req
  obtain ⟨sources, perm, sub⟩ := within
  have length : (decoded env mode req).length ≤ limits.maxCount := by
    have start : ({} : ImageBudget).count = 0 := rfl
    have fewer := sub.length_le
    rw [perm.length_eq] at fewer
    omega
  refine ⟨length, ?_, fun result ok => ?_⟩
  · have start : ({} : ImageBudget).totalB64Bytes = 0 := rfl
    have less := (sub.map (·.data.utf8ByteSize)).sum_le_sum fun _ _ => Nat.zero_le _
    rw [(perm.map (·.data.utf8ByteSize)).sum_eq] at less
    omega
  · rw [← (forwarded_of_decoded ok).length_eq]
    exact length

def Place.holder : Place → Value
  | .block item => item
  | .inResult true item => .object [("content", .array [item]),
      ("tool_use_id", .string "toolu_1"), ("type", .string "tool_result")]
  | .inResult false item => .array [.string "tool_result", .null, .null, .string "toolu_1",
      .array [item], .null, .null, .null, .null, .null, .null]

def holding (p : Place) : MessagesRequest where
  model := "claude-sonnet-4-5"
  messages := [⟨"user", .array [p.holder]⟩]

theorem blockSource_some {source : ImageSource} (taken : blockSource item = some source) :
    ∃ block, ContentBlock.fromValue item = some block ∧ block.blockType = "image" ∧
      block.source = some source ∧ supported source = true := by
  obtain ⟨block, read, kept⟩ := Option.bind_eq_some_iff.mp taken
  split_ifs at kept with image
  obtain ⟨has, supports⟩ := Option.filter_eq_some_iff.mp kept
  exact ⟨block, read, image, has, supports⟩

def resultBlock (item : Value) : ContentBlock where
  blockType := "tool_result"
  text := none
  thinking := none
  toolUseId := some "toolu_1"
  content := some (.array [item])
  name := none
  input := none
  id := none
  isError := none
  source := none
  cacheControl := none

theorem result_reads (asObject : Bool) (item : Value) :
    ContentBlock.fromValue (Place.inResult asObject item).holder = some (resultBlock item) := by
  cases asObject with
  | false => rfl
  | true =>
    simp [ContentBlock.fromValue, Place.holder, structFields, Converter.Requests.contentBlockFields,
      Dicts.get_cons, reqString, optString, optStruct, optValue, optBool, Value.asStr, resultBlock]

theorem holder_places {p : Place} (taken : p.Taken) : places (holding p) = [p] := by
  have sent : sentMessages (holding p) = [⟨"user", .array [p.holder]⟩] := rfl
  have one : places (holding p) = placesOf p.holder := by
    unfold places
    rw [sent, List.flatMap_singleton]
    exact List.flatMap_singleton ..
  rw [one]
  unfold placesOf
  cases p with
  | block item =>
    obtain ⟨source, is_source⟩ := Option.isSome_iff_exists.mp taken
    obtain ⟨block, read, image, has, supports⟩ := blockSource_some is_source
    unfold Place.holder
    rw [read]
    dsimp only
    rw [if_pos image, has, Option.filter_some, if_pos supports]
    rfl
  | inResult asObject item =>
    have kept : ([item].filter fun inner => (itemSource inner).isSome) = [item] :=
      List.filter_cons_of_pos taken
    have written : isObject (Place.inResult asObject item).holder = asObject := by
      cases asObject <;> rfl
    rw [result_reads, written]
    exact congrArg (List.map (Place.inResult asObject)) kept

theorem scan_unscanned {item : Value} (missed : ¬ Inline item) (b : ImageBudget) :
    countImageSource (item.get "source") b = b := by
  unfold countImageSource
  cases found : item.get "source" with
  | none => rfl
  | some src =>
    refine if_neg fun base64 => missed ?_
    unfold Inline
    rw [found]
    exact base64

theorem holder_unscanned {p : Place} (taken : p.Taken) (missed : ¬ p.Scanned) :
    countImageBudget (holding p) = {} := by
  have one : countImageBudget (holding p) = countImagesInBlocks [p.holder] {} := rfl
  have nothing : ∀ b, countImagesInBlocks [] b = b := fun b => by rw [countImagesInBlocks]
  have array : ∀ items b, countImagesInBlocks [.array items] b = b := by
    intro items b
    have none : typeOf (.array items) = none := rfl
    rw [scan_other (by rw [none]; decide) (fun result => by rw [none] at result; cases result),
      nothing]
  -- an item that reads as an image is one to the scan too, if it is an object
  have image : ∀ {item : Value} {block : ContentBlock}, ContentBlock.fromValue item = some block →
      block.blockType = "image" → ¬ Inline item → ∀ b, countImagesInBlocks [item] b = b := by
    intro item block read image missed b
    cases item with
    | object fields =>
      have is_image := (block_fields read).1
      rw [image] at is_image
      rw [scan_image is_image, scan_unscanned missed, nothing]
    | array items => exact array items b
    | null => cases read
    | bool _ => cases read
    | number _ => cases read
    | string _ => cases read
  rw [one]
  cases p with
  | block item =>
    obtain ⟨source, is_source⟩ := Option.isSome_iff_exists.mp taken
    obtain ⟨block, read, is_image, -⟩ := blockSource_some is_source
    exact image read is_image missed {}
  | inResult asObject item =>
    cases asObject with
    | false => exact array _ {}
    | true =>
      have result : typeOf (Place.inResult true item).holder = some "tool_result" := rfl
      have content : (Place.inResult true item).holder.get "content" = some (.array [item]) := rfl
      obtain ⟨source, is_source⟩ := Option.isSome_iff_exists.mp taken
      obtain ⟨is_image, -⟩ := itemSource_some is_source
      have missed : ¬ Inline item := fun inline => missed ⟨rfl, inline⟩
      rw [scan_result result content, nothing, scan_image is_image, scan_unscanned missed, nothing]

theorem itemDecoded_of_source {env : Env} {loop : ResultParts} {source : ImageSource}
    (taken : itemSource item = some source) :
    itemDecoded env loop item = sourceDecoded env source loop.acc := by
  unfold itemSource itemText at taken
  unfold itemDecoded
  cases text : (item.get "text").bind Value.asStr with
  | some t =>
    rw [text] at taken
    cases taken
  | none =>
    rw [text] at taken
    obtain ⟨read, -⟩ := Option.filter_eq_some_iff.mp taken
    rw [read]

theorem holder_decoded {p : Place} (taken : p.Taken) :
    decoded Env.sample .raw (holding p) ≠ [] := by
  have model : requireModel Env.sample "claude-sonnet-4-5" = .ok "claude-sonnet-4.5" := by
    decide +kernel
  have messages : trimPrefill (holding p).messages = .ok (holding p).messages := rfl
  have conversation : conversationIdOf Env.sample (holding p) = .ok (Env.sample.newV4 0) := rfl
  have last : lastOf (holding p).messages = .ok ⟨"user", .array [p.holder]⟩ := rfl
  have requested : (holding p).model = "claude-sonnet-4-5" := rfl
  unfold decoded
  rw [requested, model, after_ok, messages, after_ok, conversation, after_ok, last, after_ok]
  intro nothing
  have current : contentDecoded Env.sample (.array [p.holder]) none = [] :=
    (List.append_eq_nil_iff.mp nothing).1
  -- without a history nothing was seen before
  have fresh : ∀ source acc, supported source = true → acc.seen = none →
      sourceDecoded Env.sample source acc = [source] := by
    intro source acc supports seen
    obtain ⟨format, is_format⟩ := Option.isSome_iff_exists.mp supports
    unfold sourceDecoded
    rw [is_format, seen]
    rfl
  have one : ∀ block, ContentBlock.fromValue p.holder = some block →
      blockDecoded Env.sample { seen := none } block = [] := by
    intro block read
    have blocks : blocksOf [p.holder] = [block] := by
      unfold blocksOf
      rw [List.filterMap_cons_some read, List.filterMap_nil]
    unfold contentDecoded at current
    dsimp only at current
    rw [blocks, noted] at current
    exact (List.append_eq_nil_iff.mp current).1
  cases p with
  | block item =>
    obtain ⟨source, is_source⟩ := Option.isSome_iff_exists.mp taken
    obtain ⟨block, read, image, has, supports⟩ := blockSource_some is_source
    have empty := one block read
    unfold blockDecoded at empty
    simp only [image, has, Option.elim] at empty
    rw [fresh source _ supports rfl] at empty
    cases empty
  | inResult asObject item =>
    obtain ⟨source, is_source⟩ := Option.isSome_iff_exists.mp taken
    have empty := one _ (result_reads asObject item)
    have item_empty : itemDecoded Env.sample { acc := { seen := none } } item = [] :=
      (List.append_eq_nil_iff.mp empty).1
    obtain ⟨-, -, -, -, supports⟩ := itemSource_some is_source
    rw [itemDecoded_of_source is_source, fresh source _ supports rfl] at item_empty
    cases item_empty

theorem taken_of_places {req : MessagesRequest} {p : Place} (mem : p ∈ places req) : p.Taken := by
  obtain ⟨m, -, mem⟩ := List.mem_flatMap.mp mem
  unfold messagePlaces at mem
  split_ifs at mem with user
  · obtain ⟨item, -, mem⟩ := List.mem_flatMap.mp mem
    unfold placesOf at mem
    cases read : ContentBlock.fromValue item with
    | none =>
      rw [read] at mem
      cases mem
    | some block =>
      rw [read] at mem
      dsimp only at mem
      split_ifs at mem with image supports result
      · rw [List.mem_singleton.mp mem]
        have taken : (blockSource item).isSome := by
          unfold blockSource
          rw [read, Option.bind_some, if_pos image]
          exact supports
        exact taken
      · cases mem
      · cases id : block.toolUseId with
        | none =>
          rw [id] at mem
          cases mem
        | some _ =>
          rw [id] at mem
          obtain ⟨inner, kept, rfl⟩ := List.mem_map.mp mem
          exact (List.mem_filter.mp kept).2
      · cases mem
  · cases mem

/-- Requests whose images stand at places of a kind are bounded by the check, whatever they are,
exactly if the scan counts the images at all these places. -/
theorem bounded_iff_scanned (kind : Place → Prop) :
    (∀ env mode limits req, (∀ p ∈ places req, kind p) → Bounded env mode limits req) ↔
      ∀ p, p.Taken → kind p → p.Scanned := by
  constructor
  · intro bounded p taken is_kind
    by_contra missed
    have all : ∀ q ∈ places (holding p), kind q := by
      intro q mem
      rw [holder_places taken] at mem
      rw [List.mem_singleton.mp mem]
      exact is_kind
    have passes := bounded Env.sample .raw ⟨0, 0⟩ (holding p) all
    unfold Bounded at passes
    rw [holder_unscanned taken missed] at passes
    have none := List.length_eq_zero_iff.mp (Nat.le_zero.mp (passes rfl).1)
    exact holder_decoded taken none
  · intro scanned env mode limits req all
    exact bounded_of_scanned (fun p mem => scanned p (taken_of_places mem) (all p mem)) env mode
      limits

/-- An image block with data under a source of type `url`. -/
def urlImage : Value := .object [
  ("source", .object [("data", .string "iVBORw0KGgo="), ("media_type", .string "image/png"),
    ("type", .string "url")]),
  ("type", .string "image")]

/-- A check that allows no image lets the request through, and its conversion decodes one. -/
theorem not_bounded_url : ¬ Bounded Env.sample .raw ⟨0, 0⟩ (holding (.block urlImage)) := by
  intro bounded
  have taken : (Place.block urlImage).Taken := by
    unfold Place.Taken
    decide +kernel
  have missed : ¬ (Place.block urlImage).Scanned := by
    unfold Place.Scanned Inline
    decide +kernel
  unfold Bounded at bounded
  rw [holder_unscanned taken missed] at bounded
  have none := List.length_eq_zero_iff.mp (Nat.le_zero.mp (bounded rfl).1)
  exact holder_decoded taken none

end KiroRs.Images.Coverage
