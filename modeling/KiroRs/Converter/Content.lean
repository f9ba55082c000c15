/- Path: KiroRs/Converter/Content
   source: src/anthropic/converter.rs
   digest: What the messages of the client hold, and what one message of the upstream carries of a
   run of them. -/

import KiroRs.Converter.Messages
import KiroRs.Lib.Results
import KiroRs.Lib.Weaving
import Mathlib.Data.List.Forall2

set_option autoImplicit false
set_option relaxedAutoImplicit false

namespace KiroRs.Converter.Content

open scoped Computability
open KiroRs.Lib
open KiroRs.Lib.Results
open KiroRs.Lib.Text
open KiroRs.Lib.Weaving
open KiroRs.Converter.Json
open KiroRs.Converter.Models
open KiroRs.Converter.ToolNames
open KiroRs.Converter.Messages
open KiroRs.Converter.Requests (ContentBlock ImageSource Message)
open KiroRs.Converter.Conversation (AssistantMessage KiroImage ToolResult ToolUseEntry UserMessage)

def textOf (block : ContentBlock) : Option String :=
  if block.blockType = "text" then block.text else none

/-- The texts of a message: its content, or those of its text blocks. -/
def textsOf (m : Message) : List String :=
  match m.content with
  | .string s => [s]
  | content => (contentBlocks content).filterMap textOf

def itemText (item : Value) : Option String := (item.get "text").bind Value.asStr

def supported (source : ImageSource) : Bool := (getImageFormat source.mediaType).isSome

def itemSource (item : Value) : Option ImageSource :=
  match itemText item with
  | some _ => none
  | none => (imageSourceOf item).filter supported

def itemSources : Option Value → List ImageSource
  | some (.array items) => items.filterMap itemSource
  | _ => []

/-- The images of a block in a format that the upstream takes. -/
def blockSources (block : ContentBlock) : List ImageSource :=
  if block.blockType = "image" then (block.source.filter supported).toList
  else if block.blockType = "tool_result" then
    block.toolUseId.elim [] fun _ => itemSources block.content
  else []

def sourcesOf (m : Message) : List ImageSource :=
  if m.role = "user" then (contentBlocks m.content).flatMap blockSources else []

def resultBlocks (m : Message) : List ContentBlock :=
  (contentBlocks m.content).filter fun block =>
    block.blockType == "tool_result" && block.toolUseId.isSome

def useBlocks (m : Message) : List ContentBlock :=
  (contentBlocks m.content).filter fun block =>
    block.blockType == "tool_use" && block.id.isSome && block.name.isSome

/-- What is put between texts, and in place of images that were seen before or go elsewhere. -/
def placeholders : Language Char :=
  { w | w ∈ ["\n", " ", imageOmitted, "[image attached]"].map String.toList }

/-- The content has the texts in their order and nothing but placeholders around them. -/
def Carries (texts : List String) (content : String) : Prop :=
  Woven placeholders (texts.map String.toList) content.toList

/-- The texts of a tool result; other content is printed as it is. -/
def CarriesResult (env : Env) (content : Option Value) (s : String) : Prop :=
  match content with
  | some (.string t) => s = t
  | some (.array items) => Carries (items.filterMap itemText) s
  | some v => s = v.render env.formatFloat
  | none => s = ""

def ResultOf (env : Env) (block : ContentBlock) (result : ToolResult) : Prop :=
  ∃ id s, block.toolUseId = some id ∧ CarriesResult env block.content s ∧
    result = toolResultOf (block.isError.getD false) id s

def UseOf (env : Env) (mode : ToolCompatibilityMode) (block : ContentBlock)
    (entry : ToolUseEntry) : Prop :=
  ∃ id name input, block.id = some id ∧ block.name = some name ∧
    mapToolInputToKiro mode name (block.input.getD (.object [])) = .ok input ∧
    entry = ⟨id, sentName env mode name, input⟩

def digestOf (env : Env) (source : ImageSource) : String := env.sha256Hex source.data

def ImageOf (env : Env) (source : ImageSource) (image : KiroImage) : Prop :=
  ∃ format, getImageFormat source.mediaType = some format ∧
    shrinkImage env format source = .ok image

variable {env : Env} {mode : ToolCompatibilityMode}

theorem mem_placeholders {w : String} (mem : w ∈ ["\n", " ", imageOmitted, "[image attached]"]) :
    w.toList ∈ placeholders∗ := mem_kstar_of_mem (List.mem_map_of_mem mem)

theorem carries_nil : Carries [] "" := Woven.empty

theorem carries_join_nil {sep : String} : Carries [] (sep.intercalate []) := by
  rw [String.intercalate_nil]
  exact carries_nil

theorem carries_singleton (t : String) : Carries [t] t := Woven.singleton _

theorem Carries.append {ts ts' : List String} {s s' : String} (h : Carries ts s)
    (h' : Carries ts' s') : Carries (ts ++ ts') (s ++ s') := by
  unfold Carries at h h' ⊢
  rw [List.map_append, String.toList_append]
  exact Woven.append h h'

theorem Carries.append_glue {ts : List String} {s w : String} (h : Carries ts s)
    (mem : w.toList ∈ placeholders∗) : Carries ts (s ++ w) := by
  unfold Carries at h ⊢
  rw [String.toList_append]
  exact Woven.append_glue h mem

theorem carries_of_glue {w : String} (mem : w.toList ∈ placeholders∗) : Carries [] w := .nil mem

theorem intercalate_concat (sep : String) (parts : List String) (part : String) :
    sep.intercalate (parts ++ [part]) =
      (if parts = [] then "" else sep.intercalate parts ++ sep) ++ part := by
  by_cases empty : parts = []
  · rw [empty, if_pos rfl, List.nil_append, String.intercalate_singleton, String.empty_append]
  · rw [if_neg empty, String.intercalate_append_of_ne_nil empty (List.cons_ne_nil _ _),
      String.intercalate_singleton]

theorem Carries.concat {ts ts' : List String} {parts : List String} {sep part : String}
    (h : Carries ts (sep.intercalate parts)) (separates : sep.toList ∈ placeholders∗)
    (h' : Carries ts' part) : Carries (ts ++ ts') (sep.intercalate (parts ++ [part])) := by
  rw [intercalate_concat]
  by_cases empty : parts = []
  · rw [if_pos empty, String.empty_append]
    rw [empty, String.intercalate_nil] at h
    have appended := h.append h'
    rwa [String.empty_append] at appended
  · rw [if_neg empty]
    exact (h.append_glue separates).append h'

/-- The images that are taken: all, or those at first sight where the digests are kept. -/
def taken (env : Env) (seen : Option (List String)) (sources : List ImageSource) :
    List ImageSource :=
  seen.elim sources fun seen => unseen (digestOf env) seen sources

/-- An extraction that has gone on over images, and nothing else. -/
structure Taken (env : Env) (sources : List ImageSource) (e e' : Extraction) : Prop where
  images : ∃ new, e'.images = e.images ++ new ∧
    List.Forall₂ (ImageOf env) (taken env e.seen sources) new
  seen : Option.Rel (fun seen seen' => ∀ d, d ∈ seen' ↔ d ∈ seen ++ sources.map (digestOf env))
    e.seen e'.seen

theorem Taken.nil {e e' : Extraction} (images : e'.images = e.images) (seen : e'.seen = e.seen) :
    Taken env [] e e' := by
  constructor
  · refine ⟨[], by rw [images, List.append_nil], ?_⟩
    unfold taken
    cases e.seen <;> exact .nil
  · rw [seen]
    cases e.seen with
    | none => exact .none
    | some seen => exact .some fun d => by simp

theorem Taken.trans {sources sources' : List ImageSource} {e e' e'' : Extraction}
    (h : Taken env sources e e') (h' : Taken env sources' e' e'') :
    Taken env (sources ++ sources') e e'' := by
  obtain ⟨⟨new, images, first⟩, seen⟩ := h
  obtain ⟨⟨new', images', second⟩, seen'⟩ := h'
  cases before : e.seen with
  | none =>
    rw [before] at first seen
    cases at_mid : e'.seen with
    | some _ =>
      rw [at_mid] at seen
      cases seen
    | none =>
      rw [at_mid] at second seen'
      refine ⟨⟨new ++ new', ?_, ?_⟩, ?_⟩
      · rw [images', images, List.append_assoc]
      · rw [before]
        exact List.rel_append first second
      · rw [before]
        cases at_end : e''.seen with
        | none => exact .none
        | some _ =>
          rw [at_end] at seen'
          cases seen'
  | some s =>
    rw [before] at first seen
    cases at_mid : e'.seen with
    | none =>
      rw [at_mid] at seen
      cases seen
    | some s' =>
      rw [at_mid] at second seen seen'
      cases seen with
      | some same =>
        refine ⟨⟨new ++ new', ?_, ?_⟩, ?_⟩
        · rw [images', images, List.append_assoc]
        · rw [before]
          have split : taken env (some s) (sources ++ sources') =
              taken env (some s) sources ++ taken env (some s') sources' := by
            refine (unseen_append sources sources').trans (congrArg _ ?_)
            exact unseen_congr (fun d => (same d).symm) sources'
          rw [split]
          exact List.rel_append first second
        · rw [before]
          cases at_end : e''.seen with
          | none =>
            rw [at_end] at seen'
            cases seen'
          | some s'' =>
            rw [at_end] at seen'
            cases seen' with
            | some same' =>
              refine .some fun d => ?_
              rw [same', List.mem_append, same, List.map_append, List.mem_append, List.mem_append,
                List.mem_append, or_assoc]

/-- An image that is taken, or a placeholder for it. -/
theorem extractKiroImage_spec {source : ImageSource} {acc : Extraction}
    {r : Option String × Extraction} (ok : extractKiroImage env source acc = .ok r) :
    Taken env ((some source).filter supported).toList acc r.2 ∧
      r.2.textParts = acc.textParts ∧ r.2.toolResults = acc.toolResults ∧
      (r.1 = none ∨ r.1 = some imageOmitted) := by
  unfold extractKiroImage at ok
  cases format : getImageFormat source.mediaType with
  | none =>
    rw [format] at ok
    cases ok
    have skipped : (some source).filter supported = none := by simp [supported, format]
    rw [skipped]
    exact ⟨Taken.nil rfl rfl, rfl, rfl, .inl rfl⟩
  | some name =>
    rw [format] at ok
    have one : ((some source).filter supported).toList = [source] := by simp [supported, format]
    rw [one]
    dsimp only at ok
    split_ifs at ok with met
    · cases ok
      obtain ⟨s, seen, mem⟩ : ∃ s, acc.seen = some s ∧ env.sha256Hex source.data ∈ s := by
        cases seen : acc.seen with
        | none => simp [seen] at met
        | some s => exact ⟨s, rfl, by simpa [seen] using met⟩
      refine ⟨⟨⟨[], by rw [List.append_nil], ?_⟩, ?_⟩, rfl, rfl, .inr rfl⟩
      · rw [seen]
        simp [taken, unseen, digestOf, mem]
      · rw [seen]
        refine .some fun d => ?_
        simp only [List.map_singleton, List.mem_append, List.mem_singleton, digestOf]
        constructor
        · exact .inl
        · rintro (old | rfl)
          · exact old
          · exact mem
    · obtain ⟨image, shrunk, rest⟩ := bind_ok ok
      cases rest
      have first : taken env acc.seen [source] = [source] := by
        cases seen : acc.seen with
        | none => rfl
        | some s =>
          have new : env.sha256Hex source.data ∉ s := by simpa [seen] using met
          simp [taken, unseen, digestOf, new]
      refine ⟨⟨⟨[image], rfl, ?_⟩, ?_⟩, rfl, rfl, .inl rfl⟩
      · rw [first]
        exact .cons ⟨name, format, shrunk⟩ .nil
      · cases acc.seen with
        | none => exact .none
        | some s =>
          refine .some fun d => ?_
          rw [List.map_singleton, List.mem_append, List.mem_singleton, List.mem_cons]
          exact or_comm

/-- What the loop over the items of a tool result has done. -/
private structure Itemized (env : Env) (acc : Extraction) (items : List Value)
    (loop : ResultParts) : Prop where
  taken : Taken env (items.filterMap itemSource) acc loop.acc
  texts : Carries (items.filterMap itemText) ("\n".intercalate loop.parts)
  text_parts : loop.acc.textParts = acc.textParts
  results : loop.acc.toolResults = acc.toolResults

private theorem Itemized.step {acc : Extraction} {items : List Value} {loop loop' : ResultParts}
    (h : Itemized env acc items loop) (item : Value)
    (ok : extractResultItem env loop item = .ok loop') :
    Itemized env acc (items ++ [item]) loop' := by
  obtain ⟨took, texts, text_parts, results⟩ := h
  unfold extractResultItem at ok
  split at ok
  · rename_i text has_text
    cases ok
    have is_text : itemText item = some text := has_text
    have no_source : itemSource item = none := by rw [itemSource, is_text]
    refine ⟨?_, ?_, text_parts, results⟩
    · simpa [no_source] using took
    · rw [List.filterMap_append]
      simpa [is_text] using
        texts.concat (mem_placeholders (by simp)) (carries_singleton text)
  · rename_i has_none
    have no_text : itemText item = none := has_none
    split at ok
    · rename_i no_image
      cases ok
      have no_source : itemSource item = none := by
        rw [itemSource, no_text]
        simp [no_image]
      refine ⟨?_, ?_, text_parts, results⟩
      · simpa [no_source] using took
      · simpa [no_text] using texts
    · rename_i source image
      obtain ⟨r, extracted, rest⟩ := bind_ok ok
      cases rest
      obtain ⟨took', text_parts', results', placeholder⟩ := extractKiroImage_spec extracted
      have source_eq : itemSource item = (some source).filter supported := by
        rw [itemSource, no_text, image]
      refine ⟨?_, ?_, text_parts'.trans text_parts, results'.trans results⟩
      · rw [List.filterMap_append]
        have one : [item].filterMap itemSource = ((some source).filter supported).toList := by
          rw [← source_eq]
          cases found : itemSource item <;> simp [found]
        rw [one]
        exact took.trans took'
      · have same : (items ++ [item]).filterMap itemText = items.filterMap itemText := by
          simp [no_text]
        rw [same]
        rcases placeholder with none | omitted
        · simpa [none] using texts
        · have appended := texts.concat (mem_placeholders (by simp))
            (carries_of_glue (mem_placeholders (w := imageOmitted) (by simp)))
          simpa [omitted] using appended

theorem extractToolResultContent_spec {content : Option Value} {acc : Extraction}
    {r : String × Extraction} (ok : extractToolResultContent env content acc = .ok r) :
    Taken env (itemSources content) acc r.2 ∧ r.2.textParts = acc.textParts ∧
      r.2.toolResults = acc.toolResults ∧ CarriesResult env content r.1 := by
  unfold extractToolResultContent at ok
  split at ok
  · cases ok
    exact ⟨Taken.nil rfl rfl, rfl, rfl, rfl⟩
  · rename_i items
    obtain ⟨loop, folded, rest⟩ := bind_ok ok
    cases rest
    have start : Itemized env acc [] { acc := acc } :=
      ⟨Taken.nil rfl rfl, carries_join_nil, rfl, rfl⟩
    have itemized := foldlM_invariant (Itemized env acc) start
      (fun _ item _ _ held stepped => held.step item stepped) folded
    refine ⟨itemized.taken, itemized.text_parts, itemized.results, ?_⟩
    change Carries (items.filterMap itemText) _
    split_ifs with empty
    · have texts := itemized.texts
      rw [Bool.and_eq_true, List.isEmpty_iff] at empty
      rw [empty.1, String.intercalate_nil] at texts
      have attached := texts.append_glue (mem_placeholders (w := "[image attached]") (by simp))
      rwa [String.empty_append] at attached
    · exact itemized.texts
  · rename_i v no_string no_array
    cases ok
    refine ⟨?_, rfl, rfl, ?_⟩
    · have none : itemSources (some v) = [] := by
        cases v with
        | array items => exact absurd rfl (no_array items)
        | _ => rfl
      rw [none]
      exact Taken.nil rfl rfl
    · cases v with
      | string t => exact absurd rfl (no_string t)
      | array items => exact absurd rfl (no_array items)
      | _ => rfl
  · cases ok
    exact ⟨Taken.nil rfl rfl, rfl, rfl, rfl⟩

private structure Extracted (env : Env) (e : Extraction) (blocks : List ContentBlock)
    (e' : Extraction) : Prop where
  taken : Taken env (blocks.flatMap blockSources) e e'
  texts : Carries (blocks.filterMap textOf) ("\n".intercalate e'.textParts)
  results : List.Forall₂ (ResultOf env)
    (blocks.filter fun block => block.blockType == "tool_result" && block.toolUseId.isSome)
    e'.toolResults

private theorem Extracted.step {e acc acc' : Extraction} {blocks : List ContentBlock}
    (h : Extracted env e blocks acc) (block : ContentBlock)
    (ok : processBlock env acc block = .ok acc') : Extracted env e (blocks ++ [block]) acc' := by
  obtain ⟨took, texts, results⟩ := h
  unfold processBlock at ok
  split at ok
  · rename_i type
    cases ok
    refine ⟨?_, ?_, ?_⟩
    · have none : blockSources block = [] := by simp [blockSources, type]
      rw [List.flatMap_append, List.flatMap_singleton, none, List.append_nil]
      exact ⟨took.images, took.seen⟩
    · rw [List.filterMap_append]
      cases text : block.text with
      | none => simpa [textOf, type, text] using texts
      | some t =>
        simpa [textOf, type, text] using
          texts.concat (mem_placeholders (by simp)) (carries_singleton t)
    · simpa [type] using results
  · rename_i type
    have no_text : textOf block = none := by simp [textOf, type]
    split at ok
    · rename_i no_source
      cases ok
      refine ⟨?_, ?_, ?_⟩
      · simpa [blockSources, type, no_source] using took
      · simpa [no_text] using texts
      · simpa [type] using results
    · rename_i source has_source
      obtain ⟨r, extracted, rest⟩ := bind_ok ok
      cases rest
      obtain ⟨took', text_parts, results', placeholder⟩ := extractKiroImage_spec extracted
      refine ⟨?_, ?_, ?_⟩
      · have sources : blockSources block = ((some source).filter supported).toList := by
          simp [blockSources, type, has_source]
        rw [List.flatMap_append, List.flatMap_singleton, sources]
        have both := took.trans took'
        exact ⟨both.images, both.seen⟩
      · have same : (blocks ++ [block]).filterMap textOf = blocks.filterMap textOf := by
          simp [no_text]
        rw [same]
        change Carries _ ("\n".intercalate (r.2.textParts ++ r.1.toList))
        rw [text_parts]
        rcases placeholder with none | omitted
        · simpa [none] using texts
        · have appended := texts.concat (mem_placeholders (by simp))
            (carries_of_glue (mem_placeholders (w := imageOmitted) (by simp)))
          simpa [omitted] using appended
      · change List.Forall₂ _ _ r.2.toolResults
        rw [results']
        simpa [type] using results
  · rename_i type
    have no_text : textOf block = none := by simp [textOf, type]
    split at ok
    · rename_i no_id
      cases ok
      refine ⟨?_, ?_, ?_⟩
      · simpa [blockSources, type, no_id] using took
      · simpa [no_text] using texts
      · simpa [type, no_id] using results
    · rename_i id has_id
      obtain ⟨r, extracted, rest⟩ := bind_ok ok
      cases rest
      obtain ⟨took', text_parts, results', carries⟩ := extractToolResultContent_spec extracted
      refine ⟨?_, ?_, ?_⟩
      · have sources : blockSources block = itemSources block.content := by
          simp [blockSources, type, has_id]
        rw [List.flatMap_append, List.flatMap_singleton, sources]
        have both := took.trans took'
        exact ⟨both.images, both.seen⟩
      · have same : (blocks ++ [block]).filterMap textOf = blocks.filterMap textOf := by
          simp [no_text]
        rw [same]
        change Carries _ ("\n".intercalate r.2.textParts)
        rw [text_parts]
        exact texts
      · have one : [block].filter
            (fun block => block.blockType == "tool_result" && block.toolUseId.isSome) =
              [block] := by simp [type, has_id]
        rw [List.filter_append, one]
        change List.Forall₂ _ _ (r.2.toolResults ++ [_])
        rw [results']
        exact List.rel_append results (.cons ⟨id, r.1, has_id, carries, rfl⟩ .nil)
  · rename_i text image result
    cases ok
    refine ⟨?_, ?_, ?_⟩
    · have none : blockSources block = [] := by rw [blockSources, if_neg image, if_neg result]
      simpa [none] using took
    · have none : textOf block = none := if_neg text
      simpa [none] using texts
    · have other : (block.blockType == "tool_result") = false := beq_eq_false_iff_ne.mpr result
      simpa [other] using results

/-- What is extracted of a message of the user. -/
theorem processMessageContentDedup_spec {m : Message} {seen : Option (List String)}
    {e : Extraction} (user : m.role = "user")
    (ok : processMessageContentDedup env m.content seen = .ok e) :
    Taken env (sourcesOf m) { seen := seen } e ∧ Carries (textsOf m) e.text ∧
      List.Forall₂ (ResultOf env) (resultBlocks m) e.toolResults := by
  unfold sourcesOf textsOf resultBlocks
  rw [if_pos user]
  cases content : m.content with
  | string s =>
    rw [content] at ok
    cases ok
    refine ⟨Taken.nil rfl rfl, ?_, .nil⟩
    change Carries [s] ("\n".intercalate [s])
    rw [String.intercalate_singleton]
    exact carries_singleton s
  | array items =>
    rw [content] at ok
    have start : Extracted env { seen := seen } [] { seen := seen } :=
      ⟨Taken.nil rfl rfl, carries_join_nil, .nil⟩
    have extracted := foldlM_invariant (Extracted env { seen := seen }) start
      (fun _ block _ _ held stepped => held.step block stepped) ok
    exact ⟨extracted.taken, extracted.texts, extracted.results⟩
  | null | bool | number | object =>
    rw [content] at ok
    cases ok
    exact ⟨Taken.nil rfl rfl, carries_join_nil, .nil⟩

/-- One message of the upstream carries a run of messages of the user, behind the given ones. -/
structure UserCarries (env : Env) (before run : List Message) (u : UserMessage) : Prop where
  users : ∀ m ∈ run, m.role = "user"
  texts : Carries (run.flatMap textsOf) u.content
  images : List.Forall₂ (ImageOf env)
    (unseen (digestOf env) ((before.flatMap sourcesOf).map (digestOf env)) (run.flatMap sourcesOf))
    u.images
  results : List.Forall₂ (ResultOf env) (run.flatMap resultBlocks)
    u.userInputMessageContext.toolResults

def Seen (env : Env) (seen : List String) (before : List Message) : Prop :=
  ∀ d, d ∈ seen ↔ d ∈ (before.flatMap sourcesOf).map (digestOf env)

private structure UserMerged (env : Env) (before run : List Message) (merge : UserMerge) :
    Prop where
  texts : Carries (run.flatMap textsOf) ("\n".intercalate merge.contentParts)
  images : List.Forall₂ (ImageOf env)
    (unseen (digestOf env) ((before.flatMap sourcesOf).map (digestOf env)) (run.flatMap sourcesOf))
    merge.images
  results : List.Forall₂ (ResultOf env) (run.flatMap resultBlocks) merge.toolResults
  seen : Seen env merge.seen (before ++ run)

private theorem UserMerged.step {before run : List Message} {merge merge' : UserMerge} {m : Message}
    (h : UserMerged env before run merge) (user : m.role = "user")
    (ok : mergeUserMessage env merge m = .ok merge') :
    UserMerged env before (run ++ [m]) merge' := by
  obtain ⟨e, extracted, rest⟩ := bind_ok ok
  cases rest
  obtain ⟨took, texts, results⟩ := processMessageContentDedup_spec user extracted
  obtain ⟨⟨new, images, first⟩, seen⟩ := took
  refine ⟨?_, ?_, ?_, ?_⟩
  · rw [List.flatMap_append, List.flatMap_singleton]
    change Carries _ ("\n".intercalate (if e.text.isEmpty then _ else _))
    split_ifs with empty
    · have nothing : e.text = "" := String.isEmpty_iff.mp empty
      rw [nothing] at texts
      have appended := h.texts.append texts
      rwa [String.append_empty] at appended
    · exact h.texts.concat (mem_placeholders (by simp)) texts
  · rw [List.flatMap_append, List.flatMap_singleton, unseen_append]
    change List.Forall₂ _ _ (merge.images ++ e.images)
    rw [images, List.nil_append]
    refine List.rel_append h.images ?_
    have same : unseen (digestOf env) merge.seen (sourcesOf m) =
        unseen (digestOf env) ((before.flatMap sourcesOf).map (digestOf env) ++
          (run.flatMap sourcesOf).map (digestOf env)) (sourcesOf m) := by
      refine unseen_congr (fun d => ?_) _
      rw [h.seen, List.flatMap_append, List.map_append]
    rw [← same]
    exact first
  · rw [List.flatMap_append, List.flatMap_singleton]
    exact List.rel_append h.results results
  · intro d
    change d ∈ e.seen.getD [] ↔ _
    cases at_end : e.seen with
    | none =>
      rw [at_end] at seen
      cases seen
    | some s =>
      rw [at_end] at seen
      cases seen with
      | some same =>
        have split : (before ++ (run ++ [m])).flatMap sourcesOf =
            (before ++ run).flatMap sourcesOf ++ sourcesOf m := by
          rw [← List.append_assoc, List.flatMap_append, List.flatMap_singleton]
        rw [Option.getD_some, same, List.mem_append, h.seen, split, List.map_append,
          List.mem_append]

theorem mergeUserMessages_spec {before run : List Message} {modelId : String} {seen : List String}
    {r : UserMessage × List String} (known : Seen env seen before)
    (users : ∀ m ∈ run, m.role = "user")
    (ok : mergeUserMessages env run modelId seen = .ok r) :
    UserCarries env before run r.1 ∧ Seen env r.2 (before ++ run) := by
  obtain ⟨merge, folded, rest⟩ := bind_ok ok
  cases rest
  have start : UserMerged env before [] { seen := seen } := by
    refine ⟨carries_join_nil, .nil, .nil, ?_⟩
    rw [List.append_nil]
    exact known
  have merged : UserMerged env before run merge := by
    refine (foldlM_invariant (fun done merge => (∀ m ∈ done, m.role = "user") →
      UserMerged env before done merge) (fun _ => start) ?_ folded) users
    intro done m merge merge' held stepped roles
    have so_far := held fun m mem => roles m (List.mem_append_left _ mem)
    exact so_far.step (roles m (List.mem_append_right _ List.mem_cons_self)) stepped
  exact ⟨⟨users, merged.texts, merged.images, merged.results⟩, merged.seen⟩

def blank (m : Message) : Bool := (trim (String.join (textsOf m))).isEmpty

/-- The texts that a run of the assistant keeps: of several messages those that are not blank. -/
def spokenTexts (run : List Message) : List String :=
  match run with
  | [m] => textsOf m
  | run => (run.filter fun m => !blank m).flatMap textsOf

/-- One message of the upstream carries the texts that are taken from a run of messages of the
assistant, and its tool uses but those of the orphans. -/
structure AssistantCarries (env : Env) (mode : ToolCompatibilityMode)
    (spoken : List Message → List String) (orphans : List String) (run : List Message)
    (a : AssistantMessage) : Prop where
  assistants : ∀ m ∈ run, m.role = "assistant"
  texts : Carries (spoken run) a.content
  uses : ∃ entries, List.Forall₂ (UseOf env mode) (run.flatMap useBlocks) entries ∧
    a.toolUses.getD [] = entries.filter fun entry => !orphans.contains entry.toolUseId

theorem carries_join (texts : List String) : Carries texts (String.join texts) := by
  induction texts with
  | nil => exact carries_nil
  | cons t texts ih =>
    rw [String.join_cons]
    exact (carries_singleton t).append ih

/-- What the loop over the blocks of a message has done. -/
private structure Spoken (env : Env) (mode : ToolCompatibilityMode) (blocks : List ContentBlock)
    (loop : AssistantLoop) : Prop where
  text : loop.text = String.join (blocks.filterMap textOf)
  uses : List.Forall₂ (UseOf env mode)
    (blocks.filter fun block =>
      block.blockType == "tool_use" && block.id.isSome && block.name.isSome)
    loop.toolUses

private theorem Spoken.step {blocks : List ContentBlock} {loop loop' : AssistantLoop}
    (h : Spoken env mode blocks loop) (block : ContentBlock)
    (ok : convertAssistantBlock env mode loop block = .ok loop') :
    Spoken env mode (blocks ++ [block]) loop' := by
  obtain ⟨text, uses⟩ := h
  unfold convertAssistantBlock at ok
  split at ok
  · rename_i type
    cases ok
    constructor
    · rw [List.filterMap_append, String.join_append, ← text]
      cases has_text : block.text with
      | none => simp [textOf, type, has_text]
      | some t => simp [textOf, type, has_text]
    · simpa [type] using uses
  · rename_i type
    have no_text : textOf block = none := by simp [textOf, type]
    split at ok
    · rename_i id name has_id has_name
      dsimp only at ok
      split at ok
      · rename_i input mapped
        cases ok
        constructor
        · simpa [no_text] using text
        · have one : [block].filter (fun block =>
              block.blockType == "tool_use" && block.id.isSome && block.name.isSome) = [block] := by
            simp [type, has_id, has_name]
          rw [List.filter_append, one]
          refine List.rel_append uses (.cons ⟨id, name, input, has_id, has_name, mapped, ?_⟩ .nil)
          rw [mapClientToolNameToKiro_fst]
      · cases ok
    · rename_i incomplete
      cases ok
      constructor
      · simpa [no_text] using text
      · have left_out : (block.id.isSome && block.name.isSome) = false := by
          cases has_id : block.id with
          | none => rfl
          | some id =>
            cases has_name : block.name with
            | none => rfl
            | some name => exact absurd has_name (incomplete id name has_id)
        simpa [type, left_out] using uses
  · rename_i not_text not_use
    cases ok
    constructor
    · have none : textOf block = none := if_neg not_text
      simpa [none] using text
    · have other : (block.blockType == "tool_use") = false := beq_eq_false_iff_ne.mpr not_use
      simpa [other] using uses

@[simp] theorem toolUses_withToolUses (content : String) (toolUses : List ToolUseEntry) :
    ((AssistantMessage.new content).withToolUses toolUses).toolUses.getD [] = toolUses := by
  unfold AssistantMessage.withToolUses
  split_ifs with empty
  · rw [List.isEmpty_iff.mp empty]
    rfl
  · rfl

@[simp] theorem content_withToolUses (content : String) (toolUses : List ToolUseEntry) :
    ((AssistantMessage.new content).withToolUses toolUses).content = content := by
  unfold AssistantMessage.withToolUses
  split_ifs <;> rfl

theorem convertAssistantMessage_spec {m : Message} {map : ToolNameMap}
    {r : AssistantMessage × ToolNameMap}
    (ok : convertAssistantMessage env mode m map = .ok r) :
    r.1.content = contentOrBlank (String.join (textsOf m)) (r.1.toolUses.getD []) ∧
      List.Forall₂ (UseOf env mode) (useBlocks m) (r.1.toolUses.getD []) := by
  obtain ⟨loop, converted, rest⟩ := bind_ok ok
  cases rest
  have spoken : loop.text = String.join (textsOf m) ∧
      List.Forall₂ (UseOf env mode) (useBlocks m) loop.toolUses := by
    unfold textsOf useBlocks
    cases content : m.content with
    | string s =>
      rw [content] at converted
      cases converted
      refine ⟨?_, .nil⟩
      rw [String.join_cons, String.join_nil, String.append_empty]
    | array items =>
      rw [content] at converted
      have start : Spoken env mode [] { map := map } := ⟨rfl, .nil⟩
      have spoken := foldlM_invariant (Spoken env mode) start
        (fun _ block _ _ held stepped => held.step block stepped) converted
      exact ⟨spoken.text, spoken.uses⟩
    | null | bool | number | object =>
      rw [content] at converted
      cases converted
      exact ⟨rfl, .nil⟩
  rw [toolUses_withToolUses, content_withToolUses, spoken.1]
  exact ⟨rfl, spoken.2⟩

theorem carries_contentOrBlank (texts : List String) (uses : List ToolUseEntry) :
    Carries texts (contentOrBlank (String.join texts) uses) := by
  unfold contentOrBlank
  split_ifs with empty
  · rw [Bool.and_eq_true] at empty
    have nothing : String.join texts = "" := String.isEmpty_iff.mp empty.1
    have joined := carries_join texts
    rw [nothing] at joined
    have filled := joined.append_glue (mem_placeholders (w := " ") (by simp))
    rwa [String.empty_append] at filled
  · exact carries_join texts

theorem trim_contentOrBlank (text : String) (uses : List ToolUseEntry) :
    (trim (contentOrBlank text uses)).isEmpty = (trim text).isEmpty := by
  unfold contentOrBlank
  split_ifs with empty
  · rw [Bool.and_eq_true] at empty
    rw [String.isEmpty_iff.mp empty.1]
    decide
  · rfl

private structure AssistantMerged (env : Env) (mode : ToolCompatibilityMode) (run : List Message)
    (merge : AssistantMerge) : Prop where
  texts : Carries ((run.filter fun m => !blank m).flatMap textsOf)
    ("\n\n".intercalate merge.contentParts)
  uses : List.Forall₂ (UseOf env mode) (run.flatMap useBlocks) merge.toolUses

private theorem AssistantMerged.step {run : List Message} {merge merge' : AssistantMerge}
    (h : AssistantMerged env mode run merge) (m : Message)
    (ok : mergeAssistantMessage env mode merge m = .ok merge') :
    AssistantMerged env mode (run ++ [m]) merge' := by
  obtain ⟨r, converted, parts, added, -⟩ := mergeAssistantMessage_ok ok
  obtain ⟨content, uses⟩ := convertAssistantMessage_spec converted
  have blank_iff : (trim r.1.content).isEmpty = blank m := by
    rw [content, trim_contentOrBlank]
    rfl
  constructor
  · rw [parts, blank_iff, List.filter_append, List.flatMap_append]
    cases silent : blank m with
    | true => simpa [silent] using h.texts
    | false =>
      have separates : "\n\n".toList ∈ placeholders∗ :=
        append_mem_kstar (mem_placeholders (w := "\n") (by simp))
          (mem_placeholders (w := "\n") (by simp))
      have carried : Carries (textsOf m) r.1.content := by
        rw [content]
        exact carries_contentOrBlank _ _
      simpa [silent] using h.texts.concat separates carried
  · rw [added, List.flatMap_append, List.flatMap_singleton]
    exact List.rel_append h.uses uses

theorem mergeAssistantMessages_spec {run : List Message} {map : ToolNameMap}
    {r : AssistantMessage × ToolNameMap} (assistants : ∀ m ∈ run, m.role = "assistant")
    (ok : mergeAssistantMessages env mode run map = .ok r) :
    AssistantCarries env mode spokenTexts [] run r.1 := by
  have all : ∀ entries : List ToolUseEntry,
      entries = entries.filter fun entry => !([] : List String).contains entry.toolUseId := by
    intro entries
    simp
  unfold mergeAssistantMessages at ok
  split at ok
  · cases ok
  · rename_i m
    obtain ⟨content, uses⟩ := convertAssistantMessage_spec ok
    refine ⟨assistants, ?_, _, by simpa using uses, all _⟩
    rw [content]
    exact carries_contentOrBlank _ _
  · rename_i run' not_nil not_one
    obtain ⟨merge, folded, rest⟩ := bind_ok ok
    cases rest
    have start : AssistantMerged env mode [] { map := map } := ⟨carries_join_nil, .nil⟩
    have merged := foldlM_invariant (AssistantMerged env mode) start
      (fun _ m _ _ held stepped => held.step m stepped) folded
    have spoken : spokenTexts run = (run.filter fun m => !blank m).flatMap textsOf := by
      unfold spokenTexts
      split
      · rename_i m
        exact absurd rfl (not_one m)
      · rfl
    refine ⟨assistants, ?_, merge.toolUses, merged.uses, ?_⟩
    · rw [spoken, content_withToolUses]
      split_ifs with empty
      · rw [Bool.and_eq_true, List.isEmpty_iff] at empty
        have texts := merged.texts
        rw [empty.1, String.intercalate_nil] at texts
        have filled := texts.append_glue (mem_placeholders (w := " ") (by simp))
        rwa [String.empty_append] at filled
      · exact merged.texts
    · rw [toolUses_withToolUses]
      exact all _

end KiroRs.Converter.Content
