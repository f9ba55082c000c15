/- Path: KiroRs/Images/Budget
   source: src/anthropic/handlers.rs, src/anthropic/converter.rs
   digest: The scan that counts the images of a request, and the images that its conversion gives to
   the image processing. -/

import KiroRs.Converter.Conservation
import KiroRs.Converter.Conversion
import KiroRs.Images.Resize
import KiroRs.Lib.Logs
import KiroRs.Lib.Results

set_option autoImplicit false
set_option relaxedAutoImplicit false

namespace KiroRs.Images.Budget

open KiroRs.Lib
open KiroRs.Lib.Logs
open KiroRs.Lib.Results
open KiroRs.Converter.Json
open KiroRs.Converter.Models
open KiroRs.Converter.ToolNames
open KiroRs.Converter.Tools
open KiroRs.Converter.Messages
open KiroRs.Converter.Content
open KiroRs.Converter.Conservation (imagesOf lastOf_ok removeOrphans_assistant
  role_of_sentMessages)
open KiroRs.Converter.Conversion
open KiroRs.Converter.Requests (ContentBlock ImageSource Message MessagesRequest)
open KiroRs.Converter.Conversation (KiroImage)
open KiroRs.Images.Resize

structure ImageBudget where
  count : Nat := 0
  totalB64Bytes : Nat := 0
  largestB64Bytes : Nat := 0
  deriving DecidableEq, Repr

def typeOf (v : Value) : Option String := (v.get "type").bind Value.asStr

def countImageSource (source : Option Value) (budget : ImageBudget) : ImageBudget :=
  match source with
  | none => budget
  | some src =>
    if typeOf src = some "base64" then
      let n := (((src.get "data").bind Value.asStr).map String.utf8ByteSize).getD 0
      { count := budget.count + 1
        totalB64Bytes := budget.totalB64Bytes + n
        largestB64Bytes := max budget.largestB64Bytes n }
    else budget

theorem sizeOf_get {v w : Value} {key : String} (found : v.get key = some w) :
    sizeOf w < sizeOf v := by
  cases v with
  | object fields =>
    have found : fields.lookup key = some w := found
    obtain ⟨front, back, split, -⟩ := List.lookup_eq_some_iff.mp found
    have mem : (key, w) ∈ fields := split ▸ List.mem_append_right _ List.mem_cons_self
    have small := List.sizeOf_lt_of_mem mem
    have inside : sizeOf w < sizeOf (key, w) := by simp
    simp only [Value.object.sizeOf_spec]
    omega
  | null => cases found
  | bool b => cases found
  | number n => cases found
  | string s => cases found
  | array items => cases found

/-- A tool result is scanned like the content of a message, however deep it lies. -/
def countImagesInBlocks : List Value → ImageBudget → ImageBudget
  | [], budget => budget
  | item :: blocks, budget =>
    match typeOf item with
    | some "image" => countImagesInBlocks blocks (countImageSource (item.get "source") budget)
    | some "tool_result" =>
      match _found : item.get "content" with
      | some (.array content) => countImagesInBlocks blocks (countImagesInBlocks content budget)
      | _ => countImagesInBlocks blocks budget
    | _ => countImagesInBlocks blocks budget
termination_by blocks => sizeOf blocks
decreasing_by
  all_goals simp only [List.cons.sizeOf_spec]
  all_goals try have small := sizeOf_get _found
  all_goals try simp only [Value.array.sizeOf_spec] at small
  all_goals omega

def countImageBudget (payload : MessagesRequest) : ImageBudget :=
  payload.messages.foldl (fun budget msg =>
    match msg.content with
    | .array items => countImagesInBlocks items budget
    | _ => budget) {}

section Decoding

variable (env : Env) (mode : ToolCompatibilityMode)

/-- The source that `extract_kiro_image` gives to `maybe_shrink_image`, if any. -/
def sourceDecoded (source : ImageSource) (acc : Extraction) : List ImageSource :=
  match getImageFormat source.mediaType with
  | none => []
  | some _ => if acc.seen.any (·.contains (env.sha256Hex source.data)) then [] else [source]

def itemDecoded (loop : ResultParts) (item : Value) : List ImageSource :=
  match (item.get "text").bind Value.asStr with
  | some _ => []
  | none =>
    match imageSourceOf item with
    | none => []
    | some source => sourceDecoded env source loop.acc

def resultDecoded (content : Option Value) (acc : Extraction) : List ImageSource :=
  match content with
  | some (.array items) => noted (extractResultItem env) (itemDecoded env) { acc := acc } items
  | _ => []

def blockDecoded (acc : Extraction) (block : ContentBlock) : List ImageSource :=
  match block.blockType with
  | "image" => block.source.elim [] fun source => sourceDecoded env source acc
  | "tool_result" => block.toolUseId.elim [] fun _ => resultDecoded env block.content acc
  | _ => []

/-- What `process_message_content_dedup` decodes, in order. -/
def contentDecoded (content : Value) (seen : Option (List String)) : List ImageSource :=
  match content with
  | .array items => noted (processBlock env) (blockDecoded env) { seen := seen } (blocksOf items)
  | _ => []

def flushDecoded (loop : HistoryLoop) : List ImageSource :=
  noted (mergeUserMessage env)
    (fun merge msg => contentDecoded env msg.content (some merge.seen))
    { seen := loop.imageDedup } loop.userBuffer

/-- A message of the assistant closes the user messages before it. -/
def stepDecoded (loop : HistoryLoop) (msg : Message) : List ImageSource :=
  if msg.role = "user" then []
  else if msg.role = "assistant" then flushDecoded env loop
  else []

def historyDecoded (req : MessagesRequest) (messages : List Message) (modelId : String)
    (map : ToolNameMap) : List ImageSource :=
  let start := { history := systemMessages env req modelId, map := map }
  noted (historyStep env mode modelId) (stepDecoded env) start messages.dropLast ++
    after (messages.dropLast.foldlM (historyStep env mode modelId) start) fun loop =>
      after (flushAssistant env mode loop) (flushDecoded env)

/-- The sources that `convert_request_with_mode` gives to `maybe_shrink_image`, in order: those of
the last message, then those of the history. The last one may have failed. -/
def decoded (req : MessagesRequest) : List ImageSource :=
  after (requireModel env req.model) fun modelId =>
  after (trimPrefill req.messages) fun messages =>
  after (conversationIdOf env req) fun _ =>
  after (lastOf messages) fun lastMessage =>
  contentDecoded env lastMessage.content none ++
    after (processMessageContent env lastMessage.content) fun _ =>
    after (convertTools env mode req.tools []) fun converted =>
    historyDecoded env mode req messages modelId converted.2

end Decoding

variable {env : Env} {mode : ToolCompatibilityMode}

theorem sourceDecoded_sublist (source : ImageSource) (acc : Extraction) :
    (sourceDecoded env source acc).Sublist ([source].filter supported) := by
  unfold sourceDecoded supported
  cases format : getImageFormat source.mediaType with
  | none => exact List.nil_sublist _
  | some name =>
    have kept : [source].filter (fun s => (getImageFormat s.mediaType).isSome) = [source] := by
      rw [List.filter_singleton, format]
      rfl
    rw [kept]
    dsimp only
    split_ifs
    · exact List.nil_sublist _
    · exact List.Sublist.refl _

theorem itemDecoded_sublist (loop : ResultParts) (item : Value) :
    (itemDecoded env loop item).Sublist (itemSource item).toList := by
  unfold itemDecoded itemSource itemText
  cases text : (item.get "text").bind Value.asStr with
  | some t => exact List.nil_sublist _
  | none =>
    cases read : imageSourceOf item with
    | none => exact List.nil_sublist _
    | some source =>
      dsimp only
      rw [Option.toList_filter]
      exact sourceDecoded_sublist source loop.acc

theorem resultDecoded_sublist (content : Option Value) (acc : Extraction) :
    (resultDecoded env content acc).Sublist (itemSources content) := by
  unfold resultDecoded
  split
  · rename_i items
    have sources : itemSources (some (.array items)) = items.filterMap itemSource := rfl
    rw [sources, List.filterMap_eq_flatMap_toList]
    exact noted_sublist_flatMap (fun loop item => itemDecoded_sublist loop item) _ _
  · exact List.nil_sublist _

theorem blockDecoded_sublist (acc : Extraction) (block : ContentBlock) :
    (blockDecoded env acc block).Sublist (blockSources block) := by
  unfold blockDecoded blockSources
  split
  · rename_i image
    rw [if_pos image, Option.toList_filter]
    cases block.source with
    | none => exact List.nil_sublist _
    | some source => exact sourceDecoded_sublist source acc
  · rename_i result
    rw [if_neg (by rw [result]; decide), if_pos result]
    cases block.toolUseId with
    | none => exact List.nil_sublist _
    | some id => exact resultDecoded_sublist block.content acc
  · exact List.nil_sublist _

theorem contentDecoded_sublist (content : Value) (seen : Option (List String)) :
    (contentDecoded env content seen).Sublist ((contentBlocks content).flatMap blockSources) := by
  unfold contentDecoded contentBlocks
  split
  · exact noted_sublist_flatMap (fun acc block => blockDecoded_sublist acc block) _ _
  · exact List.nil_sublist _

/-- The images of content, whoever sent it. -/
def contentSources (content : Value) : List ImageSource :=
  (contentBlocks content).flatMap blockSources

theorem sourcesOf_user {m : Message} (user : m.role = "user") :
    sourcesOf m = contentSources m.content := if_pos user

/-- The images of the user messages that wait to be merged. -/
def owed (loop : HistoryLoop) : List ImageSource :=
  loop.userBuffer.flatMap fun m => contentSources m.content

theorem flushDecoded_sublist (loop : HistoryLoop) :
    (flushDecoded env loop).Sublist (owed loop) :=
  noted_sublist_flatMap (fun merge msg => contentDecoded_sublist msg.content (some merge.seen)) _ _

theorem flushAssistant_userBuffer {loop loop' : HistoryLoop}
    (ok : flushAssistant env mode loop = .ok loop') : loop'.userBuffer = loop.userBuffer := by
  unfold flushAssistant at ok
  split_ifs at ok with empty
  · cases ok
    rfl
  · obtain ⟨merged, -, rest⟩ := bind_ok ok
    cases rest
    rfl

theorem flushUser_userBuffer {modelId : String} {loop loop' : HistoryLoop}
    (ok : flushUser env modelId loop = .ok loop') : loop'.userBuffer = [] := by
  unfold flushUser at ok
  split_ifs at ok with empty
  · cases ok
    exact List.isEmpty_iff.mp empty
  · obtain ⟨merged, -, rest⟩ := bind_ok ok
    cases rest
    rfl

/-- A step decodes images of the waiting messages, which then wait no more, or keeps them and lets
the images of its message wait. -/
theorem stepDecoded_taken {modelId : String} {loop loop' : HistoryLoop} {msg : Message}
    (ok : historyStep env mode modelId loop msg = .ok loop') :
    (stepDecoded env loop msg ++ owed loop').Sublist (owed loop ++ sourcesOf msg) := by
  unfold historyStep at ok
  unfold stepDecoded
  split_ifs at ok ⊢ with user assistant
  · obtain ⟨flushed, flush, rest⟩ := bind_ok ok
    cases rest
    have waits : owed { flushed with userBuffer := flushed.userBuffer ++ [msg] } =
        owed loop ++ sourcesOf msg := by
      unfold owed
      rw [flushAssistant_userBuffer flush, sourcesOf_user user, List.flatMap_append,
        List.flatMap_singleton]
    exact waits ▸ List.Sublist.refl _
  · obtain ⟨flushed, flush, rest⟩ := bind_ok ok
    cases rest
    have none : owed { flushed with assistantBuffer := flushed.assistantBuffer ++ [msg] } = [] := by
      unfold owed
      rw [flushUser_userBuffer flush, List.flatMap_nil]
    rw [none, List.append_nil]
    exact (flushDecoded_sublist loop).trans (List.sublist_append_left _ _)
  · cases ok
    exact List.sublist_append_left _ _

theorem stepDecoded_sublist (loop : HistoryLoop) (msg : Message) :
    (stepDecoded env loop msg).Sublist (owed loop ++ sourcesOf msg) := by
  unfold stepDecoded
  split_ifs
  · exact List.nil_sublist _
  · exact (flushDecoded_sublist loop).trans (List.sublist_append_left _ _)
  · exact List.nil_sublist _

theorem historyDecoded_sublist (req : MessagesRequest) (messages : List Message) (modelId : String)
    (map : ToolNameMap) : (historyDecoded env mode req messages modelId map).Sublist
      (messages.dropLast.flatMap sourcesOf) := by
  have taken : ∀ loop msg loop', historyStep env mode modelId loop msg = .ok loop' →
      (stepDecoded env loop msg ++ owed loop').Sublist (owed loop ++ sourcesOf msg) :=
    fun _ _ _ => stepDecoded_taken
  have failed : ∀ loop msg, (stepDecoded env loop msg).Sublist (owed loop ++ sourcesOf msg) :=
    stepDecoded_sublist
  have all := noted_sublist taken failed messages.dropLast
    { history := systemMessages env req modelId, map := map }
  refine List.Sublist.trans ?_ all
  refine (List.Sublist.refl _).append ?_
  cases messages.dropLast.foldlM (historyStep env mode modelId)
      { history := systemMessages env req modelId, map := map } with
  | error e => exact List.nil_sublist _
  | ok loop =>
    rw [after_ok, after_ok]
    refine after_of (P := (·.Sublist _)) (List.nil_sublist _) fun flushed flush => ?_
    have same : owed flushed = owed loop := by
      unfold owed
      rw [flushAssistant_userBuffer flush]
    exact same ▸ flushDecoded_sublist flushed

/-- Conversion decodes images of the messages up to the last one of the user, each once at most. -/
theorem decoded_subperm (req : MessagesRequest) :
    (decoded env mode req).Subperm ((sentMessages req).flatMap sourcesOf) := by
  unfold decoded
  refine after_of (P := (·.Subperm _)) List.nil_subperm fun modelId _ => ?_
  refine after_of (P := (·.Subperm _)) List.nil_subperm fun messages trimmed => ?_
  refine after_of (P := (·.Subperm _)) List.nil_subperm fun _ _ => ?_
  refine after_of (P := (·.Subperm _)) List.nil_subperm fun last is_last => ?_
  have sent : sentMessages req = messages := (trimPrefill_ok trimmed).1.symm
  have split : sentMessages req = messages.dropLast ++ [last] := by
    rw [sent]
    exact lastOf_ok is_last
  have user := role_of_sentMessages split
  have current : (contentDecoded env last.content none).Sublist (sourcesOf last) := by
    rw [sourcesOf_user user]
    exact contentDecoded_sublist last.content none
  rw [split, List.flatMap_append, List.flatMap_singleton]
  refine (current.append ?_).subperm.trans List.perm_append_comm.subperm
  refine after_of (P := (·.Sublist _)) (List.nil_sublist _) fun _ _ => ?_
  refine after_of (P := (·.Sublist _)) (List.nil_sublist _) fun converted _ => ?_
  exact historyDecoded_sublist req messages modelId converted.2

/-- The images of the converted request: those of the current message, then those of the
history. -/
def forwarded (result : ConversionResult) : List KiroImage :=
  result.conversationState.currentMessage.images ++
    result.conversationState.history.flatMap imagesOf

theorem extractKiroImage_forwards {source : ImageSource} {acc : Extraction}
    {r : Option String × Extraction} (ok : extractKiroImage env source acc = .ok r) :
    ∃ new, r.2.images = acc.images ++ new ∧
      List.Forall₂ (ImageOf env) (sourceDecoded env source acc) new := by
  unfold extractKiroImage at ok
  unfold sourceDecoded
  cases format : getImageFormat source.mediaType with
  | none =>
    rw [format] at ok
    cases ok
    exact ⟨[], (List.append_nil _).symm, .nil⟩
  | some name =>
    rw [format] at ok
    dsimp only at ok ⊢
    split_ifs at ok ⊢ with met
    · cases ok
      exact ⟨[], (List.append_nil _).symm, .nil⟩
    · obtain ⟨image, shrunk, rest⟩ := bind_ok ok
      cases rest
      exact ⟨[image], rfl, .cons ⟨name, format, shrunk⟩ .nil⟩

theorem extractResultItem_forwards {loop loop' : ResultParts} {item : Value}
    (ok : extractResultItem env loop item = .ok loop') :
    ∃ new, loop'.acc.images = loop.acc.images ++ new ∧
      List.Forall₂ (ImageOf env) (itemDecoded env loop item) new := by
  unfold extractResultItem at ok
  unfold itemDecoded
  cases text : (item.get "text").bind Value.asStr with
  | some t =>
    rw [text] at ok
    cases ok
    exact ⟨[], (List.append_nil _).symm, .nil⟩
  | none =>
    rw [text] at ok
    cases read : imageSourceOf item with
    | none =>
      rw [read] at ok
      cases ok
      exact ⟨[], (List.append_nil _).symm, .nil⟩
    | some source =>
      rw [read] at ok
      obtain ⟨r, extracted, rest⟩ := bind_ok ok
      cases rest
      exact extractKiroImage_forwards extracted

theorem extractToolResultContent_forwards {content : Option Value} {acc : Extraction}
    {r : String × Extraction} (ok : extractToolResultContent env content acc = .ok r) :
    ∃ new, r.2.images = acc.images ++ new ∧
      List.Forall₂ (ImageOf env) (resultDecoded env content acc) new := by
  have none : r.2 = acc → resultDecoded env content acc = [] →
      ∃ new, r.2.images = acc.images ++ new ∧
        List.Forall₂ (ImageOf env) (resultDecoded env content acc) new := by
    intro same nothing
    rw [same, nothing]
    exact ⟨[], (List.append_nil _).symm, .nil⟩
  unfold extractToolResultContent at ok
  split at ok
  · cases ok
    exact none rfl rfl
  · obtain ⟨loop, folded, rest⟩ := bind_ok ok
    cases rest
    exact noted_forall₂ (fun _ _ _ => extractResultItem_forwards) folded
  · rename_i v no_string no_array
    cases ok
    refine none rfl ?_
    cases v with
    | array items => exact absurd rfl (no_array items)
    | _ => rfl
  · cases ok
    exact none rfl rfl

theorem processBlock_forwards {acc acc' : Extraction} {block : ContentBlock}
    (ok : processBlock env acc block = .ok acc') :
    ∃ new, acc'.images = acc.images ++ new ∧
      List.Forall₂ (ImageOf env) (blockDecoded env acc block) new := by
  have none : acc'.images = acc.images → ∃ new, acc'.images = acc.images ++ new ∧
      List.Forall₂ (ImageOf env) [] new :=
    fun same => ⟨[], by rw [same, List.append_nil], .nil⟩
  unfold processBlock at ok
  unfold blockDecoded
  split at ok
  · rename_i text
    cases ok
    rw [text]
    exact none rfl
  · rename_i image
    rw [image]
    cases read : block.source with
    | none =>
      rw [read] at ok
      cases ok
      exact none rfl
    | some source =>
      rw [read] at ok
      obtain ⟨r, extracted, rest⟩ := bind_ok ok
      cases rest
      exact extractKiroImage_forwards extracted
  · rename_i result
    rw [result]
    cases read : block.toolUseId with
    | none =>
      rw [read] at ok
      cases ok
      exact none rfl
    | some id =>
      rw [read] at ok
      obtain ⟨r, extracted, rest⟩ := bind_ok ok
      cases rest
      exact extractToolResultContent_forwards extracted
  · rename_i no_text no_image no_result
    cases ok
    split
    · rename_i image
      exact absurd image no_image
    · rename_i result
      exact absurd result no_result
    · exact none rfl

theorem processMessageContentDedup_forwards {content : Value} {seen : Option (List String)}
    {e : Extraction} (ok : processMessageContentDedup env content seen = .ok e) :
    List.Forall₂ (ImageOf env) (contentDecoded env content seen) e.images := by
  unfold processMessageContentDedup at ok
  split at ok
  · cases ok
    exact .nil
  · obtain ⟨new, images, answers⟩ := noted_forall₂ (fun _ _ _ => processBlock_forwards) ok
    rw [images, List.nil_append]
    exact answers
  · rename_i no_string no_array
    cases ok
    have none : contentDecoded env content seen = [] := by
      cases content with
      | array items => exact absurd rfl (no_array items)
      | _ => rfl
    rw [none]
    exact .nil

theorem mergeUserMessage_forwards {merge merge' : UserMerge} {msg : Message}
    (ok : mergeUserMessage env merge msg = .ok merge') :
    ∃ new, merge'.images = merge.images ++ new ∧
      List.Forall₂ (ImageOf env) (contentDecoded env msg.content (some merge.seen)) new := by
  obtain ⟨e, processed, rest⟩ := bind_ok ok
  cases rest
  exact ⟨e.images, rfl, processMessageContentDedup_forwards processed⟩

def historyImages (loop : HistoryLoop) : List KiroImage :=
  loop.history.flatMap imagesOf

theorem flushUser_forwards {modelId : String} {loop loop' : HistoryLoop}
    (ok : flushUser env modelId loop = .ok loop') :
    ∃ new, historyImages loop' = historyImages loop ++ new ∧
      List.Forall₂ (ImageOf env) (flushDecoded env loop) new := by
  unfold flushUser at ok
  split_ifs at ok with empty
  · cases ok
    have none : flushDecoded env loop = [] := by
      unfold flushDecoded
      rw [List.isEmpty_iff.mp empty]
      rfl
    rw [none]
    exact ⟨[], (List.append_nil _).symm, .nil⟩
  · obtain ⟨merged, merge, rest⟩ := bind_ok ok
    cases rest
    obtain ⟨state, folded, rest⟩ := bind_ok merge
    cases rest
    obtain ⟨new, images, answers⟩ := noted_forall₂ (fun _ _ _ => mergeUserMessage_forwards) folded
    refine ⟨new, ?_, answers⟩
    rw [List.nil_append] at images
    unfold historyImages
    rw [List.flatMap_append, List.flatMap_singleton, ← images]
    rfl

theorem flushAssistant_keeps {loop loop' : HistoryLoop}
    (ok : flushAssistant env mode loop = .ok loop') :
    historyImages loop' = historyImages loop ∧ flushDecoded env loop' = flushDecoded env loop := by
  unfold flushAssistant at ok
  split_ifs at ok with empty
  · cases ok
    exact ⟨rfl, rfl⟩
  · obtain ⟨merged, -, rest⟩ := bind_ok ok
    cases rest
    refine ⟨?_, rfl⟩
    unfold historyImages
    rw [List.flatMap_append, List.flatMap_singleton, imagesOf, List.append_nil]

theorem historyStep_forwards {modelId : String} {loop loop' : HistoryLoop} {msg : Message}
    (ok : historyStep env mode modelId loop msg = .ok loop') :
    ∃ new, historyImages loop' = historyImages loop ++ new ∧
      List.Forall₂ (ImageOf env) (stepDecoded env loop msg) new := by
  unfold historyStep at ok
  unfold stepDecoded
  split_ifs at ok ⊢ with user assistant
  · obtain ⟨flushed, flush, rest⟩ := bind_ok ok
    cases rest
    exact ⟨[], by rw [List.append_nil]; exact (flushAssistant_keeps flush).1, .nil⟩
  · obtain ⟨flushed, flush, rest⟩ := bind_ok ok
    cases rest
    obtain ⟨new, images, answers⟩ := flushUser_forwards flush
    exact ⟨new, images, answers⟩
  · cases ok
    exact ⟨[], (List.append_nil _).symm, .nil⟩

theorem closeHistory_forwards {modelId : String} {loop loop' : HistoryLoop}
    (ok : closeHistory env modelId loop = .ok loop') :
    ∃ new, historyImages loop' = historyImages loop ++ new ∧
      List.Forall₂ (ImageOf env) (flushDecoded env loop) new := by
  unfold closeHistory at ok
  split_ifs at ok with empty
  · have same : flushUser env modelId loop = .ok loop' := by
      rw [flushUser, if_pos empty]
      exact ok
    exact flushUser_forwards same
  · obtain ⟨flushed, flush, rest⟩ := bind_ok ok
    cases rest
    obtain ⟨new, images, answers⟩ := flushUser_forwards flush
    refine ⟨new, ?_, answers⟩
    rw [← images]
    unfold historyImages
    rw [List.flatMap_append, List.flatMap_singleton, imagesOf, List.append_nil]

theorem imagesOf_systemMessages (req : MessagesRequest) (modelId : String) :
    (systemMessages env req modelId).flatMap imagesOf = [] := by
  have pair : ∀ content, (systemPair env content modelId).flatMap imagesOf = [] := fun _ => rfl
  unfold systemMessages
  cases req.system with
  | none =>
    dsimp only
    split
    · exact pair _
    · rfl
  | some system =>
    dsimp only
    split
    · rfl
    · split
      · split
        · exact pair _
        · exact pair _
      · exact pair _

theorem buildHistory_forwards {req : MessagesRequest} {messages : List Message} {modelId : String}
    {map : ToolNameMap} {r : List Converter.Conversation.Message × ToolNameMap}
    (ok : buildHistory env mode req messages modelId map = .ok r) :
    List.Forall₂ (ImageOf env) (historyDecoded env mode req messages modelId map)
      (r.1.flatMap imagesOf) := by
  obtain ⟨loop, folded, rest⟩ := bind_ok ok
  obtain ⟨flushed, flush, rest⟩ := bind_ok rest
  obtain ⟨closed, close, rest⟩ := bind_ok rest
  cases rest
  obtain ⟨new, images, answers⟩ := noted_forall₂ (fun _ _ _ => historyStep_forwards) folded
  obtain ⟨same, waiting⟩ := flushAssistant_keeps flush
  obtain ⟨last, images', answers'⟩ := closeHistory_forwards close
  have all : closed.history.flatMap imagesOf = new ++ last := by
    have start : historyImages { history := systemMessages env req modelId, map := map } = [] :=
      imagesOf_systemMessages req modelId
    have ends : closed.history.flatMap imagesOf = historyImages flushed ++ last := images'
    rw [ends, same, images, start, List.nil_append]
  unfold historyDecoded
  dsimp only
  rw [folded, after_ok, flush, after_ok, all]
  exact List.rel_append answers (waiting ▸ answers')

theorem imagesOf_removeOrphanedToolUses (history : List Converter.Conversation.Message)
    (orphans : List String) :
    (removeOrphanedToolUses history orphans).flatMap imagesOf = history.flatMap imagesOf := by
  unfold removeOrphanedToolUses
  split_ifs
  · rfl
  · rw [List.flatMap_map]
    refine List.flatMap_congr fun m _ => ?_
    cases m with
    | user u => rfl
    | assistant a =>
      obtain ⟨a', removed, -⟩ := removeOrphans_assistant orphans a
      rw [removed]
      rfl

theorem forwarded_of_decoded {req : MessagesRequest} {result : ConversionResult}
    (ok : convertRequestWithMode env mode req = .ok result) :
    List.Forall₂ (ImageOf env) (decoded env mode req) (forwarded result) := by
  obtain ⟨modelId, model, rest⟩ := bind_ok ok
  obtain ⟨messages, trimmed, rest⟩ := bind_ok rest
  obtain ⟨conversationId, conversation, rest⟩ := bind_ok rest
  obtain ⟨last, is_last, rest⟩ := bind_ok rest
  obtain ⟨current, processed, rest⟩ := bind_ok rest
  obtain ⟨converted, tools, rest⟩ := bind_ok rest
  obtain ⟨built, build, rest⟩ := bind_ok rest
  cases rest
  unfold decoded forwarded
  rw [model, after_ok, trimmed, after_ok, conversation, after_ok, is_last, after_ok, processed,
    after_ok, tools, after_ok]
  refine List.rel_append (processMessageContentDedup_forwards processed) ?_
  dsimp only
  rw [imagesOf_removeOrphanedToolUses]
  exact buildHistory_forwards build

end KiroRs.Images.Budget
