/- Path: KiroRs/Stream/Telling
   source: src/anthropic/stream.rs
   digest: What the events of a stream tell the client, where the text and the thinking of its blocks
   come from, and what sending leaves of a context. -/

import KiroRs.Stream.TextFlow

set_option autoImplicit false
set_option relaxedAutoImplicit false

namespace KiroRs.Stream.Telling

open KiroRs.Lib
open KiroRs.Lib.Emits
open KiroRs.Lib.Segments
open KiroRs.Lib.Slots
open KiroRs.Lib.Text
open KiroRs.Converter.ToolNames (ToolNameMap)
open KiroRs.Stream.XmlFilter
open KiroRs.Stream.Events
open KiroRs.Stream.StateManager
open KiroRs.Stream.ThinkingTags
open KiroRs.Stream.ToolJson
open KiroRs.Stream.Context
open KiroRs.Stream.Context.StreamContext
open KiroRs.Stream.Replies
open KiroRs.Stream.ReplyOps
open KiroRs.Stream.ToolCalls
open KiroRs.Stream.CallReplies
open KiroRs.Stream.TextFlow
open KiroRs.Stream.BlockOrder (newContext)

/-- The text and the thinking of a client in the order of their deltas, the data of its redacted
thinking, and whether a text was started. -/
structure Told where
  text : Text := []
  thinking : Text := []
  redacted : List String := []
  started : Bool := false
  deriving DecidableEq

def Told.join (first later : Told) : Told where
  text := first.text ++ later.text
  thinking := first.thinking ++ later.thinking
  redacted := first.redacted ++ later.redacted
  started := first.started || later.started

def tells : SseEvent → Told
  | .contentBlockStart _ .text => { started := true }
  | .contentBlockStart _ (.redactedThinking data) => { redacted := [data] }
  | .contentBlockDelta _ (.textDelta text) => { text }
  | .contentBlockDelta _ (.thinkingDelta thinking) => { thinking }
  | _ => {}

def told (sent : List SseEvent) : Told := sent.foldr (fun e later => (tells e).join later) {}

def Mute (sent : List SseEvent) : Prop := ∀ e ∈ sent, tells e = {}

variable {env : StreamEnv} {c c' : StreamContext} {r : Sent} {text : Text}
variable {log sent : List SseEvent} {m m' : SseStateManager}

@[simp] theorem Told.empty_join (t : Told) : Told.join {} t = t := rfl

@[simp] theorem Told.join_empty (t : Told) : t.join {} = t := by
  simp [Told.join]

theorem Told.join_assoc (t₁ t₂ t₃ : Told) : (t₁.join t₂).join t₃ = t₁.join (t₂.join t₃) := by
  simp only [Told.join, List.append_assoc, Bool.or_assoc]

@[simp] theorem told_nil : told [] = {} := rfl

@[simp] theorem told_cons (e : SseEvent) (sent : List SseEvent) :
    told (e :: sent) = (tells e).join (told sent) := rfl

theorem told_append (first later : List SseEvent) :
    told (first ++ later) = (told first).join (told later) := by
  induction first with
  | nil => rfl
  | cons e first ih => rw [List.cons_append, told_cons, told_cons, ih, Told.join_assoc]

theorem Mute.told (mute : Mute sent) : told sent = {} := by
  induction sent with
  | nil => rfl
  | cons e sent ih =>
    rw [told_cons, mute e List.mem_cons_self, Told.empty_join]
    exact ih fun e' mem => mute e' (List.mem_cons_of_mem e mem)

theorem mute_nil : Mute [] := fun _ mem => absurd mem List.not_mem_nil

theorem mute_single {e : SseEvent} (nothing : tells e = {}) : Mute [e] :=
  List.forall_mem_singleton.mpr nothing

theorem Mute.append {later : List SseEvent} (first : Mute sent) (second : Mute later) :
    Mute (sent ++ later) := List.forall_mem_append.mpr ⟨first, second⟩

theorem mute_stop (m : SseStateManager) (index : Int) : Mute (m.handleContentBlockStop index).1 := by
  unfold SseStateManager.handleContentBlockStop
  split
  · split_ifs
    · exact mute_nil
    · exact mute_single rfl
  · exact mute_nil

theorem mute_delta (m : SseStateManager) (index : Int) {d : Delta}
    (nothing : tells (.contentBlockDelta index d) = {}) :
    Mute (m.handleContentBlockDelta index d).1 := by
  unfold SseStateManager.handleContentBlockDelta
  split
  · split_ifs
    · exact mute_nil
    · exact mute_single nothing
  · exact mute_nil

theorem mute_stopOpen (env : StreamEnv) (m : SseStateManager) (which : BlockType → Bool) :
    Mute (m.stopOpen env which).1 := by
  intro e mem
  obtain ⟨index, -, rfl⟩ := List.mem_map.mp mem
  rfl

theorem mute_start (env : StreamEnv) (m : SseStateManager) (index : Int) {content : ContentBlock}
    (nothing : tells (.contentBlockStart index content) = {}) :
    Mute (m.handleContentBlockStart env index content).1 := by
  have begin (m : SseStateManager) : Mute (m.beginBlock index content).1 := by
    unfold SseStateManager.beginBlock
    split
    · split_ifs
      · exact mute_nil
      · exact mute_single nothing
    · exact mute_single nothing
  unfold SseStateManager.handleContentBlockStart
  split_ifs
  · exact (mute_stopOpen env _ _).append (begin _)
  · exact begin m

theorem mute_stopThinking (c : StreamContext) : Mute c.stopThinking.1 := by
  unfold StreamContext.stopThinking
  split
  · exact Mute.append (List.forall_mem_cons.mpr ⟨rfl, mute_single rfl⟩) (mute_stop _ _)
  · exact mute_nil

theorem mute_closeReasoning (c : StreamContext) : Mute c.closeReasoningIfOpen.1 := by
  unfold closeReasoningIfOpen
  split_ifs
  · exact mute_nil
  · exact (mute_stopThinking c).append mute_nil

theorem mute_closeText (c : StreamContext) : Mute c.closeTextIfOpen.1 := by
  unfold closeTextIfOpen
  split
  · exact mute_stop _ _
  · exact mute_nil

theorem mute_openReasoning (env : StreamEnv) (c : StreamContext) : Mute (c.openReasoning env).1 := by
  unfold openReasoning
  exact (mute_closeText c).append (mute_start env _ _ rfl)

theorem mute_emit (env : StreamEnv) (c : StreamContext) (t : CompletedToolUse) :
    Mute (c.emitCompletedToolUse env t).1 := by
  have filled (index : Int) (c : StreamContext) : Mute (fillCall env t index c).1 :=
    (mute_delta _ index rfl).append (mute_stop _ index)
  rw [emitCompletedToolUse_eq]
  split
  · exact (mute_start env _ _ rfl).append (filled _ _)
  · exact (mute_start env _ _ rfl).append (filled _ _)

theorem mute_sendFinal (env : StreamEnv) (c : StreamContext) : Mute (c.sendFinal env).1 := by
  have delta (m : SseStateManager) (usage : Usage) : Mute (m.sendMessageDelta usage).1 := by
    unfold SseStateManager.sendMessageDelta
    split_ifs
    · exact mute_nil
    · exact mute_single rfl
  have stop (m : SseStateManager) : Mute m.sendMessageStop.1 := by
    unfold SseStateManager.sendMessageStop
    split_ifs
    · exact mute_nil
    · exact mute_single rfl
  exact ((mute_stopOpen env _ _).append (delta _ _)).append (stop _)

def Textual (e : SseEvent) : Prop :=
  (tells e).text = deltaText e ∧ (tells e).thinking = [] ∧ (tells e).redacted = []

theorem told_of_textual (textual : ∀ e ∈ sent, Textual e) :
    told sent = { text := shown sent, started := (told sent).started } := by
  induction sent with
  | nil => rfl
  | cons e sent ih =>
    obtain ⟨same, no_thinking, no_data⟩ := textual e List.mem_cons_self
    have later := ih fun e' mem => textual e' (List.mem_cons_of_mem e mem)
    rw [told_cons, later]
    unfold Told.join
    dsimp only
    rw [same, no_thinking, no_data]
    rfl

theorem textual_start (env : StreamEnv) (m : SseStateManager) (index : Int) :
    ∀ e ∈ (m.handleContentBlockStart env index .text).1, Textual e := by
  intro e mem
  unfold SseStateManager.handleContentBlockStart SseStateManager.beginBlock at mem
  rw [if_neg (by decide)] at mem
  split at mem
  · split_ifs at mem
    · cases mem
    · rw [List.mem_singleton.mp mem]
      exact ⟨rfl, rfl, rfl⟩
  · rw [List.mem_singleton.mp mem]
    exact ⟨rfl, rfl, rfl⟩

theorem textual_delta (m : SseStateManager) (index : Int) (text : Text) :
    ∀ e ∈ (m.handleContentBlockDelta index (.textDelta text)).1, Textual e := by
  intro e mem
  unfold SseStateManager.handleContentBlockDelta at mem
  split at mem
  · split_ifs at mem
    · cases mem
    · rw [List.mem_singleton.mp mem]
      exact ⟨rfl, rfl, rfl⟩
  · cases mem

theorem told_createText (env : StreamEnv) {blocks : List Reply} (h : Known blocks c) (text : Text)
    (fits : Fits (after blocks (c.createTextDeltaEvents env text).1)) :
    ∃ started, told (c.createTextDeltaEvents env text).1 = { text, started } := by
  have textual : ∀ e ∈ (c.createTextDeltaEvents env text).1, Textual e := by
    intro e mem
    rcases List.mem_append.mp mem with started | delta
    · unfold ensureText at started
      split at started
      · cases started
      · exact textual_start env _ _ e started
    · dsimp only at delta
      split at delta
      · exact textual_delta _ _ text e delta
      · cases delta
  have shows := shown_createText env h text fits
  have parts := told_of_textual textual
  rw [shows] at parts
  exact ⟨_, parts⟩

theorem textBlockIndex_createText (env : StreamEnv) (c : StreamContext) (text : Text) :
    ∃ i, (c.createTextDeltaEvents env text).2.textBlockIndex = some i := by
  have ensured : ∃ i, (c.ensureText env).2.textBlockIndex = some i := by
    unfold ensureText
    cases found : c.openTextIndex with
    | some i => exact ⟨i, openTextIndex_eq_some found⟩
    | none => exact ⟨_, rfl⟩
  obtain ⟨i, index⟩ := ensured
  refine ⟨i, ?_⟩
  unfold createTextDeltaEvents Emit.andThen
  dsimp only
  rw [index]
  exact index

def startOf : SseEvent → Option ContentBlock
  | .contentBlockStart _ content => some content
  | _ => none

theorem contents_after (blocks : List Reply) (sent : List SseEvent) :
    (after blocks sent).map Slot.content = blocks.map Slot.content ++ sent.filterMap startOf := by
  have kept (blocks : List Reply) (index : Int) (item : Option Delta) :
      (send blocks index item).map Slot.content = blocks.map Slot.content := by
    unfold send
    rw [List.map_map]
    refine List.map_congr_left fun b _ => ?_
    dsimp only [Function.comp_apply]
    split_ifs <;> rfl
  induction sent generalizing blocks with
  | nil => exact (List.append_nil _).symm
  | cons e sent ih =>
    rw [after_cons, ih]
    cases e with
    | contentBlockStart index content =>
      show (blocks ++ [Slot.fresh index content]).map Slot.content ++ _ = _
      rw [List.map_append, List.append_assoc]
      rfl
    | contentBlockDelta index delta =>
      show (send blocks index (some delta)).map Slot.content ++ _ = _
      rw [kept]
      rfl
    | contentBlockStop index =>
      show (send blocks index none).map Slot.content ++ _ = _
      rw [kept]
      rfl
    | messageStart _ _ _ | messageDelta _ _ | messageStop | error _ _ => rfl

/-- A text block that the client has was started. -/
theorem started_of_has {i : Int} (has : Has (received log) i .text) : (told log).started = true := by
  obtain ⟨b, mem, -, type⟩ := has
  have listed : b.content ∈ log.filterMap startOf := by
    have all := contents_after [] log
    rw [List.map_nil, List.nil_append] at all
    rw [← all]
    exact List.mem_map_of_mem mem
  have text : b.content = .text := by
    cases content : b.content with
    | text => rfl
    | thinking | redactedThinking _ | toolUse _ _ =>
      rw [content] at type
      cases type
  rw [text] at listed
  obtain ⟨e, sent, start⟩ := List.mem_filterMap.mp listed
  obtain ⟨front, back, rfl⟩ := List.append_of_mem sent
  have begins : (tells e).started = true := by
    cases e with
    | contentBlockStart index content =>
      cases start
      rfl
    | messageStart _ _ _ | contentBlockDelta _ _ | contentBlockStop _ | messageDelta _ _
    | messageStop | error _ _ => cases start
  rw [told_append, told_cons]
  show ((told front).started || ((tells e).started || (told back).started)) = true
  rw [begins, Bool.true_or, Bool.or_true]

/-- The blocks that are no thinking: texts, redacted thinking and calls. -/
theorem hasNonThinkingBlocks_eq (tracks : Tracks (received log) m) :
    m.hasNonThinkingBlocks =
      ((told log).started || !(told log).redacted.isEmpty || log.any isCall) := by
  have contents := contents_after [] log
  rw [List.map_nil, List.nil_append] at contents
  have blocks : m.hasNonThinkingBlocks =
      ((received log).map Slot.content).any fun content => content.type != .thinking := by
    unfold SseStateManager.hasNonThinkingBlocks
    rw [tracks.known, List.any_map, List.any_map]
    rfl
  unfold received at blocks
  rw [blocks, contents]
  clear blocks contents tracks
  induction log with
  | nil => rfl
  | cons e log ih =>
    rw [told_cons, List.any_cons]
    cases e with
    | contentBlockStart index content =>
      rw [List.filterMap_cons_some (show startOf (.contentBlockStart index content) = some content
        from rfl), List.any_cons, ih]
      cases content with
      | text | thinking => rfl
      | redactedThinking data =>
        show true = ((told log).started || true || log.any isCall)
        rw [Bool.or_true, Bool.true_or]
      | toolUse id name =>
        show true = ((told log).started || !(told log).redacted.isEmpty || true)
        rw [Bool.or_true]
    | contentBlockDelta index delta =>
      rw [List.filterMap_cons_none rfl, ih]
      cases delta <;> rfl
    | messageStart _ _ _ | contentBlockStop _ | messageDelta _ _ | messageStop | error _ _ =>
      rw [List.filterMap_cons_none rfl, ih]
      rfl

/-- Nothing of what the last events say was changed. -/
structure Steady (m m' : SseStateManager) : Prop where
  reason : m'.stopReason = m.stopReason
  tooled : m'.hasToolUse = m.hasToolUse
  unsent : m'.messageDeltaSent = m.messageDeltaSent

theorem Steady.refl (m : SseStateManager) : Steady m m := ⟨rfl, rfl, rfl⟩

theorem Steady.trans {m₁ m₂ m₃ : SseStateManager} (first : Steady m₁ m₂) (second : Steady m₂ m₃) :
    Steady m₁ m₃ :=
  ⟨second.reason.trans first.reason, second.tooled.trans first.tooled,
    second.unsent.trans first.unsent⟩

theorem steady_delta (m : SseStateManager) (index : Int) (d : Delta) :
    Steady m (m.handleContentBlockDelta index d).2 := by
  unfold SseStateManager.handleContentBlockDelta
  split
  · split_ifs <;> exact Steady.refl m
  · exact Steady.refl m

theorem steady_stop (m : SseStateManager) (index : Int) :
    Steady m (m.handleContentBlockStop index).2 := by
  unfold SseStateManager.handleContentBlockStop
  split
  · split_ifs <;> exact ⟨rfl, rfl, rfl⟩
  · exact Steady.refl m

theorem steady_start (env : StreamEnv) (m : SseStateManager) (index : Int) (content : ContentBlock)
    (noted : content.type = .toolUse → m.hasToolUse = true) :
    Steady m (m.handleContentBlockStart env index content).2 := by
  have begin (m : SseStateManager) : Steady m (m.beginBlock index content).2 := by
    unfold SseStateManager.beginBlock
    split
    · split_ifs <;> exact ⟨rfl, rfl, rfl⟩
    · exact ⟨rfl, rfl, rfl⟩
  unfold SseStateManager.handleContentBlockStart
  split_ifs with tool
  · have stopped : Steady m (SseStateManager.stopOpen env { m with hasToolUse := true }
        (· == BlockType.text)).2 := ⟨rfl, (noted tool).symm, rfl⟩
    exact stopped.trans (begin _)
  · exact begin m

/-- What the functions for text, calls and the ends of blocks leave of a context. -/
structure Keeps (c c' : StreamContext) : Prop where
  enabled : c'.thinkingEnabled = c.thinkingEnabled
  inside : c'.inThinkingBlock = c.inThinkingBlock
  strips : c'.stripTextAfterThinkingBoundary = c.stripTextAfterThinkingBoundary
  index : c'.thinkingBlockIndex = c.thinkingBlockIndex
  reasoning : c'.reasoningBlockOpen = true → c.reasoningBlockOpen = true
  manager : Steady c.stateManager c'.stateManager

theorem Keeps.refl (c : StreamContext) : Keeps c c := ⟨rfl, rfl, rfl, rfl, id, Steady.refl _⟩

theorem Keeps.trans {c₁ c₂ c₃ : StreamContext} (first : Keeps c₁ c₂) (second : Keeps c₂ c₃) :
    Keeps c₁ c₃ :=
  ⟨second.enabled.trans first.enabled, second.inside.trans first.inside,
    second.strips.trans first.strips, second.index.trans first.index,
    fun still => first.reasoning (second.reasoning still), first.manager.trans second.manager⟩

theorem keeps_manager (steady : Steady c.stateManager m) :
    Keeps c { c with stateManager := m } := ⟨rfl, rfl, rfl, rfl, id, steady⟩

theorem keeps_createText (env : StreamEnv) (c : StreamContext) (text : Text) :
    Keeps c (c.createTextDeltaEvents env text).2 := by
  have steady : Steady c.stateManager (c.createTextDeltaEvents env text).2.stateManager := by
    have ensured : Steady c.stateManager (c.ensureText env).2.stateManager := by
      unfold ensureText
      split
      · exact Steady.refl _
      · have taken : Steady c.stateManager c.stateManager.takeIndex.2 := ⟨rfl, rfl, rfl⟩
        exact taken.trans (steady_start env _ _ .text (fun never => by cases never))
    refine ensured.trans ?_
    unfold createTextDeltaEvents Emit.andThen
    dsimp only
    split
    · exact steady_delta _ _ _
    · exact Steady.refl _
  obtain ⟨m, t, eq⟩ := createTextDeltaEvents_frame env c text
  rw [eq] at steady ⊢
  exact ⟨rfl, rfl, rfl, rfl, id, steady⟩

theorem keeps_stopThinking (c : StreamContext) : Keeps c c.stopThinking.2 := by
  unfold StreamContext.stopThinking
  split
  · exact keeps_manager (steady_stop _ _)
  · exact Keeps.refl c

theorem keeps_closeReasoning (c : StreamContext) : Keeps c c.closeReasoningIfOpen.2 := by
  unfold closeReasoningIfOpen
  split_ifs
  · exact Keeps.refl c
  · refine (keeps_stopThinking c).trans ?_
    exact ⟨rfl, rfl, rfl, rfl, (fun never => by cases never), Steady.refl _⟩

theorem keeps_closeText (c : StreamContext) : Keeps c c.closeTextIfOpen.2 := by
  unfold closeTextIfOpen
  split
  · exact keeps_manager (steady_stop _ _)
  · exact Keeps.refl c

theorem keeps_sendRedacted (env : StreamEnv) (redacted : String) (c : StreamContext) :
    Keeps c (sendRedacted env redacted c).2 := by
  have taken : Steady c.stateManager c.stateManager.takeIndex.2 := ⟨rfl, rfl, rfl⟩
  have started := taken.trans (steady_start env c.stateManager.takeIndex.2
    c.stateManager.takeIndex.1 (.redactedThinking redacted) (fun never => by cases never))
  exact ⟨rfl, rfl, rfl, rfl, id, started.trans (steady_stop _ _)⟩

theorem keeps_emit (env : StreamEnv) (c : StreamContext) (t : CompletedToolUse)
    (noted : c.stateManager.hasToolUse = true) : Keeps c (c.emitCompletedToolUse env t).2 := by
  have steady : Steady c.stateManager (c.emitCompletedToolUse env t).2.stateManager := by
    have filled (m : SseStateManager) (index : Int) (json : String) : Steady m
        ((m.handleContentBlockDelta index (.inputJsonDelta json)).2.handleContentBlockStop
          index).2 := (steady_delta m index _).trans (steady_stop _ index)
    unfold emitCompletedToolUse
    dsimp only
    split
    · exact (steady_start env _ _ _ fun _ => noted).trans (filled _ _ _)
    · have taken : Steady c.stateManager c.stateManager.takeIndex.2 := ⟨rfl, rfl, rfl⟩
      exact (taken.trans (steady_start env _ _ _ fun _ => noted)).trans (filled _ _ _)
  obtain ⟨m, indices, tokens, eq⟩ := emit_frame env c t
  rw [eq] at steady ⊢
  exact ⟨rfl, rfl, rfl, rfl, id, steady⟩

def itemText : Option Delta → Text
  | some (.textDelta text) => text
  | some (.thinkingDelta thinking) => thinking
  | _ => []

def textsOf (blocks : List Reply) : Text := blocks.flatMap fun b => b.items.flatMap itemText

/-- What the blocks of a type say, one after the other. -/
def contentOf (type : BlockType) (blocks : List Reply) : Text := textsOf (ofType type blocks)

def IsLast (type : BlockType) (blocks : List Reply) (index : Int) : Prop :=
  ∃ front b, ofType type blocks = front ++ [b] ∧ b.key = index

variable {blocks : List Reply} {type : BlockType} {index : Int} {item : Option Delta}

theorem textsOf_append (front back : List Reply) :
    textsOf (front ++ back) = textsOf front ++ textsOf back := List.flatMap_append

theorem textsOf_send_nothing (nothing : itemText item = []) :
    textsOf (send blocks index item) = textsOf blocks := by
  unfold textsOf send
  rw [List.flatMap_map]
  refine List.flatMap_congr fun b _ => ?_
  split_ifs
  · rw [Slot.add_items, List.flatMap_append, List.flatMap_singleton, nothing, List.append_nil]
  · rfl

theorem contentOf_send_nothing (nothing : itemText item = []) :
    contentOf type (send blocks index item) = contentOf type blocks := by
  unfold contentOf
  rw [ofType_send, textsOf_send_nothing nothing]

theorem contentOf_send (nodup : (keys blocks).Nodup) (last : IsLast type blocks index) :
    contentOf type (send blocks index item) = contentOf type blocks ++ itemText item := by
  obtain ⟨front, b, eq, rfl⟩ := last
  have sub : (ofType type blocks).Sublist blocks := List.filter_sublist
  have own : (keys (front ++ [b])).Nodup := by
    rw [← eq]
    exact (sub.map _).nodup nodup
  have texts : textsOf [b.add item] = textsOf [b] ++ itemText item := by
    unfold textsOf
    rw [List.flatMap_singleton, List.flatMap_singleton, Slot.add_items, List.flatMap_append,
      List.flatMap_singleton]
  unfold contentOf
  rw [ofType_send, eq, send_last own, textsOf_append, textsOf_append, texts, List.append_assoc]

theorem contentOf_fresh (content : ContentBlock) :
    contentOf type (blocks ++ [Slot.fresh index content]) = contentOf type blocks := by
  unfold contentOf
  rw [ofType_append, textsOf_append]
  have nothing : textsOf (ofType type [(Slot.fresh index content : Reply)]) = [] := by
    unfold ofType
    rw [ofKind_cons]
    split_ifs <;> rfl
  rw [nothing, List.append_nil]

theorem isLast_fresh (content : ContentBlock) :
    IsLast content.type (blocks ++ [Slot.fresh index content]) index := by
  refine ⟨ofType content.type blocks, Slot.fresh index content, ?_, rfl⟩
  have own : ofType content.type [(Slot.fresh index content : Reply)] =
      [Slot.fresh index content] := by
    unfold ofType
    rw [ofKind_cons]
    exact if_pos (beq_self_eq_true _)
  rw [ofType_append, own]

theorem IsLast.of_ofType {blocks' : List Reply} (last : IsLast type blocks index)
    (same : ofType type blocks' = ofType type blocks) : IsLast type blocks' index := by
  obtain ⟨front, b, eq, key⟩ := last
  exact ⟨front, b, same.trans eq, key⟩

theorem IsLast.send (last : IsLast type blocks index) (key' : Int) :
    IsLast type (send blocks key' item) index := by
  obtain ⟨front, b, eq, key⟩ := last
  have tail : Slots.send [b] key' item = [if b.key = key' then b.add item else b] := rfl
  refine ⟨Slots.send front key' item, if b.key = key' then b.add item else b, ?_, ?_⟩
  · rw [ofType_send, eq, send_append, tail]
  · split_ifs
    · exact key
    · exact key

theorem IsLast.after (last : IsLast type blocks index)
    (unstarted : ∀ e ∈ sent, ∀ content, startOf e = some content → content.type ≠ type) :
    IsLast type (after blocks sent) index := by
  induction sent generalizing blocks with
  | nil => exact last
  | cons e sent ih =>
    refine ih ?_ fun e' mem => unstarted e' (List.mem_cons_of_mem e mem)
    cases e with
    | contentBlockStart i content =>
      exact last.of_ofType (ofType_fresh_other (unstarted _ List.mem_cons_self content rfl))
    | contentBlockDelta i delta => exact last.send i
    | contentBlockStop i => exact last.send i
    | messageStart _ _ _ | messageDelta _ _ | messageStop | error _ _ => exact last

theorem contentOf_mute (mute : Mute sent) :
    contentOf type (after blocks sent) = contentOf type blocks := by
  induction sent generalizing blocks with
  | nil => rfl
  | cons e sent ih =>
    have later : contentOf type (after (receive blocks e) sent) = contentOf type (receive blocks e) :=
      ih fun e' mem => mute e' (List.mem_cons_of_mem e mem)
    have here := mute e List.mem_cons_self
    rw [after_cons, later]
    cases e with
    | contentBlockStart i content => exact contentOf_fresh content
    | contentBlockDelta i delta =>
      refine contentOf_send_nothing ?_
      cases delta with
      | textDelta text => exact congrArg Told.text here
      | thinkingDelta thinking => exact congrArg Told.thinking here
      | signatureDelta _ | inputJsonDelta _ => rfl
    | contentBlockStop i => exact contentOf_send_nothing rfl
    | messageStart _ _ _ | messageDelta _ _ | messageStop | error _ _ => rfl

/-- A context sends its text and its thinking to the last blocks of these types. -/
structure Aims (blocks : List Reply) (c : StreamContext) : Prop where
  text : ∀ i, c.textBlockIndex = some i → IsLast .text blocks i
  thinking : ∀ i, c.thinkingBlockIndex = some i → IsLast .thinking blocks i

theorem Aims.same (aims : Aims blocks c) (text : c'.textBlockIndex = c.textBlockIndex)
    (thinking : c'.thinkingBlockIndex = c.thinkingBlockIndex) : Aims blocks c' :=
  ⟨fun i own => aims.text i (text.symm.trans own),
    fun i own => aims.thinking i (thinking.symm.trans own)⟩

theorem Mute.unstarted_text (mute : Mute sent) :
    ∀ e ∈ sent, ∀ content, startOf e = some content → content.type ≠ .text := by
  intro e mem content start text
  have here := mute e mem
  cases e with
  | contentBlockStart i own =>
    cases start
    cases content with
    | text => cases here
    | thinking | redactedThinking _ | toolUse _ _ => cases text
  | messageStart _ _ _ | contentBlockDelta _ _ | contentBlockStop _ | messageDelta _ _
  | messageStop | error _ _ => cases start

theorem Aims.mute (aims : Aims blocks c) (mute : Mute sent)
    (unstarted : ∀ e ∈ sent, ∀ content, startOf e = some content → content.type ≠ .thinking)
    (text : c'.textBlockIndex = c.textBlockIndex)
    (thinking : c'.thinkingBlockIndex = c.thinkingBlockIndex) : Aims (after blocks sent) c' :=
  ⟨fun i own => (aims.text i (text.symm.trans own)).after mute.unstarted_text,
    fun i own => (aims.thinking i (thinking.symm.trans own)).after unstarted⟩

/-- A context whose text goes to an open block, the last one of the text blocks. -/
structure Writes (blocks : List Reply) (c : StreamContext) (i : Int) : Prop where
  own : c.textBlockIndex = some i
  running : c.stateManager.isBlockOpenOfType i .text = true
  nodup : (keys blocks).Nodup
  aims : Aims blocks c

/-- The open text block, or a new one behind all blocks. -/
theorem writes_ensureText (env : StreamEnv) (known : Known blocks c) (aims : Aims blocks c)
    (fits : Fits (after blocks (c.ensureText env).1)) :
    ∃ i, Writes (after blocks (c.ensureText env).1) (c.ensureText env).2 i ∧
      contentOf .text (after blocks (c.ensureText env).1) = contentOf .text blocks := by
  cases found : c.openTextIndex with
  | some i =>
    have same : c.ensureText env = quiet c := by
      unfold ensureText
      rw [found]
    obtain ⟨-, is_open⟩ := Option.filter_eq_some_iff.mp found
    rw [same]
    exact ⟨i, ⟨openTextIndex_eq_some found, is_open, known.tracks.nodup, aims⟩, rfl⟩
  | none =>
    let fresh : StreamContext := { c with
      stateManager := c.stateManager.takeIndex.2
      textBlockIndex := some c.stateManager.takeIndex.1 }
    have started : c.ensureText env = fresh.startBlock env c.stateManager.takeIndex.1 .text := by
      unfold ensureText
      rw [found]
      rfl
    rw [started] at fits ⊢
    obtain ⟨m', eq, tracks⟩ := startBlock_next env known.tracks (d := fresh) rfl .text
      (fun same => by cases same) fits
    have entry_new := tracks.block (b := Slot.fresh c.stateManager.nextBlockIndex .text)
      (List.mem_append_right _ List.mem_cons_self)
    rw [eq]
    refine ⟨c.stateManager.takeIndex.1, ⟨rfl, ?_, tracks.nodup, ?_, ?_⟩, contentOf_fresh .text⟩
    · unfold SseStateManager.isBlockOpenOfType
      exact congrArg (Option.any _) entry_new
    · intro i own
      cases own
      exact isLast_fresh .text
    · intro i own
      exact (aims.thinking i own).of_ofType (ofType_fresh_other (fun same => by cases same))

/-- Text comes behind the text of the text blocks, whether the last one is open or not. -/
theorem aims_createText (env : StreamEnv) (known : Known blocks c) (aims : Aims blocks c)
    (text : Text) (fits : Fits (after blocks (c.createTextDeltaEvents env text).1)) :
    contentOf .text (after blocks (c.createTextDeltaEvents env text).1) =
      contentOf .text blocks ++ text ∧
    Aims (after blocks (c.createTextDeltaEvents env text).1)
      (c.createTextDeltaEvents env text).2 := by
  unfold createTextDeltaEvents at fits ⊢
  rw [after_andThen] at fits ⊢
  obtain ⟨i, writes, content⟩ := writes_ensureText env known aims fits.before
  rw [← content]
  generalize c.ensureText env = r at writes
  unfold Emit.andThen
  dsimp only
  rw [writes.own]
  have is_open := writes.running
  unfold SseStateManager.isBlockOpenOfType at is_open
  obtain ⟨state, found, running⟩ := (Option.any_eq_true _ _).mp is_open
  rw [Bool.and_eq_true, Bool.and_eq_true, Bool.not_eq_true'] at running
  dsimp only [StreamContext.manage]
  rw [delta_of_open found running.1.1 running.1.2]
  refine ⟨contentOf_send writes.nodup (writes.aims.text i writes.own), ?_, ?_⟩
  · intro j own
    exact (writes.aims.text j own).send i
  · intro j own
    exact (writes.aims.thinking j own).send i

theorem closeTextIfOpen_frame (c : StreamContext) :
    ∃ m, c.closeTextIfOpen.2 = { c with stateManager := m } := by
  unfold closeTextIfOpen
  split
  · exact ⟨_, rfl⟩
  · exact ⟨c.stateManager, rfl⟩

theorem Aims.effect {touched : BlockType → Bool} (aims : Aims blocks c)
    (effect : Effect touched blocks r) (mute : Mute r.1) (untouched : touched .thinking = false)
    (text : r.2.textBlockIndex = c.textBlockIndex)
    (thinking : r.2.thinkingBlockIndex = c.thinkingBlockIndex) : Aims (after blocks r.1) r.2 :=
  ⟨fun i own => (aims.text i (text.symm.trans own)).after mute.unstarted_text,
    fun i own => (aims.thinking i (thinking.symm.trans own)).of_ofType
      (effect.keeps .thinking untouched)⟩

theorem aims_closeText (known : Known blocks c) (aims : Aims blocks c)
    (fits : Fits (after blocks c.closeTextIfOpen.1)) :
    Aims (after blocks c.closeTextIfOpen.1) c.closeTextIfOpen.2 := by
  obtain ⟨m, eq⟩ := closeTextIfOpen_frame c
  refine aims.effect (does_closeText known fits) (mute_closeText c) rfl ?_ ?_
  · rw [eq]
  · rw [eq]

theorem aims_emit (env : StreamEnv) (known : Known blocks c) (aims : Aims blocks c)
    (t : CompletedToolUse) (fits : Fits (after blocks (c.emitCompletedToolUse env t).1)) :
    Aims (after blocks (c.emitCompletedToolUse env t).1) (c.emitCompletedToolUse env t).2 := by
  obtain ⟨m, indices, tokens, eq⟩ := emit_frame env c t
  refine aims.effect (does_emit env known t fits) (mute_emit env c t) rfl ?_ ?_
  · rw [eq]
  · rw [eq]

/-- The end of reasoning starts nothing. -/
theorem aims_closeReasoning (aims : Aims blocks c) :
    Aims (after blocks c.closeReasoningIfOpen.1) c.closeReasoningIfOpen.2 := by
  have stops (m : SseStateManager) (i : Int) : ∀ e ∈ (m.handleContentBlockStop i).1,
      startOf e = none := by
    intro e mem
    unfold SseStateManager.handleContentBlockStop at mem
    split at mem
    · split_ifs at mem
      · cases mem
      · rw [List.mem_singleton.mp mem]
        rfl
    · cases mem
  have startless : ∀ e ∈ c.closeReasoningIfOpen.1, startOf e = none := by
    intro e mem
    unfold closeReasoningIfOpen at mem
    split_ifs at mem
    · cases mem
    · rw [show (c.stopThinking.andThen _).1 = c.stopThinking.1 ++ [] from rfl,
        List.append_nil] at mem
      unfold stopThinking at mem
      split at mem
      · rcases List.mem_append.mp mem with delta | stop
        · rcases List.mem_cons.mp delta with rfl | signature
          · rfl
          · rw [List.mem_singleton.mp signature]
            rfl
        · exact stops _ _ e stop
      · cases mem
  obtain ⟨m, extracted, eq⟩ := closeReasoningIfOpen_frame c
  refine aims.mute (mute_closeReasoning c) ?_ ?_ ?_
  · intro e mem content start
    rw [startless e mem] at start
    cases start
  · rw [eq]
  · rw [eq]

theorem aims_startThinking (env : StreamEnv) (tracks : Tracks blocks c.stateManager)
    (aims : Aims blocks c) (taken : c'.stateManager = c.stateManager.takeIndex.2)
    (text : c'.textBlockIndex = c.textBlockIndex)
    (own : c'.thinkingBlockIndex = some c.stateManager.takeIndex.1)
    (fits : Fits (after blocks (c'.startBlock env c.stateManager.takeIndex.1 .thinking).1)) :
    Aims (after blocks (c'.startBlock env c.stateManager.takeIndex.1 .thinking).1)
      (c'.startBlock env c.stateManager.takeIndex.1 .thinking).2 := by
  obtain ⟨m', eq, -⟩ := startBlock_next env tracks taken .thinking (fun same => by cases same) fits
  rw [eq]
  constructor
  · intro i same
    exact (aims.text i (text ▸ same)).of_ofType (ofType_fresh_other (fun same => by cases same))
  · intro i same
    cases own.symm.trans same
    exact isLast_fresh .thinking

/-- Reasoning goes to the last block of thinking, or a new one. -/
theorem aims_openReasoning (env : StreamEnv) (known : Known blocks c) (aims : Aims blocks c)
    (fits : Fits (after blocks (c.openReasoning env).1)) :
    Aims (after blocks (c.openReasoning env).1) (c.openReasoning env).2 := by
  unfold openReasoning at fits ⊢
  rw [after_andThen] at fits ⊢
  have known_closed := (does_closeText known fits.before).known
  have closed := aims_closeText known aims fits.before
  generalize c.closeTextIfOpen = r at known_closed closed fits
  unfold Emit.andThen
  dsimp only at fits ⊢
  cases reused : r.2.thinkingBlockIndex.filter fun i =>
      r.2.stateManager.isBlockOpenOfType i .thinking with
  | some i =>
    have own := Option.eq_some_of_filter_eq_some reused
    obtain ⟨b, mem, key, -⟩ := known_closed.thinking i own
    dsimp only
    rw [startBlock_again env ?_ mem key (by decide)]
    · exact closed.same rfl own.symm
    · exact known_closed.tracks
  | none =>
    rw [reused] at fits
    exact aims_startThinking env known_closed.tracks closed rfl rfl rfl fits

theorem aims_sendThinking (known : Known blocks c) (aims : Aims blocks c) {i : Int}
    (own : c.thinkingBlockIndex = some i) (text : Text) :
    contentOf .thinking (after blocks (c.sendThinking text).1) =
      contentOf .thinking blocks ++ text ∧
    Aims (after blocks (c.sendThinking text).1) (c.sendThinking text).2 := by
  unfold sendThinking
  rw [own]
  refine ⟨contentOf_send known.tracks.nodup (aims.thinking i own), ?_, ?_⟩
  · intro j own_j
    exact (aims.text j own_j).send i
  · intro j own_j
    exact (aims.thinking j own_j).send i

theorem contentOf_kept {touched : BlockType → Bool} (effect : Effect touched blocks r)
    (untouched : touched type = false) :
    contentOf type (after blocks r.1) = contentOf type blocks :=
  congrArg textsOf (effect.keeps type untouched)

theorem aims_sendRedacted (env : StreamEnv) (known : Known blocks c) (aims : Aims blocks c)
    (redacted : String) (fits : Fits (after blocks (sendRedacted env redacted c).1)) :
    Aims (after blocks (sendRedacted env redacted c).1) (sendRedacted env redacted c).2 := by
  have effect := does_sendRedacted env known redacted fits
  have frame : ∃ m, (sendRedacted env redacted c).2 = { c with stateManager := m } := ⟨_, rfl⟩
  obtain ⟨m, eq⟩ := frame
  constructor
  · intro i own
    rw [eq] at own
    exact (aims.text i own).of_ofType (effect.keeps .text rfl)
  · intro i own
    rw [eq] at own
    exact (aims.thinking i own).of_ofType (effect.keeps .thinking rfl)

end KiroRs.Stream.Telling
