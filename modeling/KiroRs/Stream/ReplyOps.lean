/- Path: KiroRs/Stream/ReplyOps
   source: src/anthropic/stream.rs
   digest: What the functions of the context do to the client's blocks: which types of blocks they
   touch, and that the context keeps the indices of blocks that are there. -/

import KiroRs.Stream.Context
import KiroRs.Stream.Replies

set_option autoImplicit false
set_option relaxedAutoImplicit false

namespace KiroRs.Stream.ReplyOps

open KiroRs.Lib
open KiroRs.Lib.Emits
open KiroRs.Lib.Slots
open KiroRs.Lib.Text
open KiroRs.Stream.XmlFilter
open KiroRs.Stream.Events
open KiroRs.Stream.StateManager
open KiroRs.Stream.ThinkingTags
open KiroRs.Stream.ToolJson
open KiroRs.Stream.Context
open KiroRs.Stream.Context.StreamContext
open KiroRs.Stream.Replies

variable {env : StreamEnv} {blocks : List Reply} {c c' : StreamContext} {r : Sent}

def ofType (type : BlockType) (blocks : List Reply) : List Reply :=
  ofKind (fun content => content.type == type) blocks

theorem mem_ofType {type : BlockType} {b : Reply} :
    b ∈ ofType type blocks ↔ b ∈ blocks ∧ b.content.type = type := by
  unfold ofType
  rw [mem_ofKind, beq_iff_eq]

theorem ofType_append (type : BlockType) (front back : List Reply) :
    ofType type (front ++ back) = ofType type front ++ ofType type back := ofKind_append ..

theorem ofType_send {type : BlockType} {index : Int} {item : Option Delta} :
    ofType type (send blocks index item) = send (ofType type blocks) index item := ofKind_send _

/-- The context's indices are those of blocks of the right types. -/
structure Known (blocks : List Reply) (c : StreamContext) : Prop where
  tracks : Tracks blocks c.stateManager
  text : ∀ i, c.textBlockIndex = some i → Has blocks i .text
  thinking : ∀ i, c.thinkingBlockIndex = some i → Has blocks i .thinking
  tools : ∀ id i, Dicts.get c.toolBlockIndices id = some i → Has blocks i .toolUse

theorem Known.later (h : Known blocks c) {events : List SseEvent}
    (tracks : Tracks (after blocks events) c'.stateManager)
    (text : c'.textBlockIndex = c.textBlockIndex)
    (thinking : c'.thinkingBlockIndex = c.thinkingBlockIndex)
    (tools : c'.toolBlockIndices = c.toolBlockIndices) : Known (after blocks events) c' where
  tracks := tracks
  text := fun i eq => (h.text i (text ▸ eq)).after events
  thinking := fun i eq => (h.thinking i (thinking ▸ eq)).after events
  tools := fun id i eq => (h.tools id i (tools ▸ eq)).after events

theorem Known.same (h : Known blocks c) (known : c'.stateManager.activeBlocks =
      c.stateManager.activeBlocks)
    (next : c'.stateManager.nextBlockIndex = c.stateManager.nextBlockIndex)
    (text : c'.textBlockIndex = c.textBlockIndex)
    (thinking : c'.thinkingBlockIndex = c.thinkingBlockIndex)
    (tools : c'.toolBlockIndices = c.toolBlockIndices) : Known blocks c' :=
  h.later (show Tracks (after blocks []) c'.stateManager from h.tracks.of_same known next) text
    thinking tools

theorem ofType_send_other (h : Known blocks c) {index : Int} {item : Option Delta}
    {own type : BlockType} (has : Has blocks index own) (ne : type ≠ own) :
    ofType type (send blocks index item) = ofType type blocks := by
  refine ofKind_send_other fun b mem same => ?_
  obtain ⟨b', mem', same', own'⟩ := has
  rw [eq_of_key h.tracks.nodup mem mem' (same.trans same'.symm), own']
  exact beq_eq_false_iff_ne.mpr ne.symm

/-- A step keeps the context's knowledge and leaves the blocks of the other types. -/
structure Effect (touched : BlockType → Bool) (blocks : List Reply) (r : Sent) : Prop where
  known : Known (after blocks r.1) r.2
  keeps : ∀ type, touched type = false →
    ofType type (after blocks r.1) = ofType type blocks

/-- A step has its effect as long as the blocks fit. -/
def Does (touched : BlockType → Bool) (blocks : List Reply) (r : Sent) : Prop :=
  Fits (after blocks r.1) → Effect touched blocks r

variable {touched : BlockType → Bool}

theorem does_quiet (known : Known blocks c) : Does touched blocks (quiet c) :=
  fun _ => ⟨known, fun _ _ => rfl⟩

theorem Does.mono {wider : BlockType → Bool} (does : Does touched blocks r)
    (more : ∀ type, wider type = false → touched type = false) : Does wider blocks r :=
  fun fits => ⟨(does fits).known, fun type untouched => (does fits).keeps type (more type untouched)⟩

theorem Does.andThen {next : StreamContext → Sent} (first : Does touched blocks r)
    (second : Known (after blocks r.1) r.2 → Does touched (after blocks r.1) (next r.2)) :
    Does touched blocks (r.andThen next) := by
  intro fits
  unfold Emit.andThen at fits ⊢
  dsimp only at fits ⊢
  rw [after_append] at fits
  have here := first fits.before
  have there := second here.known fits
  constructor
  · dsimp only
    rw [after_append]
    exact there.known
  · intro type untouched
    dsimp only
    rw [after_append]
    exact (there.keeps type untouched).trans (here.keeps type untouched)

theorem Does.finally {last : StreamContext → StreamContext} (does : Does touched blocks r)
    (same : ∀ blocks' c', Known blocks' c' → Known blocks' (last c')) :
    Does touched blocks (r.andThen fun c => quiet (last c)) :=
  does.andThen fun known => does_quiet (same _ _ known)

def only (type : BlockType) : BlockType → Bool := (· == type)

def notTools (type : BlockType) : Bool := type != .toolUse

theorem does_delta (h : Known blocks c) {index : Int} {type : BlockType}
    (has : Has blocks index type) (d : Delta) :
    Does (only type) blocks (c.manage (c.stateManager.handleContentBlockDelta index d)) := by
  intro _
  obtain ⟨same, sent⟩ := after_handleDelta h.tracks index d
  have sent' : after blocks (c.manage (c.stateManager.handleContentBlockDelta index d)).1 =
      if isOpen blocks index then send blocks index (some d) else blocks := sent
  constructor
  · refine h.later ?_ rfl rfl rfl
    rw [sent']
    show Tracks _ (c.stateManager.handleContentBlockDelta index d).2
    rw [same]
    split_ifs
    · exact tracks_delta h.tracks index d
    · exact h.tracks
  · intro other untouched
    rw [sent']
    split_ifs
    · exact ofType_send_other h has (beq_eq_false_iff_ne.mp untouched)
    · rfl

theorem does_stop (h : Known blocks c) {index : Int} {type : BlockType}
    (has : Has blocks index type) :
    Does (only type) blocks (c.manage (c.stateManager.handleContentBlockStop index)) := by
  intro _
  obtain ⟨tracks, sent⟩ := after_handleStop h.tracks index
  constructor
  · exact h.later tracks rfl rfl rfl
  · intro other untouched
    have sent' : after blocks (c.manage (c.stateManager.handleContentBlockStop index)).1 =
        if isOpen blocks index then send blocks index none else blocks := sent
    rw [sent']
    split_ifs
    · exact ofType_send_other h has (beq_eq_false_iff_ne.mp untouched)
    · rfl

theorem does_raw (h : Known blocks c) {index : Int} {type : BlockType}
    (has : Has blocks index type) (d : Delta) :
    Does (only type) blocks ([.contentBlockDelta index d], c) :=
  fun _ => ⟨h.later (tracks_delta h.tracks index d) rfl rfl rfl, fun _ untouched =>
    ofType_send_other h has (beq_eq_false_iff_ne.mp untouched)⟩

theorem startBlock_next (env : StreamEnv) {d : StreamContext} (h : Tracks blocks c.stateManager)
    (taken : d.stateManager = c.stateManager.takeIndex.2) (content : ContentBlock)
    (plain : content.type ≠ .toolUse)
    (fits : Fits (after blocks (d.startBlock env c.stateManager.takeIndex.1 content).1)) :
    ∃ m', d.startBlock env c.stateManager.takeIndex.1 content =
        ([.contentBlockStart c.stateManager.nextBlockIndex content],
          { d with stateManager := m' }) ∧
      Tracks (blocks ++ [Slot.fresh c.stateManager.nextBlockIndex content]) m' := by
  have begun : d.startBlock env c.stateManager.takeIndex.1 content =
      d.manage (SseStateManager.beginBlock c.stateManager.takeIndex.1 content
        c.stateManager.takeIndex.2) := by
    unfold startBlock SseStateManager.handleContentBlockStart
    rw [if_neg plain, taken]
  have absent : c.stateManager.takeIndex.2.block c.stateManager.takeIndex.1 = none :=
    h.block_absent h.fresh
  have sent : (d.startBlock env c.stateManager.takeIndex.1 content).1 =
      [.contentBlockStart c.stateManager.nextBlockIndex content] := by
    rw [begun]
    unfold manage SseStateManager.beginBlock
    rw [absent]
    rfl
  rw [sent] at fits
  obtain ⟨m', eq, tracks⟩ := tracks_begin h content fits
  refine ⟨m', ?_, tracks⟩
  rw [begun, eq]
  rfl

theorem startBlock_again (env : StreamEnv) (h : Tracks blocks c.stateManager) {b : Reply}
    {index : Int} (mem : b ∈ blocks) (key : b.key = index) {content : ContentBlock}
    (plain : content.type ≠ .toolUse) : c.startBlock env index content = quiet c := by
  unfold startBlock SseStateManager.handleContentBlockStart SseStateManager.beginBlock
  rw [if_neg plain, ← key, h.block mem]
  rfl

theorem has_fresh (index : Int) (content : ContentBlock) :
    Has (blocks ++ [Slot.fresh index content]) index content.type :=
  ⟨_, List.mem_append_right _ (List.mem_singleton.mpr rfl), rfl, rfl⟩

theorem ofType_fresh_other {index : Int} {content : ContentBlock} {type : BlockType}
    (other : content.type ≠ type) :
    ofType type (blocks ++ [Slot.fresh index content]) = ofType type blocks := by
  have skip : ofType type [(Slot.fresh index content : Reply)] = [] := by
    unfold ofType
    rw [ofKind_cons]
    exact if_neg (by rw [beq_iff_eq]; exact other)
  rw [ofType_append, skip, List.append_nil]

theorem does_ensureText (env : StreamEnv) (h : Known blocks c) :
    Does (only .text) blocks (c.ensureText env) := by
  unfold ensureText
  cases c.openTextIndex with
  | some i => exact does_quiet h
  | none =>
    intro fits
    obtain ⟨m', eq, tracks⟩ := startBlock_next env h.tracks
      (d := { c with
        stateManager := c.stateManager.takeIndex.2
        textBlockIndex := some c.stateManager.takeIndex.1 }) rfl .text (fun same => by cases same)
      fits
    have sent : after blocks [.contentBlockStart c.stateManager.nextBlockIndex .text] =
        blocks ++ [Slot.fresh c.stateManager.nextBlockIndex .text] := rfl
    show Effect _ _ (StreamContext.startBlock env _ c.stateManager.takeIndex.1 .text)
    rw [eq]
    constructor
    · dsimp only
      refine ⟨tracks, ?_, ?_, ?_⟩
      · intro i same
        cases same
        exact has_fresh _ _
      · intro i same
        exact (h.thinking i same).after [.contentBlockStart _ .text]
      · intro id i same
        exact (h.tools id i same).after [.contentBlockStart _ .text]
    · intro type untouched
      dsimp only
      rw [sent]
      exact ofType_fresh_other (beq_eq_false_iff_ne.mp untouched).symm

theorem does_createText (env : StreamEnv) (h : Known blocks c) (text : Text) :
    Does (only .text) blocks (c.createTextDeltaEvents env text) := by
  refine (does_ensureText env h).andThen fun known => ?_
  cases index : (c.ensureText env).2.textBlockIndex with
  | none => exact does_quiet known
  | some i => exact does_delta known (known.text i index) _

theorem openTextIndex_eq_some {i : Int} (is_open : c.openTextIndex = some i) :
    c.textBlockIndex = some i :=
  Option.eq_some_of_filter_eq_some is_open

theorem does_closeText (h : Known blocks c) : Does (only .text) blocks c.closeTextIfOpen := by
  unfold closeTextIfOpen
  cases found : c.openTextIndex with
  | none => exact does_quiet h
  | some i => exact does_stop h (h.text i (openTextIndex_eq_some found))

theorem does_emitExtracted (env : StreamEnv) (h : Known blocks c) :
    Does (only .text) blocks (c.emitExtracted env) := by
  unfold emitExtracted
  dsimp only
  generalize (if c.stripTextAfterThinkingBoundary = true then trimStart c.thinkingBuffer
    else c.thinkingBuffer) = remaining
  have emptied : Known blocks { c with
      thinkingBuffer := []
      stripTextAfterThinkingBoundary :=
        c.stripTextAfterThinkingBoundary && remaining.isEmpty } :=
    h.same rfl rfl rfl rfl rfl
  split_ifs
  · exact does_quiet emptied
  · exact does_createText env emptied _

theorem does_emitRest (env : StreamEnv) (h : Known blocks c) (rest : Text) :
    Does (only .text) blocks (c.emitRest env rest) := by
  have emptied : Known blocks { c with thinkingBuffer := [] } := h.same rfl rfl rfl rfl rfl
  unfold emitRest
  dsimp only
  split_ifs
  · exact does_quiet emptied
  · exact does_createText env emptied _

theorem does_flushWaiting (env : StreamEnv) (h : Known blocks c) :
    Does (only .text) blocks (c.flushWaiting env) := by
  unfold flushWaiting
  split_ifs
  · refine does_createText env ?_ _
    exact h.same rfl rfl rfl rfl rfl
  · exact does_quiet h

theorem does_padThinkingOnly (env : StreamEnv) (h : Known blocks c) :
    Does (only .text) blocks (c.padThinkingOnly env) := by
  unfold padThinkingOnly
  split_ifs
  · refine does_createText env ?_ _
    exact h.same rfl rfl rfl rfl rfl
  · exact does_quiet h

theorem does_sendThinking (h : Known blocks c) (text : Text) :
    Does (only .thinking) blocks (c.sendThinking text) := by
  unfold sendThinking
  cases index : c.thinkingBlockIndex with
  | none => exact does_quiet h
  | some i => exact does_raw h (h.thinking i index) _

theorem does_stopThinking (h : Known blocks c) :
    Does (only .thinking) blocks c.stopThinking := by
  unfold stopThinking
  cases index : c.thinkingBlockIndex with
  | none => exact does_quiet h
  | some i =>
    have has := h.thinking i index
    have first := does_raw h has (.thinkingDelta [])
    have both : Does (only .thinking) blocks
        (Emit.andThen ([createThinkingDeltaEvent i []], c) fun c =>
          ([createSignatureDeltaEvent i], c)) :=
      first.andThen fun known => does_raw known (has.after _) (.signatureDelta _)
    exact both.andThen fun known => does_stop known (has.after _)

theorem does_closeReasoning (h : Known blocks c) :
    Does (only .thinking) blocks c.closeReasoningIfOpen := by
  unfold closeReasoningIfOpen
  split_ifs
  · exact does_quiet h
  · exact (does_stopThinking h).finally fun _ _ known => known.same rfl rfl rfl rfl rfl

theorem does_endThinking (h : Known blocks c) (text : Text) :
    Does (only .thinking) blocks (c.endThinking text) := by
  unfold endThinking
  refine Does.andThen ?_ fun known => does_stopThinking (known.same rfl rfl rfl rfl rfl)
  split_ifs
  · exact does_quiet h
  · exact does_sendThinking h text

theorem does_startThinking (env : StreamEnv) (h : Known blocks c)
    (taken : c'.stateManager = c.stateManager.takeIndex.2)
    (text : c'.textBlockIndex = c.textBlockIndex)
    (own : c'.thinkingBlockIndex = some c.stateManager.takeIndex.1)
    (tools : c'.toolBlockIndices = c.toolBlockIndices) :
    Does (only .thinking) blocks
      (c'.startBlock env c.stateManager.takeIndex.1 .thinking) := by
  intro fits
  obtain ⟨m', eq, tracks⟩ := startBlock_next env h.tracks taken .thinking
    (fun same => by cases same) fits
  rw [eq]
  constructor
  · refine ⟨tracks, ?_, ?_, ?_⟩
    · intro i same
      exact (h.text i (text ▸ same)).after [.contentBlockStart _ .thinking]
    · intro i same
      cases own.symm.trans same
      exact has_fresh _ _
    · intro id i same
      exact (h.tools id i (tools ▸ same)).after [.contentBlockStart _ .thinking]
  · intro type untouched
    exact ofType_fresh_other (beq_eq_false_iff_ne.mp untouched).symm

theorem does_enterThinking (env : StreamEnv) (h : Known blocks c) (text : Text) :
    Does (only .thinking) blocks (c.enterThinking env text) :=
  does_startThinking env (c := c) h rfl rfl rfl rfl

theorem notTools_of_text (type : BlockType) (untouched : notTools type = false) :
    only .text type = false := by
  cases type <;> first | rfl | cases untouched

theorem notTools_of_thinking (type : BlockType) (untouched : notTools type = false) :
    only .thinking type = false := by
  cases type <;> first | rfl | cases untouched

theorem Does.ofText (does : Does (only .text) blocks r) : Does notTools blocks r :=
  does.mono notTools_of_text

theorem Does.ofThinking (does : Does (only .thinking) blocks r) : Does notTools blocks r :=
  does.mono notTools_of_thinking

theorem known_stripLeadingNewline (h : Known blocks c) : Known blocks c.stripLeadingNewline := by
  unfold stripLeadingNewline
  split_ifs
  · exact h.same rfl rfl rfl rfl rfl
  · exact h

theorem does_scanThinking (env : StreamEnv) (h : Known blocks c) :
    Does notTools blocks (c.scanThinking env) := by
  have stripped := known_stripLeadingNewline h
  unfold scanThinking
  dsimp only
  split
  · next thinking rest _ =>
    refine (does_endThinking stripped thinking).ofThinking.andThen fun known => ?_
    refine (does_emitExtracted env ?_).ofText
    exact known.same rfl rfl rfl rfl rfl
  · split_ifs
    · exact does_quiet stripped
    · refine (does_sendThinking ?_ _).ofThinking
      exact stripped.same rfl rfl rfl rfl rfl

theorem does_scanStart (env : StreamEnv) (h : Known blocks c) :
    Does notTools blocks (c.scanStart env) := by
  unfold scanStart
  split
  · next before rest _ =>
    refine Does.andThen (Does.andThen ?_ fun known =>
      (does_enterThinking env known rest).ofThinking) fun known => does_scanThinking env known
    split_ifs
    · exact does_quiet h
    · exact (does_createText env h before).ofText
  · dsimp only
    split_ifs
    · exact does_quiet h
    · exact (does_createText env h _).ofText.finally
        fun _ _ known => known.same rfl rfl rfl rfl rfl

theorem does_processFiltered (env : StreamEnv) (h : Known blocks c) (text : Text) :
    Does notTools blocks (c.processFiltered env text) := by
  have buffered : Known blocks { c with thinkingBuffer := c.thinkingBuffer ++ text } :=
    h.same rfl rfl rfl rfl rfl
  unfold processFiltered processContentWithThinking
  dsimp only
  split_ifs
  · exact does_scanStart env buffered
  · exact does_scanThinking env buffered
  · exact (does_emitExtracted env buffered).ofText
  · exact (does_createText env h text).ofText

theorem does_processAssistantResponse (env : StreamEnv) (h : Known blocks c) (content : Text) :
    Does notTools blocks (c.processAssistantResponse env content) := by
  unfold processAssistantResponse
  dsimp only
  split_ifs
  · exact does_quiet (h.same rfl rfl rfl rfl rfl)
  · refine does_processFiltered env ?_ _
    exact h.same rfl rfl rfl rfl rfl

theorem does_settleThinking (env : StreamEnv) (h : Known blocks c) :
    Does notTools blocks (c.settleThinking env) := by
  unfold settleThinking
  split_ifs
  · split
    · next thinking rest _ =>
      exact (does_endThinking h thinking).ofThinking.andThen fun known =>
        (does_emitRest env known rest).ofText
    · exact does_quiet h
  · exact does_quiet h

theorem does_finishFilter (env : StreamEnv) (h : Known blocks c) :
    Does notTools blocks (c.finishFilter env) := by
  unfold finishFilter
  dsimp only
  split_ifs
  · exact does_quiet (h.same rfl rfl rfl rfl rfl)
  · refine does_processFiltered env ?_ _
    exact h.same rfl rfl rfl rfl rfl

theorem does_flushBuffer (env : StreamEnv) (h : Known blocks c) :
    Does notTools blocks (c.flushBuffer env) := by
  unfold flushBuffer
  by_cases flushes : (c.thinkingEnabled && !c.thinkingBuffer.isEmpty) = true
  · rw [if_pos flushes]
    refine Does.finally ?_ fun _ _ known => known.same rfl rfl rfl rfl rfl
    by_cases tagged : c.inThinkingBlock = true
    · rw [if_pos tagged]
      cases findRealThinkingEndTagAtBufferEnd c.thinkingBuffer with
      | some p =>
        exact (does_endThinking h p.1).ofThinking.andThen fun known =>
          (does_emitRest env known p.2).ofText
      | none =>
        have sent := (does_sendThinking h c.thinkingBuffer).andThen fun known =>
          does_stopThinking known
        exact sent.ofThinking
    · rw [if_neg tagged]
      dsimp only
      generalize (if c.stripTextAfterThinkingBoundary = true then trimStart c.thinkingBuffer
        else c.thinkingBuffer) = content
      have kept : Known blocks { c with
          stripTextAfterThinkingBoundary :=
            c.stripTextAfterThinkingBoundary && content.isEmpty } :=
        h.same rfl rfl rfl rfl rfl
      split_ifs
      · exact does_quiet kept
      · exact (does_createText env kept content).ofText
  · rw [if_neg flushes]
    exact does_quiet h

theorem does_openReasoning (env : StreamEnv) (h : Known blocks c) :
    Does notTools blocks (c.openReasoning env) := by
  unfold openReasoning
  refine (does_closeText h).ofText.andThen fun known => ?_
  dsimp only
  cases reused : c.closeTextIfOpen.2.thinkingBlockIndex.filter fun i =>
      c.closeTextIfOpen.2.stateManager.isBlockOpenOfType i .thinking with
  | none =>
    refine (does_startThinking env known ?_ ?_ ?_ ?_).ofThinking <;> rfl
  | some i =>
    have own := Option.eq_some_of_filter_eq_some reused
    obtain ⟨b, mem, key, type⟩ := known.thinking i own
    dsimp only
    rw [startBlock_again env ?_ mem key (by decide)]
    · refine does_quiet ?_
      exact known.same rfl rfl rfl own.symm rfl
    · exact known.tracks

/-- A block of redacted thinking, started and stopped. -/
def sendRedacted (env : StreamEnv) (redacted : String) (c : StreamContext) : Sent :=
  ({ c with stateManager := c.stateManager.takeIndex.2 }.startBlock env c.stateManager.takeIndex.1
    (.redactedThinking redacted)).andThen fun c' =>
      c'.manage (c'.stateManager.handleContentBlockStop c.stateManager.takeIndex.1)

theorem processRedacted_eq (env : StreamEnv) (c : StreamContext) (redacted : String) :
    c.processRedacted env redacted =
      ((c.closeReasoningIfOpen.andThen closeTextIfOpen).andThen (sendRedacted env redacted)).andThen
        fun c => quiet { c with thinkingExtracted := true } := rfl

theorem does_sendRedacted (env : StreamEnv) (h : Known blocks c) (redacted : String) :
    Does (only .redactedThinking) blocks (sendRedacted env redacted c) := by
  intro fits
  have fits' := fits
  unfold sendRedacted Emit.andThen at fits'
  dsimp only at fits'
  rw [after_append] at fits'
  obtain ⟨m', eq, tracks⟩ := startBlock_next env h.tracks
    (d := { c with stateManager := c.stateManager.takeIndex.2 }) rfl
    (.redactedThinking redacted) (fun same => by cases same) fits'.before
  have started : Effect (only .redactedThinking) blocks
      ([.contentBlockStart c.stateManager.nextBlockIndex (.redactedThinking redacted)],
        { c with stateManager := m' }) := by
    constructor
    · have begun : Tracks (after blocks [.contentBlockStart c.stateManager.nextBlockIndex
          (.redactedThinking redacted)]) m' := tracks
      exact h.later begun rfl rfl rfl
    · intro type untouched
      exact ofType_fresh_other (beq_eq_false_iff_ne.mp untouched).symm
  have step : Does (only .redactedThinking) blocks (Emit.andThen
      ([.contentBlockStart c.stateManager.nextBlockIndex (.redactedThinking redacted)],
        { c with stateManager := m' }) fun c' =>
      c'.manage (c'.stateManager.handleContentBlockStop c.stateManager.nextBlockIndex)) :=
    Does.andThen (fun _ => started) fun known =>
      does_stop known (has_fresh _ (.redactedThinking redacted))
  unfold sendRedacted at fits ⊢
  rw [eq] at fits ⊢
  exact step fits

theorem notTools_of_redacted (type : BlockType) (untouched : notTools type = false) :
    only .redactedThinking type = false := by
  cases type <;> first | rfl | cases untouched

theorem does_processRedacted (env : StreamEnv) (h : Known blocks c) (redacted : String) :
    Does notTools blocks (c.processRedacted env redacted) := by
  rw [processRedacted_eq]
  refine Does.finally ?_ fun _ _ known => known.same rfl rfl rfl rfl rfl
  exact ((does_closeReasoning h).ofThinking.andThen fun known =>
    (does_closeText known).ofText).andThen fun known =>
      (does_sendRedacted env known redacted).mono notTools_of_redacted

theorem does_processReasoningContent (env : StreamEnv) (h : Known blocks c)
    (e : ReasoningContentEvent) : Does notTools blocks (c.processReasoningContent env e) := by
  unfold processReasoningContent
  by_cases disabled : (!c.thinkingEnabled) = true
  · rw [if_pos disabled]
    exact does_quiet h
  · rw [if_neg disabled]
    cases e.redactedContent.filter fun s => !s.isEmpty with
    | some redacted => exact does_processRedacted env h redacted
    | none =>
      refine Does.andThen ?_ fun known => ?_
      · split_ifs
        · exact does_quiet h
        · exact does_openReasoning env h
      · generalize (if c.reasoningBlockOpen = true then quiet c else c.openReasoning env) = r
          at known ⊢
        split_ifs
        · exact does_quiet known
        · refine (does_sendThinking ?_ e.text).ofThinking
          exact known.same rfl rfl rfl rfl rfl

theorem ofType_stopKind {type : BlockType} {which : BlockType → Bool} (other : which type = false) :
    ofType type (stopKind which blocks) = ofType type blocks := by
  unfold stopKind
  induction blocks with
  | nil => rfl
  | cons b blocks ih =>
    unfold ofType at ih ⊢
    rw [List.map_cons, ofKind_cons, ofKind_cons, ih]
    by_cases own : b.content.type = type
    · rw [own, other, Bool.false_and, if_neg Bool.false_ne_true, own]
    · have skip : (b.content.type == type) = false := beq_eq_false_iff_ne.mpr own
      have content : (if (which b.content.type && !hasStop b) = true then b.add none else b).content =
          b.content := by
        split_ifs <;> rfl
      rw [content, skip]
      rfl

theorem has_stopKind (which : BlockType → Bool) {index : Int} {type : BlockType}
    (has : Has blocks index type) : Has (stopKind which blocks) index type := by
  obtain ⟨b, mem, rfl, rfl⟩ := has
  refine ⟨_, List.mem_map_of_mem mem, ?_⟩
  split_ifs <;> exact ⟨rfl, rfl⟩

def inputText (env : StreamEnv) (t : CompletedToolUse) : String := t.input.render env.formatFloat

def callItems (env : StreamEnv) (t : CompletedToolUse) : List (Option Delta) :=
  [some (.inputJsonDelta (inputText env t)), none]

/-- What is sent for a call once its block has started. -/
def fillCall (env : StreamEnv) (t : CompletedToolUse) (index : Int) (c : StreamContext) : Sent :=
  let c := c.addOutputTokens (inputText env t).toList
  (c.manage (c.stateManager.handleContentBlockDelta index
    (.inputJsonDelta (inputText env t)))).andThen fun c =>
      c.manage (c.stateManager.handleContentBlockStop index)

theorem emitCompletedToolUse_eq (env : StreamEnv) (c : StreamContext) (t : CompletedToolUse) :
    c.emitCompletedToolUse env t =
      match Dicts.get c.toolBlockIndices t.id with
      | some index =>
        (c.startBlock env index (.toolUse t.id t.name)).andThen (fillCall env t index)
      | none =>
        ({ c with
          stateManager := c.stateManager.takeIndex.2
          toolBlockIndices :=
            Dicts.insert c.toolBlockIndices t.id c.stateManager.takeIndex.1 }.startBlock env
              c.stateManager.takeIndex.1 (.toolUse t.id t.name)).andThen
          (fillCall env t c.stateManager.takeIndex.1) := by
  unfold emitCompletedToolUse
  dsimp only
  cases Dicts.get c.toolBlockIndices t.id with
  | some index => exact andThen_assoc ..
  | none => exact andThen_assoc ..

/-- The text blocks are stopped before the block of a call starts. -/
theorem startTool_next (env : StreamEnv) (h : Known blocks c)
    (taken : c'.stateManager = c.stateManager.takeIndex.2) (id name : String)
    (fits : Fits (after blocks
      (c'.startBlock env c.stateManager.takeIndex.1 (.toolUse id name)).1)) :
    ∃ out m', c'.startBlock env c.stateManager.takeIndex.1 (.toolUse id name) =
        (out, { c' with stateManager := m' }) ∧
      after blocks out = stopKind (only .text) blocks ++
        [Slot.fresh c.stateManager.nextBlockIndex (.toolUse id name)] ∧
      Tracks (after blocks out) m' := by
  have noted : Tracks blocks { c.stateManager with hasToolUse := true } :=
    h.tracks.of_same rfl rfl
  obtain ⟨tracks, stopped⟩ := after_stopOpen env noted (only .text)
  generalize first : SseStateManager.stopOpen env { c.stateManager with hasToolUse := true }
    (only .text) = stops at tracks stopped
  have moved : SseStateManager.stopOpen env { c.stateManager.takeIndex.2 with hasToolUse := true }
      (only .text) = (stops.1, stops.2.takeIndex.2) := by
    have next : stops.2.nextBlockIndex = c.stateManager.nextBlockIndex := by
      rw [← first]
      rfl
    rw [show stops.1 = _ from congrArg Prod.fst first.symm]
    unfold SseStateManager.takeIndex
    dsimp only
    rw [next, ← first]
    rfl
  have same_next : stops.2.nextBlockIndex = c.stateManager.nextBlockIndex := by
    rw [← first]
    rfl
  have absent : stops.2.takeIndex.2.block c.stateManager.takeIndex.1 = none := by
    have := tracks.block_absent tracks.fresh
    rw [same_next] at this
    exact this
  have eq : c'.startBlock env c.stateManager.takeIndex.1 (.toolUse id name) =
      c'.manage (Emit.andThen (stops.1, stops.2.takeIndex.2)
        (SseStateManager.beginBlock c.stateManager.takeIndex.1 (.toolUse id name))) := by
    unfold startBlock SseStateManager.handleContentBlockStart
    rw [if_pos (show ContentBlock.type (.toolUse id name) = .toolUse from rfl), taken]
    exact congrArg (fun s : Emit SseEvent SseStateManager => c'.manage (s.andThen _)) moved
  have out : (c'.startBlock env c.stateManager.takeIndex.1 (.toolUse id name)).1 =
      stops.1 ++ [.contentBlockStart c.stateManager.nextBlockIndex (.toolUse id name)] := by
    rw [eq]
    unfold manage Emit.andThen SseStateManager.beginBlock
    rw [absent]
    rfl
  rw [out, after_append, stopped] at fits
  rw [stopped] at tracks
  have fits' : Fits (stopKind (only .text) blocks ++
      [Slot.fresh stops.2.nextBlockIndex (.toolUse id name)]) := by
    rw [same_next]
    exact fits
  obtain ⟨m', begun, tracks'⟩ := tracks_begin tracks (.toolUse id name) fits'
  rw [same_next] at begun tracks'
  have index : stops.2.takeIndex.1 = c.stateManager.takeIndex.1 := same_next
  rw [index] at begun
  refine ⟨_, m', Prod.ext out ?_, ?_, ?_⟩
  · rw [eq]
    unfold manage Emit.andThen
    dsimp only
    rw [begun]
  · rw [after_append, stopped]
    rfl
  · rw [after_append, stopped]
    exact tracks'

/-- A call of an index that has its block only stops the text. -/
theorem startTool_again (env : StreamEnv) (h : Known blocks c) {index : Int}
    (has : Has blocks index .toolUse) (id name : String) :
    ∃ out m', c.startBlock env index (.toolUse id name) = (out, { c with stateManager := m' }) ∧
      after blocks out = stopKind (only .text) blocks ∧ Tracks (after blocks out) m' := by
  have noted : Tracks blocks { c.stateManager with hasToolUse := true } :=
    h.tracks.of_same rfl rfl
  obtain ⟨tracks, stopped⟩ := after_stopOpen env noted (only .text)
  generalize first : SseStateManager.stopOpen env { c.stateManager with hasToolUse := true }
    (only .text) = stops at tracks stopped
  obtain ⟨b, mem, key, -⟩ := has_stopKind (only .text) has
  rw [← stopped] at mem
  have started : stops.2.block index = some (entry b).2 := by
    rw [← key]
    exact tracks.block mem
  refine ⟨stops.1, stops.2, ?_, stopped, tracks⟩
  unfold startBlock SseStateManager.handleContentBlockStart
  rw [if_pos (show ContentBlock.type (.toolUse id name) = .toolUse from rfl)]
  have eq : (SseStateManager.stopOpen env { c.stateManager with hasToolUse := true }
      (· == BlockType.text)) = stops := first
  rw [eq]
  unfold Emit.andThen SseStateManager.beginBlock manage
  rw [started]
  exact Prod.ext (List.append_nil _) rfl

def textOrTool (type : BlockType) : Bool := type == .text || type == .toolUse

theorem does_fillCall (env : StreamEnv) (h : Known blocks c) (t : CompletedToolUse) {index : Int}
    (has : Has blocks index .toolUse) : Does (only .toolUse) blocks (fillCall env t index c) := by
  have counted : Known blocks (c.addOutputTokens (inputText env t).toList) :=
    h.same rfl rfl rfl rfl rfl
  exact (does_delta counted has _).andThen fun known => does_stop known (has.after _)

theorem textOrTool_of_tool (type : BlockType) (untouched : textOrTool type = false) :
    only .toolUse type = false := by
  cases type <;> first | rfl | cases untouched

theorem known_emitFresh (id : String) (h : Known blocks c) {events : List SseEvent} {m' : SseStateManager}
    {index : Int} (has : Has (after blocks events) index .toolUse)
    (tracks : Tracks (after blocks events) m') :
    Known (after blocks events) { c with
      stateManager := m'
      toolBlockIndices := Dicts.insert c.toolBlockIndices id index } where
  tracks := tracks
  text := fun i eq => (h.text i eq).after events
  thinking := fun i eq => (h.thinking i eq).after events
  tools := by
    intro id' i found
    dsimp only at found
    rw [Dicts.get_insert] at found
    split_ifs at found
    · cases found
      exact has
    · exact (h.tools id' i found).after events

theorem does_emit (env : StreamEnv) (h : Known blocks c) (t : CompletedToolUse) :
    Does textOrTool blocks (c.emitCompletedToolUse env t) := by
  rw [emitCompletedToolUse_eq]
  cases found : Dicts.get c.toolBlockIndices t.id with
  | some index =>
    have has := h.tools t.id index found
    obtain ⟨out, m', eq, stopped, tracks⟩ := startTool_again env h has t.id t.name
    dsimp only
    rw [eq]
    refine Does.andThen (fun _ => ⟨?_, ?_⟩) fun known =>
      (does_fillCall env known t (has.after out)).mono textOrTool_of_tool
    · exact h.later tracks rfl rfl rfl
    · intro type untouched
      dsimp only
      rw [stopped]
      refine ofType_stopKind ?_
      cases type <;> first | rfl | cases untouched
  | none =>
    intro fits
    dsimp only at fits ⊢
    have fits' := fits
    unfold Emit.andThen at fits'
    dsimp only at fits'
    rw [after_append] at fits'
    obtain ⟨out, m', eq, started, tracks⟩ := startTool_next env h rfl t.id t.name fits'.before
    have has : Has (after blocks out) c.stateManager.takeIndex.1 .toolUse := by
      rw [started]
      exact has_fresh _ (.toolUse t.id t.name)
    rw [eq] at fits ⊢
    refine Does.andThen (fun _ => ⟨?_, ?_⟩) (fun known =>
      (does_fillCall env known t has).mono textOrTool_of_tool) fits
    · exact known_emitFresh t.id h has tracks
    · intro type untouched
      dsimp only
      rw [started, ofType_fresh_other, ofType_stopKind]
      · cases type <;> first | rfl | cases untouched
      · rintro rfl
        cases untouched

/-- The items of a call go to its block, which is the last. -/
theorem after_fillCall (env : StreamEnv) (h : Known blocks c) (t : CompletedToolUse)
    {front : List Reply} {index : Int} {content : ContentBlock}
    (last : blocks = front ++ [Slot.fresh index content]) :
    ∃ out m', fillCall env t index c = (out, { c with
        stateManager := m'
        outputTokens := wrapI32 (c.outputTokens + estimateTokens (inputText env t).toList) }) ∧
      after blocks out = front ++ [⟨index, content, callItems env t⟩] := by
  have nodup := h.tracks.nodup
  obtain ⟨same, sent⟩ := after_handleDelta h.tracks index (.inputJsonDelta (inputText env t))
  have mem : (Slot.fresh index content : Reply) ∈ blocks := by
    rw [last]
    exact List.mem_append_right _ List.mem_cons_self
  have opened : isOpen blocks index = true := isOpen_of_mem h.tracks mem
  rw [opened, if_pos rfl] at sent
  have tracks := tracks_delta h.tracks index (.inputJsonDelta (inputText env t))
  have filled : send blocks index (some (.inputJsonDelta (inputText env t))) =
      front ++ [⟨index, content, [some (.inputJsonDelta (inputText env t))]⟩] := by
    rw [last] at nodup ⊢
    exact send_last nodup
  obtain ⟨-, stopped⟩ := after_handleStop tracks index
  have mem' : (⟨index, content, [some (.inputJsonDelta (inputText env t))]⟩ : Reply) ∈
      send blocks index (some (.inputJsonDelta (inputText env t))) := by
    rw [filled]
    exact List.mem_append_right _ List.mem_cons_self
  have opened' : isOpen (send blocks index (some (.inputJsonDelta (inputText env t)))) index =
      true := isOpen_of_mem tracks mem'
  rw [opened', if_pos rfl] at stopped
  refine ⟨_, (c.stateManager.handleContentBlockStop index).2, Prod.ext rfl ?_, ?_⟩
  · unfold fillCall Emit.andThen manage addOutputTokens
    dsimp only
    rw [same]
  · unfold fillCall Emit.andThen manage addOutputTokens
    dsimp only
    rw [same, after_append, sent, stopped]
    have nodup' := tracks.nodup
    rw [filled] at nodup' ⊢
    exact send_last nodup'

/-- A call of an id that was not sent before gets a block of its own. -/
theorem emit_new (env : StreamEnv) (h : Known blocks c) {t : CompletedToolUse}
    (unknown : Dicts.get c.toolBlockIndices t.id = none)
    (fits : Fits (after blocks (c.emitCompletedToolUse env t).1)) :
    ∃ out m tokens, c.emitCompletedToolUse env t = (out, { c with
        stateManager := m
        toolBlockIndices := Dicts.insert c.toolBlockIndices t.id c.stateManager.nextBlockIndex
        outputTokens := tokens }) ∧
      after blocks out = stopKind (only .text) blocks ++
        [⟨c.stateManager.nextBlockIndex, .toolUse t.id t.name, callItems env t⟩] := by
  rw [emitCompletedToolUse_eq, unknown] at fits ⊢
  dsimp only at fits ⊢
  have fits' := fits
  unfold Emit.andThen at fits'
  dsimp only at fits'
  rw [after_append] at fits'
  obtain ⟨out₁, m₁, eq, started, tracks⟩ := startTool_next env h rfl t.id t.name fits'.before
  have has : Has (after blocks out₁) c.stateManager.takeIndex.1 .toolUse := by
    rw [started]
    exact has_fresh _ (.toolUse t.id t.name)
  obtain ⟨out₂, m₂, filled, sent⟩ := after_fillCall env (known_emitFresh t.id h has tracks) t
    started
  refine ⟨out₁ ++ out₂, m₂,
    wrapI32 (c.outputTokens + estimateTokens (inputText env t).toList), ?_, ?_⟩
  · rw [eq]
    unfold Emit.andThen
    dsimp only
    have filled' : fillCall env t c.stateManager.takeIndex.1 _ = _ := filled
    rw [filled']
    rfl
  · rw [after_append]
    exact sent

/-- A call of an id whose block is complete leaves nothing but the stop of a text. -/
theorem emit_again (env : StreamEnv) (h : Known blocks c) {t : CompletedToolUse} {index : Int}
    (known : Dicts.get c.toolBlockIndices t.id = some index) {b : Reply} (mem : b ∈ blocks)
    (key : b.key = index) (complete : hasStop b = true) :
    ∃ out m tokens, c.emitCompletedToolUse env t = (out, { c with
        stateManager := m
        outputTokens := tokens }) ∧
      after blocks out = stopKind (only .text) blocks := by
  have has := h.tools t.id index known
  obtain ⟨out, m, eq, stopped, tracks⟩ := startTool_again env h has t.id t.name
  have kept : b ∈ stopKind (only .text) blocks := by
    unfold stopKind
    rw [List.mem_map]
    refine ⟨b, mem, if_neg ?_⟩
    rw [complete, Bool.not_true, Bool.and_false]
    exact Bool.false_ne_true
  rw [stopped] at tracks
  have closed_delta : m.handleContentBlockDelta index (.inputJsonDelta (inputText env t)) =
      quiet m := by
    unfold SseStateManager.handleContentBlockDelta
    rw [← key, tracks.block kept]
    show (if (!true || hasStop b) = true then quiet m else _) = quiet m
    rw [complete]
    rfl
  have closed_stop : m.handleContentBlockStop index = quiet m := by
    unfold SseStateManager.handleContentBlockStop
    rw [← key, tracks.block kept]
    show (if hasStop b = true then quiet m else _) = quiet m
    rw [complete]
    rfl
  refine ⟨out, m, wrapI32 (c.outputTokens + estimateTokens (inputText env t).toList), ?_, stopped⟩
  rw [emitCompletedToolUse_eq, known]
  dsimp only
  rw [eq]
  unfold fillCall Emit.andThen manage addOutputTokens
  dsimp only
  rw [closed_delta]
  dsimp only [quiet]
  rw [closed_stop]
  exact Prod.ext (List.append_nil _) rfl

theorem after_sendFinal (env : StreamEnv) (h : Known blocks c) :
    after blocks (c.sendFinal env).1 = stopKind (fun _ => true) blocks := by
  obtain ⟨-, stopped⟩ := after_stopOpen env h.tracks fun _ => true
  have delta : ∀ (m : SseStateManager) (usage : Usage) (blocks : List Reply),
      after blocks (m.sendMessageDelta usage).1 = blocks := by
    intro m usage blocks
    unfold SseStateManager.sendMessageDelta
    split_ifs <;> rfl
  have stop : ∀ (m : SseStateManager) (blocks : List Reply),
      after blocks m.sendMessageStop.1 = blocks := by
    intro m blocks
    unfold SseStateManager.sendMessageStop
    split_ifs <;> rfl
  unfold sendFinal manage SseStateManager.generateFinalEvents Emit.andThen
  dsimp only
  rw [after_append, after_append, stopped, delta, stop]

end KiroRs.Stream.ReplyOps
