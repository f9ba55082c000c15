/- Path: KiroRs/Stream/BlockOps
   source: src/anthropic/stream.rs
   digest: What the functions of the context that open, fill and close content blocks do to a
   message in which at most one block is open. -/

import KiroRs.Stream.Context
import KiroRs.Stream.WellFormed

set_option autoImplicit false
set_option relaxedAutoImplicit false

namespace KiroRs.Stream.BlockOps

open KiroRs.Lib
open KiroRs.Lib.Emits
open KiroRs.Stream.XmlFilter (Text)
open KiroRs.Stream.Events
open KiroRs.Stream.StateManager
open KiroRs.Stream.ToolJson
open KiroRs.Stream.Context
open KiroRs.Stream.Context.StreamContext
open KiroRs.Stream.WellFormed

/-- A thinking block is open, from a tag or from the upstream's reasoning. -/
def thinkingOpen (c : StreamContext) : Bool := c.inThinkingBlock || c.reasoningBlockOpen

structure Settled (c : StreamContext) (closed : List Block) (opened : Option Block) : Prop where
  kind : ∀ b, opened = some b →
    b.content = .text ∧ c.textBlockIndex = some b.index ∨
      b.content = .thinking ∧ thinkingOpen c = true
  thinking : thinkingOpen c = true →
    ∃ b, opened = some b ∧ b.content = .thinking ∧ c.thinkingBlockIndex = some b.index
  tagged : c.inThinkingBlock = true → c.thinkingExtracted = false
  reasoned : c.reasoningBlockOpen = true → c.thinkingExtracted = true
  enabled : thinkingOpen c = true → c.thinkingEnabled = true
  tools : ∀ id index, Dicts.get c.toolBlockIndices id = some index →
    ∃ b ∈ closed, b.index = index

/-- What was sent is a message up to some block, the manager and the context know where it stands,
and the next index is not above the limit. -/
def Inv (limit : Int) (log : List SseEvent) (c : StreamContext) : Prop :=
  c.stateManager.nextBlockIndex ≤ limit ∧
    ∃ closed opened, Written log c.stateManager closed opened ∧ Settled c closed opened

variable {env : StreamEnv} {log : List SseEvent} {c : StreamContext} {n : Int}
variable {closed : List Block} {opened : Option Block}

theorem Inv.mono (h : Inv n log c) {n' : Int} (le : n ≤ n') : Inv n' log c :=
  ⟨Int.le_trans h.1 le, h.2⟩

structure SameBlocks (c c' : StreamContext) : Prop where
  manager : c'.stateManager = c.stateManager
  text : c'.textBlockIndex = c.textBlockIndex
  tag : c'.inThinkingBlock = c.inThinkingBlock
  reasoning : c'.reasoningBlockOpen = c.reasoningBlockOpen
  extracted : c'.thinkingExtracted = c.thinkingExtracted
  index : c'.thinkingBlockIndex = c.thinkingBlockIndex
  enabled : c'.thinkingEnabled = c.thinkingEnabled
  tools : c'.toolBlockIndices = c.toolBlockIndices

theorem Inv.same (h : Inv n log c) {d : StreamContext} (s : SameBlocks c d) : Inv n log d := by
  have is_open : thinkingOpen d = thinkingOpen c := by
    unfold thinkingOpen
    rw [s.tag, s.reasoning]
  obtain ⟨le, closed, opened, written, settled⟩ := h
  refine ⟨by rw [s.manager]; exact le, closed, opened, by rw [s.manager]; exact written, ?_⟩
  constructor
  · rw [s.text, is_open]
    exact settled.kind
  · rw [is_open, s.index]
    exact settled.thinking
  · rw [s.tag, s.extracted]
    exact settled.tagged
  · rw [s.reasoning, s.extracted]
    exact settled.reasoned
  · rw [is_open, s.enabled]
    exact settled.enabled
  · rw [s.tools]
    exact settled.tools

theorem Inv.setStopReason (h : Inv n log c) (reason : String) :
    Inv n log { c with stateManager := c.stateManager.setStopReason reason } := by
  obtain ⟨le, closed, opened, written, settled⟩ := h
  exact ⟨le, closed, opened, written.of_same rfl rfl rfl rfl rfl,
    ⟨settled.kind, settled.thinking, settled.tagged, settled.reasoned, settled.enabled,
      settled.tools⟩⟩

theorem Inv.setHasToolUse (h : Inv n log c) (has : Bool) :
    Inv n log { c with stateManager := c.stateManager.setHasToolUse has } := by
  obtain ⟨le, closed, opened, written, settled⟩ := h
  exact ⟨le, closed, opened, written.of_same rfl rfl rfl rfl rfl,
    ⟨settled.kind, settled.thinking, settled.tagged, settled.reasoned, settled.enabled,
      settled.tools⟩⟩

theorem not_thinking_of_text {b : Block} (text : b.content = .text) :
    b.content ≠ .thinking := by
  rw [text]
  exact fun eq => by cases eq

theorem openTextIndex_eq (written : Written log c.stateManager closed opened)
    (settled : Settled c closed opened) :
    c.openTextIndex = (opened.filter fun b => b.content == .text).map (·.index) := by
  unfold openTextIndex
  cases opened with
  | none =>
    rw [Option.filter_none, Option.map_none, Option.filter_eq_none_iff]
    intro i _ is_open
    obtain ⟨b, eq, -⟩ := written.open_of_isBlockOpenOfType is_open
    cases eq
  | some b =>
    rcases settled.kind b rfl with ⟨text, index⟩ | ⟨thinking, -⟩
    · have is_open : c.stateManager.isBlockOpenOfType b.index .text = true := by
        rw [written.isBlockOpenOfType_open, text]
        rfl
      have is_text : (b.content == .text) = true := by
        rw [text]
        rfl
      rw [index, Option.filter_some, if_pos is_open, Option.filter_some, if_pos is_text]
      rfl
    · have not_text : ¬ (b.content == .text) = true := by
        rw [thinking]
        decide
      rw [Option.filter_some, if_neg not_text, Option.map_none, Option.filter_eq_none_iff]
      intro i _ is_open
      obtain ⟨b', eq, -, type⟩ := written.open_of_isBlockOpenOfType is_open
      cases eq
      rw [thinking] at type
      cases type

/-- No block is open but a text block that the context knows. -/
def TextOnly (c : StreamContext) (opened : Option Block) : Prop :=
  ∀ b, opened = some b → b.content = .text ∧ c.textBlockIndex = some b.index

theorem textOnly_of_settled (settled : Settled c closed opened)
    (no_thinking : thinkingOpen c = false) : TextOnly c opened := by
  intro b eq
  rcases settled.kind b eq with text | ⟨-, is_open⟩
  · exact text
  · rw [no_thinking] at is_open
    cases is_open

theorem openTextIndex_of_textOnly (written : Written log c.stateManager closed opened)
    (text_only : TextOnly c opened) : c.openTextIndex = opened.map (·.index) := by
  unfold openTextIndex
  cases opened with
  | none =>
    rw [Option.map_none, Option.filter_eq_none_iff]
    intro i _ is_open
    obtain ⟨b, eq, -⟩ := written.open_of_isBlockOpenOfType is_open
    cases eq
  | some b =>
    obtain ⟨text, index⟩ := text_only b rfl
    have is_open : c.stateManager.isBlockOpenOfType b.index .text = true := by
      rw [written.isBlockOpenOfType_open, text]
      rfl
    rw [index, Option.filter_some, if_pos is_open]
    rfl

theorem createTextDeltaEvents_spec (env : StreamEnv)
    (written : Written log c.stateManager closed opened) (text_only : TextOnly c opened)
    (room : c.stateManager.nextBlockIndex + 1 < 2 ^ 31) (text : Text) :
    ∃ out m b, c.createTextDeltaEvents env text =
        (out, { c with stateManager := m, textBlockIndex := some b.index }) ∧
      m.nextBlockIndex ≤ c.stateManager.nextBlockIndex + 1 ∧ b.content = .text ∧
      Written (log ++ out) m closed (some b) := by
  have open_index := openTextIndex_of_textOnly written text_only
  cases opened with
  | some b =>
    obtain ⟨is_text, index⟩ := text_only b rfl
    have fit : fits b.content (.textDelta text) = true := by
      rw [is_text]
      rfl
    refine ⟨_, c.stateManager, b.add (.textDelta text) fit, ?_, by omega, is_text,
      written.delta fit⟩
    unfold createTextDeltaEvents ensureText Emit.andThen
    rw [open_index]
    dsimp only [quiet, Option.map_some]
    rw [index]
    dsimp only [manage]
    rw [written.delta_open]
    show _ = (_, { c with textBlockIndex := some b.index })
    rw [← index]
    rfl
  | none =>
    obtain ⟨m, start_eq, next, started⟩ :=
      written.start_next env .text (fun eq => by cases eq) room
    have delta_eq := started.delta_open (.textDelta text)
    refine ⟨[.contentBlockStart c.stateManager.nextBlockIndex .text,
      .contentBlockDelta c.stateManager.nextBlockIndex (.textDelta text)], m,
      (Block.fresh c.stateManager.nextBlockIndex .text).add (.textDelta text) rfl, ?_,
      by omega, rfl, ?_⟩
    · unfold createTextDeltaEvents ensureText Emit.andThen
      rw [open_index]
      dsimp only [nextBlockIndex, startBlock, manage, Option.map_none]
      rw [start_eq]
      dsimp only
      have delta_eq' : m.handleContentBlockDelta c.stateManager.takeIndex.1 (.textDelta text) = _ :=
        delta_eq
      rw [delta_eq']
      rfl
    · have filled := started.delta (d := .textDelta text) rfl
      rwa [List.append_assoc] at filled

theorem Inv.createText (env : StreamEnv) (h : Inv n log c) (no_thinking : thinkingOpen c = false)
    (room : n + 1 < 2 ^ 31) (text : Text) :
    ∃ out m t, c.createTextDeltaEvents env text =
        (out, { c with stateManager := m, textBlockIndex := t }) ∧
      Inv (n + 1) (log ++ out) { c with stateManager := m, textBlockIndex := t } := by
  obtain ⟨le, closed, opened, written, settled⟩ := h
  obtain ⟨out, m, b, eq, next, is_text, written'⟩ :=
    createTextDeltaEvents_spec env written (textOnly_of_settled settled no_thinking) (by omega) text
  refine ⟨out, m, some b.index, eq, ?_, closed, some b, written', ?_⟩
  · show m.nextBlockIndex ≤ n + 1
    omega
  · constructor
    · intro b' same
      cases same
      exact .inl ⟨is_text, rfl⟩
    · intro is_open
      have : thinkingOpen c = true := is_open
      rw [no_thinking] at this
      cases this
    · exact settled.tagged
    · exact settled.reasoned
    · exact settled.enabled
    · exact settled.tools

theorem closeTextIfOpen_spec (written : Written log c.stateManager closed opened)
    (settled : Settled c closed opened) :
    ∃ out m closed' opened', c.closeTextIfOpen = (out, { c with stateManager := m }) ∧
      m.nextBlockIndex = c.stateManager.nextBlockIndex ∧ Written (log ++ out) m closed' opened' ∧
      (∀ b ∈ closed, b ∈ closed') ∧
      (opened' = none ∧ thinkingOpen c = false ∨ opened' = opened ∧ thinkingOpen c = true) := by
  unfold closeTextIfOpen
  rw [openTextIndex_eq written settled]
  cases opened with
  | none =>
    refine ⟨[], c.stateManager, closed, none, rfl, rfl, ?_, fun b mem => mem, .inl ⟨rfl, ?_⟩⟩
    · rwa [List.append_nil]
    · by_contra is_open
      rw [Bool.not_eq_false] at is_open
      obtain ⟨b, eq, -⟩ := settled.thinking is_open
      cases eq
  | some b =>
    rcases settled.kind b rfl with ⟨is_text, -⟩ | ⟨thinking, is_open⟩
    · have text_content : (b.content == .text) = true := by
        rw [is_text]
        rfl
      obtain ⟨m, stop_eq, next, written'⟩ := written.stop_open
      refine ⟨_, m, _, none, ?_, next, written', fun b mem => List.mem_append_left _ mem,
        .inl ⟨rfl, ?_⟩⟩
      · rw [Option.filter_some, if_pos text_content]
        dsimp only [Option.map_some, manage]
        rw [stop_eq]
      · by_contra is_open
        rw [Bool.not_eq_false] at is_open
        obtain ⟨b', eq, thinking, -⟩ := settled.thinking is_open
        cases eq
        exact not_thinking_of_text is_text thinking
    · have not_text : ¬ (b.content == .text) = true := by
        rw [thinking]
        decide
      refine ⟨[], c.stateManager, closed, some b, ?_, rfl, ?_, fun b mem => mem,
        .inr ⟨rfl, is_open⟩⟩
      · rw [Option.filter_some, if_neg not_text]
        rfl
      · rwa [List.append_nil]

theorem sendThinking_spec {b : Block} (written : Written log c.stateManager closed (some b))
    (index : c.thinkingBlockIndex = some b.index) (thinking : b.content = .thinking)
    (text : Text) :
    ∃ out b', c.sendThinking text = (out, c) ∧ b'.index = b.index ∧ b'.content = .thinking ∧
      Written (log ++ out) c.stateManager closed (some b') := by
  have fit : fits b.content (.thinkingDelta text) = true := by
    rw [thinking]
    rfl
  refine ⟨_, b.add _ fit, ?_, rfl, thinking, written.delta fit⟩
  unfold sendThinking createThinkingDeltaEvent
  rw [index]

theorem stopThinking_eq {index : Int} (known : c.thinkingBlockIndex = some index) :
    c.stopThinking = Emit.andThen
      ([createThinkingDeltaEvent index [], createSignatureDeltaEvent index], c)
      fun c => c.manage (c.stateManager.handleContentBlockStop index) := by
  unfold stopThinking
  rw [known]

theorem stopThinking_spec {b : Block} (written : Written log c.stateManager closed (some b))
    (index : c.thinkingBlockIndex = some b.index) (thinking : b.content = .thinking) :
    ∃ out m b', c.stopThinking = (out, { c with stateManager := m }) ∧
      m.nextBlockIndex = c.stateManager.nextBlockIndex ∧
      Written (log ++ out) m (closed ++ [b']) none := by
  have fit_thinking : fits b.content (.thinkingDelta []) = true := by
    rw [thinking]
    rfl
  have fit_signature :
      fits (b.add _ fit_thinking).content (.signatureDelta thinkingSignaturePlaceholder) = true := by
    show fits b.content _ = true
    rw [thinking]
    rfl
  obtain ⟨m, stop_eq, next, written'⟩ :=
    ((written.delta fit_thinking).delta fit_signature).stop_open
  refine ⟨[createThinkingDeltaEvent b.index [], createSignatureDeltaEvent b.index,
    .contentBlockStop b.index], m, (b.add _ fit_thinking).add _ fit_signature, ?_, next, ?_⟩
  · rw [stopThinking_eq index]
    dsimp only [Emit.andThen, manage]
    have stop_eq' : c.stateManager.handleContentBlockStop b.index = _ := stop_eq
    rw [stop_eq']
    rfl
  · rw [List.append_assoc, List.append_assoc] at written'
    exact written'

/-- The reasoning's block ends before anything else is sent. -/
theorem Inv.closeReasoning (h : Inv n log c) :
    ∃ out m, c.closeReasoningIfOpen =
        (out, { c with stateManager := m, reasoningBlockOpen := false }) ∧
      Inv n (log ++ out) { c with stateManager := m, reasoningBlockOpen := false } := by
  cases is_open : c.reasoningBlockOpen with
  | false =>
    have same : { c with stateManager := c.stateManager, reasoningBlockOpen := false } = c := by
      rw [← is_open]
    refine ⟨[], c.stateManager, ?_, ?_⟩
    · rw [same, closeReasoningIfOpen, is_open]
      rfl
    · rw [same, List.append_nil]
      exact h
  | true =>
    obtain ⟨le, closed, opened, written, settled⟩ := h
    have untagged : c.inThinkingBlock = false := by
      by_contra tagged
      rw [Bool.not_eq_false] at tagged
      have fresh := settled.tagged tagged
      rw [settled.reasoned is_open] at fresh
      cases fresh
    have thinking_open : thinkingOpen c = true := by
      unfold thinkingOpen
      rw [is_open, Bool.or_true]
    obtain ⟨b, rfl, thinking, index⟩ := settled.thinking thinking_open
    obtain ⟨out, m, b', eq, next, written'⟩ := stopThinking_spec written index thinking
    have closed_now : thinkingOpen { c with stateManager := m, reasoningBlockOpen := false } =
        false := by
      show (c.inThinkingBlock || false) = false
      rw [untagged]
      rfl
    refine ⟨out, m, ?_, ?_, closed ++ [b'], none, written', ?_⟩
    · have extracted : { c with
          stateManager := m
          reasoningBlockOpen := false
          thinkingExtracted := true } =
            { c with stateManager := m, reasoningBlockOpen := false } := by
        rw [← settled.reasoned is_open]
      rw [closeReasoningIfOpen, is_open, Bool.not_true, if_neg Bool.false_ne_true, eq]
      dsimp only [Emit.andThen, quiet]
      rw [List.append_nil, extracted]
    · show m.nextBlockIndex ≤ n
      rw [next]
      exact le
    · constructor
      · intro b' same
        cases same
      · intro is_open'
        rw [closed_now] at is_open'
        cases is_open'
      · exact settled.tagged
      · intro reasoning
        cases reasoning
      · intro is_open'
        rw [closed_now] at is_open'
        cases is_open'
      · intro id i found
        obtain ⟨b, mem, eq⟩ := settled.tools id i found
        exact ⟨b, List.mem_append_left _ mem, eq⟩

theorem Inv.endThinking (h : Inv n log c) (tagged : c.inThinkingBlock = true) (text : Text) :
    ∃ out m, c.endThinking text = (out, { c with
        stateManager := m
        inThinkingBlock := false
        thinkingExtracted := true
        stripTextAfterThinkingBoundary := true }) ∧
      Inv n (log ++ out) { c with
        stateManager := m
        inThinkingBlock := false
        thinkingExtracted := true
        stripTextAfterThinkingBoundary := true } := by
  obtain ⟨le, closed, opened, written, settled⟩ := h
  have thinking_open : thinkingOpen c = true := by
    unfold thinkingOpen
    rw [tagged]
    rfl
  have not_reasoning : c.reasoningBlockOpen = false := by
    by_contra reasoning
    rw [Bool.not_eq_false] at reasoning
    have fresh := settled.tagged tagged
    rw [settled.reasoned reasoning] at fresh
    cases fresh
  obtain ⟨b, rfl, thinking, index⟩ := settled.thinking thinking_open
  obtain ⟨sent, b₁, first_eq, same_index, thinking₁, written₁⟩ :
      ∃ sent b₁, (if text.isEmpty then quiet c else c.sendThinking text) = (sent, c) ∧
        b₁.index = b.index ∧ b₁.content = .thinking ∧
        Written (log ++ sent) c.stateManager closed (some b₁) := by
    cases text with
    | nil =>
      refine ⟨[], b, rfl, rfl, thinking, ?_⟩
      rwa [List.append_nil]
    | cons x xs =>
      obtain ⟨sent, b₁, eq, same, thinking₁, written₁⟩ :=
        sendThinking_spec written index thinking (x :: xs)
      exact ⟨sent, b₁, eq, same, thinking₁, written₁⟩
  obtain ⟨out, m, b₂, stop_eq, next, written₂⟩ :=
    stopThinking_spec (c := { c with
      inThinkingBlock := false
      thinkingExtracted := true
      stripTextAfterThinkingBoundary := true }) written₁ (index.trans (by rw [same_index])) thinking₁
  have closed_now : thinkingOpen { c with
      stateManager := m
      inThinkingBlock := false
      thinkingExtracted := true
      stripTextAfterThinkingBoundary := true } = false := by
    show (false || c.reasoningBlockOpen) = false
    rw [not_reasoning]
    rfl
  refine ⟨sent ++ out, m, ?_, ?_, closed ++ [b₂], none, ?_, ?_⟩
  · unfold StreamContext.endThinking Emit.andThen
    rw [first_eq]
    dsimp only
    rw [stop_eq]
  · show m.nextBlockIndex ≤ n
    rw [next]
    exact le
  · rwa [← List.append_assoc]
  · constructor
    · intro b' same
      cases same
    · intro is_open
      rw [closed_now] at is_open
      cases is_open
    · intro tagged'
      cases tagged'
    · intro _
      rfl
    · intro is_open
      rw [closed_now] at is_open
      cases is_open
    · intro id i found
      obtain ⟨b', mem, eq⟩ := settled.tools id i found
      exact ⟨b', List.mem_append_left _ mem, eq⟩

theorem Inv.sendThinking (h : Inv n log c) (is_open : thinkingOpen c = true) (text : Text) :
    ∃ out, c.sendThinking text = (out, c) ∧ Inv n (log ++ out) c := by
  obtain ⟨le, closed, opened, written, settled⟩ := h
  obtain ⟨b, rfl, thinking, index⟩ := settled.thinking is_open
  obtain ⟨out, b', eq, same, thinking', written'⟩ :=
    sendThinking_spec written index thinking text
  refine ⟨out, eq, le, closed, some b', written', ?_⟩
  constructor
  · intro b'' eq''
    cases eq''
    exact .inr ⟨thinking', is_open⟩
  · intro _
    exact ⟨b', rfl, thinking', index.trans (by rw [same])⟩
  · exact settled.tagged
  · exact settled.reasoned
  · exact settled.enabled
  · exact settled.tools

theorem Inv.enterThinking (env : StreamEnv) (h : Inv n log c) (no_thinking : thinkingOpen c = false)
    (no_text : c.openTextIndex = none) (fresh : c.thinkingExtracted = false)
    (enabled : c.thinkingEnabled = true) (room : n + 1 < 2 ^ 31) (after : Text) :
    Leads (Inv (n + 1)) log (c.enterThinking env after) ∧
      (c.enterThinking env after).2.inThinkingBlock = true ∧
      (c.enterThinking env after).2.thinkingBuffer = after := by
  obtain ⟨le, closed, opened, written, settled⟩ := h
  have nothing_open : opened = none := by
    cases opened with
    | none => rfl
    | some b =>
      rcases settled.kind b rfl with ⟨is_text, -⟩ | ⟨-, is_open⟩
      · have text_content : (b.content == .text) = true := by
          rw [is_text]
          rfl
        rw [openTextIndex_eq written settled, Option.filter_some, if_pos text_content] at no_text
        cases no_text
      · rw [no_thinking] at is_open
        cases is_open
  subst nothing_open
  obtain ⟨m, start_eq, next, started⟩ :=
    written.start_next env .thinking (fun eq => by cases eq) (by omega)
  have eq : c.enterThinking env after = ([.contentBlockStart c.stateManager.nextBlockIndex .thinking],
      { c with
        stateManager := m
        inThinkingBlock := true
        stripThinkingLeadingNewline := true
        thinkingBuffer := after
        thinkingBlockIndex := some c.stateManager.nextBlockIndex }) := by
    unfold StreamContext.enterThinking
    dsimp only [nextBlockIndex, startBlock, manage]
    rw [start_eq]
    rfl
  rw [eq]
  refine ⟨⟨?_, closed, some _, started, ?_⟩, rfl, rfl⟩
  · show m.nextBlockIndex ≤ n + 1
    omega
  · constructor
    · intro b same
      cases same
      exact .inr ⟨rfl, rfl⟩
    · intro _
      exact ⟨_, rfl, rfl, rfl⟩
    · intro _
      exact fresh
    · exact settled.reasoned
    · intro _
      exact enabled
    · exact settled.tools

theorem Inv.redacted (env : StreamEnv) (h : Inv n log c) (untagged : c.inThinkingBlock = false)
    (room : n + 1 < 2 ^ 31) (data : String) :
    Leads (Inv (n + 1)) log (c.processRedacted env data) := by
  obtain ⟨out₁, m₁, reasoning_eq, le, closed, opened, written, settled⟩ := h.closeReasoning
  have no_thinking : thinkingOpen { c with stateManager := m₁, reasoningBlockOpen := false } =
      false := by
    show (c.inThinkingBlock || false) = false
    rw [untagged]
    rfl
  obtain ⟨out₂, m₂, closed₂, opened₂, text_eq, next₂, written₂, grows, shape⟩ :=
    closeTextIfOpen_spec written settled
  have nothing_open : opened₂ = none := by
    rcases shape with ⟨none_left, -⟩ | ⟨-, is_open⟩
    · exact none_left
    · rw [no_thinking] at is_open
      cases is_open
  subst nothing_open
  have le' : m₁.nextBlockIndex ≤ n := le
  have next₂' : m₂.nextBlockIndex = m₁.nextBlockIndex := next₂
  obtain ⟨m₃, start_eq, next₃, started⟩ := written₂.start_next env
    (.redactedThinking data) (fun eq => by cases eq) (by omega)
  obtain ⟨m₄, stop_eq, next₄, stopped⟩ := started.stop_open
  have eq : c.processRedacted env data = (out₁ ++ out₂ ++
      ([.contentBlockStart m₂.nextBlockIndex (.redactedThinking data)] ++
        [.contentBlockStop m₂.nextBlockIndex]), { c with
      stateManager := m₄
      reasoningBlockOpen := false
      thinkingExtracted := true }) := by
    unfold processRedacted Emit.andThen
    rw [reasoning_eq]
    dsimp only
    rw [text_eq]
    dsimp only [nextBlockIndex, startBlock, manage]
    rw [start_eq]
    dsimp only
    have stop_eq' : m₃.handleContentBlockStop m₂.takeIndex.1 = _ := stop_eq
    rw [stop_eq']
    dsimp only [quiet]
    rw [List.append_nil]
    rfl
  rw [eq]
  refine ⟨?_, closed₂ ++ [Block.fresh m₂.nextBlockIndex (.redactedThinking data)], none, ?_, ?_⟩
  · show m₄.nextBlockIndex ≤ n + 1
    omega
  · rw [List.append_assoc, List.append_assoc, List.append_assoc] at stopped
    rw [List.append_assoc]
    exact stopped
  · constructor
    · intro b same
      cases same
    · intro is_open
      exact absurd (no_thinking.symm.trans is_open) Bool.false_ne_true
    · intro tagged
      have tagged' : c.inThinkingBlock = true := tagged
      rw [untagged] at tagged'
      cases tagged'
    · intro reasoning
      cases reasoning
    · intro is_open
      exact absurd (no_thinking.symm.trans is_open) Bool.false_ne_true
    · intro id i found
      obtain ⟨b, mem, eq⟩ := settled.tools id i found
      exact ⟨b, List.mem_append_left _ (grows b mem), eq⟩

/-- The reasoning goes on in the open thinking block, or gets one of its own. -/
theorem Inv.openReasoning (env : StreamEnv) (h : Inv n log c)
    (enabled : c.thinkingEnabled = true) (room : n + 1 < 2 ^ 31) :
    ∃ out m i, c.openReasoning env = (out, { c with
        stateManager := m
        thinkingBlockIndex := some i
        reasoningBlockOpen := true
        inThinkingBlock := false
        thinkingExtracted := true }) ∧
      Inv (n + 1) (log ++ out) { c with
        stateManager := m
        thinkingBlockIndex := some i
        reasoningBlockOpen := true
        inThinkingBlock := false
        thinkingExtracted := true } := by
  obtain ⟨le, closed, opened, written, settled⟩ := h
  obtain ⟨out₁, m₁, closed₁, opened₁, text_eq, next₁, written₁, grows, shape⟩ :=
    closeTextIfOpen_spec written settled
  have settle : ∀ {m : SseStateManager} {b : Block}, b.content = .thinking →
      Settled { c with
        stateManager := m
        thinkingBlockIndex := some b.index
        reasoningBlockOpen := true
        inThinkingBlock := false
        thinkingExtracted := true } closed₁ (some b) := by
    intro m b thinking
    constructor
    · intro b' same
      cases same
      exact .inr ⟨thinking, rfl⟩
    · intro _
      exact ⟨b, rfl, thinking, rfl⟩
    · intro tagged
      cases tagged
    · intro _
      rfl
    · intro _
      exact enabled
    · intro id i found
      obtain ⟨b', mem, eq⟩ := settled.tools id i found
      exact ⟨b', grows b' mem, eq⟩
  rcases shape with ⟨rfl, no_thinking⟩ | ⟨rfl, is_open⟩
  · have no_block : c.thinkingBlockIndex.filter (fun i => m₁.isBlockOpenOfType i .thinking) =
        none := by
      rw [Option.filter_eq_none_iff]
      intro i _ is_open
      obtain ⟨b, eq, -⟩ := written₁.open_of_isBlockOpenOfType is_open
      cases eq
    obtain ⟨m, start_eq, next, started⟩ :=
      written₁.start_next env .thinking (fun eq => by cases eq) (by omega)
    refine ⟨out₁ ++ [.contentBlockStart m₁.nextBlockIndex .thinking], m, m₁.nextBlockIndex, ?_,
      ?_, closed₁, some _, ?_, settle (b := Block.fresh m₁.nextBlockIndex .thinking) rfl⟩
    · unfold StreamContext.openReasoning Emit.andThen
      rw [text_eq]
      dsimp only
      rw [no_block]
      dsimp only [nextBlockIndex, startBlock, manage]
      rw [start_eq]
      rfl
    · show m.nextBlockIndex ≤ n + 1
      omega
    · rwa [← List.append_assoc]
  · obtain ⟨b, rfl, thinking, index⟩ := settled.thinking is_open
    have open_now : m₁.isBlockOpenOfType b.index .thinking = true := by
      rw [written₁.isBlockOpenOfType_open, thinking]
      rfl
    refine ⟨out₁, m₁, b.index, ?_, ?_, closed₁, some b, written₁, settle thinking⟩
    · unfold StreamContext.openReasoning Emit.andThen
      rw [text_eq]
      dsimp only
      rw [index, Option.filter_some, if_pos open_now]
      dsimp only [startBlock, manage]
      rw [written₁.start_again env .thinking (fun eq => by cases eq)]
      show (out₁ ++ [], _) = _
      rw [List.append_nil]
      rfl
    · show m₁.nextBlockIndex ≤ n + 1
      omega

theorem hasNonThinkingBlocks_of_mem (written : Written log c.stateManager closed opened)
    {b : Block} (mem : b ∈ closed) (other : b.content.type ≠ .thinking) :
    c.stateManager.hasNonThinkingBlocks = true := by
  unfold SseStateManager.hasNonThinkingBlocks
  rw [written.known, List.any_append, List.any_map, Bool.or_eq_true]
  refine .inl (List.any_eq_true.mpr ⟨b, mem, ?_⟩)
  exact bne_iff_ne.mpr other

def toolFrame (c : StreamContext) (m : SseStateManager) (indices : Dicts.Dict Int)
    (tokens : Int) : StreamContext :=
  { c with stateManager := m, toolBlockIndices := indices, outputTokens := tokens }

theorem settled_toolFrame (settled : Settled c closed opened) {closed' : List Block}
    {opened' : Option Block} {m : SseStateManager} {indices : Dicts.Dict Int} {tokens : Int}
    (shape : opened' = opened ∨ opened' = none ∧ thinkingOpen c = false)
    (known : ∀ id i, Dicts.get indices id = some i → ∃ b ∈ closed', b.index = i) :
    Settled (toolFrame c m indices tokens) closed' opened' := by
  rcases shape with rfl | ⟨rfl, no_thinking⟩
  · exact ⟨settled.kind, settled.thinking, settled.tagged, settled.reasoned, settled.enabled,
      known⟩
  · constructor
    · intro b same
      cases same
    · intro is_open
      exact absurd (no_thinking.symm.trans is_open) Bool.false_ne_true
    · exact settled.tagged
    · exact settled.reasoned
    · exact settled.enabled
    · exact known

theorem emit_fresh (env : StreamEnv) (h : Inv n log c) (no_thinking : thinkingOpen c = false)
    (room : n + 1 < 2 ^ 31) {t : CompletedToolUse}
    (unknown : Dicts.get c.toolBlockIndices t.id = none) :
    ∃ out m indices tokens,
      c.emitCompletedToolUse env t = (out, toolFrame c m indices tokens) ∧
      Inv (n + 1) (log ++ out) (toolFrame c m indices tokens) := by
  obtain ⟨le, closed, opened, written, settled⟩ := h
  have text_only : ∀ b, opened = some b → b.content.type = .text := by
    intro b eq
    rcases settled.kind b eq with ⟨is_text, -⟩ | ⟨-, is_open⟩
    · rw [is_text]
      rfl
    · rw [no_thinking] at is_open
      cases is_open
  obtain ⟨out₁, m₁, closed₁, start_eq, next₁, grows, started⟩ :=
    written.start_tool env text_only t.id t.name (by omega)
  let json := t.input.render env.formatFloat
  have fit : fits (Block.fresh c.stateManager.nextBlockIndex (.toolUse t.id t.name)).content
      (.inputJsonDelta json) = true := rfl
  have filled := started.delta fit
  obtain ⟨m₂, stop_eq, next₂, stopped⟩ := filled.stop_open
  have eq : c.emitCompletedToolUse env t = (out₁ ++
      [.contentBlockDelta c.stateManager.nextBlockIndex (.inputJsonDelta json)] ++
      [.contentBlockStop c.stateManager.nextBlockIndex],
      toolFrame c m₂ (Dicts.insert c.toolBlockIndices t.id c.stateManager.nextBlockIndex)
        (wrapI32 (c.outputTokens + estimateTokens json.toList))) := by
    unfold emitCompletedToolUse Emit.andThen
    rw [unknown]
    dsimp only [nextBlockIndex, startBlock, manage, addOutputTokens]
    rw [start_eq]
    dsimp only
    have delta_eq : m₁.handleContentBlockDelta c.stateManager.takeIndex.1 (.inputJsonDelta json) =
      _ := started.delta_open (.inputJsonDelta json)
    rw [delta_eq]
    have stop_eq' : m₁.handleContentBlockStop c.stateManager.takeIndex.1 = _ := stop_eq
    rw [stop_eq']
    rfl
  have known : ∀ id i, Dicts.get
      (Dicts.insert c.toolBlockIndices t.id c.stateManager.nextBlockIndex) id = some i →
      ∃ b ∈ closed₁ ++ [(Block.fresh c.stateManager.nextBlockIndex
        (.toolUse t.id t.name)).add _ fit], b.index = i := by
    intro id i found
    rw [Dicts.get_insert] at found
    split_ifs at found with same
    · cases found
      exact ⟨_, List.mem_append_right _ List.mem_cons_self, rfl⟩
    · obtain ⟨b, mem, eq⟩ := settled.tools id i found
      exact ⟨b, List.mem_append_left _ (grows b mem), eq⟩
  refine ⟨_, _, _, _, eq, ?_, _, none, ?_,
    settled_toolFrame settled (.inr ⟨rfl, no_thinking⟩) known⟩
  · show m₂.nextBlockIndex ≤ n + 1
    omega
  · rw [← List.append_assoc, ← List.append_assoc]
    exact stopped

theorem emit_known (env : StreamEnv) (h : Inv n log c) {t : CompletedToolUse} {index : Int}
    (known : Dicts.get c.toolBlockIndices t.id = some index) :
    ∃ out m tokens,
      c.emitCompletedToolUse env t = (out, toolFrame c m c.toolBlockIndices tokens) ∧
      Inv n (log ++ out) (toolFrame c m c.toolBlockIndices tokens) ∧
      (thinkingOpen c = true → c.stateManager.hasNonThinkingBlocks = true →
        m.hasNonThinkingBlocks = true) := by
  obtain ⟨le, closed, opened, written, settled⟩ := h
  obtain ⟨b, mem, rfl⟩ := settled.tools t.id index known
  obtain ⟨out, m, closed', opened', start_eq, next, written', grows, shape⟩ :=
    written.start_known env mem t.id t.name
  let json := t.input.render env.formatFloat
  have eq : c.emitCompletedToolUse env t = (out, toolFrame c m c.toolBlockIndices
      (wrapI32 (c.outputTokens + estimateTokens json.toList))) := by
    unfold emitCompletedToolUse Emit.andThen
    rw [known]
    dsimp only [startBlock, manage, addOutputTokens]
    rw [start_eq]
    dsimp only
    rw [written'.delta_closed (grows b mem)]
    dsimp only [quiet]
    rw [written'.stop_closed (grows b mem)]
    dsimp only [quiet]
    rw [List.append_nil, List.append_nil]
    rfl
  refine ⟨out, m, _, eq, ⟨?_, closed', opened', written', settled_toolFrame settled ?_ ?_⟩, ?_⟩
  · show m.nextBlockIndex ≤ n
    omega
  · rcases shape with ⟨same, -⟩ | ⟨none_left, b', eq', type⟩
    · exact .inl same
    · refine .inr ⟨none_left, ?_⟩
      by_contra is_open
      rw [Bool.not_eq_false] at is_open
      obtain ⟨b'', eq'', thinking, -⟩ := settled.thinking is_open
      cases eq'.symm.trans eq''
      rw [thinking] at type
      cases type
  · intro id i found
    obtain ⟨b', mem', eq'⟩ := settled.tools id i found
    exact ⟨b', grows b' mem', eq'⟩
  · intro is_open has
    obtain ⟨b', rfl, thinking, -⟩ := settled.thinking is_open
    unfold SseStateManager.hasNonThinkingBlocks at has
    rw [written.known, List.any_append, List.any_map, Bool.or_eq_true] at has
    rcases has with old | now
    · obtain ⟨c', mem', other⟩ := List.any_eq_true.mp old
      exact hasNonThinkingBlocks_of_mem (c := toolFrame c m [] 0) written' (grows c' mem')
        (bne_iff_ne.mp other)
    · have type : (openEntry b').2.blockType = .thinking := by
        show b'.content.type = _
        rw [thinking]
        rfl
      simp [type] at now

end KiroRs.Stream.BlockOps
