/- Path: KiroRs/Stream/BlockOrder
   source: src/anthropic/stream.rs
   digest: The runs in which what is sent to the client is a well-formed message, and one in which
   it is not. -/

import KiroRs.Stream.BlockOps

set_option autoImplicit false
set_option relaxedAutoImplicit false

namespace KiroRs.Stream.BlockOrder

open KiroRs.Lib
open KiroRs.Lib.Emits
open KiroRs.Lib.Text
open KiroRs.Stream.XmlFilter
open KiroRs.Stream.Events
open KiroRs.Stream.StateManager
open KiroRs.Stream.ThinkingTags
open KiroRs.Stream.ToolJson
open KiroRs.Stream.Context
open KiroRs.Stream.Context.StreamContext
open KiroRs.Stream.WellFormed
open KiroRs.Stream.BlockOps

variable {env : StreamEnv} {log : List SseEvent} {c : StreamContext} {n : Int}
variable {closed : List Block} {opened : Option Block}

theorem inv_createText (env : StreamEnv) (h : Inv n log c) (no_thinking : thinkingOpen c = false)
    (room : n + 1 < 2 ^ 31) (text : Text) :
    Leads (Inv (n + 1)) log (c.createTextDeltaEvents env text) := by
  obtain ⟨out, m, t, eq, inv⟩ := h.createText env no_thinking room text
  rw [eq]
  exact inv

theorem inv_emitExtracted (env : StreamEnv) (h : Inv n log c) (no_thinking : thinkingOpen c = false)
    (room : n + 1 < 2 ^ 31) : Leads (Inv (n + 1)) log (c.emitExtracted env) := by
  unfold emitExtracted
  dsimp only
  have emptied : ∀ flag, Inv n log { c with
      thinkingBuffer := []
      stripTextAfterThinkingBoundary := flag } :=
    fun _ => h.same (by constructor <;> rfl)
  split_ifs
  · exact leads_quiet.mpr ((emptied _).mono (by omega))
  · exact inv_createText env (emptied _) no_thinking room _
  · exact leads_quiet.mpr ((emptied _).mono (by omega))
  · exact inv_createText env (emptied _) no_thinking room _

theorem stripLeadingNewline_inv (h : Inv n log c) : Inv n log c.stripLeadingNewline := by
  unfold stripLeadingNewline
  split_ifs
  · exact h.same (by constructor <;> rfl)
  · exact h

@[simp] theorem stripLeadingNewline_inThinkingBlock :
    c.stripLeadingNewline.inThinkingBlock = c.inThinkingBlock := by
  unfold stripLeadingNewline
  split_ifs <;> rfl

theorem not_reasoning_of_tagged (h : Inv n log c) (tagged : c.inThinkingBlock = true) :
    c.reasoningBlockOpen = false := by
  obtain ⟨-, closed, opened, -, settled⟩ := h
  by_contra reasoning
  rw [Bool.not_eq_false] at reasoning
  have fresh := settled.tagged tagged
  rw [settled.reasoned reasoning] at fresh
  cases fresh

theorem inv_scanThinking (env : StreamEnv) (h : Inv n log c) (tagged : c.inThinkingBlock = true)
    (room : n + 1 < 2 ^ 31) : Leads (Inv (n + 1)) log (c.scanThinking env) := by
  have stripped := stripLeadingNewline_inv h
  have tagged' : c.stripLeadingNewline.inThinkingBlock = true := by
    rw [stripLeadingNewline_inThinkingBlock]
    exact tagged
  unfold scanThinking
  dsimp only
  cases found : findRealThinkingEndTagWithBoundary c.stripLeadingNewline.thinkingBuffer with
  | some p =>
    obtain ⟨thinking, after⟩ := p
    dsimp only
    obtain ⟨out, m, eq, ended⟩ := stripped.endThinking tagged' thinking
    have not_reasoning := not_reasoning_of_tagged stripped tagged'
    rw [eq]
    refine Leads.andThen (R := Inv n) ended fun ended => ?_
    refine inv_emitExtracted env (ended.same (by constructor <;> rfl)) ?_ room
    show (false || c.stripLeadingNewline.reasoningBlockOpen) = false
    rw [not_reasoning]
    rfl
  | none =>
    dsimp only
    split_ifs with nothing
    · exact leads_quiet.mpr (stripped.mono (by omega))
    · have kept := stripped.same (d := { c.stripLeadingNewline with
        thinkingBuffer :=
          (splitKeep thinkingEndTag.length c.stripLeadingNewline.thinkingBuffer).2 }) (by constructor <;> rfl)
      have is_open : thinkingOpen { c.stripLeadingNewline with
          thinkingBuffer :=
            (splitKeep thinkingEndTag.length c.stripLeadingNewline.thinkingBuffer).2 } = true := by
        show (c.stripLeadingNewline.inThinkingBlock || _) = true
        rw [tagged']
        rfl
      obtain ⟨out, eq, inv⟩ := kept.sendThinking is_open
        (splitKeep thinkingEndTag.length c.stripLeadingNewline.thinkingBuffer).1
      rw [eq]
      exact inv.mono (by omega)

/-- Where a start tag is recognised in new text, nothing but white space waits in front of it and
no text block is open. -/
def StartsCleanly (c : StreamContext) (text : Text) : Prop :=
  text ≠ [] → c.thinkingEnabled = true → c.inThinkingBlock = false → c.thinkingExtracted = false →
    ∀ before after, findRealThinkingStartTag (c.thinkingBuffer ++ text) = some (before, after) →
      isBlank before = true ∧ c.openTextIndex = none

theorem startsCleanly_of {text : Text} {p : Text × Text}
    (found : findRealThinkingStartTag (c.thinkingBuffer ++ text) = some p)
    (blank : isBlank p.1 = true) (no_text : c.openTextIndex = none) : StartsCleanly c text := by
  intro _ _ _ _ before after found'
  cases found.symm.trans found'
  exact ⟨blank, no_text⟩

theorem inv_scanStart (env : StreamEnv) (h : Inv n log c) (untagged : c.inThinkingBlock = false)
    (fresh : c.thinkingExtracted = false) (enabled : c.thinkingEnabled = true)
    (cleanly : ∀ before after, findRealThinkingStartTag c.thinkingBuffer = some (before, after) →
      isBlank before = true ∧ c.openTextIndex = none)
    (room : n + 2 < 2 ^ 31) : Leads (Inv (n + 2)) log (c.scanStart env) := by
  have not_reasoning : c.reasoningBlockOpen = false := by
    obtain ⟨-, closed, opened, -, settled⟩ := h
    by_contra reasoning
    rw [Bool.not_eq_false] at reasoning
    rw [settled.reasoned reasoning] at fresh
    cases fresh
  have no_thinking : thinkingOpen c = false := by
    unfold thinkingOpen
    rw [untagged, not_reasoning]
    rfl
  unfold scanStart
  cases found : findRealThinkingStartTag c.thinkingBuffer with
  | some p =>
    obtain ⟨before, after⟩ := p
    obtain ⟨blank, no_text⟩ := cleanly before after found
    dsimp only
    rw [if_pos blank]
    obtain ⟨entered, tagged, -⟩ :=
      h.enterThinking env no_thinking no_text fresh enabled (by omega) after
    have first : Leads (fun log' c' => Inv (n + 1) log' c' ∧ c'.inThinkingBlock = true) log
        ((quiet c).andThen fun c => c.enterThinking env after) :=
      Leads.andThen (leads_quiet.mpr h) fun _ => by
        show Inv (n + 1) (log ++ [] ++ _) _ ∧ _
        rw [List.append_nil]
        exact ⟨entered, tagged⟩
    refine first.andThen fun inv => ?_
    have scanned := inv_scanThinking env inv.1 inv.2 (by omega)
    rwa [Int.add_assoc] at scanned
  | none =>
    dsimp only
    split_ifs
    · exact leads_quiet.mpr (h.mono (by omega))
    · refine (inv_createText env h no_thinking (by omega) _).andThen fun inv => ?_
      exact leads_quiet.mpr ((inv.same (by constructor <;> rfl)).mono (by omega))

theorem inv_processContent (env : StreamEnv) (h : Inv n log c)
    (not_reasoning : c.reasoningBlockOpen = false) (enabled : c.thinkingEnabled = true)
    {text : Text} (nonempty : text ≠ []) (cleanly : StartsCleanly c text)
    (room : n + 2 < 2 ^ 31) :
    Leads (Inv (n + 2)) log (c.processContentWithThinking env text) := by
  have buffered := h.same (d := { c with thinkingBuffer := c.thinkingBuffer ++ text }) (by constructor <;> rfl)
  unfold processContentWithThinking
  dsimp only
  split_ifs with before inside
  · rw [Bool.and_eq_true, Bool.not_eq_true', Bool.not_eq_true'] at before
    refine inv_scanStart env buffered before.1 before.2 enabled ?_ room
    intro front after found
    exact cleanly nonempty enabled before.1 before.2 front after found
  · have scanned := inv_scanThinking env buffered inside (by omega)
    exact scanned.mono fun _ _ inv => inv.mono (by omega)
  · rw [Bool.not_eq_true] at inside
    have no_thinking : thinkingOpen c = false := by
      unfold thinkingOpen
      rw [inside, not_reasoning]
      rfl
    have sent := inv_emitExtracted env buffered no_thinking (by omega)
    exact sent.mono fun _ _ inv => inv.mono (by omega)

theorem inv_processFiltered (env : StreamEnv) (h : Inv n log c)
    (not_reasoning : c.reasoningBlockOpen = false) {text : Text} (nonempty : text ≠ [])
    (cleanly : StartsCleanly c text) (room : n + 2 < 2 ^ 31) :
    Leads (Inv (n + 2)) log (c.processFiltered env text) := by
  unfold processFiltered
  split_ifs with enabled
  · exact inv_processContent env h not_reasoning enabled nonempty cleanly room
  · rw [Bool.not_eq_true] at enabled
    have no_thinking : thinkingOpen c = false := by
      obtain ⟨-, closed, opened, -, settled⟩ := h
      by_contra is_open
      rw [Bool.not_eq_false] at is_open
      rw [settled.enabled is_open] at enabled
      cases enabled
    exact (inv_createText env h no_thinking (by omega) text).mono
      fun _ _ inv => inv.mono (by omega)

theorem inv_processAssistantResponse (env : StreamEnv) (h : Inv n log c)
    (not_reasoning : c.reasoningBlockOpen = false) {content : Text}
    (cleanly : StartsCleanly c (c.toolUseXmlFilter.filter content).1) (room : n + 2 < 2 ^ 31) :
    Leads (Inv (n + 2)) log (c.processAssistantResponse env content) := by
  unfold processAssistantResponse
  dsimp only
  split_ifs with nothing
  · exact leads_quiet.mpr ((h.same (by constructor <;> rfl)).mono (by omega))
  · have nonempty : (c.toolUseXmlFilter.filter content).1 ≠ [] := by
      rintro eq
      rw [eq] at nothing
      exact nothing rfl
    have counted : Inv n log
        (addOutputTokens { c with toolUseXmlFilter := (c.toolUseXmlFilter.filter content).2 }
          (c.toolUseXmlFilter.filter content).1) :=
      h.same (by constructor <;> rfl)
    exact inv_processFiltered env counted not_reasoning nonempty cleanly room

structure SameTools (c c' : StreamContext) : Prop where
  accumulator : c'.toolJsonAccumulator = c.toolJsonAccumulator
  names : c'.toolNameMap = c.toolNameMap
  indices : c'.toolBlockIndices = c.toolBlockIndices
  reasoning : c'.reasoningBlockOpen = c.reasoningBlockOpen

theorem inv_createText_tools (env : StreamEnv) {k : StreamContext} (h : Inv n log c)
    (same : SameTools k c) (no_thinking : thinkingOpen c = false) (room : n + 1 < 2 ^ 31)
    (text : Text) : Leads (fun log' c' => Inv (n + 1) log' c' ∧ SameTools k c' ∧
      c'.inThinkingBlock = c.inThinkingBlock) log (c.createTextDeltaEvents env text) := by
  obtain ⟨out, m, t, eq, inv⟩ := h.createText env no_thinking room text
  rw [eq]
  exact ⟨inv, ⟨same.accumulator, same.names, same.indices, same.reasoning⟩, rfl⟩

/-- Behind this no thinking is open whose end tag has arrived. -/
theorem inv_settleThinking (env : StreamEnv) (h : Inv n log c) (room : n + 1 < 2 ^ 31) :
    Leads (fun log' c' => Inv (n + 1) log' c' ∧ SameTools c c' ∧
      (c'.inThinkingBlock = true → c.inThinkingBlock = true ∧
        (c.thinkingEnabled = true → findRealThinkingEndTagAtBufferEnd c.thinkingBuffer = none)))
      log (c.settleThinking env) := by
  unfold settleThinking
  by_cases inside : (c.thinkingEnabled && c.inThinkingBlock) = true
  · rw [if_pos inside]
    rw [Bool.and_eq_true] at inside
    cases found : findRealThinkingEndTagAtBufferEnd c.thinkingBuffer with
    | none =>
      exact leads_quiet.mpr ⟨h.mono (by omega), ⟨rfl, rfl, rfl, rfl⟩,
        fun tagged => ⟨tagged, fun _ => rfl⟩⟩
    | some p =>
      obtain ⟨thinking, after⟩ := p
      obtain ⟨out, m, eq, ended⟩ := h.endThinking inside.2 thinking
      have not_reasoning := not_reasoning_of_tagged h inside.2
      dsimp only
      rw [eq]
      refine Leads.andThen (R := Inv n) ended fun ended => ?_
      unfold emitRest
      dsimp only
      by_cases nothing : (trimStart after).isEmpty = true
      · rw [if_pos nothing]
        refine leads_quiet.mpr ⟨(ended.same (by constructor <;> rfl)).mono (by omega),
          ⟨rfl, rfl, rfl, rfl⟩, ?_⟩
        intro tagged
        cases tagged
      · rw [if_neg nothing]
        have no_thinking : (false || c.reasoningBlockOpen) = false := by
          rw [not_reasoning]
          rfl
        have sent := inv_createText_tools env (k := c)
          (ended.same (d := { c with
            stateManager := m
            inThinkingBlock := false
            thinkingExtracted := true
            stripTextAfterThinkingBoundary := true
            thinkingBuffer := [] }) (by constructor <;> rfl)) ⟨rfl, rfl, rfl, rfl⟩ no_thinking room
          (trimStart after)
        refine sent.mono fun log' c' all => ⟨all.1, all.2.1, fun tagged => ?_⟩
        rw [all.2.2] at tagged
        cases tagged
  · rw [if_neg inside]
    refine leads_quiet.mpr ⟨h.mono (by omega), ⟨rfl, rfl, rfl, rfl⟩,
      fun tagged => ⟨tagged, fun enabled => ?_⟩⟩
    rw [enabled, tagged] at inside
    exact absurd rfl inside

theorem inv_flushWaiting (env : StreamEnv) {k : StreamContext} (h : Inv n log c)
    (same : SameTools k c) (not_reasoning : c.reasoningBlockOpen = false)
    (room : n + 1 < 2 ^ 31) : Leads (fun log' c' => Inv (n + 1) log' c' ∧ SameTools k c' ∧
      c'.inThinkingBlock = c.inThinkingBlock) log (c.flushWaiting env) := by
  unfold flushWaiting
  split_ifs with waiting
  · simp only [Bool.and_eq_true, Bool.not_eq_true'] at waiting
    have no_thinking : (c.inThinkingBlock || c.reasoningBlockOpen) = false := by
      rw [waiting.1.1.2, not_reasoning]
      rfl
    exact inv_createText_tools env
      (h.same (d := { c with thinkingBuffer := [] }) (by constructor <;> rfl))
      ⟨same.accumulator, same.names, same.indices, same.reasoning⟩ no_thinking room _
  · exact leads_quiet.mpr ⟨h.mono (by omega), same, rfl⟩

theorem inv_emit (env : StreamEnv) (h : Inv n log c) {t : CompletedToolUse}
    (known : thinkingOpen c = true → (Dicts.get c.toolBlockIndices t.id).isSome = true)
    (room : n + 1 < 2 ^ 31) : ∃ out m indices tokens,
      c.emitCompletedToolUse env t = (out, toolFrame c m indices tokens) ∧
      Inv (n + 1) (log ++ out) (toolFrame c m indices tokens) ∧
      (thinkingOpen c = true → indices = c.toolBlockIndices ∧
        (c.stateManager.hasNonThinkingBlocks = true → m.hasNonThinkingBlocks = true)) := by
  cases found : Dicts.get c.toolBlockIndices t.id with
  | some index =>
    obtain ⟨out, m, tokens, eq, inv, has⟩ := emit_known env h found
    exact ⟨out, m, _, tokens, eq, inv.mono (by omega), fun is_open => ⟨rfl, has is_open⟩⟩
  | none =>
    have no_thinking : thinkingOpen c = false := by
      by_contra is_open
      rw [Bool.not_eq_false] at is_open
      have := known is_open
      rw [found] at this
      cases this
    obtain ⟨out, m, indices, tokens, eq, inv⟩ := emit_fresh env h no_thinking room found
    refine ⟨out, m, indices, tokens, eq, inv, fun is_open => ?_⟩
    rw [no_thinking] at is_open
    cases is_open

def CompletesCleanly (env : StreamEnv) (c : StreamContext) (e : ToolUseEvent) : Prop :=
  c.inThinkingBlock = true → findRealThinkingEndTagAtBufferEnd c.thinkingBuffer = none →
    ∀ t, (c.toolJsonAccumulator.push env e c.toolNameMap).1 = .ok (some t) →
      (Dicts.get c.toolBlockIndices t.id).isSome = true

theorem inv_collectToolUse (env : StreamEnv) (h : Inv n log c) {e : ToolUseEvent}
    (known : thinkingOpen c = true →
      ∀ t, (c.toolJsonAccumulator.push env e c.toolNameMap).1 = .ok (some t) →
        (Dicts.get c.toolBlockIndices t.id).isSome = true)
    (room : n + 1 < 2 ^ 31) : Leads (Inv (n + 1)) log (c.collectToolUse env e) := by
  unfold collectToolUse
  rcases eq : c.toolJsonAccumulator.push env e c.toolNameMap with ⟨pushed, accumulator⟩
  rw [eq] at known
  have collected : Inv n log { c with toolJsonAccumulator := accumulator } :=
    h.same (by constructor <;> rfl)
  match pushed with
  | .ok (some t) =>
    obtain ⟨out, m, indices, tokens, eq, inv, -⟩ :=
      inv_emit env collected (fun is_open => known is_open t rfl) room
    dsimp only
    rw [eq]
    exact inv
  | .ok none => exact leads_quiet.mpr (collected.mono (by omega))
  | .error err =>
    have stopped := collected.setStopReason "error"
    exact leads_quiet.mpr ((stopped.same (by constructor <;> rfl)).mono (by omega))

theorem inv_processReasoningContent (env : StreamEnv) (h : Inv n log c)
    {e : ReasoningContentEvent}
    (untagged : (e.redactedContent.filter fun s => !s.isEmpty).isSome = true →
      c.thinkingEnabled = true → c.inThinkingBlock = false)
    (room : n + 1 < 2 ^ 31) : Leads (Inv (n + 1)) log (c.processReasoningContent env e) := by
  unfold processReasoningContent
  by_cases enabled : c.thinkingEnabled = true
  · rw [if_neg (by rw [enabled]; decide)]
    cases redacted : e.redactedContent.filter fun s => !s.isEmpty with
    | some data => exact h.redacted env (untagged (by rw [redacted]; rfl) enabled) room data
    | none =>
      have opened : Leads (fun log' c' => Inv (n + 1) log' c' ∧ c'.reasoningBlockOpen = true) log
          (if c.reasoningBlockOpen then quiet c else c.openReasoning env) := by
        split_ifs with is_open
        · exact leads_quiet.mpr ⟨h.mono (by omega), is_open⟩
        · obtain ⟨out, m, i, eq, inv⟩ := h.openReasoning env enabled room
          rw [eq]
          exact ⟨inv, rfl⟩
      refine opened.andThen fun both => ?_
      obtain ⟨inv, is_open⟩ := both
      by_cases nothing : e.text.isEmpty = true
      · rw [if_pos nothing]
        exact leads_quiet.mpr inv
      · rw [if_neg nothing]
        have counted := inv.same (d := addOutputTokens _ e.text) (by constructor <;> rfl)
        have is_open' : thinkingOpen (addOutputTokens
            (if c.reasoningBlockOpen then quiet c else c.openReasoning env).2 e.text) = true := by
          show (_ || StreamContext.reasoningBlockOpen _) = true
          rw [Bool.or_eq_true]
          exact .inr is_open
        obtain ⟨out, eq, sent⟩ := counted.sendThinking is_open' e.text
        rw [eq]
        exact sent
  · rw [if_pos (by rw [Bool.not_eq_true] at enabled; rw [enabled]; rfl)]
    exact leads_quiet.mpr (h.mono (by omega))

/-- The event does not open a content block next to one that is still open, and the block indices
do not run out. -/
def Guard (env : StreamEnv) (c : StreamContext) (event : Event) : Prop :=
  c.stateManager.nextBlockIndex + 3 < 2 ^ 31 ∧
    match event with
    | .assistantResponse content | .code content =>
      StartsCleanly c (c.toolUseXmlFilter.filter content).1
    | .toolUse e => CompletesCleanly env c e
    | .reasoningContent e =>
      (e.redactedContent.filter fun s => !s.isEmpty).isSome = true → c.thinkingEnabled = true →
        c.inThinkingBlock = false
    | _ => True

theorem closeReasoning_quiet (closed : c.reasoningBlockOpen = false) :
    c.closeReasoningIfOpen = quiet c := by
  unfold closeReasoningIfOpen
  rw [closed]
  rfl

theorem extracted_of_reasoning (h : Inv n log c) (reasoning : c.reasoningBlockOpen = true) :
    c.thinkingExtracted = true := by
  obtain ⟨-, closed, opened, -, settled⟩ := h
  exact settled.reasoned reasoning

theorem inv_assistant (env : StreamEnv) (h : Inv n log c) {content : Text}
    (cleanly : StartsCleanly c (c.toolUseXmlFilter.filter content).1) (room : n + 2 < 2 ^ 31) :
    Leads (Inv (n + 2)) log
      (c.closeReasoningIfOpen.andThen fun c => c.processAssistantResponse env content) := by
  cases reasoning : c.reasoningBlockOpen with
  | false =>
    rw [closeReasoning_quiet reasoning, quiet_andThen]
    exact inv_processAssistantResponse env h reasoning cleanly room
  | true =>
    have extracted := extracted_of_reasoning h reasoning
    obtain ⟨out, m, eq, inv⟩ := h.closeReasoning
    rw [eq]
    refine Leads.andThen (R := Inv n) inv fun inv => ?_
    refine inv_processAssistantResponse env inv rfl ?_ room
    intro _ _ _ fresh
    exact absurd (extracted.symm.trans fresh) (by decide)

theorem inv_processToolUse (env : StreamEnv) (h : Inv n log c)
    (not_reasoning : c.reasoningBlockOpen = false) {e : ToolUseEvent}
    (cleanly : CompletesCleanly env c e) (room : n + 3 < 2 ^ 31) :
    Leads (Inv (n + 3)) log (c.processToolUse env e) := by
  unfold processToolUse
  have settled := inv_settleThinking env (h.setHasToolUse true) (by omega)
  have flushed := settled.andThen
    (f := fun c' => c'.flushWaiting env)
    (S := fun log' c' => Inv (n + 1 + 1) log' c' ∧ SameTools c c' ∧
      (c'.inThinkingBlock = true → c.inThinkingBlock = true ∧
        (c.thinkingEnabled = true → findRealThinkingEndTagAtBufferEnd c.thinkingBuffer = none)))
    fun all => by
      obtain ⟨inv, same, tagged⟩ := all
      have waiting := inv_flushWaiting env (k := c) inv
        ⟨same.accumulator, same.names, same.indices, same.reasoning⟩
        (same.reasoning.trans not_reasoning) (by omega)
      refine waiting.mono fun log' c' all => ⟨all.1, all.2.1, fun tagged' => ?_⟩
      rw [all.2.2] at tagged'
      exact tagged tagged'
  refine flushed.andThen fun all => ?_
  obtain ⟨inv, same, tagged⟩ := all
  have collected := inv_collectToolUse env inv (e := e) (fun is_open t completed => ?_) (by omega)
  · exact collected.mono fun _ _ inv => inv.mono (by omega)
  · rw [same.accumulator, same.names] at completed
    rw [same.indices]
    rcases Bool.or_eq_true_iff.mp is_open with tagged' | reasoning
    · obtain ⟨tagged₀, not_found⟩ := tagged tagged'
      have enabled : c.thinkingEnabled = true := by
        obtain ⟨-, closed, opened, -, settled⟩ := h
        exact settled.enabled (Bool.or_eq_true_iff.mpr (.inl tagged₀))
      exact cleanly tagged₀ (not_found enabled) t completed
    · exact absurd (reasoning.symm.trans (same.reasoning.trans not_reasoning)) (by decide)

theorem inv_processKiroEvent (env : StreamEnv) (h : Inv n log c) {event : Event}
    (room : n + 3 < 2 ^ 31) (guard : Guard env c event) :
    Leads (Inv (n + 3)) log (c.processKiroEvent env event) := by
  have clean := guard.2
  cases event with
  | assistantResponse content =>
    exact (inv_assistant env h clean (by omega)).mono fun _ _ inv => inv.mono (by omega)
  | code content =>
    exact (inv_assistant env h clean (by omega)).mono fun _ _ inv => inv.mono (by omega)
  | toolUse e =>
    show Leads _ log (c.closeReasoningIfOpen.andThen fun c => c.processToolUse env e)
    obtain ⟨out, m, eq, inv⟩ := h.closeReasoning
    rw [eq]
    refine Leads.andThen (R := Inv n) inv fun inv => ?_
    exact inv_processToolUse env inv rfl clean room
  | reasoningContent e =>
    exact (inv_processReasoningContent env h clean (by omega)).mono
      fun _ _ inv => inv.mono (by omega)
  | contextUsage percentage =>
    unfold processKiroEvent
    dsimp only
    split_ifs
    · have stopped := h.setStopReason "model_context_window_exceeded"
      exact leads_quiet.mpr ((stopped.same (by constructor <;> rfl)).mono (by omega))
    · exact leads_quiet.mpr ((h.same (by constructor <;> rfl)).mono (by omega))
  | exception exceptionType message =>
    unfold processKiroEvent
    dsimp only
    split_ifs
    · exact leads_quiet.mpr ((h.setStopReason "max_tokens").mono (by omega))
    · exact leads_quiet.mpr (h.mono (by omega))
  | metering usage => exact leads_quiet.mpr (h.mono (by omega))
  | error errorCode errorMessage => exact leads_quiet.mpr (h.mono (by omega))
  | unknown => exact leads_quiet.mpr (h.mono (by omega))

def delivered : Except ToolJsonAccumulatorError (List CompletedToolUse) → List CompletedToolUse
  | .ok pending => pending
  | .error _ => []

def pendingTools (env : StreamEnv) (c : StreamContext) : List CompletedToolUse :=
  if c.toolJsonError.isSome then []
  else delivered (c.toolJsonAccumulator.finish env c.toolNameMap).1

/-- The same at the end: no tool use and no text is sent while a thinking block is open, and the
indices do not run out. -/
structure FinalGuard (env : StreamEnv) (c : StreamContext) : Prop where
  room : c.stateManager.nextBlockIndex + (pendingTools env c).length + 4 < 2 ^ 31
  tools : thinkingOpen c = true → ∀ t ∈ pendingTools env c,
    (Dicts.get c.toolBlockIndices t.id).isSome = true
  text : c.toolUseXmlFilter.finish ≠ [] → c.reasoningBlockOpen = false
  start : c.toolUseXmlFilter.finish ≠ [] → c.thinkingEnabled = true → c.inThinkingBlock = false →
    c.thinkingExtracted = false →
      findRealThinkingStartTag (c.thinkingBuffer ++ c.toolUseXmlFilter.finish) = none
  pad : c.inThinkingBlock = true → c.thinkingBuffer = [] → c.toolUseXmlFilter.finish = [] →
    c.toolJsonError = none →
      (∃ pending, (c.toolJsonAccumulator.finish env c.toolNameMap).1 = .ok pending) →
        c.stateManager.hasNonThinkingBlocks = true

theorem inv_emitAll (env : StreamEnv) (pending : List CompletedToolUse) (h : Inv n log c)
    (known : thinkingOpen c = true → ∀ t ∈ pending,
      (Dicts.get c.toolBlockIndices t.id).isSome = true)
    (room : n + pending.length < 2 ^ 31) : ∃ out m indices tokens,
      emitAll (emitCompletedToolUse env) pending c = (out, toolFrame c m indices tokens) ∧
      Inv (n + pending.length) (log ++ out) (toolFrame c m indices tokens) ∧
      (thinkingOpen c = true → c.stateManager.hasNonThinkingBlocks = true →
        m.hasNonThinkingBlocks = true) := by
  induction pending generalizing log c n with
  | nil =>
    refine ⟨[], c.stateManager, c.toolBlockIndices, c.outputTokens, rfl, ?_, fun _ has => has⟩
    rw [List.append_nil]
    exact h.mono (by simp)
  | cons t pending ih =>
    rw [List.length_cons] at room ⊢
    obtain ⟨out, m, indices, tokens, eq, inv, stays⟩ := inv_emit env h
      (fun is_open => known is_open t List.mem_cons_self) (by omega)
    have known' : thinkingOpen (toolFrame c m indices tokens) = true → ∀ t ∈ pending,
        (Dicts.get (toolFrame c m indices tokens).toolBlockIndices t.id).isSome = true := by
      intro is_open t' mem
      show (Dicts.get indices t'.id).isSome = true
      rw [(stays is_open).1]
      exact known is_open t' (List.mem_cons_of_mem t mem)
    obtain ⟨out', m', indices', tokens', eq', inv', stays'⟩ := ih inv known' (by omega)
    refine ⟨out ++ out', m', indices', tokens', ?_, ?_, fun is_open has => ?_⟩
    · unfold emitAll Emit.andThen
      rw [eq]
      dsimp only
      rw [eq']
      rfl
    · rw [← List.append_assoc]
      exact inv'.mono (by omega)
    · exact stays' is_open ((stays is_open).2 has)

def toolsFinished (c : StreamContext) (m : SseStateManager) (indices : Dicts.Dict Int)
    (tokens : Int) (accumulator : ToolJsonAccumulator)
    (error : Option ToolJsonAccumulatorError) : StreamContext :=
  { toolFrame c m indices tokens with
    toolJsonAccumulator := accumulator
    toolJsonError := error }

theorem inv_finishTools (env : StreamEnv) (h : Inv n log c)
    (known : thinkingOpen c = true → ∀ t ∈ pendingTools env c,
      (Dicts.get c.toolBlockIndices t.id).isSome = true)
    (room : n + (pendingTools env c).length < 2 ^ 31) : ∃ out m indices tokens accumulator error,
      c.finishTools env = (out, toolsFinished c m indices tokens accumulator error) ∧
      Inv (n + (pendingTools env c).length) (log ++ out)
        (toolsFinished c m indices tokens accumulator error) ∧
      (thinkingOpen c = true → c.stateManager.hasNonThinkingBlocks = true →
        m.hasNonThinkingBlocks = true) ∧
      (error = none → c.toolJsonError = none ∧
        ∃ pending, (c.toolJsonAccumulator.finish env c.toolNameMap).1 = .ok pending) := by
  cases failed : c.toolJsonError with
  | some err =>
    have same : toolsFinished c c.stateManager c.toolBlockIndices c.outputTokens
        c.toolJsonAccumulator (some err) = c := by
      unfold toolsFinished toolFrame
      rw [← failed]
    refine ⟨[], c.stateManager, c.toolBlockIndices, c.outputTokens, c.toolJsonAccumulator,
      some err, ?_, ?_, fun _ has => has, fun no_error => by cases no_error⟩
    · rw [same, finishTools, if_pos (by rw [failed]; rfl)]
      rfl
    · rw [same, List.append_nil]
      exact h.mono (by omega)
  | none =>
    unfold finishTools
    rw [if_neg (by rw [failed]; decide)]
    rcases eq : c.toolJsonAccumulator.finish env c.toolNameMap with ⟨finished, accumulator⟩
    have pending_eq : pendingTools env c = delivered finished := by
      unfold pendingTools
      rw [failed, eq]
      rfl
    rw [pending_eq] at known room ⊢
    have collected : Inv n log { c with toolJsonAccumulator := accumulator } :=
      h.same (by constructor <;> rfl)
    match finished with
    | .ok pending =>
      obtain ⟨out, m, indices, tokens, sent_eq, inv, stays⟩ :=
        inv_emitAll env pending collected known room
      refine ⟨out, m, indices, tokens, accumulator, none, ?_, ?_, stays, fun _ => ⟨rfl, pending, rfl⟩⟩
      · dsimp only
        rw [sent_eq]
        unfold toolsFinished toolFrame
        rw [← failed]
      · exact inv.same (by constructor <;> rfl)
    | .error err =>
      have stopped := collected.setStopReason "error"
      refine ⟨[], c.stateManager.setStopReason "error", c.toolBlockIndices, c.outputTokens,
        accumulator, some err, rfl, ?_, fun _ has => has, fun no_error => by cases no_error⟩
      rw [List.append_nil]
      exact (stopped.same (by constructor <;> rfl)).mono (by omega)

theorem buffer_of_scanThinking (env : StreamEnv) (c : StreamContext)
    (nonempty : c.thinkingBuffer ≠ []) (more : c.thinkingBuffer ≠ ['\n'])
    (tagged : (c.scanThinking env).2.inThinkingBlock = true) :
    (c.scanThinking env).2.thinkingBuffer ≠ [] := by
  have left : c.stripLeadingNewline.thinkingBuffer ≠ [] := by
    unfold stripLeadingNewline
    split_ifs
    · show stripNewline c.thinkingBuffer ≠ []
      cases eq : c.thinkingBuffer with
      | nil => exact absurd eq nonempty
      | cons x rest =>
        unfold stripNewline
        split
        · next rest' eq' =>
          rintro rfl
          exact more (eq.trans eq')
        · exact List.cons_ne_nil x rest
    · exact nonempty
  revert tagged
  unfold scanThinking
  dsimp only
  cases findRealThinkingEndTagWithBoundary c.stripLeadingNewline.thinkingBuffer with
  | some p =>
    intro tagged
    obtain ⟨m, ended⟩ := endThinking_frame c.stripLeadingNewline p.1
    unfold Emit.andThen at tagged
    dsimp only at tagged
    rw [ended, (textFrame_emitExtracted env _).2] at tagged
    cases tagged
  | none =>
    dsimp only
    split_ifs
    · intro _
      exact left
    · intro _
      rw [sendThinking_frame]
      exact splitKeep_ne_nil (by decide) left

theorem inThinkingBlock_of_scanStart (env : StreamEnv) {c : StreamContext}
    (not_found : findRealThinkingStartTag c.thinkingBuffer = none) :
    (c.scanStart env).2.inThinkingBlock = c.inThinkingBlock := by
  unfold scanStart
  rw [not_found]
  dsimp only
  split_ifs
  · rfl
  · obtain ⟨m, t, eq⟩ := createTextDeltaEvents_frame env c
      (splitKeep thinkingStartTag.length c.thinkingBuffer).1
    show (c.createTextDeltaEvents env _).2.inThinkingBlock = _
    rw [eq]

theorem finish_ne_newline (f : ToolUseXmlLeakFilter) : f.finish ≠ ['\n'] := by
  intro eq
  unfold ToolUseXmlLeakFilter.finish at eq
  split_ifs at eq
  have trimmed : trimChars (stripLoop f.buffer) = [] ++ ['\n'] := eq
  exact List.cons_ne_nil _ _ (eq_nil_of_trimChars_append trimmed (by decide))

theorem inv_finishFilter (env : StreamEnv) (h : Inv n log c)
    (text : c.toolUseXmlFilter.finish ≠ [] → c.reasoningBlockOpen = false)
    (start : c.toolUseXmlFilter.finish ≠ [] → c.thinkingEnabled = true →
      c.inThinkingBlock = false → c.thinkingExtracted = false →
        findRealThinkingStartTag (c.thinkingBuffer ++ c.toolUseXmlFilter.finish) = none)
    (room : n + 2 < 2 ^ 31) :
    Leads (fun log' c' => Inv (n + 2) log' c' ∧ c'.toolJsonError = c.toolJsonError ∧
      (c'.inThinkingBlock = true → c'.thinkingBuffer = [] → c.inThinkingBlock = true ∧
        c.thinkingBuffer = [] ∧ c.toolUseXmlFilter.finish = [] ∧
          c'.stateManager = c.stateManager)) log (c.finishFilter env) := by
  unfold finishFilter
  dsimp only
  by_cases nothing : c.toolUseXmlFilter.finish = []
  · rw [nothing, if_pos List.isEmpty_nil]
    exact leads_quiet.mpr ⟨(h.same (by constructor <;> rfl)).mono (by omega), rfl,
      fun tagged empty => ⟨tagged, empty, rfl, rfl⟩⟩
  · have cleanly : StartsCleanly c c.toolUseXmlFilter.finish := by
      intro _ enabled untagged fresh before after found
      rw [start nothing enabled untagged fresh] at found
      cases found
    generalize left : c.toolUseXmlFilter.finish = remaining at nothing cleanly text start
    have more : remaining ≠ ['\n'] := by
      rw [← left]
      exact finish_ne_newline _
    rw [if_neg (by simpa using nothing)]
    have counted : Inv n log (addOutputTokens { c with toolUseXmlFilter := {} } remaining) :=
      h.same (by constructor <;> rfl)
    have sent := inv_processFiltered env counted (text nothing) nothing cleanly room
    refine ⟨sent, (textFrame_processFiltered env _ _).error, ?_⟩
    intro tagged empty
    exfalso
    unfold processFiltered at tagged empty
    split_ifs at tagged empty with enabled
    · unfold processContentWithThinking at tagged empty
      dsimp only at tagged empty
      split_ifs at tagged empty with before inside
      · rw [Bool.and_eq_true, Bool.not_eq_true', Bool.not_eq_true'] at before
        rw [inThinkingBlock_of_scanStart env (start nothing enabled before.1 before.2)] at tagged
        exact absurd (before.1.symm.trans tagged) (by decide)
      · refine buffer_of_scanThinking env _ ?_ ?_ tagged empty
        · show c.thinkingBuffer ++ remaining ≠ []
          simp [nothing]
        · show c.thinkingBuffer ++ remaining ≠ ['\n']
          intro eq
          rcases List.append_eq_singleton_iff.mp eq with ⟨-, eq'⟩ | ⟨-, eq'⟩
          · exact more eq'
          · exact nothing eq'
      · rw [(textFrame_emitExtracted env _).2] at tagged
        exact inside tagged
    · obtain ⟨m, t, eq⟩ := createTextDeltaEvents_frame env
        (addOutputTokens { c with toolUseXmlFilter := {} } remaining) remaining
      rw [eq] at tagged
      obtain ⟨-, closed, opened, -, settled⟩ := h
      exact enabled (settled.enabled (Bool.or_eq_true_iff.mpr (.inl tagged)))

/-- What remains is the message up to its last block, and nothing is open but a text or, where
something else than thinking was sent, a thinking block. -/
def Flushed (limit : Int) (log : List SseEvent) (c : StreamContext) : Prop :=
  c.stateManager.nextBlockIndex ≤ limit ∧ ∃ closed opened,
    Written log c.stateManager closed opened ∧
      (TextOnly c opened ∨ c.stateManager.hasNonThinkingBlocks = true)

theorem flushed_of_inv (h : Inv n log c) (no_thinking : thinkingOpen c = false) :
    Flushed n log c := by
  obtain ⟨le, closed, opened, written, settled⟩ := h
  exact ⟨le, closed, opened, written, .inl (textOnly_of_settled settled no_thinking)⟩

theorem flushed_flushBuffer (env : StreamEnv) (h : Inv n log c)
    (not_reasoning : c.reasoningBlockOpen = false)
    (pad : c.inThinkingBlock = true → c.thinkingBuffer = [] →
      c.stateManager.hasNonThinkingBlocks = true)
    (room : n + 1 < 2 ^ 31) : Leads (Flushed (n + 1)) log (c.flushBuffer env) := by
  unfold flushBuffer
  by_cases flushes : (c.thinkingEnabled && !c.thinkingBuffer.isEmpty) = true
  · rw [if_pos flushes]
    have emptied : ∀ log' c', Flushed (n + 1) log' c' →
        Flushed (n + 1) log' { c' with thinkingBuffer := [] } := fun _ _ flushed => flushed
    refine Leads.andThen (R := Flushed (n + 1)) ?_ fun inv => leads_quiet.mpr (emptied _ _ inv)
    by_cases tagged : c.inThinkingBlock = true
    · rw [if_pos tagged]
      cases findRealThinkingEndTagAtBufferEnd c.thinkingBuffer with
      | some p =>
        obtain ⟨thinking, after⟩ := p
        obtain ⟨out, m, eq, ended⟩ := h.endThinking tagged thinking
        have no_thinking : (false || c.reasoningBlockOpen) = false := by
          rw [not_reasoning]
          rfl
        dsimp only
        rw [eq]
        refine Leads.andThen (R := Inv n) ended fun ended => ?_
        unfold emitRest
        dsimp only
        split_ifs
        · exact leads_quiet.mpr
            (flushed_of_inv ((ended.same (by constructor <;> rfl)).mono (by omega)) no_thinking)
        · obtain ⟨out', m', t', eq', inv⟩ := (ended.same (d := { c with
            stateManager := m
            inThinkingBlock := false
            thinkingExtracted := true
            stripTextAfterThinkingBoundary := true
            thinkingBuffer := [] }) (by constructor <;> rfl)).createText env no_thinking room
              (trimStart after)
          rw [eq']
          exact flushed_of_inv inv no_thinking
      | none =>
        obtain ⟨le, closed, opened, written, settled⟩ := h
        obtain ⟨b, rfl, thinking, index⟩ :=
          settled.thinking (Bool.or_eq_true_iff.mpr (.inl tagged))
        obtain ⟨out, b', eq, same, thinking', written'⟩ :=
          sendThinking_spec written index thinking c.thinkingBuffer
        obtain ⟨out', m, b'', eq', next, written''⟩ :=
          stopThinking_spec written' (index.trans (by rw [same])) thinking'
        dsimp only
        rw [eq]
        show Flushed (n + 1) (log ++ (out ++ c.stopThinking.1)) c.stopThinking.2
        rw [eq', ← List.append_assoc]
        refine ⟨?_, _, none, written'', .inl fun b eq => by cases eq⟩
        show m.nextBlockIndex ≤ n + 1
        omega
    · rw [if_neg tagged]
      rw [Bool.not_eq_true] at tagged
      dsimp only
      generalize (if c.stripTextAfterThinkingBoundary = true then trimStart c.thinkingBuffer
        else c.thinkingBuffer) = content
      have no_thinking : (c.inThinkingBlock || c.reasoningBlockOpen) = false := by
        rw [tagged, not_reasoning]
        rfl
      have kept := h.same (d := { c with
        stripTextAfterThinkingBoundary := c.stripTextAfterThinkingBoundary && content.isEmpty })
        (by constructor <;> rfl)
      by_cases nothing : content.isEmpty = true
      · rw [if_pos nothing]
        exact leads_quiet.mpr (flushed_of_inv (kept.mono (by omega)) no_thinking)
      · rw [if_neg nothing]
        obtain ⟨out, m, t, eq, inv⟩ := kept.createText env no_thinking room content
        rw [eq]
        exact flushed_of_inv inv no_thinking
  · rw [if_neg flushes]
    refine leads_quiet.mpr ?_
    cases tagged : c.inThinkingBlock with
    | false =>
      have no_thinking : thinkingOpen c = false := by
        unfold thinkingOpen
        rw [tagged, not_reasoning]
        rfl
      exact flushed_of_inv (h.mono (by omega)) no_thinking
    | true =>
      obtain ⟨le, closed, opened, written, settled⟩ := h
      have enabled := settled.enabled (Bool.or_eq_true_iff.mpr (.inl tagged))
      rw [enabled, Bool.true_and, Bool.not_eq_true', Bool.not_eq_false, List.isEmpty_iff] at flushes
      exact ⟨by omega, closed, opened, written, .inr (pad tagged flushes)⟩

theorem flushed_padThinkingOnly (env : StreamEnv) (h : Flushed n log c) (room : n + 1 < 2 ^ 31) :
    Leads (Flushed (n + 1)) log (c.padThinkingOnly env) := by
  obtain ⟨le, closed, opened, written, shape⟩ := h
  unfold padThinkingOnly
  by_cases pads : (c.thinkingEnabled && c.thinkingBlockIndex.isSome &&
      !c.stateManager.hasNonThinkingBlocks) = true
  · rw [if_pos pads]
    have text_only : TextOnly c opened := by
      rcases shape with text_only | has
      · exact text_only
      · rw [has, Bool.not_true, Bool.and_false] at pads
        cases pads
    have reasoned : Written log (c.stateManager.setStopReason "max_tokens") closed opened :=
      written.of_same rfl rfl rfl rfl rfl
    obtain ⟨out, m, b, eq, next, is_text, written'⟩ := createTextDeltaEvents_spec env
      (c := { c with stateManager := c.stateManager.setStopReason "max_tokens" }) reasoned text_only
      (by show c.stateManager.nextBlockIndex + 1 < 2 ^ 31; omega) [' ']
    rw [eq]
    have next' : m.nextBlockIndex ≤ c.stateManager.nextBlockIndex + 1 := next
    refine ⟨by show m.nextBlockIndex ≤ n + 1; omega, closed, some b, written', .inl ?_⟩
    intro b' same
    cases same
    exact ⟨is_text, rfl⟩
  · rw [if_neg pads]
    exact leads_quiet.mpr ⟨by omega, closed, opened, written, shape⟩

def failureOf (c : StreamContext) : Option (String × String) :=
  c.toolJsonError.map fun e => (e.errorType, e.message)

def Delivers (log : List SseEvent) (c : StreamContext) : Prop := IsMessage (failureOf c) log

theorem failureOf_sendFinal (env : StreamEnv) (c : StreamContext) :
    failureOf (c.sendFinal env).2 = c.toolJsonError.map fun e => (e.errorType, e.message) := rfl

theorem isMessage_sendFinal (env : StreamEnv) (written : Written log c.stateManager closed opened)
    (failure : Option (String × String)) :
    IsMessage failure (log ++ ((c.sendFinal env).1 ++
      (failure.map fun e => SseEvent.error e.1 e.2).toList)) :=
  written.final env _ failure

theorem delivers_failed (env : StreamEnv) (written : Written log c.stateManager closed opened)
    {err : ToolJsonAccumulatorError} (failed : c.toolJsonError = some err) :
    Leads Delivers log
      ((c.sendFinal env).andThen fun c => ([.error err.errorType err.message], c)) := by
  have message := isMessage_sendFinal env written (some (err.errorType, err.message))
  have failure : failureOf (c.sendFinal env).2 = some (err.errorType, err.message) := by
    rw [failureOf_sendFinal, failed]
    rfl
  show IsMessage (failureOf (c.sendFinal env).2) (log ++ ((c.sendFinal env).1 ++ _))
  rw [failure]
  exact message

theorem delivers_done (env : StreamEnv) (written : Written log c.stateManager closed opened)
    (parsed : c.toolJsonError = none) : Leads Delivers log (c.sendFinal env) := by
  have message := isMessage_sendFinal env written none
  rw [Option.map_none, Option.toList_none, List.append_nil] at message
  have failure : failureOf (c.sendFinal env).2 = none := by
    rw [failureOf_sendFinal, parsed]
    rfl
  show IsMessage (failureOf (c.sendFinal env).2) _
  rw [failure]
  exact message

theorem inv_finishInputs (env : StreamEnv) (h : Inv n log c) (guard : FinalGuard env c)
    (room : n + (pendingTools env c).length + 2 < 2 ^ 31) :
    Leads (fun log' c' => Inv (n + (pendingTools env c).length + 2) log' c' ∧
      (c'.toolJsonError = none → c'.inThinkingBlock = true → c'.thinkingBuffer = [] →
        c'.stateManager.hasNonThinkingBlocks = true)) log
      ((c.finishTools env).andThen fun c => c.finishFilter env) := by
  obtain ⟨out, m, indices, tokens, accumulator, error, eq, inv, stays, no_error⟩ :=
    inv_finishTools env h guard.tools (by omega)
  rw [eq]
  refine Leads.andThen (R := Inv (n + (pendingTools env c).length)) inv fun inv => ?_
  have filtered := inv_finishFilter env inv guard.text guard.start room
  refine filtered.mono fun log' c' all => ⟨all.1, fun none_left tagged empty => ?_⟩
  obtain ⟨tagged₀, empty₀, nothing, same⟩ := all.2.2 tagged empty
  obtain ⟨no_error₀, parsed⟩ := no_error (all.2.1.symm.trans none_left)
  have is_open : thinkingOpen c = true := Bool.or_eq_true_iff.mpr (.inl tagged₀)
  rw [same]
  exact stays is_open (guard.pad tagged₀ empty₀ nothing no_error₀ parsed)

theorem delivers_generateFinalEvents (env : StreamEnv)
    (h : Inv c.stateManager.nextBlockIndex log c) (guard : FinalGuard env c) :
    Leads Delivers log (c.generateFinalEvents env) := by
  have room := guard.room
  unfold generateFinalEvents
  refine (inv_finishInputs env h guard (by omega)).andThen fun both => ?_
  generalize ((c.finishTools env).andThen fun c => c.finishFilter env) = r at both
  obtain ⟨inv, pad⟩ := both
  obtain ⟨out, m, eq, closed_reasoning⟩ := inv.closeReasoning
  split
  · next err failed =>
    have inv_closed := closed_reasoning
    obtain ⟨-, closed, opened, written, -⟩ := closed_reasoning
    have message := delivers_failed env written (c := { r.2 with
      stateManager := m, reasoningBlockOpen := false }) failed
    rw [andThen_assoc, eq]
    exact Leads.andThen (R := Inv _) inv_closed fun _ => message
  · next parsed =>
    have pad' : r.2.inThinkingBlock = true → r.2.thinkingBuffer = [] →
        m.hasNonThinkingBlocks = true := by
      intro tagged empty
      rw [closeReasoning_quiet (not_reasoning_of_tagged inv tagged)] at eq
      have same : r.2.stateManager = m := congrArg (·.2.stateManager) eq
      rw [← same]
      exact pad parsed tagged empty
    have padded : Leads (fun log' c' => Flushed (c.stateManager.nextBlockIndex +
        (pendingTools env c).length + 4) log' c' ∧ c'.toolJsonError = none) (log ++ r.1)
        ((r.2.closeReasoningIfOpen.andThen fun c => c.flushBuffer env).andThen fun c =>
          c.padThinkingOnly env) := by
      rw [eq]
      have flushed := Leads.andThen (f := fun c => c.flushBuffer env) (r := (out, _))
        (R := Inv _) closed_reasoning fun inv =>
          flushed_flushBuffer env inv rfl pad' (by omega)
      refine flushed.andThen fun inv => ?_
      refine ⟨?_, (textFrame_padThinkingOnly env _).error.trans
        ((textFrame_flushBuffer env _).error.trans parsed)⟩
      have sent := flushed_padThinkingOnly env inv (by omega)
      rw [Int.add_assoc, Int.add_assoc] at sent
      exact sent
    refine padded.andThen fun both => ?_
    obtain ⟨⟨-, closed, opened, written, -⟩, none_left⟩ := both
    exact delivers_done env written none_left

def newContext (model messageId : String) (inputTokens : Int) (thinkingEnabled : Bool)
    (map : Converter.ToolNames.ToolNameMap) (usage : CacheUsage) : StreamContext :=
  { newWithThinking model messageId inputTokens thinkingEnabled map with cacheUsage := usage }

theorem inv_generateInitialEvents (env : StreamEnv) (model messageId : String) (inputTokens : Int)
    (thinkingEnabled : Bool) (map : Converter.ToolNames.ToolNameMap) (usage : CacheUsage) :
    Leads (fun log c => Inv c.stateManager.nextBlockIndex log c) []
      ((newContext model messageId inputTokens thinkingEnabled map usage).generateInitialEvents
        env) := by
  let c := newContext model messageId inputTokens thinkingEnabled map usage
  have started := written_messageStart messageId model
    { inputTokens := (env.splitAgainstTotal usage inputTokens).1, outputTokens := 1,
      cacheCreationInputTokens := (env.splitAgainstTotal usage inputTokens).2.1,
      cacheReadInputTokens := (env.splitAgainstTotal usage inputTokens).2.2 }
  cases thinkingEnabled with
  | true =>
    refine ⟨Int.le_refl _, [], none, started, ?_⟩
    constructor <;> intros <;> contradiction
  | false =>
    obtain ⟨m, eq, next, text⟩ := started.start_next env .text
      (fun eq => by cases eq) (by decide)
    obtain rfl : _ = m := congrArg Prod.snd eq
    refine ⟨Int.le_refl _, [], some (Block.fresh 0 .text), text, ?_⟩
    constructor
    · intro b same
      cases same
      exact .inl ⟨rfl, rfl⟩
    all_goals intros; contradiction

/-- At no point of the run does a block open next to an open one. -/
def OneAtATime (env : StreamEnv) (c : StreamContext) (events : List Event) : Prop :=
  let started := (c.generateInitialEvents env).2
  Guarded (processKiroEvent env) (Guard env) events started ∧
    FinalGuard env (emitAll (processKiroEvent env) events started).2

/-- A run in which every step meets its condition sends a well-formed message. -/
theorem isMessage_streamed (env : StreamEnv) (model messageId : String) (inputTokens : Int)
    (thinkingEnabled : Bool) (map : Converter.ToolNames.ToolNameMap) (usage : CacheUsage)
    (events : List Event)
    (guarded : OneAtATime env
      (newContext model messageId inputTokens thinkingEnabled map usage) events) :
    let run := streamed env (newContext model messageId inputTokens thinkingEnabled map usage) events
    IsMessage (failureOf run.2) run.1 := by
  obtain ⟨steps, last⟩ := guarded
  have begun := inv_generateInitialEvents env model messageId inputTokens thinkingEnabled map usage
  have stepped : ∀ log c event, Inv c.stateManager.nextBlockIndex log c → Guard env c event →
      Leads (fun log c => Inv c.stateManager.nextBlockIndex log c) log
        (c.processKiroEvent env event) := by
    intro log c event h guard
    obtain ⟨-, rest⟩ := inv_processKiroEvent env h guard.1 guard
    exact ⟨Int.le_refl _, rest⟩
  have ran := begun.andThen
    (f := fun c => emitAll (processKiroEvent env) events c)
    (S := fun log c => Inv c.stateManager.nextBlockIndex log c) fun inv =>
      leads_emitAll stepped events inv steps
  exact ran.andThen (S := Delivers) fun inv => delivers_generateFinalEvents env inv last

/-- Thinking, and a call after it. -/
theorem isMessage_streamed_call :
    OneAtATime StreamEnv.sample (newContext "claude-sonnet-4.5" "msg_1" 10 true [] {})
        [.assistantResponse "<thinking>ok</thinking>".toList,
          .toolUse { name := "read", toolUseId := "call_1", stop := true }] ∧
      let run := streamed StreamEnv.sample (newContext "claude-sonnet-4.5" "msg_1" 10 true [] {})
        [.assistantResponse "<thinking>ok</thinking>".toList,
          .toolUse { name := "read", toolUseId := "call_1", stop := true }]
      IsMessage (failureOf run.2) run.1 := by
  have guarded : OneAtATime StreamEnv.sample (newContext "claude-sonnet-4.5" "msg_1" 10 true [] {})
        [.assistantResponse "<thinking>ok</thinking>".toList,
          .toolUse { name := "read", toolUseId := "call_1", stop := true }] := by
    refine ⟨⟨⟨by decide +kernel, ?_⟩, ⟨by decide +kernel, ?_⟩, trivial⟩, ?_⟩
    · exact startsCleanly_of (p := ([], "ok</thinking>".toList)) (by decide +kernel)
        (by decide +kernel) (by decide +kernel)
    · intro tagged
      exact absurd tagged (by decide +kernel)
    · constructor
      · decide +kernel
      · intro is_open
        exact absurd is_open (by decide +kernel)
      · intro left
        exact absurd left (by decide +kernel)
      · intro left
        exact absurd left (by decide +kernel)
      · intro tagged
        exact absurd tagged (by decide +kernel)
  exact ⟨guarded, isMessage_streamed _ _ _ _ _ _ _ _ guarded⟩

theorem not_start_in_block {failure : Option (String × String)} {id model : String} {usage : Usage}
    {index other : Int} {content next : ContentBlock} {rest : List SseEvent} :
    ¬ IsMessage failure (.messageStart id model usage :: .contentBlockStart index content ::
      .contentBlockStart other next :: rest) := by
  rintro ⟨_, _, _, blocks, _, _, -, eq⟩
  injection eq with _ eq
  cases blocks with
  | nil => cases eq
  | cons b blocks =>
    injection eq with start eq
    cases deltas : b.deltas with
    | nil =>
      rw [deltas] at eq
      cases eq
    | cons d deltas' =>
      rw [deltas] at eq
      cases eq

/-- A call that comes while a tag's thinking block is open: its block starts next to that one. -/
theorem tool_in_thinking :
    ¬ ∀ (env : StreamEnv) (model messageId : String) (inputTokens : Int) (thinkingEnabled : Bool)
      (map : Converter.ToolNames.ToolNameMap) (usage : CacheUsage) (events : List Event),
      let run := streamed env
        (newContext model messageId inputTokens thinkingEnabled map usage) events
      IsMessage (failureOf run.2) run.1 := by
  intro all
  have message := all StreamEnv.sample "claude-sonnet-4.5" "msg_1" 10 true [] {}
    [.assistantResponse "<thinking>".toList,
      .toolUse { name := "read", toolUseId := "call_1", stop := true }]
  have sent : (streamed StreamEnv.sample (newContext "claude-sonnet-4.5" "msg_1" 10 true [] {})
      [.assistantResponse "<thinking>".toList,
        .toolUse { name := "read", toolUseId := "call_1", stop := true }]).1 =
      [.messageStart "msg_1" "claude-sonnet-4.5"
          { inputTokens := 10, outputTokens := 1, cacheCreationInputTokens := 0,
            cacheReadInputTokens := 0 },
        .contentBlockStart 0 .thinking,
        .contentBlockStart 1 (.toolUse "call_1" "read"),
        .contentBlockDelta 1 (.inputJsonDelta "\x7b\x7d"),
        .contentBlockStop 1,
        .contentBlockStop 0,
        .messageDelta "tool_use"
          { inputTokens := 10, outputTokens := 4, cacheCreationInputTokens := 0,
            cacheReadInputTokens := 0 },
        .messageStop] := by
    decide +kernel
  dsimp only at message
  rw [sent] at message
  exact not_start_in_block message

end KiroRs.Stream.BlockOrder
