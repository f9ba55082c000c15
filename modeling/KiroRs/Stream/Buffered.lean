/- Path: KiroRs/Stream/Buffered
   source: src/anthropic/stream.rs, src/anthropic/cache_metering.rs
   digest: The context that buffers a stream until its usage is known puts out what the plain
   context does, with one usage throughout. -/

import KiroRs.Stream.Context
import Mathlib.Data.Rat.Floor

set_option autoImplicit false
set_option relaxedAutoImplicit false

namespace KiroRs.Stream.Buffered

open KiroRs.Lib.Emits
open KiroRs.Converter.ToolNames (ToolNameMap)
open KiroRs.Stream.XmlFilter (Text)
open KiroRs.Stream.Events
open KiroRs.Stream.StateManager
open KiroRs.Stream.StateManager.SseStateManager
open KiroRs.Stream.ToolJson
open KiroRs.Stream.ThinkingTags
open KiroRs.Stream.Context
open KiroRs.Stream.Context.StreamContext

/-- `f64::round`, half away from zero. -/
def roundHalfAway (x : ℚ) : Int := if 0 ≤ x then ⌊x + 1 / 2⌋ else -⌊-x + 1 / 2⌋

/-- `as i32`, which saturates. -/
def asI32 (n : Int) : Int := max (-2 ^ 31) (min n (2 ^ 31 - 1))

/-- What the floating point arithmetic of the split gives before it is rounded. -/
structure Ratios where
  /-- `(total as f64) * ratio`, with the ratio of the covered part clamped to `0.0..=1.0` -/
  covered : CacheUsage → Int → ℚ
  covered_nonneg : ∀ u total, 0 ≤ total → 0 ≤ covered u total
  covered_le : ∀ u total, 0 ≤ total → covered u total ≤ total
  /-- `(cache_total as f64) * (cache_read as f64 / cache_covered_est as f64)` -/
  read : CacheUsage → Int → ℚ

/-- The arithmetic without any error of rounding. -/
def Ratios.exact : Ratios where
  covered u total := total * max 0 (min ((u.cacheCoveredEst : ℚ) / u.promptTotalEst) 1)
  covered_nonneg _ _ nonneg :=
    mul_nonneg (Int.cast_nonneg nonneg) (le_max_left _ _)
  covered_le _ _ nonneg :=
    mul_le_of_le_one_right (Int.cast_nonneg nonneg) (max_le zero_le_one (min_le_right _ _))
  read u cacheTotal := cacheTotal * ((u.cacheRead : ℚ) / u.cacheCoveredEst)

def splitAgainstTotal (f : Ratios) (u : CacheUsage) (totalReal : Int) : Int × Int × Int :=
  let total := max totalReal 0
  if u.cacheCoveredEst ≤ 0 ∨ u.promptTotalEst ≤ 0 then (total, 0, 0)
  else
    let cacheTotal := min (asI32 (roundHalfAway (f.covered u total))) total
    let read :=
      if 0 < u.cacheCoveredEst then asI32 (roundHalfAway (f.read u cacheTotal)) else 0
    let read := max 0 (min read cacheTotal)
    (total - cacheTotal, cacheTotal - read, read)

structure Parts (total : Int) (parts : Int × Int × Int) : Prop where
  sum : parts.1 + parts.2.1 + parts.2.2 = total
  input : 0 ≤ parts.1
  creation : 0 ≤ parts.2.1
  read : 0 ≤ parts.2.2

theorem roundHalfAway_nonneg {x : ℚ} (nonneg : 0 ≤ x) : 0 ≤ roundHalfAway x := by
  rw [roundHalfAway, if_pos nonneg]
  exact Int.floor_nonneg.mpr (by linarith)

theorem asI32_nonneg {n : Int} (nonneg : 0 ≤ n) : 0 ≤ asI32 n := by
  unfold asI32
  omega

theorem parts_splitAgainstTotal (f : Ratios) (u : CacheUsage) (totalReal : Int) :
    Parts (max 0 totalReal) (splitAgainstTotal f u totalReal) := by
  have total_nonneg : 0 ≤ max totalReal 0 := le_max_right _ _
  have covered := asI32_nonneg (roundHalfAway_nonneg (f.covered_nonneg u _ total_nonneg))
  unfold splitAgainstTotal
  dsimp only
  generalize asI32 (roundHalfAway (f.covered u (max totalReal 0))) = rounded at covered ⊢
  split_ifs
  · constructor <;> dsimp only <;> omega
  · generalize asI32 (roundHalfAway (f.read u _)) = read
    constructor <;> dsimp only <;> omega
  · constructor <;> dsimp only <;> omega

example : splitAgainstTotal Ratios.exact
    { cacheRead := 30, cacheCoveredEst := 60, promptTotalEst := 120 } 101 = (50, 25, 26) := by
  decide +kernel

def withRatios (env : StreamEnv) (f : Ratios) : StreamEnv :=
  { env with splitAgainstTotal := splitAgainstTotal f }

structure BufferedStreamContext where
  inner : StreamContext
  eventBuffer : List SseEvent := []
  initialEventsGenerated : Bool := false

namespace BufferedStreamContext

def new (model messageId : String) (estimatedInputTokens : Int) (thinkingEnabled : Bool)
    (toolNameMap : ToolNameMap) : BufferedStreamContext :=
  { inner := newWithThinking model messageId estimatedInputTokens thinkingEnabled toolNameMap }

def setCacheUsage (b : BufferedStreamContext) (cacheUsage : CacheUsage) : BufferedStreamContext :=
  { b with inner := { b.inner with cacheUsage } }

/-- A function of the inner context, whose events are buffered. -/
def buffer (b : BufferedStreamContext) (r : Sent) : BufferedStreamContext :=
  { b with inner := r.2, eventBuffer := b.eventBuffer ++ r.1 }

def generateInitial (env : StreamEnv) (b : BufferedStreamContext) : BufferedStreamContext :=
  if b.initialEventsGenerated then b
  else { b.buffer (b.inner.generateInitialEvents env) with initialEventsGenerated := true }

def processAndBuffer (env : StreamEnv) (b : BufferedStreamContext) (event : Event) :
    BufferedStreamContext :=
  let b := b.generateInitial env
  b.buffer (b.inner.processKiroEvent env event)

/-- Corrects the three counts of a `message_start`. -/
def correctStart (usage : Int × Int × Int) : SseEvent → SseEvent
  | .messageStart id model u =>
    .messageStart id model { u with
      inputTokens := usage.1
      cacheCreationInputTokens := usage.2.1
      cacheReadInputTokens := usage.2.2 }
  | e => e

def finishAndGetAllEvents (env : StreamEnv) (b : BufferedStreamContext) :
    List SseEvent × BufferedStreamContext :=
  let b := b.generateInitial env
  let usage := b.inner.resolvedUsage env
  let b := b.buffer (b.inner.generateFinalEvents env)
  (b.eventBuffer.map (correctStart usage), { b with eventBuffer := [] })

/-- `final_usage` without the credits: input, output, cache creation and cache read. -/
def finalUsage (env : StreamEnv) (b : BufferedStreamContext) : Int × Int × Int × Int :=
  let (finalInput, creation, read) := b.inner.resolvedUsage env
  (finalInput, b.inner.outputTokens, creation, read)

end BufferedStreamContext

def isBlockEvent : SseEvent → Bool
  | .contentBlockStart _ _ | .contentBlockDelta _ _ | .contentBlockStop _ => true
  | _ => false

/-- What the manager knows of the message around the blocks. -/
def frame (m : SseStateManager) : Bool × Bool × Bool :=
  (m.messageStarted, m.messageDeltaSent, m.messageEnded)

def basis (c : StreamContext) : String × Int × Option Int × CacheUsage × Bool × Bool × Bool :=
  (c.model, c.inputTokens, c.contextInputTokens, c.cacheUsage, frame c.stateManager)

/-- A step that puts out events of blocks only and leaves the basis of the usage alone. -/
structure Plain (c : StreamContext) (r : Sent) : Prop where
  events : ∀ e ∈ r.1, isBlockEvent e = true
  basis : basis r.2 = basis c

variable {env : StreamEnv} {c d : StreamContext} {r : Sent} {m : SseStateManager}

theorem plain_quiet (same : basis d = basis c) : Plain c (quiet d) :=
  ⟨fun _ none => absurd none List.not_mem_nil, same⟩

theorem Plain.from (plain : Plain d r) (same : Buffered.basis d = Buffered.basis c) : Plain c r :=
  ⟨plain.events, plain.basis.trans same⟩

theorem Plain.andThen {next : StreamContext → Sent} (first : Plain c r)
    (second : Plain r.2 (next r.2)) : Plain c (r.andThen next) := by
  refine ⟨?_, second.basis.trans first.basis⟩
  intro e mem
  rcases List.mem_append.mp mem with mem | mem
  · exact first.events e mem
  · exact second.events e mem

theorem plain_ite {p : Prop} [Decidable p] {r' : Sent} (yes : p → Plain c r)
    (no : ¬ p → Plain c r') : Plain c (if p then r else r') := by
  split_ifs with h
  · exact yes h
  · exact no h

/-- A call of the manager that puts out events of blocks only and leaves the frame alone. -/
structure PlainCall (m : SseStateManager) (r : Emit SseEvent SseStateManager) : Prop where
  events : ∀ e ∈ r.1, isBlockEvent e = true
  frame : frame r.2 = frame m

theorem PlainCall.manage {r : Emit SseEvent SseStateManager} (call : PlainCall c.stateManager r) :
    Plain c (c.manage r) := by
  refine ⟨call.events, ?_⟩
  have same := call.frame
  simp only [Buffered.basis, StreamContext.manage, same]

theorem plainCall_stop (index : Int) : PlainCall m (m.handleContentBlockStop index) := by
  unfold handleContentBlockStop
  split
  · split_ifs
    · exact ⟨fun _ none => absurd none List.not_mem_nil, rfl⟩
    · exact ⟨List.forall_mem_singleton.mpr rfl, rfl⟩
  · exact ⟨fun _ none => absurd none List.not_mem_nil, rfl⟩

theorem plainCall_delta (index : Int) (data : Delta) :
    PlainCall m (m.handleContentBlockDelta index data) := by
  unfold handleContentBlockDelta
  split
  · split_ifs
    · exact ⟨fun _ none => absurd none List.not_mem_nil, rfl⟩
    · exact ⟨List.forall_mem_singleton.mpr rfl, rfl⟩
  · exact ⟨fun _ none => absurd none List.not_mem_nil, rfl⟩

theorem plainCall_begin (index : Int) (data : ContentBlock) :
    PlainCall m (m.beginBlock index data) := by
  unfold beginBlock
  split
  · split_ifs
    · exact ⟨fun _ none => absurd none List.not_mem_nil, rfl⟩
    · exact ⟨List.forall_mem_singleton.mpr rfl, rfl⟩
  · exact ⟨List.forall_mem_singleton.mpr rfl, rfl⟩

theorem plainCall_stopOpen (env : StreamEnv) (which : BlockType → Bool) :
    PlainCall m (m.stopOpen env which) := by
  refine ⟨?_, rfl⟩
  intro e mem
  obtain ⟨index, -, rfl⟩ := List.mem_map.mp mem
  rfl

theorem plainCall_start (env : StreamEnv) (index : Int) (data : ContentBlock) :
    PlainCall m (m.handleContentBlockStart env index data) := by
  unfold handleContentBlockStart
  split_ifs
  · have stopped := plainCall_stopOpen (m := { m with hasToolUse := true }) env
      (· == BlockType.text)
    have begun := plainCall_begin (m := ({ m with hasToolUse := true }.stopOpen env
      (· == BlockType.text)).2) index data
    refine ⟨?_, begun.frame.trans stopped.frame⟩
    intro e mem
    rcases List.mem_append.mp mem with mem | mem
    · exact stopped.events e mem
    · exact begun.events e mem
  · exact plainCall_begin index data

theorem plain_startBlock (index : Int) (block : ContentBlock) :
    Plain c (c.startBlock env index block) :=
  (plainCall_start env index block).manage

theorem plain_ensureText : Plain c (c.ensureText env) := by
  unfold ensureText
  split
  · exact plain_quiet rfl
  · exact (plain_startBlock _ _).from rfl

theorem plain_createText (text : Text) : Plain c (c.createTextDeltaEvents env text) := by
  unfold createTextDeltaEvents
  refine plain_ensureText.andThen ?_
  split
  · exact (plainCall_delta _ _).manage
  · exact plain_quiet rfl

theorem plain_sendThinking (text : Text) : Plain c (c.sendThinking text) := by
  unfold sendThinking
  split
  · exact ⟨List.forall_mem_singleton.mpr rfl, rfl⟩
  · exact plain_quiet rfl

theorem plain_stopThinking : Plain c c.stopThinking := by
  unfold stopThinking
  split
  · rename_i index _
    have deltas : Plain c
        ([createThinkingDeltaEvent index [], createSignatureDeltaEvent index], c) :=
      ⟨List.forall_mem_cons.mpr ⟨rfl, List.forall_mem_singleton.mpr rfl⟩, rfl⟩
    exact deltas.andThen (plainCall_stop index).manage
  · exact plain_quiet rfl

theorem plain_closeText : Plain c c.closeTextIfOpen := by
  unfold closeTextIfOpen
  split
  · exact (plainCall_stop _).manage
  · exact plain_quiet rfl

theorem plain_closeReasoning : Plain c c.closeReasoningIfOpen := by
  unfold closeReasoningIfOpen
  split_ifs
  · exact plain_quiet rfl
  · exact plain_stopThinking.andThen (plain_quiet rfl)

theorem plain_emitExtracted : Plain c (c.emitExtracted env) := by
  unfold emitExtracted
  exact plain_ite (fun _ => plain_quiet rfl) fun _ => (plain_createText _).from rfl

theorem basis_stripLeadingNewline : basis c.stripLeadingNewline = basis c := by
  unfold stripLeadingNewline
  split_ifs <;> rfl

theorem plain_endThinking (text : Text) : Plain c (c.endThinking text) := by
  unfold endThinking
  exact (plain_ite (fun _ => plain_quiet rfl) fun _ => plain_sendThinking text).andThen
    (plain_stopThinking.from rfl)

theorem plain_scanThinking : Plain c (c.scanThinking env) := by
  unfold scanThinking
  dsimp only
  split
  · refine Plain.from (d := c.stripLeadingNewline) ?_ basis_stripLeadingNewline
    exact (plain_endThinking _).andThen (plain_emitExtracted.from rfl)
  · refine Plain.from (d := c.stripLeadingNewline) ?_ basis_stripLeadingNewline
    exact plain_ite (fun _ => plain_quiet rfl) fun _ => (plain_sendThinking _).from rfl

theorem plain_enterThinking (after : Text) : Plain c (c.enterThinking env after) :=
  (plain_startBlock _ _).from rfl

theorem plain_scanStart : Plain c (c.scanStart env) := by
  unfold scanStart
  split
  · refine Plain.andThen (Plain.andThen ?_ (plain_enterThinking _)) plain_scanThinking
    exact plain_ite (fun _ => plain_quiet rfl) fun _ => plain_createText _
  · exact plain_ite (fun _ => plain_quiet rfl) fun _ =>
      (plain_createText _).andThen (plain_quiet rfl)

theorem plain_processFiltered (content : Text) : Plain c (c.processFiltered env content) := by
  unfold processFiltered
  refine plain_ite (fun _ => ?_) fun _ => plain_createText content
  unfold processContentWithThinking
  refine plain_ite (fun _ => plain_scanStart.from rfl) fun _ => ?_
  exact plain_ite (fun _ => plain_scanThinking.from rfl) fun _ => plain_emitExtracted.from rfl

theorem plain_processAssistantResponse (content : Text) :
    Plain c (c.processAssistantResponse env content) := by
  unfold processAssistantResponse
  exact plain_ite (fun _ => plain_quiet rfl) fun _ => (plain_processFiltered _).from rfl

theorem plain_processReasoning (e : ReasoningContentEvent) :
    Plain c (c.processReasoningContent env e) := by
  have opened : Plain c (c.openReasoning env) := by
    refine plain_closeText.andThen ?_
    dsimp only
    split
    · exact (plain_startBlock _ _).from rfl
    · exact (plain_startBlock _ _).from rfl
  have redacted (data : String) : Plain c (c.processRedacted env data) := by
    have begun (d : StreamContext) : Plain d ((d.nextBlockIndex.2.startBlock env d.nextBlockIndex.1
        (.redactedThinking data)).andThen fun c =>
          c.manage (c.stateManager.handleContentBlockStop d.nextBlockIndex.1)) := by
      refine Plain.from (d := d.nextBlockIndex.2) ?_ rfl
      exact (plain_startBlock _ _).andThen (plainCall_stop _).manage
    exact ((plain_closeReasoning.andThen plain_closeText).andThen (begun _)).andThen
      (plain_quiet rfl)
  unfold processReasoningContent
  refine plain_ite (fun _ => plain_quiet rfl) fun _ => ?_
  split
  · exact redacted _
  · refine (plain_ite (fun _ => plain_quiet rfl) fun _ => opened).andThen ?_
    exact plain_ite (fun _ => plain_quiet rfl) fun _ => (plain_sendThinking _).from rfl

theorem plain_emitCompletedToolUse (t : CompletedToolUse) :
    Plain c (c.emitCompletedToolUse env t) := by
  have sent (d : StreamContext) (index : Int) (json : String) : Plain d
      (((d.startBlock env index (.toolUse t.id t.name)).andThen fun c =>
        let c := c.addOutputTokens json.toList
        c.manage (c.stateManager.handleContentBlockDelta index (.inputJsonDelta json))).andThen
          fun c =>
            c.manage (c.stateManager.handleContentBlockStop index)) := by
    refine Plain.andThen ((plain_startBlock _ _).andThen ?_) (plainCall_stop _).manage
    exact (plainCall_delta _ _).manage.from rfl
  unfold emitCompletedToolUse
  dsimp only
  split
  · exact sent c _ _
  · exact (sent _ _ _).from rfl

theorem plain_emitRest (after : Text) : Plain c (c.emitRest env after) := by
  unfold emitRest
  exact plain_ite (fun _ => plain_quiet rfl) fun _ => (plain_createText _).from rfl

theorem plain_collectToolUse (e : ToolUseEvent) : Plain c (c.collectToolUse env e) := by
  unfold collectToolUse
  dsimp only
  split
  · exact (plain_emitCompletedToolUse _).from rfl
  · exact plain_quiet rfl
  · exact plain_quiet rfl

theorem plain_processToolUse (e : ToolUseEvent) : Plain c (c.processToolUse env e) := by
  have settled (d : StreamContext) : Plain d (d.settleThinking env) := by
    unfold settleThinking
    refine plain_ite (fun _ => ?_) fun _ => plain_quiet rfl
    split
    · exact (plain_endThinking _).andThen (plain_emitRest _)
    · exact plain_quiet rfl
  have flushed (d : StreamContext) : Plain d (d.flushWaiting env) := by
    unfold flushWaiting
    exact plain_ite (fun _ => (plain_createText _).from rfl) fun _ => plain_quiet rfl
  unfold processToolUse
  refine Plain.andThen (Plain.andThen ?_ (flushed _)) (plain_collectToolUse e)
  exact (settled _).from rfl

theorem plain_emitAll {α : Type} {step : StreamContext → α → Sent}
    (steps : ∀ d a, Plain d (step d a)) (inputs : List α) : Plain c (emitAll step inputs c) := by
  induction inputs generalizing c with
  | nil => exact plain_quiet rfl
  | cons a rest ih => exact (steps c a).andThen ih

theorem plain_finishTools : Plain c (c.finishTools env) := by
  unfold finishTools
  refine plain_ite (fun _ => plain_quiet rfl) fun _ => ?_
  dsimp only
  split
  · exact (plain_emitAll (fun _ t => plain_emitCompletedToolUse t) _).from rfl
  · exact plain_quiet rfl

theorem plain_finishFilter : Plain c (c.finishFilter env) := by
  unfold finishFilter
  exact plain_ite (fun _ => plain_quiet rfl) fun _ => (plain_processFiltered _).from rfl

theorem plain_flushBuffer : Plain c (c.flushBuffer env) := by
  unfold flushBuffer
  refine plain_ite (fun _ => Plain.andThen ?_ (plain_quiet rfl)) fun _ => plain_quiet rfl
  refine plain_ite (fun _ => ?_) fun _ => ?_
  · split
    · exact (plain_endThinking _).andThen (plain_emitRest _)
    · exact (plain_sendThinking _).andThen plain_stopThinking
  · exact plain_ite (fun _ => plain_quiet rfl) fun _ => (plain_createText _).from rfl

theorem plain_padThinkingOnly : Plain c (c.padThinkingOnly env) := by
  unfold padThinkingOnly
  exact plain_ite (fun _ => (plain_createText _).from rfl) fun _ => plain_quiet rfl

def carriesUsage : SseEvent → Bool
  | .messageStart _ _ _ | .messageDelta _ _ => true
  | _ => false

theorem carriesUsage_of_block {e : SseEvent} (block : isBlockEvent e = true) :
    carriesUsage e = false := by
  cases e <;> first | rfl | cases block

theorem resolvedUsage_of_basis (env : StreamEnv) (same : basis d = basis c) :
    d.resolvedUsage env = c.resolvedUsage env := by
  obtain ⟨-, tokens, context, usage, -⟩ : d.model = c.model ∧ d.inputTokens = c.inputTokens ∧
      d.contextInputTokens = c.contextInputTokens ∧ d.cacheUsage = c.cacheUsage ∧
      frame d.stateManager = frame c.stateManager := by
    simpa only [basis, Prod.mk.injEq] using same
  rw [resolvedUsage, resolvedUsage, tokens, context, usage]

def contextTokens (env : StreamEnv) (model : String) : Event → Option Int
  | .contextUsage percentage => some (env.percentOf percentage (getContextWindowSize env model))
  | _ => none

def lastContextTokens (env : StreamEnv) (model : String) (events : List Event) : Option Int :=
  (events.filterMap (contextTokens env model)).getLast?

def reported (c : StreamContext) (tokens : Option Int) : StreamContext :=
  { c with contextInputTokens := tokens.or c.contextInputTokens }

theorem plain_processKiroEvent (env : StreamEnv) (c : StreamContext) (event : Event) :
    Plain (reported c (contextTokens env c.model event)) (c.processKiroEvent env event) := by
  have answered (content : Text) : Plain c (c.closeReasoningIfOpen.andThen fun c =>
      c.processAssistantResponse env content) :=
    Plain.andThen plain_closeReasoning (plain_processAssistantResponse content)
  have called (e : ToolUseEvent) : Plain c (c.closeReasoningIfOpen.andThen fun c =>
      c.processToolUse env e) :=
    Plain.andThen plain_closeReasoning (plain_processToolUse e)
  cases event with
  | assistantResponse content => exact answered content
  | code content => exact answered content
  | toolUse e => exact called e
  | reasoningContent e => exact plain_processReasoning e
  | contextUsage percentage =>
    simp only [StreamContext.processKiroEvent]
    split_ifs <;> exact plain_quiet rfl
  | exception exceptionType _ =>
    simp only [StreamContext.processKiroEvent]
    split_ifs <;> exact plain_quiet rfl
  | metering _ => exact plain_quiet rfl
  | error _ _ => exact plain_quiet rfl
  | unknown => exact plain_quiet rfl

theorem basis_reported (same : basis d = basis c) (tokens : Option Int) :
    basis (reported d tokens) = basis (reported c tokens) := by
  simp only [basis, reported, Prod.mk.injEq] at same ⊢
  obtain ⟨model, input, context, usage, started⟩ := same
  rw [context]
  exact ⟨model, input, rfl, usage, started⟩

/-- A run of events puts out events of blocks only, and knows the last report. -/
theorem plain_events (env : StreamEnv) (c : StreamContext) (events : List Event) :
    Plain (reported c (lastContextTokens env c.model events))
      (emitAll (StreamContext.processKiroEvent env) events c) := by
  induction events generalizing c with
  | nil => exact plain_quiet rfl
  | cons event rest ih =>
    have first := plain_processKiroEvent env c event
    have later := ih (c.processKiroEvent env event).2
    have model : (c.processKiroEvent env event).2.model = c.model :=
      congrArg Prod.fst first.basis
    rw [model] at later
    refine ⟨?_, ?_⟩
    · intro e mem
      rcases List.mem_append.mp mem with mem | mem
      · exact first.events e mem
      · exact later.events e mem
    · refine later.basis.trans ((basis_reported first.basis _).trans ?_)
      have last : lastContextTokens env c.model (event :: rest) =
          (lastContextTokens env c.model rest).or (contextTokens env c.model event) := by
        unfold lastContextTokens
        rw [List.filterMap_cons]
        cases contextTokens env c.model event with
        | none => rw [Option.or_none]
        | some tokens =>
          rw [List.getLast?_cons]
          cases (rest.filterMap (contextTokens env c.model)).getLast? <;> rfl
      rw [last]
      simp only [basis, reported, Option.or_assoc]

def usageOf (parts : Int × Int × Int) (outputTokens : Int) : Usage where
  inputTokens := parts.1
  outputTokens := outputTokens
  cacheCreationInputTokens := parts.2.1
  cacheReadInputTokens := parts.2.2

/-- The end of a message: events of blocks, one `message_delta` with the resolved usage, and events
without usage. -/
structure Closing (env : StreamEnv) (c : StreamContext) (r : Sent) : Prop where
  shape : ∃ body reason tail,
    r.1 = body ++ .messageDelta reason (usageOf (c.resolvedUsage env) r.2.outputTokens) :: tail ∧
      (∀ e ∈ body, isBlockEvent e = true) ∧ ∀ e ∈ tail, carriesUsage e = false
  usage : r.2.resolvedUsage env = c.resolvedUsage env

theorem Plain.closing {next : StreamContext → Sent} (first : Plain c r)
    (last : Closing env r.2 (next r.2)) : Closing env c (r.andThen next) := by
  obtain ⟨⟨body, reason, tail, eq, blocks, plain⟩, usage⟩ := last
  have same := resolvedUsage_of_basis env first.basis
  refine ⟨⟨r.1 ++ body, reason, tail, ?_, ?_, plain⟩, usage.trans same⟩
  · rw [same] at eq
    simp only [Emit.andThen, eq, List.append_assoc]
  · exact List.forall_mem_append.mpr ⟨first.events, blocks⟩

theorem closing_sendFinal (inside : frame c.stateManager = (true, false, false)) :
    Closing env c (c.sendFinal env) := by
  obtain ⟨-, delta, ended⟩ : c.stateManager.messageStarted = true ∧
      c.stateManager.messageDeltaSent = false ∧ c.stateManager.messageEnded = false := by
    simpa only [frame, Prod.mk.injEq] using inside
  have stopped := plainCall_stopOpen (m := c.stateManager) env fun _ => true
  refine ⟨⟨(c.stateManager.stopOpen env fun _ => true).1,
    (c.stateManager.stopOpen env fun _ => true).2.getStopReason, [.messageStop], ?_,
    stopped.events, List.forall_mem_singleton.mpr rfl⟩, rfl⟩
  have sent (usage : Usage) : (c.stateManager.generateFinalEvents env usage).1 =
      (c.stateManager.stopOpen env fun _ => true).1 ++
        [.messageDelta (c.stateManager.stopOpen env fun _ => true).2.getStopReason usage,
          .messageStop] := by
    have undelivered : (c.stateManager.stopOpen env fun _ => true).2.messageDeltaSent = false :=
      delta
    have running : (c.stateManager.stopOpen env fun _ => true).2.messageEnded = false := ended
    simp [SseStateManager.generateFinalEvents, Emit.andThen, sendMessageDelta, sendMessageStop,
      undelivered, running]
  exact sent _

/-- The end of a stream, whatever came before it. -/
theorem closing_generateFinalEvents (env : StreamEnv)
    (inside : frame c.stateManager = (true, false, false)) :
    Closing env c (c.generateFinalEvents env) := by
  have inside_of {d : StreamContext} (same : basis d = basis c) :
      frame d.stateManager = (true, false, false) := by
    simp only [basis, Prod.mk.injEq] at same
    rw [same.2.2.2.2, inside]
  have finished : Plain c ((c.finishTools env).andThen fun c => c.finishFilter env) :=
    Plain.andThen plain_finishTools plain_finishFilter
  refine Plain.closing finished ?_
  generalize eq : ((c.finishTools env).andThen fun c => c.finishFilter env) = r at finished
  split
  · rename_i err _
    have closed : Plain r.2 r.2.closeReasoningIfOpen := plain_closeReasoning
    have inner : Closing env r.2 (r.2.closeReasoningIfOpen.andThen fun c => c.sendFinal env) :=
      Plain.closing closed (closing_sendFinal (inside_of (closed.basis.trans finished.basis)))
    obtain ⟨⟨body, reason, tail, shape, blocks, without⟩, usage⟩ := inner
    refine ⟨⟨body, reason, tail ++ [.error err.errorType err.message], ?_, blocks, ?_⟩, usage⟩
    · rw [Emit.andThen, shape]
      simp only [List.append_assoc, List.cons_append, Emit.andThen]
    · exact List.forall_mem_append.mpr ⟨without, List.forall_mem_singleton.mpr rfl⟩
  · have flushed : Plain r.2 ((r.2.closeReasoningIfOpen.andThen fun c => c.flushBuffer env).andThen
        fun c => c.padThinkingOnly env) :=
      Plain.andThen (Plain.andThen plain_closeReasoning plain_flushBuffer) plain_padThinkingOnly
    exact Plain.closing flushed
      (closing_sendFinal (inside_of (flushed.basis.trans finished.basis)))

namespace BufferedStreamContext

theorem buffer_quiet (b : BufferedStreamContext) : b.buffer (quiet b.inner) = b := by
  unfold buffer quiet
  rw [List.append_nil]

theorem buffer_andThen (b : BufferedStreamContext) (r : Sent) (next : StreamContext → Sent) :
    b.buffer (r.andThen next) = (b.buffer r).buffer (next (b.buffer r).inner) := by
  simp only [buffer, Emit.andThen, List.append_assoc]

theorem generateInitial_of_generated {b : BufferedStreamContext}
    (generated : b.initialEventsGenerated = true) : b.generateInitial env = b := by
  rw [generateInitial, if_pos generated]

theorem generateInitial_generated (b : BufferedStreamContext) :
    (b.generateInitial env).initialEventsGenerated = true := by
  unfold generateInitial
  split_ifs with generated
  · exact generated
  · rfl

theorem foldl_processAndBuffer {b : BufferedStreamContext}
    (generated : b.initialEventsGenerated = true) (events : List Event) :
    events.foldl (processAndBuffer env) b =
      b.buffer (emitAll (StreamContext.processKiroEvent env) events b.inner) := by
  induction events generalizing b with
  | nil => exact (buffer_quiet b).symm
  | cons event rest ih =>
    have step : b.processAndBuffer env event =
        b.buffer (b.inner.processKiroEvent env event) := by
      rw [processAndBuffer, generateInitial_of_generated generated]
    rw [List.foldl_cons, step, ih (by exact generated), emitAll, buffer_andThen]

theorem generateInitial_foldl (b : BufferedStreamContext) (events : List Event) :
    (events.foldl (processAndBuffer env) b).generateInitial env =
      events.foldl (processAndBuffer env) (b.generateInitial env) := by
  cases events with
  | nil => rfl
  | cons event rest =>
    have again : (b.generateInitial env).generateInitial env = b.generateInitial env :=
      generateInitial_of_generated (generateInitial_generated b)
    have step : (b.generateInitial env).processAndBuffer env event =
        b.processAndBuffer env event := by
      rw [processAndBuffer, again, processAndBuffer]
    have generated : (b.processAndBuffer env event).initialEventsGenerated = true :=
      generateInitial_generated b
    rw [List.foldl_cons, List.foldl_cons, step, foldl_processAndBuffer generated]
    exact generateInitial_of_generated generated

end BufferedStreamContext

open BufferedStreamContext

/-- The buffered context refines the plain one: its events are those of the plain context, each
corrected by the usage that the plain context resolves before its final events. -/
theorem finish_buffered (env : StreamEnv) {b : BufferedStreamContext}
    (fresh : b.initialEventsGenerated = false) (empty : b.eventBuffer = []) (events : List Event) :
    (events.foldl (processAndBuffer env) b).finishAndGetAllEvents env =
      ((b.inner.streamed env events).1.map
          (correctStart ((running env b.inner events).2.resolvedUsage env)),
        { inner := (b.inner.streamed env events).2, initialEventsGenerated := true }) := by
  have first : b.generateInitial env =
      { inner := (b.inner.generateInitialEvents env).2
        eventBuffer := (b.inner.generateInitialEvents env).1
        initialEventsGenerated := true } := by
    simp only [generateInitial, fresh, Bool.false_eq_true, if_false, buffer, empty, List.nil_append]
  unfold finishAndGetAllEvents
  rw [generateInitial_foldl, foldl_processAndBuffer (generateInitial_generated b), first]
  rfl

theorem correctStart_of_other {e : SseEvent} (other : carriesUsage e = false)
    (usage : Int × Int × Int) : correctStart usage e = e := by
  cases e <;> first | rfl | cases other

/-- The initial events: one `message_start`, and events of blocks. -/
theorem generateInitialEvents_shape (env : StreamEnv) (c : StreamContext)
    (fresh : c.stateManager.messageStarted = false) :
    ∃ blocks, (c.generateInitialEvents env).1 = c.createMessageStartEvent env :: blocks ∧
      (∀ e ∈ blocks, isBlockEvent e = true) ∧ basis (c.generateInitialEvents env).2 =
        basis { c with stateManager := { c.stateManager with messageStarted := true } } := by
  let started : StreamContext :=
    { c with stateManager := { c.stateManager with messageStarted := true } }
  have start : c.manage (c.stateManager.handleMessageStart (c.createMessageStartEvent env)) =
      ([c.createMessageStartEvent env], started) := by
    rw [handleMessageStart, if_neg (by rw [fresh]; exact Bool.false_ne_true)]
    rfl
  have opened : Plain started (if started.thinkingEnabled then quiet started
      else { started.nextBlockIndex.2 with
        textBlockIndex := some started.nextBlockIndex.1 }.startBlock env
          started.nextBlockIndex.1 .text) := by
    refine plain_ite (fun _ => plain_quiet rfl) fun _ => ?_
    exact (plain_startBlock _ _).from rfl
  refine ⟨_, ?_, opened.events, ?_⟩
  · rw [generateInitialEvents, start]
    rfl
  · rw [generateInitialEvents, start]
    exact opened.basis

/-- A buffered stream puts out what the plain one does, but for the counts of its start: these are
the ones of its end and of the final usage, and make up the total that was last reported. -/
theorem buffered_refines (env : StreamEnv) (f : Ratios) (model messageId : String)
    (estimate : Int) (thinkingEnabled : Bool) (names : ToolNameMap) (usage : CacheUsage)
    (events : List Event) :
    let env := withRatios env f
    let b := (BufferedStreamContext.new model messageId estimate thinkingEnabled
      names).setCacheUsage usage
    let finished := (events.foldl (processAndBuffer env) b).finishAndGetAllEvents env
    let total := (lastContextTokens env model events).getD estimate
    ∃ parts start reason outputTokens body tail,
      (b.inner.streamed env events).1 = .messageStart messageId model start ::
        (body ++ .messageDelta reason (usageOf parts outputTokens) :: tail) ∧
      finished.1 = .messageStart messageId model (usageOf parts start.outputTokens) ::
        (body ++ .messageDelta reason (usageOf parts outputTokens) :: tail) ∧
      (∀ e ∈ body ++ tail, carriesUsage e = false) ∧
      finished.2.finalUsage env = (parts.1, outputTokens, parts.2.1, parts.2.2) ∧
      Parts (max 0 total) parts := by
  intro env b finished total
  let c := b.inner
  let parts := splitAgainstTotal f usage total
  obtain ⟨blocks, first, plain, known⟩ := generateInitialEvents_shape env c rfl
  have run := plain_events env (c.generateInitialEvents env).2 events
  have same := run.basis.trans (basis_reported known _)
  have named : (c.generateInitialEvents env).2.model = model := congrArg Prod.fst known
  rw [named] at same
  have resolved : (running env c events).2.resolvedUsage env = parts := by
    have last : (lastContextTokens env model events).or c.contextInputTokens =
        lastContextTokens env model events := Option.or_none
    refine (resolvedUsage_of_basis env same).trans ?_
    simp only [resolvedUsage, reported, last]
    rfl
  have inside : frame (running env c events).2.stateManager = (true, false, false) := by
    have frames := congrArg (fun x => x.2.2.2.2) same
    exact frames
  obtain ⟨⟨final, reason, tail, shape, finals, without⟩, later⟩ :=
    closing_generateFinalEvents env inside
  have finish := finish_buffered env (b := b) rfl rfl events
  rw [show (running env b.inner events).2.resolvedUsage env = parts from resolved] at finish
  rw [resolved] at shape later
  let middle := (emitAll (StreamContext.processKiroEvent env) events
    (c.generateInitialEvents env).2).1
  have middles (e : SseEvent) (mem : e ∈ blocks ++ middle ++ final) : isBlockEvent e = true := by
    rcases List.mem_append.mp mem with mem | mem
    · rcases List.mem_append.mp mem with mem | mem
      · exact plain e mem
      · exact run.events e mem
    · exact finals e mem
  have sent : (c.streamed env events).1 = c.createMessageStartEvent env ::
      (blocks ++ middle ++ final ++ .messageDelta reason
        (usageOf parts (c.streamed env events).2.outputTokens) :: tail) := by
    have joined : (c.streamed env events).1 = (c.generateInitialEvents env).1 ++ middle ++
        ((running env c events).2.generateFinalEvents env).1 := rfl
    rw [joined, first, shape]
    simp only [List.cons_append, List.append_assoc]
    rfl
  have kept (e : SseEvent) (mem : e ∈ blocks ++ middle ++ final ++ tail) :
      carriesUsage e = false := by
    rcases List.mem_append.mp mem with mem | mem
    · exact carriesUsage_of_block (middles e mem)
    · exact without e mem
  refine ⟨parts, _, reason, (c.streamed env events).2.outputTokens, blocks ++ middle ++ final, tail,
    sent, ?_, kept, ?_, parts_splitAgainstTotal f usage total⟩
  · have uncorrected (l : List SseEvent) (others : ∀ e ∈ l, carriesUsage e = false) :
        l.map (correctStart parts) = l := by
      rw [List.map_congr_left fun e mem => correctStart_of_other (others e mem) parts]
      exact List.map_id l
    rw [List.forall_mem_append] at kept
    rw [show finished = _ from finish, sent, List.map_cons, List.map_append, List.map_cons,
      uncorrected _ kept.1, uncorrected _ kept.2]
    rfl
  · have counted : (c.streamed env events).2.resolvedUsage env = parts := later
    rw [show finished = _ from finish, finalUsage, counted]

end KiroRs.Stream.Buffered
