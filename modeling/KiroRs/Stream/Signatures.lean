/- Path: KiroRs/Stream/Signatures
   source: src/anthropic/stream.rs
   digest: Which thinking blocks reach the client with their signature, and the streams whose last
   thinking block does not. -/

import KiroRs.Stream.CallReplies

set_option autoImplicit false
set_option relaxedAutoImplicit false

namespace KiroRs.Stream.Signatures

open KiroRs.Lib
open KiroRs.Lib.Emits
open KiroRs.Lib.Slots
open KiroRs.Lib.Text
open KiroRs.Converter.ToolNames (ToolNameMap)
open KiroRs.Stream.XmlFilter
open KiroRs.Stream.Events
open KiroRs.Stream.StateManager
open KiroRs.Stream.ThinkingTags
open KiroRs.Stream.ToolJson
open KiroRs.Stream.Context
open KiroRs.Stream.Context.StreamContext
open KiroRs.Stream.Replies
open KiroRs.Stream.ReplyOps
open KiroRs.Stream.BlockOps (toolFrame)
open KiroRs.Stream.BlockOrder (newContext toolsFinished inThinkingBlock_of_scanStart)
open KiroRs.Stream.ToolCalls (HasBroken hasBroken_iff)
open KiroRs.Stream.CallReplies

variable {env : StreamEnv} {blocks : List Reply} {c c' : StreamContext} {r : Sent}

def Plain (items : List (Option Delta)) : Prop := ∀ item ∈ items, ∃ t, item = some (.thinkingDelta t)

/-- The only signature is the last delta before the stop. -/
def Signed (items : List (Option Delta)) : Prop :=
  ∃ before signature, items = before ++ [some (.signatureDelta signature), none] ∧
    ∀ other, some (.signatureDelta other) ∉ before

theorem plain_nil : Plain [] := by
  intro item mem
  cases mem

theorem Plain.append {items : List (Option Delta)} (plain : Plain items) (t : Text) :
    Plain (items ++ [some (.thinkingDelta t)]) := by
  intro item mem
  rcases List.mem_append.mp mem with old | new
  · exact plain item old
  · exact ⟨t, List.mem_singleton.mp new⟩

theorem Plain.unsigned {items : List (Option Delta)} (plain : Plain items) (signature : String) :
    some (.signatureDelta signature) ∉ items := by
  intro mem
  obtain ⟨t, same⟩ := plain _ mem
  cases same

theorem hasStop_of_plain {b : Reply} (plain : Plain b.items) : hasStop b = false := by
  unfold hasStop
  rw [List.any_eq_false]
  intro item mem
  obtain ⟨t, rfl⟩ := plain item mem
  exact Bool.false_ne_true

theorem hasStop_of_signed {b : Reply} (signed : Signed b.items) : hasStop b = true := by
  obtain ⟨before, signature, eq, -⟩ := signed
  unfold hasStop
  rw [eq, List.any_append]
  exact Bool.or_true _

theorem not_signed_of_plain {items : List (Option Delta)} (plain : Plain items) :
    ¬ Signed (items ++ [none]) := by
  rintro ⟨before, signature, eq, -⟩
  have front : items = before ++ [some (.signatureDelta signature)] := by
    have regrouped : items ++ [none] = (before ++ [some (.signatureDelta signature)]) ++ [none] := by
      rw [eq, List.append_assoc]
      rfl
    exact List.append_cancel_right regrouped
  refine plain.unsigned signature ?_
  rw [front]
  exact List.mem_append_right _ List.mem_cons_self

/-- All thinking blocks are signed but the one of the index, which is still growing. -/
def SignedExcept (live : Option Int) (blocks : List Reply) : Prop :=
  ∀ b ∈ ofType .thinking blocks,
    if live = some b.key then Plain b.items else Signed b.items

/-- The index of the thinking block that is still growing. -/
def live (c : StreamContext) : Option Int :=
  if c.inThinkingBlock || c.reasoningBlockOpen then c.thinkingBlockIndex else none

structure SigInv (blocks : List Reply) (c : StreamContext) : Prop where
  enabled : c.thinkingEnabled = true
  known : Known blocks c
  signed : SignedExcept (live c) blocks
  indexed : (c.inThinkingBlock || c.reasoningBlockOpen) = true → c.thinkingBlockIndex.isSome = true
  apart : c.reasoningBlockOpen = true → c.inThinkingBlock = false ∧ c.thinkingExtracted = true

structure ThinkFrame (c c' : StreamContext) : Prop where
  enabled : c'.thinkingEnabled = c.thinkingEnabled
  tagged : c'.inThinkingBlock = c.inThinkingBlock
  reasoning : c'.reasoningBlockOpen = c.reasoningBlockOpen
  extracted : c'.thinkingExtracted = c.thinkingExtracted
  index : c'.thinkingBlockIndex = c.thinkingBlockIndex

theorem ThinkFrame.refl (c : StreamContext) : ThinkFrame c c :=
  ⟨rfl, rfl, rfl, rfl, rfl⟩

theorem ThinkFrame.trans {c₁ c₂ c₃ : StreamContext} (first : ThinkFrame c₁ c₂)
    (second : ThinkFrame c₂ c₃) : ThinkFrame c₁ c₃ :=
  ⟨second.enabled.trans first.enabled, second.tagged.trans first.tagged,
    second.reasoning.trans first.reasoning, second.extracted.trans first.extracted, second.index.trans first.index⟩

theorem ThinkFrame.live (frame : ThinkFrame c c') : live c' = live c := by
  unfold Signatures.live
  rw [frame.tagged, frame.reasoning, frame.index]

theorem SigInv.other {touched : BlockType → Bool} (inv : SigInv blocks c)
    (does : Does touched blocks r) (untouched : touched .thinking = false)
    (frame : ThinkFrame c r.2) (fits : Fits (after blocks r.1)) :
    SigInv (after blocks r.1) r.2 where
  enabled := frame.enabled.trans inv.enabled
  known := (does fits).known
  signed := by
    rw [frame.live]
    unfold SignedExcept
    rw [(does fits).keeps .thinking untouched]
    exact inv.signed
  indexed := by
    rw [frame.tagged, frame.reasoning, frame.index]
    exact inv.indexed
  apart := by
    rw [frame.tagged, frame.reasoning, frame.extracted]
    exact inv.apart

theorem SigInv.same (inv : SigInv blocks c) (known : Known blocks c') (frame : ThinkFrame c c') :
    SigInv blocks c' where
  enabled := frame.enabled.trans inv.enabled
  known := known
  signed := by
    rw [frame.live]
    exact inv.signed
  indexed := by
    rw [frame.tagged, frame.reasoning, frame.index]
    exact inv.indexed
  apart := by
    rw [frame.tagged, frame.reasoning, frame.extracted]
    exact inv.apart

theorem live_of_index {i : Int} (is_open : (c.inThinkingBlock || c.reasoningBlockOpen) = true)
    (index : c.thinkingBlockIndex = some i) : live c = some i := by
  unfold live
  rw [if_pos is_open]
  exact index

theorem thinkFrame_createText (env : StreamEnv) (c : StreamContext) (text : Text) :
    ThinkFrame c (c.createTextDeltaEvents env text).2 := by
  obtain ⟨m, t, eq⟩ := createTextDeltaEvents_frame env c text
  rw [eq]
  constructor <;> rfl

theorem thinkFrame_closeText (c : StreamContext) : ThinkFrame c c.closeTextIfOpen.2 := by
  unfold closeTextIfOpen
  split <;> constructor <;> rfl

theorem thinkFrame_emitExtracted (env : StreamEnv) (c : StreamContext) :
    ThinkFrame c (c.emitExtracted env).2 := by
  unfold emitExtracted
  dsimp only
  generalize (if c.stripTextAfterThinkingBoundary = true then trimStart c.thinkingBuffer
    else c.thinkingBuffer) = remaining
  split_ifs
  · constructor <;> rfl
  · refine ThinkFrame.trans ?_ (thinkFrame_createText env _ remaining)
    constructor <;> rfl

theorem thinkFrame_emitRest (env : StreamEnv) (c : StreamContext) (rest : Text) :
    ThinkFrame c (c.emitRest env rest).2 := by
  unfold emitRest
  dsimp only
  split_ifs
  · constructor <;> rfl
  · refine ThinkFrame.trans ?_ (thinkFrame_createText env _ _)
    constructor <;> rfl

theorem thinkFrame_flushWaiting (env : StreamEnv) (c : StreamContext) :
    ThinkFrame c (c.flushWaiting env).2 := by
  unfold flushWaiting
  split_ifs
  · refine ThinkFrame.trans ?_ (thinkFrame_createText env _ _)
    constructor <;> rfl
  · exact ThinkFrame.refl c

theorem thinkFrame_padThinkingOnly (env : StreamEnv) (c : StreamContext) :
    ThinkFrame c (c.padThinkingOnly env).2 := by
  unfold padThinkingOnly
  split_ifs
  · refine ThinkFrame.trans ?_ (thinkFrame_createText env _ _)
    constructor <;> rfl
  · exact ThinkFrame.refl c

theorem thinkFrame_emit (env : StreamEnv) (c : StreamContext) (t : CompletedToolUse) :
    ThinkFrame c (c.emitCompletedToolUse env t).2 := by
  rw [emitCompletedToolUse_eq]
  cases Dicts.get c.toolBlockIndices t.id <;> constructor <;> rfl

theorem signedExcept_delta {i : Int} (signed : SignedExcept (some i) blocks) (t : Text) :
    SignedExcept (some i) (send blocks i (some (.thinkingDelta t))) := by
  intro b mem
  rw [ofType_send] at mem
  obtain ⟨b₀, mem₀, rfl⟩ := mem_send.mp mem
  have here := signed b₀ mem₀
  by_cases same : b₀.key = i
  · rw [if_pos same]
    rw [if_pos (by rw [same])] at here
    rw [Slot.add_key, if_pos (by rw [same]), Slot.add_items]
    exact here.append t
  · rw [if_neg same]
    exact here

theorem signedExcept_stop {i : Int} (signed : SignedExcept (some i) blocks) (signature : String) :
    SignedExcept none (send (send blocks i (some (.signatureDelta signature))) i none) := by
  intro b mem
  rw [if_neg (by simp)]
  rw [ofType_send, ofType_send] at mem
  obtain ⟨b₁, mem₁, rfl⟩ := mem_send.mp mem
  obtain ⟨b₀, mem₀, rfl⟩ := mem_send.mp mem₁
  have here := signed b₀ mem₀
  by_cases same : b₀.key = i
  · rw [if_pos (by rw [same])] at here
    rw [if_pos same, if_pos (by exact same), Slot.add_items, Slot.add_items]
    exact ⟨b₀.items, signature, by rw [List.append_assoc]; rfl, here.unsigned⟩
  · rw [if_neg (by simpa using Ne.symm same)] at here
    rw [if_neg same, if_neg same]
    exact here

theorem SigInv.untagged_of_reasoning (inv : SigInv blocks c) (tagged : c.inThinkingBlock = true) :
    c.reasoningBlockOpen = false := by
  by_contra reasoning
  rw [Bool.not_eq_false] at reasoning
  rw [(inv.apart reasoning).1] at tagged
  cases tagged

theorem SigInv.index (inv : SigInv blocks c)
    (is_open : (c.inThinkingBlock || c.reasoningBlockOpen) = true) :
    ∃ i, c.thinkingBlockIndex = some i ∧ live c = some i := by
  obtain ⟨i, eq⟩ := Option.isSome_iff_exists.mp (inv.indexed is_open)
  exact ⟨i, eq, live_of_index is_open eq⟩

theorem live_none (closed : (c.inThinkingBlock || c.reasoningBlockOpen) = false) :
    live c = none := by
  unfold live
  rw [closed, if_neg Bool.false_ne_true]

theorem SigInv.sendThinking (inv : SigInv blocks c)
    (is_open : (c.inThinkingBlock || c.reasoningBlockOpen) = true) (text : Text) :
    SigInv (after blocks (c.sendThinking text).1) (c.sendThinking text).2 := by
  obtain ⟨i, index, growing⟩ := inv.index is_open
  have signed := inv.signed
  rw [growing] at signed
  have eq : c.sendThinking text = ([createThinkingDeltaEvent i text], c) := by
    unfold StreamContext.sendThinking
    rw [index]
  rw [eq]
  refine ⟨inv.enabled, inv.known.later (tracks_delta inv.known.tracks i _) rfl rfl rfl, ?_,
    inv.indexed, inv.apart⟩
  rw [growing]
  exact signedExcept_delta signed text

theorem signed_stopThinking (h : Known blocks c) {i : Int} (index : c.thinkingBlockIndex = some i)
    (signed : SignedExcept (some i) blocks) : SignedExcept none (after blocks c.stopThinking.1) := by
  let sent := send (send blocks i (some (.thinkingDelta []))) i
    (some (.signatureDelta thinkingSignaturePlaceholder))
  have tracks : Tracks sent c.stateManager := tracks_delta (tracks_delta h.tracks i _) i _
  have is_open : isOpen sent i = true := by
    obtain ⟨b, mem, key, type⟩ := h.thinking i index
    have plain := signed b (mem_ofType.mpr ⟨mem, type⟩)
    rw [if_pos (by rw [key])] at plain
    have first : b.add (some (.thinkingDelta [])) ∈ send blocks i (some (.thinkingDelta [])) :=
      mem_send.mpr ⟨b, mem, by rw [if_pos key]⟩
    have second : (b.add (some (.thinkingDelta []))).add
        (some (.signatureDelta thinkingSignaturePlaceholder)) ∈ sent :=
      mem_send.mpr ⟨_, first, by rw [if_pos (by exact key)]⟩
    have here := isOpen_of_mem tracks second
    rw [hasStop_add_delta, hasStop_add_delta, hasStop_of_plain plain] at here
    rw [← key]
    exact here
  have whole : after blocks c.stopThinking.1 = send sent i none := by
    unfold stopThinking
    rw [index]
    show after sent (c.stateManager.handleContentBlockStop i).1 = _
    rw [(after_handleStop tracks i).2, if_pos is_open]
  rw [whole]
  exact signedExcept_stop (signedExcept_delta signed []) thinkingSignaturePlaceholder

theorem SigInv.closeReasoning (inv : SigInv blocks c)
    (fits : Fits (after blocks c.closeReasoningIfOpen.1)) :
    SigInv (after blocks c.closeReasoningIfOpen.1) c.closeReasoningIfOpen.2 ∧
      c.closeReasoningIfOpen.2.reasoningBlockOpen = false ∧
      c.closeReasoningIfOpen.2.inThinkingBlock = c.inThinkingBlock := by
  have known := (does_closeReasoning inv.known fits).known
  unfold closeReasoningIfOpen at known ⊢
  by_cases closed : (!c.reasoningBlockOpen) = true
  · rw [if_pos closed] at known ⊢
    have not_reasoning : c.reasoningBlockOpen = false := by simpa using closed
    exact ⟨inv, not_reasoning, rfl⟩
  · rw [if_neg closed] at known ⊢
    have reasoning : c.reasoningBlockOpen = true := by simpa using closed
    obtain ⟨i, index, growing⟩ := inv.index (by rw [reasoning, Bool.or_true])
    have signed := inv.signed
    rw [growing] at signed
    have stopped := signed_stopThinking inv.known index signed
    obtain ⟨m, eq⟩ := stopThinking_frame c
    have untagged := (inv.apart reasoning).1
    have whole : (c.stopThinking.andThen fun c => quiet { c with
        reasoningBlockOpen := false, thinkingExtracted := true }) = (c.stopThinking.1, { c with
          stateManager := m, reasoningBlockOpen := false, thinkingExtracted := true }) := by
      refine Prod.ext (List.append_nil _) ?_
      show { c.stopThinking.2 with reasoningBlockOpen := false, thinkingExtracted := true } = _
      rw [eq]
    rw [whole] at known ⊢
    refine ⟨⟨inv.enabled, known, ?_, ?_, ?_⟩, rfl, rfl⟩
    · rw [live_none (by show (c.inThinkingBlock || false) = false; rw [untagged]; rfl)]
      exact stopped
    · intro is_open
      have closed' : (c.inThinkingBlock || false) = true := is_open
      rw [untagged] at closed'
      cases closed'
    · intro never
      cases never

theorem SigInv.endThinking (inv : SigInv blocks c) (tagged : c.inThinkingBlock = true) (text : Text)
    (fits : Fits (after blocks (c.endThinking text).1)) :
    SigInv (after blocks (c.endThinking text).1) (c.endThinking text).2 := by
  have known := (does_endThinking inv.known text fits).known
  have is_open : (c.inThinkingBlock || c.reasoningBlockOpen) = true := by rw [tagged, Bool.true_or]
  have not_reasoning := inv.untagged_of_reasoning tagged
  obtain ⟨i, index, growing⟩ := inv.index is_open
  have first : ∃ out, (if text.isEmpty then quiet c else c.sendThinking text) = (out, c) ∧
      SigInv (after blocks out) c := by
    split_ifs
    · exact ⟨[], rfl, inv⟩
    · have sent := inv.sendThinking is_open text
      rw [sendThinking_frame] at sent
      exact ⟨_, Prod.ext rfl (sendThinking_frame c text), sent⟩
  obtain ⟨out, eq, inv'⟩ := first
  have signed := inv'.signed
  rw [growing] at signed
  have stopped := signed_stopThinking (c := { c with
    inThinkingBlock := false
    thinkingExtracted := true
    stripTextAfterThinkingBoundary := true }) (inv'.known.same rfl rfl rfl rfl rfl) index signed
  obtain ⟨m, frame⟩ := endThinking_frame c text
  have sent : after blocks (c.endThinking text).1 = after (after blocks out) (stopThinking { c with
      inThinkingBlock := false
      thinkingExtracted := true
      stripTextAfterThinkingBoundary := true }).1 := by
    unfold StreamContext.endThinking
    rw [eq]
    exact after_append ..
  rw [sent, frame] at known ⊢
  refine ⟨inv.enabled, known, ?_, ?_, ?_⟩
  · rw [live_none (by show (false || c.reasoningBlockOpen) = false; rw [not_reasoning]; rfl)]
    exact stopped
  · intro is_open'
    have closed : (false || c.reasoningBlockOpen) = true := is_open'
    rw [not_reasoning] at closed
    cases closed
  · intro reasoning
    have never : c.reasoningBlockOpen = true := reasoning
    rw [not_reasoning] at never
    cases never

/-- A new thinking block, where none is growing. -/
theorem SigInv.startThinking (env : StreamEnv) {d : StreamContext} (inv : SigInv blocks c)
    (closed : (c.inThinkingBlock || c.reasoningBlockOpen) = false)
    (enabled : d.thinkingEnabled = c.thinkingEnabled)
    (taken : d.stateManager = c.stateManager.takeIndex.2)
    (text : d.textBlockIndex = c.textBlockIndex)
    (own : d.thinkingBlockIndex = some c.stateManager.takeIndex.1)
    (tools : d.toolBlockIndices = c.toolBlockIndices)
    (is_open : (d.inThinkingBlock || d.reasoningBlockOpen) = true)
    (apart : d.reasoningBlockOpen = true →
      d.inThinkingBlock = false ∧ d.thinkingExtracted = true)
    (fits : Fits (after blocks (d.startBlock env c.stateManager.takeIndex.1 .thinking).1)) :
    SigInv (after blocks (d.startBlock env c.stateManager.takeIndex.1 .thinking).1)
      (d.startBlock env c.stateManager.takeIndex.1 .thinking).2 := by
  have known := (does_startThinking env inv.known taken text own tools fits).known
  have signed := inv.signed
  rw [live_none closed] at signed
  obtain ⟨m', eq, -⟩ := startBlock_next env inv.known.tracks taken .thinking
    (fun same => by cases same) fits
  rw [eq] at known ⊢
  refine ⟨enabled.trans inv.enabled, known, ?_, ?_, apart⟩
  · have growing : live { d with stateManager := m' } = some c.stateManager.nextBlockIndex :=
      live_of_index is_open own
    rw [growing]
    intro b mem
    have mem' : b ∈ ofType .thinking
        (blocks ++ [Slot.fresh c.stateManager.nextBlockIndex .thinking]) := mem
    rw [ofType_append] at mem'
    rcases List.mem_append.mp mem' with old | new
    · have here := signed b old
      rw [if_neg (by simp)] at here
      have ne : c.stateManager.nextBlockIndex ≠ b.key := by
        intro same
        refine inv.known.tracks.fresh ?_
        rw [same]
        exact List.mem_map_of_mem (mem_ofType.mp old).1
      rw [if_neg (by simpa using ne)]
      exact here
    · have key : (Slot.fresh c.stateManager.nextBlockIndex .thinking : Reply).key =
          c.stateManager.nextBlockIndex := rfl
      rw [List.mem_singleton.mp (mem_ofType.mp new).1, key, if_pos rfl]
      exact plain_nil
  · intro _
    show d.thinkingBlockIndex.isSome = true
    rw [own]
    rfl

theorem SigInv.andThen {next : StreamContext → Sent} (inv : SigInv (after blocks r.1) r.2)
    (second : SigInv (after blocks r.1) r.2 →
      SigInv (after (after blocks r.1) (next r.2).1) (next r.2).2) :
    SigInv (after blocks (r.andThen next).1) (r.andThen next).2 := by
  unfold Emit.andThen
  rw [after_append]
  exact second inv

theorem fits_front {next : StreamContext → Sent} (fits : Fits (after blocks (r.andThen next).1)) :
    Fits (after blocks r.1) := by
  unfold Emit.andThen at fits
  rw [after_append] at fits
  exact fits.before

theorem fits_back (next : StreamContext → Sent)
    (fits : Fits (after blocks (r.andThen next).1)) :
    Fits (after (after blocks r.1) (next r.2).1) := by
  unfold Emit.andThen at fits
  rwa [after_append] at fits

theorem SigInv.createText (env : StreamEnv) (inv : SigInv blocks c) (text : Text)
    (fits : Fits (after blocks (c.createTextDeltaEvents env text).1)) :
    SigInv (after blocks (c.createTextDeltaEvents env text).1)
      (c.createTextDeltaEvents env text).2 :=
  inv.other (does_createText env inv.known text) rfl (thinkFrame_createText env c text) fits

theorem SigInv.emitExtracted (env : StreamEnv) (inv : SigInv blocks c)
    (fits : Fits (after blocks (c.emitExtracted env).1)) :
    SigInv (after blocks (c.emitExtracted env).1) (c.emitExtracted env).2 :=
  inv.other (does_emitExtracted env inv.known) rfl (thinkFrame_emitExtracted env c) fits

theorem sigInv_stripLeadingNewline (inv : SigInv blocks c) : SigInv blocks c.stripLeadingNewline := by
  obtain ⟨buffer, flag, eq⟩ := stripLeadingNewline_frame c
  have known := known_stripLeadingNewline inv.known
  rw [eq] at known ⊢
  exact inv.same known (by constructor <;> rfl)

theorem SigInv.scanThinking (env : StreamEnv) (inv : SigInv blocks c)
    (tagged : c.inThinkingBlock = true) (fits : Fits (after blocks (c.scanThinking env).1)) :
    SigInv (after blocks (c.scanThinking env).1) (c.scanThinking env).2 := by
  have stripped := sigInv_stripLeadingNewline inv
  obtain ⟨buffer, flag, eq⟩ := stripLeadingNewline_frame c
  have tagged' : c.stripLeadingNewline.inThinkingBlock = true := by
    rw [eq]
    exact tagged
  unfold StreamContext.scanThinking at fits ⊢
  dsimp only at fits ⊢
  cases found : findRealThinkingEndTagWithBoundary c.stripLeadingNewline.thinkingBuffer with
  | some p =>
    rw [found] at fits
    dsimp only at fits ⊢
    have back := fits_back _ fits
    refine SigInv.andThen (stripped.endThinking tagged' p.1 (fits_front fits)) fun ended => ?_
    have kept : SigInv _ { (c.stripLeadingNewline.endThinking p.1).2 with thinkingBuffer := p.2 } :=
      ended.same (ended.known.same rfl rfl rfl rfl rfl) (by constructor <;> rfl)
    exact kept.emitExtracted env back
  | none =>
    dsimp only
    split_ifs
    · exact stripped
    · have kept : SigInv blocks { c.stripLeadingNewline with
          thinkingBuffer :=
            (splitKeep thinkingEndTag.length c.stripLeadingNewline.thinkingBuffer).2 } :=
        stripped.same (stripped.known.same rfl rfl rfl rfl rfl) (by constructor <;> rfl)
      exact kept.sendThinking (by rw [show _ = true from tagged', Bool.true_or]) _

theorem SigInv.scanStart (env : StreamEnv) (inv : SigInv blocks c)
    (untagged : c.inThinkingBlock = false) (waiting : c.thinkingExtracted = false)
    (fits : Fits (after blocks (c.scanStart env).1)) :
    SigInv (after blocks (c.scanStart env).1) (c.scanStart env).2 := by
  unfold StreamContext.scanStart at fits ⊢
  cases found : findRealThinkingStartTag c.thinkingBuffer with
  | some p =>
    obtain ⟨before, rest⟩ := p
    rw [found] at fits
    dsimp only at fits ⊢
    have fits₁ := fits_front fits
    have front : ∃ out c₁, (if isBlank before then quiet c else c.createTextDeltaEvents env before) =
        (out, c₁) ∧ SigInv (after blocks out) c₁ ∧ ThinkFrame c c₁ := by
      have fits₀ := fits_front fits₁
      split_ifs at fits₀ ⊢
      · exact ⟨[], c, rfl, inv, ThinkFrame.refl c⟩
      · exact ⟨_, _, rfl, inv.createText env before fits₀, thinkFrame_createText env c before⟩
    obtain ⟨out, c₁, eq, inv₁, frame⟩ := front
    rw [eq] at fits fits₁ ⊢
    have closed : (c₁.inThinkingBlock || c₁.reasoningBlockOpen) = false := by
      rw [frame.tagged, frame.reasoning, untagged, Bool.false_or]
      by_contra reasoning
      rw [Bool.not_eq_false] at reasoning
      rw [(inv.apart reasoning).2] at waiting
      cases waiting
    have not_reasoning : c₁.reasoningBlockOpen = false := (Bool.or_eq_false_iff.mp closed).2
    have back := fits_back (fun c => c.enterThinking env rest) fits₁
    have entered : SigInv (after (after blocks out) (c₁.enterThinking env rest).1)
        (c₁.enterThinking env rest).2 := by
      refine SigInv.startThinking env (c := c₁) (d := { c₁ with
        stateManager := c₁.stateManager.takeIndex.2
        inThinkingBlock := true
        stripThinkingLeadingNewline := true
        thinkingBuffer := rest
        thinkingBlockIndex := some c₁.stateManager.takeIndex.1 }) inv₁ closed rfl rfl rfl rfl rfl
        rfl ?_ back
      intro reasoning
      have never : c₁.reasoningBlockOpen = true := reasoning
      rw [not_reasoning] at never
      cases never
    have entered' : SigInv (after blocks
        (Emit.andThen (out, c₁) fun c => c.enterThinking env rest).1)
        (Emit.andThen (out, c₁) fun c => c.enterThinking env rest).2 :=
      SigInv.andThen (r := (out, c₁)) inv₁ fun _ => entered
    exact SigInv.andThen entered' fun here => here.scanThinking env rfl (fits_back _ fits)
  | none =>
    rw [found] at fits
    dsimp only at fits ⊢
    split_ifs at fits ⊢
    · exact inv
    · refine SigInv.andThen (inv.createText env _ (fits_front fits)) fun sent => ?_
      exact sent.same (sent.known.same rfl rfl rfl rfl rfl) (by constructor <;> rfl)

theorem SigInv.processFiltered (env : StreamEnv) (inv : SigInv blocks c) (text : Text)
    (fits : Fits (after blocks (c.processFiltered env text).1)) :
    SigInv (after blocks (c.processFiltered env text).1) (c.processFiltered env text).2 := by
  have buffered : SigInv blocks { c with thinkingBuffer := c.thinkingBuffer ++ text } :=
    inv.same (inv.known.same rfl rfl rfl rfl rfl) (by constructor <;> rfl)
  unfold StreamContext.processFiltered processContentWithThinking at fits ⊢
  dsimp only at fits ⊢
  split_ifs at fits ⊢ with enabled before inside
  · rw [Bool.and_eq_true, Bool.not_eq_true', Bool.not_eq_true'] at before
    exact buffered.scanStart env before.1 before.2 fits
  · exact buffered.scanThinking env inside fits
  · exact buffered.emitExtracted env fits
  · exact inv.createText env text fits

theorem SigInv.processAssistant (env : StreamEnv) (inv : SigInv blocks c) (content : Text)
    (fits : Fits (after blocks (c.processAssistantResponse env content).1)) :
    SigInv (after blocks (c.processAssistantResponse env content).1)
      (c.processAssistantResponse env content).2 := by
  unfold processAssistantResponse at fits ⊢
  dsimp only at fits ⊢
  split_ifs at fits ⊢
  · exact inv.same (inv.known.same rfl rfl rfl rfl rfl) (by constructor <;> rfl)
  · have counted : SigInv blocks (addOutputTokens
        { c with toolUseXmlFilter := (c.toolUseXmlFilter.filter content).2 }
        (c.toolUseXmlFilter.filter content).1) :=
      inv.same (inv.known.same rfl rfl rfl rfl rfl) (by constructor <;> rfl)
    exact counted.processFiltered env _ fits

theorem SigInv.emitRest (env : StreamEnv) (inv : SigInv blocks c) (rest : Text)
    (fits : Fits (after blocks (c.emitRest env rest).1)) :
    SigInv (after blocks (c.emitRest env rest).1) (c.emitRest env rest).2 :=
  inv.other (does_emitRest env inv.known rest) rfl (thinkFrame_emitRest env c rest) fits

theorem SigInv.settleThinking (env : StreamEnv) (inv : SigInv blocks c)
    (fits : Fits (after blocks (c.settleThinking env).1)) :
    SigInv (after blocks (c.settleThinking env).1) (c.settleThinking env).2 := by
  unfold StreamContext.settleThinking at fits ⊢
  split_ifs at fits ⊢ with inside
  · rw [Bool.and_eq_true] at inside
    cases found : findRealThinkingEndTagAtBufferEnd c.thinkingBuffer with
    | some p =>
      rw [found] at fits
      dsimp only at fits ⊢
      have back := fits_back (fun c => c.emitRest env p.2) fits
      refine SigInv.andThen (inv.endThinking inside.2 p.1 (fits_front fits)) fun ended => ?_
      exact ended.emitRest env p.2 back
    | none => exact inv
  · exact inv

theorem SigInv.live_of_open (inv : SigInv blocks c) {i : Int} (index : c.thinkingBlockIndex = some i)
    (is_open : c.stateManager.isBlockOpenOfType i .thinking = true) : live c = some i := by
  obtain ⟨b, mem, key, type⟩ := inv.known.thinking i index
  by_contra other
  have here := inv.signed b (mem_ofType.mpr ⟨mem, type⟩)
  rw [key, if_neg other] at here
  rw [← key, isBlockOpenOfType_eq inv.known.tracks mem, hasStop_of_signed here] at is_open
  cases is_open

theorem SigInv.open_of_live (inv : SigInv blocks c) {i : Int} (growing : live c = some i)
    (index : c.thinkingBlockIndex = some i) :
    c.stateManager.isBlockOpenOfType i .thinking = true := by
  obtain ⟨b, mem, key, type⟩ := inv.known.thinking i index
  have here := inv.signed b (mem_ofType.mpr ⟨mem, type⟩)
  rw [key, if_pos growing] at here
  rw [← key, isBlockOpenOfType_eq inv.known.tracks mem, hasStop_of_plain here, type]
  rfl

theorem SigInv.closeText (inv : SigInv blocks c) (fits : Fits (after blocks c.closeTextIfOpen.1)) :
    SigInv (after blocks c.closeTextIfOpen.1) c.closeTextIfOpen.2 :=
  inv.other (does_closeText inv.known) rfl (thinkFrame_closeText c) fits

theorem SigInv.openReasoning (env : StreamEnv) (inv : SigInv blocks c)
    (closed : c.reasoningBlockOpen = false)
    (fits : Fits (after blocks (c.openReasoning env).1)) :
    SigInv (after blocks (c.openReasoning env).1) (c.openReasoning env).2 ∧
      (c.openReasoning env).2.reasoningBlockOpen = true := by
  have reasoning : (c.openReasoning env).2.reasoningBlockOpen = true := rfl
  refine ⟨?_, reasoning⟩
  unfold StreamContext.openReasoning at fits ⊢
  refine SigInv.andThen (inv.closeText (fits_front fits)) fun texted => ?_
  have back := fits_back _ fits
  have still : c.closeTextIfOpen.2.reasoningBlockOpen = false := by
    rw [(thinkFrame_closeText c).reasoning]
    exact closed
  generalize after blocks c.closeTextIfOpen.1 = blocks' at texted back ⊢
  generalize c.closeTextIfOpen.2 = c₁ at texted back still ⊢
  dsimp only at back ⊢
  cases reused : c₁.thinkingBlockIndex.filter fun i =>
      c₁.stateManager.isBlockOpenOfType i .thinking with
  | none =>
    rw [reused] at back
    have not_growing : (c₁.inThinkingBlock || c₁.reasoningBlockOpen) = false := by
      by_contra growing
      rw [Bool.not_eq_false] at growing
      obtain ⟨i, index, lives⟩ := texted.index growing
      rw [index, Option.filter_some, if_pos (texted.open_of_live lives index)] at reused
      cases reused
    exact SigInv.startThinking env (c := c₁) texted not_growing rfl rfl rfl rfl rfl rfl
      (fun _ => ⟨rfl, rfl⟩) back
  | some i =>
    have own := Option.eq_some_of_filter_eq_some reused
    have is_open : c₁.stateManager.isBlockOpenOfType i .thinking = true := by
      have kept := Option.filter_eq_some_iff.mp reused
      exact kept.2
    have lives := texted.live_of_open own is_open
    obtain ⟨b, mem, key, -⟩ := texted.known.thinking i own
    dsimp only
    rw [startBlock_again env (by exact texted.known.tracks) mem key (by decide)]
    refine ⟨texted.enabled, texted.known.same rfl rfl rfl own.symm rfl, ?_, fun _ => rfl,
      fun _ => ⟨rfl, rfl⟩⟩
    have signed := texted.signed
    rw [lives] at signed
    exact signed

theorem SigInv.extract (inv : SigInv blocks c) :
    SigInv blocks { c with thinkingExtracted := true } where
  enabled := inv.enabled
  known := inv.known.same rfl rfl rfl rfl rfl
  signed := inv.signed
  indexed := inv.indexed
  apart := fun reasoning => ⟨(inv.apart reasoning).1, rfl⟩

theorem thinkFrame_sendRedacted (env : StreamEnv) (redacted : String) (c : StreamContext) :
    ThinkFrame c (sendRedacted env redacted c).2 := by
  constructor <;> rfl

theorem SigInv.processRedacted (env : StreamEnv) (inv : SigInv blocks c) (redacted : String)
    (fits : Fits (after blocks (c.processRedacted env redacted).1)) :
    SigInv (after blocks (c.processRedacted env redacted).1) (c.processRedacted env redacted).2 := by
  rw [processRedacted_eq] at fits ⊢
  have fits₁ := fits_front fits
  have fits₂ := fits_front fits₁
  refine SigInv.andThen ?_ fun sent => sent.extract
  refine SigInv.andThen ?_ fun closed => ?_
  · refine SigInv.andThen (inv.closeReasoning (fits_front fits₂)).1 fun closed => ?_
    exact closed.closeText (fits_back _ fits₂)
  · exact closed.other (does_sendRedacted env closed.known redacted) rfl
      (thinkFrame_sendRedacted env redacted _) (fits_back _ fits₁)

theorem SigInv.counted (inv : SigInv blocks c) (text : Text) :
    SigInv blocks (c.addOutputTokens text) :=
  inv.same (inv.known.same rfl rfl rfl rfl rfl) (by constructor <;> rfl)

theorem SigInv.processReasoning (env : StreamEnv) (inv : SigInv blocks c)
    (e : ReasoningContentEvent) (fits : Fits (after blocks (c.processReasoningContent env e).1)) :
    SigInv (after blocks (c.processReasoningContent env e).1)
      (c.processReasoningContent env e).2 := by
  unfold processReasoningContent at fits ⊢
  by_cases disabled : (!c.thinkingEnabled) = true
  · rw [if_pos disabled]
    exact inv
  · rw [if_neg disabled] at fits ⊢
    cases kind : e.redactedContent.filter fun s => !s.isEmpty with
    | some redacted =>
      rw [kind] at fits
      exact inv.processRedacted env redacted fits
    | none =>
      rw [kind] at fits
      dsimp only at fits ⊢
      have opened : SigInv (after blocks
          (if c.reasoningBlockOpen = true then quiet c else c.openReasoning env).1)
          (if c.reasoningBlockOpen = true then quiet c else c.openReasoning env).2 ∧
          (if c.reasoningBlockOpen = true then quiet c
            else c.openReasoning env).2.reasoningBlockOpen = true := by
        have front := fits_front fits
        by_cases reasoning : c.reasoningBlockOpen = true
        · rw [if_pos reasoning]
          exact ⟨inv, reasoning⟩
        · rw [if_neg reasoning] at front ⊢
          exact inv.openReasoning env (by simpa using reasoning) front
      obtain ⟨sent, is_open⟩ := opened
      generalize (if c.reasoningBlockOpen = true then quiet c else c.openReasoning env) = r
        at sent is_open ⊢
      refine SigInv.andThen sent fun sent => ?_
      split_ifs
      · exact sent
      · refine (sent.counted e.text).sendThinking ?_ e.text
        show (r.2.inThinkingBlock || r.2.reasoningBlockOpen) = true
        rw [is_open, Bool.or_true]

theorem SigInv.emit (env : StreamEnv) (inv : SigInv blocks c) (t : CompletedToolUse)
    (fits : Fits (after blocks (c.emitCompletedToolUse env t).1)) :
    SigInv (after blocks (c.emitCompletedToolUse env t).1) (c.emitCompletedToolUse env t).2 :=
  inv.other (does_emit env inv.known t) rfl (thinkFrame_emit env c t) fits

theorem SigInv.collect (env : StreamEnv) (inv : SigInv blocks c) (e : ToolUseEvent)
    (fits : Fits (after blocks (c.collectToolUse env e).1)) :
    SigInv (after blocks (c.collectToolUse env e).1) (c.collectToolUse env e).2 := by
  unfold collectToolUse at fits ⊢
  generalize c.toolJsonAccumulator.push env e c.toolNameMap = outcome at fits ⊢
  obtain ⟨result, accumulator⟩ := outcome
  have kept : SigInv blocks { c with toolJsonAccumulator := accumulator } :=
    inv.same (inv.known.same rfl rfl rfl rfl rfl) (by constructor <;> rfl)
  cases result with
  | error err => exact inv.same (inv.known.same rfl rfl rfl rfl rfl) (by constructor <;> rfl)
  | ok completed =>
    cases completed with
    | none => exact kept
    | some t => exact kept.emit env t fits

theorem SigInv.processToolUse (env : StreamEnv) (inv : SigInv blocks c) (e : ToolUseEvent)
    (fits : Fits (after blocks (c.processToolUse env e).1)) :
    SigInv (after blocks (c.processToolUse env e).1) (c.processToolUse env e).2 := by
  unfold StreamContext.processToolUse at fits ⊢
  have noted : SigInv blocks { c with stateManager := c.stateManager.setHasToolUse true } :=
    inv.same (inv.known.same rfl rfl rfl rfl rfl) (by constructor <;> rfl)
  have fits₁ := fits_front fits
  have back := fits_back (fun c => c.collectToolUse env e) fits
  refine SigInv.andThen ?_ fun ready => ready.collect env e back
  refine SigInv.andThen (noted.settleThinking env (fits_front fits₁)) fun settled => ?_
  exact settled.other (does_flushWaiting env settled.known) rfl (thinkFrame_flushWaiting env _)
    (fits_back _ fits₁)

theorem SigInv.processKiroEvent (env : StreamEnv) (inv : SigInv blocks c) (event : Event)
    (fits : Fits (after blocks (c.processKiroEvent env event).1)) :
    SigInv (after blocks (c.processKiroEvent env event).1) (c.processKiroEvent env event).2 := by
  unfold StreamContext.processKiroEvent at fits ⊢
  cases event with
  | assistantResponse content | code content =>
    have back := fits_back (fun c => c.processAssistantResponse env content) fits
    exact SigInv.andThen (inv.closeReasoning (fits_front fits)).1 fun closed =>
      closed.processAssistant env content back
  | toolUse e =>
    have back := fits_back (fun c => c.processToolUse env e) fits
    exact SigInv.andThen (inv.closeReasoning (fits_front fits)).1 fun closed =>
      closed.processToolUse env e back
  | reasoningContent e => exact inv.processReasoning env e fits
  | contextUsage percentage =>
    dsimp only
    refine inv.same ?_ (by constructor <;> rfl)
    unfold quiet
    split_ifs <;> exact inv.known.same rfl rfl rfl rfl rfl
  | exception exceptionType message =>
    dsimp only
    split_ifs
    · exact inv.same (inv.known.same rfl rfl rfl rfl rfl) (by constructor <;> rfl)
    · exact inv
  | metering _ | error _ _ | unknown => exact inv

theorem SigInv.run {α : Type} {f : StreamContext → α → Sent}
    (step : ∀ (blocks : List Reply) (c : StreamContext) a, SigInv blocks c →
      Fits (after blocks (f c a).1) → SigInv (after blocks (f c a).1) (f c a).2)
    (inv : SigInv blocks c) (l : List α) (fits : Fits (after blocks (emitAll f l c).1)) :
    SigInv (after blocks (emitAll f l c).1) (emitAll f l c).2 := by
  induction l generalizing blocks c with
  | nil => exact inv
  | cons a l ih =>
    exact SigInv.andThen (step blocks c a inv (fits_front fits)) fun here =>
      ih here (fits_back _ fits)

theorem SigInv.finishTools (env : StreamEnv) (inv : SigInv blocks c)
    (fits : Fits (after blocks (c.finishTools env).1)) :
    SigInv (after blocks (c.finishTools env).1) (c.finishTools env).2 := by
  unfold StreamContext.finishTools at fits ⊢
  split_ifs at fits ⊢
  · exact inv
  · generalize c.toolJsonAccumulator.finish env c.toolNameMap = finish at fits ⊢
    obtain ⟨result, accumulator⟩ := finish
    cases result with
    | error err => exact inv.same (inv.known.same rfl rfl rfl rfl rfl) (by constructor <;> rfl)
    | ok pending =>
      have kept : SigInv blocks { c with toolJsonAccumulator := accumulator } :=
        inv.same (inv.known.same rfl rfl rfl rfl rfl) (by constructor <;> rfl)
      exact kept.run (fun _ _ t here => here.emit env t) pending fits

theorem SigInv.finishFilter (env : StreamEnv) (inv : SigInv blocks c)
    (fits : Fits (after blocks (c.finishFilter env).1)) :
    SigInv (after blocks (c.finishFilter env).1) (c.finishFilter env).2 := by
  have emptied : SigInv blocks { c with toolUseXmlFilter := {} } :=
    inv.same (inv.known.same rfl rfl rfl rfl rfl) (by constructor <;> rfl)
  unfold StreamContext.finishFilter at fits ⊢
  dsimp only at fits ⊢
  split_ifs at fits ⊢
  · exact emptied
  · exact (emptied.counted _).processFiltered env _ fits

def unended (text : Text) : Option Text :=
  if (findRealThinkingEndTagWithBoundary text).isSome then none else some text

def openBehind (c : StreamContext) (content : Text) : Option Text :=
  if c.inThinkingBlock then
    unended (if c.stripThinkingLeadingNewline then stripNewline (c.thinkingBuffer ++ content)
      else c.thinkingBuffer ++ content)
  else if c.thinkingExtracted then none
  else
    match findRealThinkingStartTag (c.thinkingBuffer ++ content) with
    | some (_, after) => unended (stripNewline after)
    | none => none

/-- The thinking that is open at the end of a stream, once the text that the leak filter held back
has come, up to what was sent of it. -/
def openThinking (c : StreamContext) : Option Text :=
  if c.toolUseXmlFilter.finish.isEmpty then
    if c.inThinkingBlock then some c.thinkingBuffer else none
  else openBehind c c.toolUseXmlFilter.finish

/-- The context is within thinking, or not, and has nothing of it left exactly if the text is
empty. -/
def Agrees (c : StreamContext) (text : Option Text) : Prop :=
  c.inThinkingBlock = text.isSome ∧ ∀ t, text = some t → (c.thinkingBuffer = [] ↔ t = [])

theorem agrees_scanThinking (env : StreamEnv) (tagged : c.inThinkingBlock = true) :
    Agrees (c.scanThinking env).2 (unended c.stripLeadingNewline.thinkingBuffer) := by
  have tagged' : c.stripLeadingNewline.inThinkingBlock = true := by
    obtain ⟨buffer, flag, eq⟩ := stripLeadingNewline_frame c
    rw [eq]
    exact tagged
  unfold StreamContext.scanThinking unended
  dsimp only
  cases found : findRealThinkingEndTagWithBoundary c.stripLeadingNewline.thinkingBuffer with
  | some p =>
    dsimp only
    refine ⟨?_, fun t never => nomatch never⟩
    obtain ⟨m, ended⟩ := endThinking_frame c.stripLeadingNewline p.1
    unfold Emit.andThen
    dsimp only
    rw [ended, (textFrame_emitExtracted env _).2]
    rfl
  | none =>
    dsimp only
    by_cases nothing : (splitKeep thinkingEndTag.length
        c.stripLeadingNewline.thinkingBuffer).1.isEmpty = true
    · rw [if_pos nothing]
      refine ⟨tagged', ?_⟩
      rintro t ⟨⟩
      exact Iff.rfl
    · rw [if_neg nothing, sendThinking_frame]
      refine ⟨tagged', ?_⟩
      rintro t ⟨⟩
      have there : c.stripLeadingNewline.thinkingBuffer ≠ [] := by
        intro empty
        rw [empty] at nothing
        exact nothing rfl
      exact iff_of_false (splitKeep_ne_nil (by decide) there) there

theorem buffer_stripLeadingNewline (c : StreamContext) : c.stripLeadingNewline.thinkingBuffer =
    if c.stripThinkingLeadingNewline then stripNewline c.thinkingBuffer else c.thinkingBuffer := by
  unfold stripLeadingNewline
  cases c.stripThinkingLeadingNewline with
  | false => rfl
  | true =>
    cases buffer : c.thinkingBuffer with
    | nil => exact buffer
    | cons a rest => rfl

theorem agrees_processContent (env : StreamEnv) (c : StreamContext) (content : Text) :
    Agrees (c.processContentWithThinking env content).2 (openBehind c content) := by
  unfold processContentWithThinking openBehind
  dsimp only
  cases tagged : c.inThinkingBlock with
  | true =>
    rw [if_neg (by simp), if_pos rfl, if_pos rfl]
    have scanned := agrees_scanThinking env
      (c := { c with thinkingBuffer := c.thinkingBuffer ++ content, inThinkingBlock := true }) rfl
    rw [buffer_stripLeadingNewline] at scanned
    exact scanned
  | false =>
    rw [if_neg Bool.false_ne_true, if_neg Bool.false_ne_true]
    cases extracted : c.thinkingExtracted with
    | true =>
      rw [if_neg (by simp), if_pos rfl]
      refine ⟨?_, fun t never => nomatch never⟩
      rw [(textFrame_emitExtracted env _).2]
      rfl
    | false =>
      rw [if_pos (by simp), if_neg Bool.false_ne_true]
      cases found : findRealThinkingStartTag (c.thinkingBuffer ++ content) with
      | none =>
        refine ⟨?_, fun t never => nomatch never⟩
        rw [inThinkingBlock_of_scanStart env (by exact found)]
        rfl
      | some p =>
        obtain ⟨before, rest⟩ := p
        unfold StreamContext.scanStart
        dsimp only
        rw [found]
        dsimp only
        unfold Emit.andThen
        dsimp only
        generalize (if isBlank before = true then quiet _ else _ : Sent) = front
        have stripped : (front.2.enterThinking env rest).2.stripLeadingNewline.thinkingBuffer =
            stripNewline rest := buffer_stripLeadingNewline _
        rw [← stripped]
        exact agrees_scanThinking env rfl

theorem agrees_finishFilter (env : StreamEnv) (enabled : c.thinkingEnabled = true) :
    Agrees (c.finishFilter env).2 (openThinking c) := by
  unfold StreamContext.finishFilter openThinking
  dsimp only
  generalize c.toolUseXmlFilter.finish = held
  by_cases nothing : held.isEmpty = true
  · rw [if_pos nothing, if_pos nothing]
    cases tagged : c.inThinkingBlock with
    | true =>
      refine ⟨rfl, ?_⟩
      rintro t ⟨⟩
      exact Iff.rfl
    | false => exact ⟨rfl, fun t never => nomatch never⟩
  · rw [if_neg nothing, if_neg nothing]
    unfold StreamContext.processFiltered
    rw [if_pos (by exact enabled)]
    exact agrees_processContent env (addOutputTokens { c with toolUseXmlFilter := {} } held) held

theorem signed_stopKind (signed : SignedExcept none blocks) :
    ∀ b ∈ stopKind (fun _ => true) blocks, b.content.type = .thinking → Signed b.items := by
  intro b mem type
  unfold stopKind at mem
  obtain ⟨b₀, mem₀, rfl⟩ := List.mem_map.mp mem
  have type₀ : b₀.content.type = .thinking := by
    split_ifs at type <;> exact type
  have here := signed b₀ (mem_ofType.mpr ⟨mem₀, type₀⟩)
  rw [if_neg (by simp)] at here
  rw [hasStop_of_signed here]
  exact here

theorem signed_stopKind_iff (inv : SigInv blocks c) (closed : c.reasoningBlockOpen = false) :
    (∀ b ∈ stopKind (fun _ => true) blocks, b.content.type = .thinking → Signed b.items) ↔
      c.inThinkingBlock = false := by
  constructor
  · intro all
    by_contra tagged
    rw [Bool.not_eq_false] at tagged
    obtain ⟨i, index, growing⟩ := inv.index (by rw [tagged, Bool.true_or])
    obtain ⟨b, mem, key, type⟩ := inv.known.thinking i index
    have plain := inv.signed b (mem_ofType.mpr ⟨mem, type⟩)
    rw [growing, if_pos (by rw [key])] at plain
    refine not_signed_of_plain plain (all (b.add none) ?_ type)
    refine List.mem_map.mpr ⟨b, mem, ?_⟩
    rw [hasStop_of_plain plain]
    rfl
  · intro untagged
    have signed := inv.signed
    rw [live_none (by rw [untagged, closed]; rfl)] at signed
    exact signed_stopKind signed

theorem SignedExcept.untouched {touched : BlockType → Bool} (signed : SignedExcept none blocks)
    (effect : Effect touched blocks r) (untouched : touched .thinking = false) :
    SignedExcept none (after blocks r.1) := by
  unfold SignedExcept
  rw [effect.keeps .thinking untouched]
  exact signed

/-- The flush ends thinking that has some text left. -/
theorem signed_flushBuffer (env : StreamEnv) (inv : SigInv blocks c)
    (closed : c.reasoningBlockOpen = false)
    (some_left : c.inThinkingBlock = true → c.thinkingBuffer ≠ [])
    (fits : Fits (after blocks (c.flushBuffer env).1)) :
    SignedExcept none (after blocks (c.flushBuffer env).1) := by
  have done : c.inThinkingBlock = false → SignedExcept none blocks := by
    intro untagged
    have signed := inv.signed
    rwa [live_none (by rw [untagged, closed]; rfl)] at signed
  unfold StreamContext.flushBuffer at fits ⊢
  rw [inv.enabled, Bool.true_and] at fits ⊢
  by_cases flushes : (!c.thinkingBuffer.isEmpty) = true
  · rw [if_pos flushes] at fits ⊢
    have fits₁ := fits_front fits
    rw [after_andThen]
    show SignedExcept none (after blocks _)
    by_cases tagged : c.inThinkingBlock = true
    · rw [if_pos tagged] at fits₁ ⊢
      cases found : findRealThinkingEndTagAtBufferEnd c.thinkingBuffer with
      | some p =>
        rw [found] at fits₁
        dsimp only at fits₁ ⊢
        have ended := inv.endThinking tagged p.1 (fits_front fits₁)
        have back := fits_back (fun c => c.emitRest env p.2) fits₁
        have untagged : live (c.endThinking p.1).2 = none := by
          obtain ⟨m, eq⟩ := endThinking_frame c p.1
          rw [eq]
          exact live_none (by show (false || c.reasoningBlockOpen) = false; rw [closed]; rfl)
        have signed := ended.signed
        rw [untagged] at signed
        rw [after_andThen]
        exact signed.untouched (does_emitRest env ended.known p.2 back) rfl
      | none =>
        obtain ⟨i, index, growing⟩ := inv.index (by rw [tagged, Bool.true_or])
        have sent := inv.sendThinking (by rw [tagged, Bool.true_or]) c.thinkingBuffer
        have signed := sent.signed
        have same := sendThinking_frame c c.thinkingBuffer
        rw [same, growing] at signed
        dsimp only
        rw [after_andThen, same]
        have known := sent.known
        rw [same] at known
        exact signed_stopThinking known index signed
    · rw [if_neg tagged] at fits₁ ⊢
      have signed := done (by simpa using tagged)
      dsimp only at fits₁ ⊢
      generalize (if c.stripTextAfterThinkingBoundary = true then trimStart c.thinkingBuffer
        else c.thinkingBuffer) = content at fits₁ ⊢
      split_ifs at fits₁ ⊢
      · exact signed
      · refine signed.untouched (does_createText env ?_ content fits₁) rfl
        exact inv.known.same rfl rfl rfl rfl rfl
  · rw [if_neg flushes]
    refine done ?_
    by_contra tagged
    rw [Bool.not_eq_false] at tagged
    exact some_left tagged (by simpa using flushes)

theorem emitAll_frame (env : StreamEnv) (pending : List CompletedToolUse) (c : StreamContext) :
    ∃ m indices tokens, (emitAll (emitCompletedToolUse env) pending c).2 =
      toolFrame c m indices tokens := by
  induction pending generalizing c with
  | nil => exact ⟨c.stateManager, c.toolBlockIndices, c.outputTokens, rfl⟩
  | cons t rest ih =>
    have here : ∃ m indices tokens, (c.emitCompletedToolUse env t).2 =
        toolFrame c m indices tokens := by
      rw [emitCompletedToolUse_eq]
      cases Dicts.get c.toolBlockIndices t.id <;> exact ⟨_, _, _, rfl⟩
    obtain ⟨m, indices, tokens, eq⟩ := here
    obtain ⟨m', indices', tokens', eq'⟩ := ih (c.emitCompletedToolUse env t).2
    refine ⟨m', indices', tokens', eq'.trans ?_⟩
    rw [eq]
    rfl

theorem finishTools_frame (env : StreamEnv) (c : StreamContext) :
    ∃ m indices tokens accumulator error, (c.finishTools env).2 =
      toolsFinished c m indices tokens accumulator error := by
  unfold StreamContext.finishTools
  split_ifs
  · exact ⟨c.stateManager, c.toolBlockIndices, c.outputTokens, c.toolJsonAccumulator,
      c.toolJsonError, rfl⟩
  · generalize c.toolJsonAccumulator.finish env c.toolNameMap = finish
    obtain ⟨result, accumulator⟩ := finish
    cases result with
    | error err =>
      exact ⟨_, c.toolBlockIndices, c.outputTokens, accumulator, some err, rfl⟩
    | ok pending =>
      obtain ⟨m, indices, tokens, eq⟩ := emitAll_frame env pending
        { c with toolJsonAccumulator := accumulator }
      exact ⟨m, indices, tokens, accumulator, c.toolJsonError, eq⟩

theorem error_finishFilter (env : StreamEnv) (c : StreamContext) :
    (c.finishFilter env).2.toolJsonError = c.toolJsonError := by
  unfold StreamContext.finishFilter
  dsimp only
  split_ifs
  · rfl
  · have frame := textFrame_processFiltered env (addOutputTokens
      { c with toolUseXmlFilter := {} } c.toolUseXmlFilter.finish) c.toolUseXmlFilter.finish
    exact frame.error

/-- The end of a stream whose calls could all be parsed. -/
theorem signed_end (env : StreamEnv) (inv : SigInv blocks c) (closed : c.reasoningBlockOpen = false)
    (fits : Fits (after blocks (((c.flushBuffer env).andThen fun c =>
      c.padThinkingOnly env).andThen fun c => c.sendFinal env).1)) :
    (∀ b ∈ after blocks (((c.flushBuffer env).andThen fun c =>
      c.padThinkingOnly env).andThen fun c => c.sendFinal env).1, b.content.type = .thinking →
        Signed b.items) ↔ (c.inThinkingBlock = true → c.thinkingBuffer ≠ []) := by
  have fits₁ := fits_front fits
  have fits₂ := fits_front fits₁
  have back := fits_back (fun c => c.padThinkingOnly env) fits₁
  have flushed := (does_flushBuffer env inv.known fits₂).known
  have padded := does_padThinkingOnly env flushed back
  have last : after blocks (((c.flushBuffer env).andThen fun c =>
      c.padThinkingOnly env).andThen fun c => c.sendFinal env).1 =
      stopKind (fun _ => true) (after (after blocks (c.flushBuffer env).1)
        ((c.flushBuffer env).2.padThinkingOnly env).1) := by
    rw [after_andThen, after_andThen]
    exact after_sendFinal env padded.known
  rw [last]
  by_cases some_left : c.inThinkingBlock = true → c.thinkingBuffer ≠ []
  · have signed := signed_flushBuffer env inv closed some_left fits₂
    exact iff_of_true (signed_stopKind (signed.untouched padded rfl)) some_left
  · refine iff_of_false ?_ some_left
    push Not at some_left
    obtain ⟨tagged, empty⟩ := some_left
    have nothing : c.flushBuffer env = quiet c := by
      unfold StreamContext.flushBuffer
      rw [if_neg (by rw [empty]; simp)]
    rw [nothing] at back ⊢
    have here := inv.other (does_padThinkingOnly env inv.known) rfl
      (thinkFrame_padThinkingOnly env c) back
    have frame := thinkFrame_padThinkingOnly env c
    intro all
    have untagged := (signed_stopKind_iff here (by rw [frame.reasoning]; exact closed)).mp all
    rw [frame.tagged, tagged] at untagged
    cases untagged

/-- The thinking blocks of a message are signed, unless one is open whose text was all sent, or one
is open where a call is broken. -/
theorem signed_generateFinalEvents (env : StreamEnv) (inv : SigInv blocks c)
    (fits : Fits (after blocks (c.generateFinalEvents env).1)) :
    (∀ b ∈ after blocks (c.generateFinalEvents env).1, b.content.type = .thinking →
      Signed b.items) ↔ ¬ ∃ text, openThinking c = some text ∧
        (text = [] ∨ (c.finishTools env).2.toolJsonError.isSome = true) := by
  unfold StreamContext.generateFinalEvents at fits ⊢
  rw [after_andThen] at fits ⊢
  have fits_front := fits.before
  have tools := inv.finishTools env (Signatures.fits_front fits_front)
  have back := fits_back (fun c => c.finishFilter env) fits_front
  have filtered := tools.finishFilter env back
  obtain ⟨m, indices, tokens, accumulator, outcome, frame⟩ := finishTools_frame env c
  have agrees := agrees_finishFilter env tools.enabled
  have unchanged : openThinking (c.finishTools env).2 = openThinking c := by
    rw [frame]
    rfl
  rw [unchanged] at agrees
  have error := error_finishFilter env (c.finishTools env).2
  rw [← after_andThen] at filtered
  have same : ((c.finishTools env).andThen fun c => c.finishFilter env).2 =
    ((c.finishTools env).2.finishFilter env).2 := rfl
  rw [← same] at filtered agrees error
  rw [← error]
  generalize ((c.finishTools env).andThen fun c => c.finishFilter env) = front
    at fits filtered agrees ⊢
  generalize after blocks front.1 = sent at fits filtered ⊢
  generalize front.2 = c₂ at fits filtered agrees ⊢
  cases failed : c₂.toolJsonError with
  | some err =>
    rw [failed] at fits
    dsimp only at fits ⊢
    rw [andThen_assoc] at fits ⊢
    obtain ⟨closed, quiet_now, tagged⟩ := filtered.closeReasoning (Signatures.fits_front fits)
    have last := signed_stopKind_iff closed quiet_now
    rw [← after_sendFinal env closed.known, tagged, agrees.1] at last
    have unended_iff : (openThinking c).isSome = false ↔ ¬ ∃ text, openThinking c = some text ∧
        (text = [] ∨ (some err).isSome = true) := by
      cases openThinking c <;> simp
    rw [after_andThen, ← unended_iff, ← last, after_andThen]
    rfl
  | none =>
    rw [failed] at fits
    dsimp only at fits ⊢
    have regrouped : (((c₂.closeReasoningIfOpen.andThen fun c => c.flushBuffer env).andThen
        fun c => c.padThinkingOnly env).andThen fun c => c.sendFinal env) =
        c₂.closeReasoningIfOpen.andThen fun c => ((c.flushBuffer env).andThen fun c =>
          c.padThinkingOnly env).andThen fun c => c.sendFinal env := by
      simp only [andThen_assoc]
    rw [regrouped] at fits ⊢
    have back := fits_back (fun c => ((c.flushBuffer env).andThen fun c =>
      c.padThinkingOnly env).andThen fun c => c.sendFinal env) fits
    obtain ⟨closed, quiet_now, tagged⟩ := filtered.closeReasoning (Signatures.fits_front fits)
    obtain ⟨m', extracted, eq⟩ := closeReasoningIfOpen_frame c₂
    have buffer : c₂.closeReasoningIfOpen.2.thinkingBuffer = c₂.thinkingBuffer := by rw [eq]
    rw [after_andThen, signed_end env closed quiet_now back, tagged, buffer, agrees.1]
    cases opened : openThinking c with
    | none => simp
    | some text =>
      have left := agrees.2 text opened
      simp [left]

variable {model messageId : String} {inputTokens : Int} {map : ToolNameMap} {usage : CacheUsage}

theorem sigInv_initial (env : StreamEnv) : SigInv
    (after [] ((newContext model messageId inputTokens true map usage).generateInitialEvents env).1)
    ((newContext model messageId inputTokens true map usage).generateInitialEvents env).2 := by
  have nothing : received ((newContext model messageId inputTokens true map
      usage).generateInitialEvents env).1 = [] := rfl
  have fits : Fits (received ((newContext model messageId inputTokens true map
      usage).generateInitialEvents env).1) := by
    rw [nothing]
    unfold Fits
    decide
  refine ⟨rfl, (inv_initial env fits).known, ?_, ?_, ?_⟩
  · intro b mem
    cases mem
  · intro never
    cases never
  · intro never
    cases never

theorem isSome_finishTools (env : StreamEnv) (c : StreamContext) :
    (c.finishTools env).2.toolJsonError.isSome =
      (c.toolJsonError.isSome || !(c.toolJsonAccumulator.finish env c.toolNameMap).1.isOk) := by
  unfold StreamContext.finishTools
  by_cases failed : c.toolJsonError.isSome = true
  · rw [if_pos failed]
    show c.toolJsonError.isSome = _
    rw [failed]
    rfl
  · rw [if_neg failed]
    generalize c.toolJsonAccumulator.finish env c.toolNameMap = finish
    obtain ⟨result, accumulator⟩ := finish
    cases result with
    | error err => exact (Bool.or_true _).symm
    | ok pending =>
      obtain ⟨m, indices, tokens, eq⟩ := emitAll_frame env pending
        { c with toolJsonAccumulator := accumulator }
      dsimp only
      rw [eq]
      exact (Bool.or_false _).symm

def behindEvents (env : StreamEnv) (c : StreamContext) (events : List Event) : StreamContext :=
  (emitAll (processKiroEvent env) events (c.generateInitialEvents env).2).2

/-- With thinking enabled, each thinking block gets one signature, right before its stop, if and
only if the stream does not leave one open whose text was all sent, nor one open where a call is
broken. -/
theorem signed_iff (env : StreamEnv) (model messageId : String) (inputTokens : Int)
    (map : ToolNameMap) (usage : CacheUsage) (events : List Event)
    (fits : Fits (received
      (streamed env (newContext model messageId inputTokens true map usage) events).1)) :
    (∀ b ∈ received (streamed env (newContext model messageId inputTokens true map usage) events).1,
      b.content.type = .thinking → Signed b.items) ↔
        ¬ ∃ text, openThinking (behindEvents env
            (newContext model messageId inputTokens true map usage) events) = some text ∧
          (text = [] ∨ HasBroken env (fragments events)) := by
  unfold streamed received at fits ⊢
  rw [after_andThen] at fits ⊢
  have fits_run := fits.before
  rw [after_andThen] at fits_run
  have begun := inv_initial env fits_run.before
  obtain ⟨-, names, accumulator, error⟩ := run_events env events begun fits_run
  have ran := (sigInv_initial env).run (f := StreamContext.processKiroEvent env)
    (fun _ _ event here => here.processKiroEvent env event) events fits_run
  have broken : (behindEvents env (newContext model messageId inputTokens true map usage)
      events |>.finishTools env).2.toolJsonError.isSome = true ↔
        HasBroken env (fragments events) := by
    unfold behindEvents
    rw [isSome_finishTools, error, names, accumulator, hasBroken_iff env map, Bool.or_eq_true,
      Bool.not_eq_true']
    rfl
  rw [← broken, after_andThen]
  rw [after_andThen] at fits
  exact signed_generateFinalEvents env ran fits

def answered : List Event := [.assistantResponse "<thinking>Why</thinking>\n\nSo.".toList]

theorem signed_answered :
    (∀ b ∈ received (streamed StreamEnv.sample
        (newContext "claude-sonnet-4.5" "msg_1" 10 true [] {}) answered).1,
      b.content.type = .thinking → Signed b.items) ↔
        ¬ ∃ text, openThinking (behindEvents StreamEnv.sample
            (newContext "claude-sonnet-4.5" "msg_1" 10 true [] {}) answered) = some text ∧
          (text = [] ∨ HasBroken StreamEnv.sample (fragments answered)) :=
  signed_iff StreamEnv.sample "claude-sonnet-4.5" "msg_1" 10 [] {} answered
    (by unfold Fits; decide +kernel)

/-- A stream that ends behind the start tag has a thinking block without a signature. -/
theorem unsigned_behind_tag :
    ¬ ∀ (env : StreamEnv) (model messageId : String) (inputTokens : Int) (map : ToolNameMap)
      (usage : CacheUsage) (events : List Event), ∀ b ∈ received (streamed env
        (newContext model messageId inputTokens true map usage) events).1,
      b.content.type = .thinking → Signed b.items := by
  intro all
  have mem : (⟨0, .thinking, [none]⟩ : Reply) ∈ received (streamed StreamEnv.sample
      (newContext "claude-sonnet-4.5" "msg_1" 10 true [] {})
      [.assistantResponse "<thinking>".toList]).1 := by
    decide +kernel
  exact not_signed_of_plain plain_nil (all _ _ _ _ _ _ _ _ mem rfl)

end KiroRs.Stream.Signatures
