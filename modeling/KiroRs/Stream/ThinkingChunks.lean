/- Path: KiroRs/Stream/ThinkingChunks
   source: src/anthropic/stream.rs
   digest: A text with thinking in it that comes in pieces: what the client of the stream gets, beside
   what is extracted from the whole text. -/

import KiroRs.Stream.TagCuts
import KiroRs.Stream.Telling

set_option autoImplicit false
set_option relaxedAutoImplicit false

namespace KiroRs.Stream.ThinkingChunks

open KiroRs.Lib
open KiroRs.Lib.Emits
open KiroRs.Lib.Slots
open KiroRs.Lib.Text
open KiroRs.Stream.XmlFilter
open KiroRs.Stream.Events
open KiroRs.Stream.StateManager
open KiroRs.Stream.ThinkingTags
open KiroRs.Stream.TagCuts
open KiroRs.Stream.Context
open KiroRs.Stream.Context.StreamContext
open KiroRs.Stream.Replies
open KiroRs.Stream.ReplyOps
open KiroRs.Stream.TextFlow
open KiroRs.Stream.Telling
open KiroRs.Stream.BlockOrder (newContext)

variable {env : StreamEnv} {c c' : StreamContext} {r : Sent} {log sent : List SseEvent}
variable {text thinking more : Text} {blocks : List Reply}

variable {t before raw behind : Text}

/-- A text has an unquoted start tag, and an unquoted end tag behind it. -/
structure Closed (t before raw behind : Text) : Prop where
  opens : findRealThinkingStartTag t = some (before, raw ++ thinkingEndTag ++ behind)
  closes : findTag thinkingEndTag (fun _ => true) none (raw ++ thinkingEndTag ++ behind) =
    some (raw, behind)

/-- The text in front of the tags and the text behind them, but for the white space next to them. -/
def Around (before behind visible : Text) : Prop :=
  ∃ front back, visible = front ++ back ∧ trimEnd front = trimEnd before ∧
    trimStart back = trimStart behind

theorem isEmpty_trimStart (text : Text) : (trimStart text).isEmpty = isBlank text := by
  cases blank : isBlank text with
  | true => rw [trimStart_of_blank blank, List.isEmpty_nil]
  | false =>
    rw [Bool.eq_false_iff, ne_eq, List.isEmpty_iff]
    intro nothing
    have none : solid text = [] := by rw [← solid_trimStart, nothing]; rfl
    rw [isBlank_of_solid none] at blank
    cases blank

theorem trimStart_drop_of_prefix {line text : Text} (blank : isBlank line = true)
    (starts : line.isPrefixOf text = true) : trimStart (text.drop line.length) = trimStart text := by
  obtain ⟨tail, eq⟩ := List.isPrefixOf_iff_prefix.mp starts
  rw [← eq, List.drop_left, trimStart_blank_append blank]

theorem trimStart_skipBoundary (text : Text) : trimStart (skipBoundary text) = trimStart text := by
  unfold skipBoundary
  split_ifs with blank four two crlf newline
  · exact (trimStart_of_blank blank).symm
  · exact trimStart_drop_of_prefix (by decide) four
  · exact trimStart_drop_of_prefix (by decide) two
  · exact trimStart_drop_of_prefix (by decide) crlf
  · exact trimStart_drop_of_prefix (by decide) newline
  · rfl

theorem extract_of_closed (closed : Closed t before raw behind) :
    (extractThinkingFromCompleteText t).1.getD [] = stripNewline raw ∧
      (extractThinkingFromCompleteText t).2 =
        (if isBlank before then [] else before) ++ skipBoundary behind := by
  unfold extractThinkingFromCompleteText findRealThinkingEndTagWithBoundary
  rw [closed.opens]
  dsimp only
  rw [closed.closes]
  dsimp only [Option.map_some]
  by_cases empty : (stripNewline raw).isEmpty = true
  · rw [if_pos empty]
    exact ⟨(List.isEmpty_iff.mp empty).symm, rfl⟩
  · rw [if_neg empty]
    exact ⟨rfl, rfl⟩

theorem around_extract (closed : Closed t before raw behind) :
    Around before behind (extractThinkingFromCompleteText t).2 := by
  refine ⟨_, _, (extract_of_closed closed).2, ?_, trimStart_skipBoundary behind⟩
  split_ifs with blank
  · exact (trimEnd_append_blank (a := []) blank).symm
  · rfl

def Unstopped (blocks : List Reply) : Prop := ∀ b ∈ ofType .text blocks, hasStop b = false

structure Carries (text thinking : Text) (log : List SseEvent) (c : StreamContext) : Prop where
  known : Known (received log) c
  aims : Aims (received log) c
  text : contentOf .text (received log) = text
  thinking : contentOf .thinking (received log) = thinking
  unstopped : Unstopped (received log)
  few : (received log).length ≤ c.textBlockIndex.toList.length + c.thinkingBlockIndex.toList.length

theorem length_after (blocks : List Reply) (sent : List SseEvent) :
    (after blocks sent).length = blocks.length + (sent.filterMap startOf).length := by
  have contents := congrArg List.length (contents_after blocks sent)
  rwa [List.length_map, List.length_append, List.length_map] at contents

theorem length_toList_le {α : Type} (o : Option α) : o.toList.length ≤ 1 := by
  cases o with
  | none => exact Nat.zero_le 1
  | some a => exact Nat.le_refl 1

theorem fits_of_few {indexed : StreamContext} (few : blocks.length ≤
    indexed.textBlockIndex.toList.length + indexed.thinkingBlockIndex.toList.length) :
    Fits blocks := by
  have texts := length_toList_le indexed.textBlockIndex
  have thoughts := length_toList_le indexed.thinkingBlockIndex
  unfold Fits
  omega

theorem Carries.same (h : Carries text thinking log c)
    (known : c'.stateManager.activeBlocks = c.stateManager.activeBlocks)
    (next : c'.stateManager.nextBlockIndex = c.stateManager.nextBlockIndex)
    (texts : c'.textBlockIndex = c.textBlockIndex)
    (thoughts : c'.thinkingBlockIndex = c.thinkingBlockIndex)
    (tools : c'.toolBlockIndices = c.toolBlockIndices) : Carries text thinking log c' where
  known := h.known.same known next texts thoughts tools
  aims := h.aims.same texts thoughts
  text := h.text
  thinking := h.thinking
  unstopped := h.unstopped
  few := by
    rw [texts, thoughts]
    exact h.few

theorem Carries.openTextIndex (h : Carries text thinking log c) :
    c.openTextIndex = c.textBlockIndex := by
  unfold StreamContext.openTextIndex
  cases index : c.textBlockIndex with
  | none => rfl
  | some i =>
    obtain ⟨b, mem, rfl, type⟩ := h.known.text i index
    have running := h.unstopped b (mem_ofType.mpr ⟨mem, type⟩)
    have is_open := isBlockOpenOfType_eq h.known.tracks mem .text
    rw [running, type] at is_open
    exact Option.filter_some_pos is_open

theorem Carries.aside (h : Carries text thinking log c)
    (does : Does (only .thinking) (received log) r)
    (few : (after (received log) r.1).length ≤
      r.2.textBlockIndex.toList.length + r.2.thinkingBlockIndex.toList.length)
    (aims : Fits (after (received log) r.1) → Aims (after (received log) r.1) r.2)
    (content : contentOf .thinking (after (received log) r.1) = more) :
    Leads (Carries text more) log r := by
  have fits := fits_of_few few
  have effect := does fits
  have split : received (log ++ r.1) = after (received log) r.1 := after_append ..
  unfold Leads
  constructor
  · rw [split]
    exact effect.known
  · rw [split]
    exact aims fits
  · rw [split, contentOf_kept effect rfl]
    exact h.text
  · rw [split]
    exact content
  · unfold Unstopped
    rw [split, effect.keeps .text rfl]
    exact h.unstopped
  · rw [split]
    exact few

theorem Carries.sendThinking (h : Carries text thinking log c)
    (index : c.thinkingBlockIndex.isSome = true) (more : Text) :
    Leads (Carries text (thinking ++ more)) log (c.sendThinking more) := by
  obtain ⟨i, own⟩ := Option.isSome_iff_exists.mp index
  obtain ⟨content, aims⟩ := aims_sendThinking h.known h.aims own more
  rw [h.thinking] at content
  refine h.aside (does_sendThinking h.known more) ?_ (fun _ => aims) content
  have started : (c.sendThinking more).1.filterMap startOf = [] := by
    unfold StreamContext.sendThinking
    rw [own]
    rfl
  rw [sendThinking_frame, length_after, started]
  exact h.few

theorem starts_stop (m : SseStateManager) (index : Int) :
    (m.handleContentBlockStop index).1.filterMap startOf = [] := by
  unfold SseStateManager.handleContentBlockStop
  split
  · split_ifs <;> rfl
  · rfl

theorem Carries.stopThinking (h : Carries text thinking log c) :
    Leads (Carries text thinking) log c.stopThinking := by
  have started : c.stopThinking.1.filterMap startOf = [] := by
    unfold StreamContext.stopThinking
    split
    · exact starts_stop _ _
    · rfl
  obtain ⟨m, eq⟩ := stopThinking_frame c
  have texts : c.stopThinking.2.textBlockIndex = c.textBlockIndex := by rw [eq]
  have thoughts : c.stopThinking.2.thinkingBlockIndex = c.thinkingBlockIndex := by rw [eq]
  have unstarted : ∀ e ∈ c.stopThinking.1, ∀ content, startOf e = some content →
      content.type ≠ .thinking := by
    intro e mem content start
    rw [List.filterMap_eq_nil_iff.mp started e mem] at start
    cases start
  refine h.aside (does_stopThinking h.known) ?_ (fun _ => ?_) ?_
  · rw [texts, thoughts, length_after, started]
    exact h.few
  · exact h.aims.mute (mute_stopThinking c) unstarted texts thoughts
  · rw [contentOf_mute (mute_stopThinking c)]
    exact h.thinking

theorem length_beginBlock_le (m : SseStateManager) (index : Int) (content : ContentBlock) :
    (m.beginBlock index content).1.length ≤ 1 := by
  unfold SseStateManager.beginBlock
  split
  · split_ifs
    · exact Nat.zero_le 1
    · exact Nat.le_refl 1
  · exact Nat.le_refl 1

theorem length_startBlock_le (env : StreamEnv) (c : StreamContext) (index : Int)
    {content : ContentBlock} (plain : content.type ≠ .toolUse) :
    (c.startBlock env index content).1.length ≤ 1 := by
  unfold startBlock manage SseStateManager.handleContentBlockStart
  rw [if_neg plain]
  exact length_beginBlock_le _ _ _

theorem Carries.enterThinking (env : StreamEnv) (h : Carries text thinking log c)
    (fresh : c.thinkingBlockIndex = none) (behind : Text) :
    Leads (Carries text thinking) log (c.enterThinking env behind) := by
  have plain : ContentBlock.thinking.type ≠ .toolUse := fun same => by cases same
  obtain ⟨begun, taken, texts, own, started⟩ : ∃ begun : StreamContext,
      begun.stateManager = c.stateManager.takeIndex.2 ∧ begun.textBlockIndex = c.textBlockIndex ∧
      begun.thinkingBlockIndex = some c.stateManager.takeIndex.1 ∧
      c.enterThinking env behind = begun.startBlock env c.stateManager.takeIndex.1 .thinking :=
    ⟨{ c with
      inThinkingBlock := true
      stripThinkingLeadingNewline := true
      thinkingBuffer := behind
      stateManager := c.stateManager.takeIndex.2
      thinkingBlockIndex := some c.stateManager.takeIndex.1 }, rfl, rfl, rfl, rfl⟩
  have does := does_enterThinking env h.known behind
  rw [started] at does ⊢
  refine h.aside does ?_ (fun fits => ?_) ?_
  · have one := length_startBlock_le env begun c.stateManager.takeIndex.1 plain
    have starts := List.length_filterMap_le startOf
      (begun.startBlock env c.stateManager.takeIndex.1 .thinking).1
    have few := h.few
    rw [fresh] at few
    change _ ≤ begun.textBlockIndex.toList.length + begun.thinkingBlockIndex.toList.length
    rw [own, texts, length_after]
    change _ ≤ c.textBlockIndex.toList.length + 1
    change _ ≤ c.textBlockIndex.toList.length + 0 at few
    omega
  · exact aims_startThinking env h.known.tracks h.aims taken texts own fits
  · have mute : Mute (begun.startBlock env c.stateManager.takeIndex.1 .thinking).1 :=
      mute_start env begun.stateManager c.stateManager.takeIndex.1 rfl
    rw [contentOf_mute mute]
    exact h.thinking

def Stopless (e : SseEvent) : Prop := ∀ i, e ≠ .contentBlockStop i

theorem unstopped_after (stopless : ∀ e ∈ sent, Stopless e) (unstopped : Unstopped blocks) :
    Unstopped (after blocks sent) := by
  induction sent generalizing blocks with
  | nil => exact unstopped
  | cons e sent ih =>
    refine ih (fun e' mem => stopless e' (List.mem_cons_of_mem e mem)) ?_
    cases e with
    | contentBlockStart i content =>
      intro b mem
      obtain ⟨mem, type⟩ := mem_ofType.mp mem
      rcases List.mem_append.mp mem with before | fresh
      · exact unstopped b (mem_ofType.mpr ⟨before, type⟩)
      · rw [List.mem_singleton.mp fresh]
        rfl
    | contentBlockDelta i delta =>
      intro b mem
      obtain ⟨listed, type⟩ := mem_ofType.mp mem
      obtain ⟨b', before, rfl⟩ := mem_send.mp listed
      split_ifs at type ⊢
      · rw [hasStop_add_delta]
        exact unstopped b' (mem_ofType.mpr ⟨before, type⟩)
      · exact unstopped b' (mem_ofType.mpr ⟨before, type⟩)
    | contentBlockStop i => exact absurd rfl (stopless _ List.mem_cons_self i)
    | messageStart _ _ _ | messageDelta _ _ | messageStop | error _ _ => exact unstopped

theorem stopless_createText (env : StreamEnv) (c : StreamContext) (text : Text) :
    ∀ e ∈ (c.createTextDeltaEvents env text).1, Stopless e := by
  intro e mem i stop
  rw [stop] at mem
  rcases List.mem_append.mp mem with started | delta
  · unfold ensureText at started
    split at started
    · cases started
    · dsimp only [nextBlockIndex, startBlock, manage] at started
      unfold SseStateManager.handleContentBlockStart SseStateManager.beginBlock at started
      rw [if_neg (by decide)] at started
      split at started
      · split_ifs at started
        · cases started
        · cases List.mem_singleton.mp started
      · cases List.mem_singleton.mp started
  · dsimp only at delta
    split at delta
    · dsimp only [manage] at delta
      unfold SseStateManager.handleContentBlockDelta at delta
      split at delta
      · split_ifs at delta
        · cases delta
        · cases List.mem_singleton.mp delta
      · cases delta
    · cases delta

theorem starts_delta (m : SseStateManager) (index : Int) (d : Delta) :
    (m.handleContentBlockDelta index d).1.filterMap startOf = [] := by
  unfold SseStateManager.handleContentBlockDelta
  split
  · split_ifs <;> rfl
  · rfl

theorem starts_createText (env : StreamEnv) (c : StreamContext) (text : Text) :
    ((c.createTextDeltaEvents env text).1.filterMap startOf).length ≤
      if c.openTextIndex.isSome then 0 else 1 := by
  have ensured : ((c.ensureText env).1.filterMap startOf).length ≤
      if c.openTextIndex.isSome then 0 else 1 := by
    unfold ensureText
    cases c.openTextIndex with
    | some i => exact Nat.le_refl 0
    | none => exact (List.length_filterMap_le _ _).trans (length_startBlock_le env _ _ (by decide))
  unfold createTextDeltaEvents Emit.andThen
  dsimp only
  rw [List.filterMap_append]
  split
  · dsimp only [manage]
    rw [starts_delta, List.append_nil]
    exact ensured
  · dsimp only [quiet]
    rw [List.filterMap_nil, List.append_nil]
    exact ensured

theorem Carries.createText (env : StreamEnv) (h : Carries text thinking log c) (more : Text) :
    Leads (Carries (text ++ more) thinking) log (c.createTextDeltaEvents env more) := by
  have split : received (log ++ (c.createTextDeltaEvents env more).1) =
      after (received log) (c.createTextDeltaEvents env more).1 := after_append ..
  obtain ⟨i, index⟩ := textBlockIndex_createText env c more
  have thoughts : (c.createTextDeltaEvents env more).2.thinkingBlockIndex =
      c.thinkingBlockIndex := by
    obtain ⟨m, t, eq⟩ := createTextDeltaEvents_frame env c more
    rw [eq]
  have few : (after (received log) (c.createTextDeltaEvents env more).1).length ≤
      (c.createTextDeltaEvents env more).2.textBlockIndex.toList.length +
        (c.createTextDeltaEvents env more).2.thinkingBlockIndex.toList.length := by
    have starts := starts_createText env c more
    have so_far := h.few
    rw [h.openTextIndex] at starts
    rw [length_after, index, thoughts]
    cases texts : c.textBlockIndex with
    | none =>
      rw [texts] at starts so_far
      change _ ≤ 1 at starts
      change _ ≤ 0 + _ at so_far
      change _ ≤ 1 + _
      omega
    | some j =>
      rw [texts] at starts so_far
      change _ ≤ 0 at starts
      change _ ≤ 1 + _ at so_far
      change _ ≤ 1 + _
      omega
  have fits := fits_of_few few
  have effect := does_createText env h.known more fits
  obtain ⟨content, aims⟩ := aims_createText env h.known h.aims more fits
  unfold Leads
  constructor
  · rw [split]
    exact effect.known
  · rw [split]
    exact aims
  · rw [split, content, h.text]
  · rw [split, contentOf_kept effect rfl]
    exact h.thinking
  · rw [split]
    exact unstopped_after (stopless_createText env c more) h.unstopped
  · rw [split]
    exact few

theorem narrow_startTag : Narrow thinkingStartTag :=
  ⟨by decide, List.all_iff_forall_prop.mp (by decide)⟩

theorem narrow_endTag : Narrow thinkingEndTag :=
  ⟨by decide, List.all_iff_forall_prop.mp (by decide)⟩

variable {opened given front seen rest read piece part : Text} {pieces : List Text}

structure Waits (t text rest : Text) (log : List SseEvent) (c : StreamContext) : Prop where
  carries : Carries text [] log c
  outside : c.inThinkingBlock = false
  fresh : c.thinkingExtracted = false
  index : c.thinkingBlockIndex = none
  seeks : Seeks thinkingStartTag t text c.thinkingBuffer rest

/-- What is given away of the text behind a start tag is its line end and the client's thinking, once
the line end was looked for. -/
def Begun (searched : Bool) (opened given thinking : Text) : Prop :=
  if searched then given = [] ∧ thinking = []
  else ∃ line, line ++ stripNewline opened = opened ∧ given = line ++ thinking

structure Thinks (opened text given thinking rest : Text) (log : List SseEvent)
    (c : StreamContext) : Prop where
  carries : Carries text thinking log c
  inside : c.inThinkingBlock = true
  index : c.thinkingBlockIndex.isSome = true
  seeks : Seeks thinkingEndTag opened given c.thinkingBuffer rest
  begun : Begun c.stripThinkingLeadingNewline opened given thinking

/-- The thinking is over. The text behind it is the client's but for the white space it begins
with. -/
structure Rests (front seen thinking : Text) (log : List SseEvent) (c : StreamContext) : Prop where
  carries : Carries (front ++ trimStart seen) thinking log c
  outside : c.inThinkingBlock = false
  extracted : c.thinkingExtracted = true
  empty : c.thinkingBuffer = []
  strips : c.stripTextAfterThinkingBoundary = isBlank seen

/-- Where a stream stands in a text with a closed block of thinking, of which the rest is to come. -/
def Follows (t before raw behind rest : Text) (log : List SseEvent) (c : StreamContext) : Prop :=
  (rest ≠ [] ∧ ∃ text, Waits t text rest log c) ∨
    (rest ≠ [] ∧ ∃ text given thinking, trimEnd text = trimEnd before ∧
      Thinks (raw ++ thinkingEndTag ++ behind) text given thinking rest log c) ∨
    ∃ front seen, trimEnd front = trimEnd before ∧ behind = seen ++ rest ∧
      Rests front seen (stripNewline raw) log c

/-- More text, of which the white space at its front is skipped where nothing else was seen. -/
theorem rests_emitExtracted (env : StreamEnv)
    (carries : Carries (front ++ trimStart seen) thinking log c)
    (outside : c.inThinkingBlock = false) (extracted : c.thinkingExtracted = true)
    (strips : c.stripTextAfterThinkingBoundary = isBlank seen)
    (same : (if isBlank seen then trimStart c.thinkingBuffer else c.thinkingBuffer) =
      if isBlank seen then trimStart piece else piece) :
    Leads (Rests front (seen ++ piece) thinking) log (c.emitExtracted env) := by
  unfold emitExtracted
  rw [strips, same]
  dsimp only
  have remains : trimStart (seen ++ piece) =
      trimStart seen ++ if isBlank seen then trimStart piece else piece := by
    cases blank : isBlank seen with
    | true => rw [trimStart_blank_append blank, trimStart_of_blank blank]; rfl
    | false => rw [trimStart_append blank]; rfl
  have strips_later : (isBlank seen && (if isBlank seen then trimStart piece else piece).isEmpty) =
      isBlank (seen ++ piece) := by
    rw [isBlank_append]
    cases isBlank seen with
    | true => exact congrArg (true && ·) (isEmpty_trimStart piece)
    | false => rfl
  rw [strips_later]
  generalize (if isBlank seen then trimStart piece else piece) = remaining at remains ⊢
  have emptied : Carries (front ++ trimStart seen) thinking log { c with
      thinkingBuffer := []
      stripTextAfterThinkingBoundary := isBlank (seen ++ piece) } :=
    carries.same rfl rfl rfl rfl rfl
  split_ifs with nothing
  · refine leads_quiet.mpr ⟨?_, outside, extracted, rfl, rfl⟩
    rw [remains, List.isEmpty_iff.mp nothing, List.append_nil]
    exact emptied
  · have sent := emptied.createText env remaining
    obtain ⟨m, t, eq⟩ := createTextDeltaEvents_frame env { c with
      thinkingBuffer := []
      stripTextAfterThinkingBoundary := isBlank (seen ++ piece) } remaining
    unfold Leads at sent ⊢
    rw [eq] at sent ⊢
    rw [List.append_assoc, ← remains] at sent
    exact ⟨sent, outside, extracted, rfl, rfl⟩

theorem Rests.emitExtracted (env : StreamEnv) (rests : Rests front seen thinking log c)
    (piece : Text) : Leads (Rests front (seen ++ piece) thinking) log
      ({ c with thinkingBuffer := c.thinkingBuffer ++ piece }.emitExtracted env) := by
  refine rests_emitExtracted env (rests.carries.same rfl rfl rfl rfl rfl) rests.outside
    rests.extracted rests.strips ?_
  rw [rests.empty]
  rfl

theorem stripNewline_cases (text : Text) :
    (stripNewline text = text ∧ ∀ tail, text ≠ '\n' :: tail) ∨ text = '\n' :: stripNewline text := by
  unfold stripNewline
  split
  · exact .inr rfl
  · next other => exact .inl ⟨rfl, other⟩

theorem stripNewline_front {line tail : Text} (split : line ++ stripNewline opened = opened)
    (front : opened = line ++ part ++ tail) : stripNewline (line ++ part) = part := by
  rcases stripNewline_cases opened with ⟨same, other⟩ | newline
  · rw [same] at split
    obtain rfl : line = [] := List.append_left_eq_self.mp split
    rcases stripNewline_cases part with ⟨unstripped, -⟩ | newline
    · exact unstripped
    · rw [newline] at front
      exact absurd front (other _)
  · have lines : line ++ stripNewline opened = ['\n'] ++ stripNewline opened :=
      split.trans newline
    obtain rfl : line = ['\n'] := List.append_cancel_right lines
    rfl

theorem isHere_newline (prev : Option Char) (tail : Text) :
    isHere thinkingEndTag prev ('\n' :: tail) = false := rfl

theorem Thinks.stripped (thinks : Thinks opened text given thinking rest log c)
    (sharp : c.thinkingBuffer = thinkingEndTag → isQuoteChar given.getLast? = false) :
    ∃ given', Thinks opened text given' thinking rest log c.stripLeadingNewline ∧
      given' ++ c.stripLeadingNewline.thinkingBuffer = given ++ c.thinkingBuffer ∧
      (c.stripLeadingNewline.thinkingBuffer = thinkingEndTag →
        isQuoteChar given'.getLast? = false) ∧
      (c.stripLeadingNewline.thinkingBuffer ≠ [] →
        c.stripLeadingNewline.stripThinkingLeadingNewline = false) := by
  obtain ⟨carries, inside, index, seeks, begun⟩ := thinks
  unfold stripLeadingNewline
  split_ifs with strips
  · rw [Bool.and_eq_true, Bool.not_eq_true', List.isEmpty_eq_false_iff] at strips
    rw [strips.1] at begun
    obtain ⟨rfl, rfl⟩ : given = [] ∧ thinking = [] := begun
    have whole : opened = c.thinkingBuffer ++ rest := seeks.split
    rcases stripNewline_cases c.thinkingBuffer with ⟨same, other⟩ | newline
    · refine ⟨[], ⟨carries.same rfl rfl rfl rfl rfl, inside, index, ?_, [], ?_, rfl⟩, ?_,
        fun _ => rfl, fun _ => rfl⟩
      · dsimp only
        rw [same]
        exact seeks
      · rcases stripNewline_cases opened with ⟨unstripped, -⟩ | newline
        · exact unstripped
        · obtain ⟨x, tail, eq⟩ := List.exists_cons_of_ne_nil strips.2
          rw [newline, eq] at whole
          obtain ⟨rfl, -⟩ := List.cons.inj whole
          exact absurd eq (other tail)
      · dsimp only
        rw [same]
    · refine ⟨['\n'], ⟨carries.same rfl rfl rfl rfl rfl, inside, index, ?_, ['\n'], ?_, rfl⟩, ?_,
        fun _ => rfl, fun _ => rfl⟩
      · rw [newline] at seeks
        exact seeks.skip (isHere_newline none _) rfl
      · rw [whole, newline]
        rfl
      · exact newline.symm
  · refine ⟨given, ⟨carries, inside, index, seeks, begun⟩, rfl, sharp, fun nonempty => ?_⟩
    rw [Bool.and_eq_true, Bool.not_eq_true', List.isEmpty_eq_false_iff] at strips
    exact Bool.eq_false_iff.mpr fun searched => strips ⟨searched, nonempty⟩

theorem Carries.endThinking (h : Carries text thinking log c)
    (index : c.thinkingBlockIndex.isSome = true) (part : Text) :
    Leads (Carries text (thinking ++ part)) log (c.endThinking part) := by
  have first : Leads (Carries text (thinking ++ part)) log
      (if part.isEmpty then quiet c else c.sendThinking part) := by
    split_ifs with empty
    · rw [List.isEmpty_iff.mp empty, List.append_nil]
      exact leads_quiet.mpr h
    · exact h.sendThinking index part
  refine first.andThen fun sent => Carries.stopThinking ?_
  exact sent.same rfl rfl rfl rfl rfl

theorem Begun.keeps (begun : Begun false opened given thinking) (part : Text) :
    Begun false opened (given ++ part) (thinking ++ part) := by
  obtain ⟨line, split, rfl⟩ := begun
  exact ⟨line, split, List.append_assoc ..⟩

theorem Begun.ends {tail : Text} (begun : Begun false opened given thinking)
    (split : opened = given ++ part ++ tail) : stripNewline (given ++ part) = thinking ++ part := by
  obtain ⟨line, front, rfl⟩ := begun
  rw [List.append_assoc]
  have parts : opened = line ++ (thinking ++ part) ++ tail := by rw [split, List.append_assoc line]
  exact stripNewline_front front parts

/-- The loop within thinking. -/
theorem Thinks.scanThinking (env : StreamEnv) (closed : Closed t before raw behind)
    (around : trimEnd text = trimEnd before)
    (thinks : Thinks (raw ++ thinkingEndTag ++ behind) text given thinking rest log c)
    (sharp : c.thinkingBuffer = thinkingEndTag → isQuoteChar given.getLast? = false)
    (free : rest ≠ [] → CutFreely thinkingEndTag raw (given ++ c.thinkingBuffer) rest) :
    Leads (Follows t before raw behind rest) log (c.scanThinking env) := by
  obtain ⟨given', stripped, same, sharp', searched⟩ := thinks.stripped sharp
  rw [← same] at free
  unfold StreamContext.scanThinking findRealThinkingEndTagWithBoundary
  dsimp only
  generalize c.stripLeadingNewline = d at stripped free sharp' searched ⊢
  obtain ⟨carries, inside, index, seeks, begun⟩ := stripped
  cases found : findTag thinkingEndTag (fun _ => true) none d.thinkingBuffer with
  | some p =>
    obtain ⟨part, later⟩ := p
    dsimp only [Option.map_some]
    have nonempty : d.thinkingBuffer ≠ [] := by
      intro empty
      rw [empty] at found
      cases found
    rw [searched nonempty] at begun
    obtain ⟨rfl, rfl⟩ := seeks.found sharp' closed.closes free found
    have whole : stripNewline (given' ++ part) = thinking ++ part :=
      begun.ends (List.append_assoc (given' ++ part) ..)
    obtain ⟨m, ended⟩ := endThinking_frame d part
    refine (carries.endThinking index part).andThen fun settled => ?_
    rw [ended] at settled ⊢
    let closing : StreamContext := { d with
      stateManager := m
      inThinkingBlock := false
      thinkingExtracted := true
      stripTextAfterThinkingBoundary := true
      thinkingBuffer := skipBoundary later }
    have closes : Carries (text ++ trimStart []) (thinking ++ part)
        (log ++ (d.endThinking part).1) closing := by
      have nothing : trimStart [] = [] := rfl
      rw [nothing, List.append_nil]
      exact settled.same rfl rfl rfl rfl rfl
    have rests : Leads (Rests text ([] ++ later) (thinking ++ part))
        (log ++ (d.endThinking part).1) (closing.emitExtracted env) :=
      rests_emitExtracted env closes rfl rfl rfl (trimStart_skipBoundary later)
    refine rests.mono fun log c done => .inr (.inr ⟨text, later, around, rfl, ?_⟩)
    rw [whole]
    exact done
  | none =>
    dsimp only [Option.map_none]
    have unfinished := seeks.unfinished closed.closes found
    cases split : splitKeep thinkingEndTag.length d.thinkingBuffer with
    | mk safe kept =>
      dsimp only
      split_ifs with nothing
      · exact leads_quiet.mpr (.inr (.inl ⟨unfinished, text, given', thinking, around,
          ⟨carries, inside, index, seeks, begun⟩⟩))
      · have nonempty : safe ≠ [] := fun empty => nothing (List.isEmpty_iff.mpr empty)
        have some_text : d.thinkingBuffer ≠ [] := by
          intro empty
          rw [empty] at split
          exact nonempty (congrArg Prod.fst split).symm
        rw [searched some_text] at begun
        have missed :=
          seeks.missed narrow_endTag closed.closes (free unfinished) found split nonempty
        have kept_carries : Carries text thinking log { d with thinkingBuffer := kept } :=
          carries.same rfl rfl rfl rfl rfl
        have sent := kept_carries.sendThinking index safe
        have frame := sendThinking_frame { d with thinkingBuffer := kept } safe
        unfold Leads at sent ⊢
        rw [frame] at sent ⊢
        refine .inr (.inl ⟨unfinished, text, given' ++ safe, thinking ++ safe, around, ?_⟩)
        refine ⟨sent, inside, index, missed, ?_⟩
        rw [searched some_text]
        exact begun.keeps safe

/-- The loop in front of the thinking, which goes on to the loop within it. -/
theorem Waits.scanStart (env : StreamEnv) (closed : Closed t before raw behind)
    (waits : Waits t text rest log c)
    (sharp : c.thinkingBuffer = thinkingStartTag → isQuoteChar text.getLast? = false)
    (free : rest ≠ [] → CutFreely thinkingStartTag before (text ++ c.thinkingBuffer) rest)
    (free_behind : ∀ opened, text ++ c.thinkingBuffer = before ++ thinkingStartTag ++ opened →
      rest ≠ [] → CutFreely thinkingEndTag raw opened rest) :
    Leads (Follows t before raw behind rest) log (c.scanStart env) := by
  obtain ⟨carries, outside, fresh, index, seeks⟩ := waits
  unfold StreamContext.scanStart
  cases found : findRealThinkingStartTag c.thinkingBuffer with
  | some p =>
    obtain ⟨part, later⟩ := p
    dsimp only
    obtain ⟨first, last⟩ := seeks.found sharp closed.opens free found
    have whole : text ++ c.thinkingBuffer = before ++ thinkingStartTag ++ later := by
      have parts : c.thinkingBuffer = part ++ thinkingStartTag ++ later := (findTag_eq_some found).1
      rw [parts, ← first]
      simp only [List.append_assoc]
    have sent : Leads (fun log c' => c'.thinkingBlockIndex = none ∧
        ∃ text', trimEnd text' = trimEnd before ∧ Carries text' [] log c') log
        (if isBlank part then quiet c else c.createTextDeltaEvents env part) := by
      split_ifs with blank
      · refine leads_quiet.mpr ⟨index, text, ?_, carries⟩
        rw [← first, trimEnd_append_blank blank]
      · obtain ⟨m, i, eq⟩ := createTextDeltaEvents_frame env c part
        refine ⟨?_, text ++ part, congrArg trimEnd first, carries.createText env part⟩
        rw [eq]
        exact index
    refine Leads.andThen (R := fun log c' => ∃ text', trimEnd text' = trimEnd before ∧
      Thinks (raw ++ thinkingEndTag ++ behind) text' [] [] rest log c' ∧
        c'.thinkingBuffer = later) (sent.andThen fun ready => ?_) fun entered => ?_
    · obtain ⟨none_yet, text', around, ready⟩ := ready
      have entered := ready.enterThinking env none_yet later
      refine ⟨text', around, ⟨entered, rfl, rfl, ?_, rfl, rfl⟩, rfl⟩
      have begins := seeks_start thinkingEndTag (raw ++ thinkingEndTag ++ behind)
      have parts : Seeks thinkingEndTag (raw ++ thinkingEndTag ++ behind) [] [] (later ++ rest) := by
        rw [last]
        exact begins
      exact parts.append
    · obtain ⟨text', around, thinks, buffer⟩ := entered
      refine thinks.scanThinking env closed around (fun _ => rfl) fun more => ?_
      rw [buffer]
      exact free_behind later whole more
  | none =>
    have unfinished := seeks.unfinished closed.opens found
    cases split : splitKeep thinkingStartTag.length c.thinkingBuffer with
    | mk safe kept =>
      dsimp only
      split_ifs with blank
      · exact leads_quiet.mpr (.inl ⟨unfinished, text,
          ⟨carries, outside, fresh, index, seeks⟩⟩)
      · have nonempty : safe ≠ [] := by
          rintro rfl
          exact blank rfl
        have missed :=
          seeks.missed narrow_startTag closed.opens (free unfinished) found split nonempty
        obtain ⟨m, i, eq⟩ := createTextDeltaEvents_frame env c safe
        refine (carries.createText env safe).andThen fun sent => leads_quiet.mpr ?_
        rw [eq] at sent ⊢
        exact .inl ⟨unfinished, text ++ safe, ⟨sent.same rfl rfl rfl rfl rfl, outside, fresh, index,
          missed⟩⟩

/-- Every piece of a text that is read behind another one begins at a free cut of both tags. -/
def CutsFreely (before raw read : Text) (pieces : List Text) : Prop :=
  ∀ front piece back, pieces = front ++ piece :: back →
    CutFreely thinkingStartTag before (read ++ front.flatten) piece ∧
      ∀ opened, read ++ front.flatten = before ++ thinkingStartTag ++ opened →
        CutFreely thinkingEndTag raw opened piece

theorem CutsFreely.start (free : CutsFreely before raw read pieces) :
    FreeFrom thinkingStartTag before read pieces :=
  fun front piece back split => (free front piece back split).1

theorem CutsFreely.stop (free : CutsFreely before raw read pieces)
    (behind_tag : read = before ++ thinkingStartTag ++ opened) :
    FreeFrom thinkingEndTag raw opened pieces := by
  intro front piece back split
  refine (free front piece back split).2 (opened ++ front.flatten) ?_
  rw [behind_tag, List.append_assoc]

theorem CutsFreely.next (free : CutsFreely before raw read (piece :: pieces)) :
    CutsFreely before raw (read ++ piece) pieces := by
  intro front piece' back split
  have cut := free (piece :: front) piece' back (by rw [split]; rfl)
  rwa [List.flatten_cons, ← List.append_assoc] at cut

theorem cutsFreely_nil : CutsFreely before raw read [] :=
  fun front _ _ split => absurd split (List.append_ne_nil_of_right_ne_nil front (by simp)).symm

theorem cutsFreely_cons : CutsFreely before raw read (piece :: pieces) ↔
    (CutFreely thinkingStartTag before read piece ∧
      (before ++ thinkingStartTag <+: read → CutFreely thinkingEndTag raw
        (read.drop (before ++ thinkingStartTag).length) piece)) ∧
      CutsFreely before raw (read ++ piece) pieces := by
  constructor
  · intro free
    refine ⟨⟨free.start.here, ?_⟩, free.next⟩
    rintro ⟨opened, rfl⟩
    rw [List.drop_left]
    exact (free.stop rfl).here
  · rintro ⟨⟨start, stop⟩, later⟩ front piece' back split
    cases front with
    | nil =>
      obtain ⟨rfl, rfl⟩ := List.cons.inj split
      rw [List.flatten_nil, List.append_nil]
      refine ⟨start, ?_⟩
      rintro opened rfl
      have cut := stop (List.prefix_append _ opened)
      rwa [List.drop_left] at cut
    | cons first front =>
      obtain ⟨rfl, rest⟩ := List.cons.inj split
      rw [List.flatten_cons, ← List.append_assoc]
      exact later front piece' back rest

instance decidableCutsFreely (before raw : Text) :
    ∀ read pieces, Decidable (CutsFreely before raw read pieces)
  | _, [] => .isTrue cutsFreely_nil
  | read, piece :: pieces =>
    have := decidableCutsFreely before raw (read ++ piece) pieces
    decidable_of_iff _ cutsFreely_cons.symm

theorem read_eq {whole buffer later : Text} (split : whole = given ++ buffer ++ later)
    (joined : whole = read ++ later) : read = given ++ buffer :=
  List.append_cancel_right (joined.symm.trans split)

theorem Follows.processContent (env : StreamEnv) (closed : Closed t before raw behind)
    (joined : t = read ++ (piece ++ pieces.flatten))
    (free : CutsFreely before raw read (piece :: pieces))
    (follows : Follows t before raw behind (piece ++ pieces.flatten) log c) :
    Leads (Follows t before raw behind pieces.flatten) log
      (c.processContentWithThinking env piece) := by
  unfold processContentWithThinking
  dsimp only
  rcases follows with ⟨-, text, waits⟩ | ⟨-, text, given, thinking, around, thinks⟩ |
    ⟨front, seen, around, split, rests⟩
  · obtain ⟨carries, outside, fresh, index, seeks⟩ := waits
    obtain rfl := read_eq seeks.split joined
    have sought : (!c.inThinkingBlock && !c.thinkingExtracted) = true := by
      rw [outside, fresh]
      rfl
    rw [if_pos sought]
    have buffered : Waits t text pieces.flatten log
        { c with thinkingBuffer := c.thinkingBuffer ++ piece } :=
      ⟨carries.same rfl rfl rfl rfl rfl, outside, fresh, index, seeks.append⟩
    refine buffered.scanStart env closed ?_ ?_ ?_
    · exact seeks.sharp narrow_startTag closed.opens free.start.here
    · dsimp only
      rw [← List.append_assoc]
      exact free.next.start.flatten
    · dsimp only
      rw [← List.append_assoc]
      exact fun opened split => (free.next.stop split).flatten
  · obtain ⟨carries, inside, index, seeks, begun⟩ := thinks
    have opens : t = before ++ thinkingStartTag ++ (raw ++ thinkingEndTag ++ behind) :=
      (findTag_eq_some closed.opens).1
    have behind_tag : read = before ++ thinkingStartTag ++ (given ++ c.thinkingBuffer) := by
      refine read_eq ?_ joined
      rw [opens, seeks.split]
      simp only [List.append_assoc]
    rw [if_neg (by rw [inside]; exact Bool.false_ne_true), if_pos inside]
    have buffered : Thinks (raw ++ thinkingEndTag ++ behind) text given thinking pieces.flatten log
        { c with thinkingBuffer := c.thinkingBuffer ++ piece } :=
      ⟨carries.same rfl rfl rfl rfl rfl, inside, index, seeks.append, begun⟩
    refine buffered.scanThinking env closed around ?_ ?_
    · exact seeks.sharp narrow_endTag closed.closes (free.stop behind_tag).here
    · dsimp only
      rw [← List.append_assoc]
      exact (free.stop behind_tag).next.flatten
  · rw [if_neg (by rw [rests.outside, rests.extracted]; exact Bool.false_ne_true),
      if_neg (by rw [rests.outside]; exact Bool.false_ne_true)]
    refine (rests.emitExtracted env piece).mono fun log c later => .inr (.inr ?_)
    exact ⟨front, seen ++ piece, around, by rw [split, List.append_assoc], later⟩

theorem Follows.emitAll (env : StreamEnv) (closed : Closed t before raw behind)
    (joined : t = read ++ pieces.flatten) (free : CutsFreely before raw read pieces)
    (follows : Follows t before raw behind pieces.flatten log c) :
    Leads (Follows t before raw behind []) log
      (emitAll (processContentWithThinking env) pieces c) := by
  induction pieces generalizing read log c with
  | nil => exact leads_quiet.mpr follows
  | cons piece pieces ih =>
    refine (follows.processContent env closed joined free).andThen fun later => ?_
    have joined_later : t = read ++ piece ++ pieces.flatten := by
      rw [joined, List.flatten_cons, List.append_assoc]
    exact ih joined_later free.next later

structure Settled (c : StreamContext) : Prop where
  reasoning : c.reasoningBlockOpen = false
  error : c.toolJsonError = none
  buffers : c.toolJsonAccumulator.buffers = []
  filter : c.toolUseXmlFilter = {}

theorem Settled.frame (settled : Settled c) (frame : TextFrame c c') : Settled c' where
  reasoning := frame.reasoning.trans settled.reasoning
  error := frame.error.trans settled.error
  buffers := (congrArg ToolJson.ToolJsonAccumulator.buffers frame.accumulator).trans settled.buffers
  filter := frame.filter.trans settled.filter

theorem textFrame_emitAll (env : StreamEnv) (pieces : List Text) (c : StreamContext) :
    TextFrame c (emitAll (processContentWithThinking env) pieces c).2 := by
  induction pieces generalizing c with
  | nil => exact TextFrame.refl c
  | cons piece pieces ih => exact (textFrame_processContent env c piece).andThen (ih _)

theorem Settled.finishTools (settled : Settled c) (env : StreamEnv) :
    c.finishTools env = quiet c := by
  unfold StreamContext.finishTools
  rw [if_neg (by rw [settled.error]; exact Bool.false_ne_true),
    ToolCalls.finish_empty env settled.buffers]
  rfl

theorem Settled.finishFilter (settled : Settled c) (env : StreamEnv) :
    c.finishFilter env = quiet c := by
  have filter := settled.filter
  cases c
  subst filter
  rfl

theorem flushBuffer_empty (env : StreamEnv) (empty : c.thinkingBuffer = []) :
    c.flushBuffer env = quiet c := by
  unfold flushBuffer
  rw [if_neg]
  rw [empty, List.isEmpty_nil, Bool.not_true, Bool.and_false]
  exact Bool.false_ne_true

theorem generateFinalEvents_eq (env : StreamEnv) (settled : Settled c)
    (empty : c.thinkingBuffer = []) :
    c.generateFinalEvents env = (c.padThinkingOnly env).andThen fun c => c.sendFinal env := by
  unfold StreamContext.generateFinalEvents
  rw [settled.finishTools env, quiet_andThen, settled.finishFilter env, quiet_andThen,
    settled.error]
  dsimp only
  rw [BlockOrder.closeReasoning_quiet settled.reasoning, quiet_andThen, flushBuffer_empty env empty,
    quiet_andThen]

theorem Carries.no_text (carries : Carries text thinking log c)
    (none : c.stateManager.hasNonThinkingBlocks = false) : text = [] := by
  have nothing : ofType .text (received log) = [] := by
    rw [List.eq_nil_iff_forall_not_mem]
    intro b mem
    obtain ⟨mem, type⟩ := mem_ofType.mp mem
    unfold SseStateManager.hasNonThinkingBlocks at none
    rw [carries.known.tracks.known, List.any_map, List.any_eq_false] at none
    refine none b mem ?_
    show (b.content.type != .thinking) = true
    rw [type]
    rfl
  rw [← carries.text]
  unfold contentOf
  rw [nothing]
  rfl

theorem Rests.generateFinalEvents (env : StreamEnv) (around : trimEnd front = trimEnd before)
    (rests : Rests front behind thinking log c) (settled : Settled c) :
    Leads (fun log _ => contentOf .thinking (received log) = thinking ∧
      Around before behind (contentOf .text (received log))) log (c.generateFinalEvents env) := by
  rw [generateFinalEvents_eq env settled rests.empty]
  have padded : Leads (fun log _ => contentOf .thinking (received log) = thinking ∧
      Around before behind (contentOf .text (received log))) log (c.padThinkingOnly env) := by
    unfold StreamContext.padThinkingOnly
    split_ifs with only_thinking
    · rw [Bool.and_eq_true, Bool.not_eq_true'] at only_thinking
      have none := rests.carries.no_text only_thinking.2
      obtain ⟨no_front, blank⟩ := List.append_eq_nil_iff.mp none
      rw [no_front] at around
      have reasoned : Carries (front ++ trimStart behind) thinking log
          { c with stateManager := c.stateManager.setStopReason "max_tokens" } :=
        rests.carries.same rfl rfl rfl rfl rfl
      have sent := reasoned.createText env [' ']
      rw [none] at sent
      exact ⟨sent.thinking, [], [' '], sent.text, around, blank.symm⟩
    · refine leads_quiet.mpr ⟨rests.carries.thinking, front, trimStart behind,
        rests.carries.text, around, ?_⟩
      exact List.dropWhile_idempotent ..
  refine padded.andThen fun both => ?_
  have mute := mute_sendFinal env (c.padThinkingOnly env).2
  have same (type : BlockType) : contentOf type (received (log ++ (c.padThinkingOnly env).1 ++
      ((c.padThinkingOnly env).2.sendFinal env).1)) =
        contentOf type (received (log ++ (c.padThinkingOnly env).1)) := by
    unfold received
    rw [after_append, contentOf_mute mute]
  unfold Leads
  dsimp only
  rw [same, same]
  exact both

def fed (env : StreamEnv) (c : StreamContext) (pieces : List Text) : Sent :=
  ((c.generateInitialEvents env).andThen fun c =>
    emitAll (processContentWithThinking env) pieces c).andThen fun c => c.generateFinalEvents env

variable {model messageId : String} {inputTokens : Int} {usage : CacheUsage}
variable {map : Converter.ToolNames.ToolNameMap}

theorem waits_start (env : StreamEnv) (t : Text) :
    Leads (fun log c => Waits t [] t log c ∧ Settled c) []
      ((newContext model messageId inputTokens true map usage).generateInitialEvents env) := by
  have fits : Fits (received ((newContext model messageId inputTokens true map
      usage).generateInitialEvents env).1) := show (0 : Int) < 2 ^ 31 by decide
  have known := (CallReplies.inv_initial env fits).known
  refine ⟨⟨⟨known, ⟨fun _ never => ?_, fun _ never => ?_⟩, rfl, rfl, ?_, Nat.le_refl 0⟩, rfl, rfl, rfl,
    seeks_start thinkingStartTag t⟩, rfl, rfl, rfl, rfl⟩
  · cases never
  · cases never
  · intro b mem
    cases mem

/-- Where a text is cut freely, its client gets the thinking and the visible text that are extracted
from the whole text. -/
theorem thinking_fed (env : StreamEnv) (closed : Closed pieces.flatten before raw behind)
    (free : CutsFreely before raw [] pieces) :
    let sent := (fed env (newContext model messageId inputTokens true map usage) pieces).1
    contentOf .thinking (received sent) =
        (extractThinkingFromCompleteText pieces.flatten).1.getD [] ∧
      Around before behind (contentOf .text (received sent)) ∧
      Around before behind (extractThinkingFromCompleteText pieces.flatten).2 := by
  have nonempty : pieces.flatten ≠ [] := by
    intro empty
    rw [empty] at closed
    cases closed.opens
  have ran : Leads (fun log c => Follows pieces.flatten before raw behind [] log c ∧ Settled c) []
      (((newContext model messageId inputTokens true map usage).generateInitialEvents env).andThen
        fun c => emitAll (processContentWithThinking env) pieces c) := by
    refine (waits_start env pieces.flatten).andThen fun both => ?_
    have follows := Follows.emitAll env closed rfl free (.inl ⟨nonempty, [], both.1⟩)
    exact ⟨follows, both.2.frame (textFrame_emitAll env pieces _)⟩
  have ended : Leads (fun log _ => contentOf .thinking (received log) = stripNewline raw ∧
      Around before behind (contentOf .text (received log))) []
      (fed env (newContext model messageId inputTokens true map usage) pieces) := by
    refine ran.andThen fun both => ?_
    obtain ⟨follows, settled⟩ := both
    rcases follows with ⟨never, -⟩ | ⟨never, -⟩ | ⟨front, seen, around, split, rests⟩
    · exact absurd rfl never
    · exact absurd rfl never
    · rw [List.append_nil] at split
      rw [← split] at rests
      exact rests.generateFinalEvents env around settled
  rw [(extract_of_closed closed).1]
  exact ⟨ended.1, ended.2, around_extract closed⟩

def cutAtTags : List Text := ["x<thin".toList, "king>\na</thinking>".toList, "\n\ny".toList]

theorem thinking_fed_cutAtTags :
    let sent := (fed StreamEnv.sample (newContext "claude-sonnet-4.5" "msg_1" 10 true [] {})
      cutAtTags).1
    contentOf .thinking (received sent) =
        (extractThinkingFromCompleteText cutAtTags.flatten).1.getD [] ∧
      Around "x".toList "\n\ny".toList (contentOf .text (received sent)) ∧
      Around "x".toList "\n\ny".toList (extractThinkingFromCompleteText cutAtTags.flatten).2 :=
  have closed : Closed cutAtTags.flatten "x".toList "\na".toList "\n\ny".toList :=
    ⟨by decide +kernel, by decide +kernel⟩
  thinking_fed StreamEnv.sample closed (by decide +kernel)

/-- A quote character right behind an end tag comes too late if it begins a piece. -/
theorem quote_behind_cut_differs :
    ¬ ∀ (env : StreamEnv) (pieces : List Text) (before raw behind : Text),
      ¬ toolUseXmlPrefix <:+: pieces.flatten → Closed pieces.flatten before raw behind →
        contentOf .thinking (received (fed env
          (newContext "claude-sonnet-4.5" "msg_1" 10 true [] {}) pieces).1) =
            (extractThinkingFromCompleteText pieces.flatten).1.getD [] := by
  intro all
  let pieces : List Text := ["<thinking>a</thinking>".toList, "`b</thinking>c".toList]
  have closed : Closed pieces.flatten [] "a</thinking>`b".toList "c".toList :=
    ⟨by decide +kernel, by decide +kernel⟩
  have same := all StreamEnv.sample pieces _ _ _ (by decide +kernel) closed
  exact absurd same (by decide +kernel)

/-- A quoted start tag that is taken where it is cut off from the quote character in front of it. The
thinking is the same by chance. -/
example :
    let pieces : List Text :=
      ["`<thinking>".toList, "a</thinking>\n<thinking>a</thinking>b".toList]
    let before : Text := "`<thinking>a</thinking>\n".toList
    let sent := (fed StreamEnv.sample (newContext "claude-sonnet-4.5" "msg_1" 10 true [] {}) pieces).1
    ¬ CutsFreely before "a".toList [] pieces ∧
      Closed pieces.flatten before "a".toList "b".toList ∧
      contentOf .thinking (received sent) =
        (extractThinkingFromCompleteText pieces.flatten).1.getD [] ∧
      Around before "b".toList (contentOf .text (received sent)) :=
  ⟨by decide +kernel, ⟨by decide +kernel, by decide +kernel⟩, by decide +kernel,
    "`<thinking>a</thinking>".toList, "b".toList, by decide +kernel, by decide +kernel,
    by decide +kernel⟩

end KiroRs.Stream.ThinkingChunks
