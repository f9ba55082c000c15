/- Path: KiroRs/Stream/Replies
   source: src/anthropic/stream.rs
   digest: The content blocks as a client puts them together from the events, and what the state
   manager knows of them. -/

import KiroRs.Lib.Slots
import KiroRs.Stream.StateManager

set_option autoImplicit false
set_option relaxedAutoImplicit false

namespace KiroRs.Stream.Replies

open KiroRs.Lib.Emits
open KiroRs.Lib.Slots
open KiroRs.Stream.Events
open KiroRs.Stream.StateManager

/-- A content block with its deltas and its stop in the order in which they came. A stop is
`none`. -/
abbrev Reply := Slot Int ContentBlock (Option Delta)

def receive (blocks : List Reply) : SseEvent → List Reply
  | .contentBlockStart index content => blocks ++ [Slot.fresh index content]
  | .contentBlockDelta index delta => send blocks index (some delta)
  | .contentBlockStop index => send blocks index none
  | _ => blocks

/-- The blocks after some more events. -/
def after (blocks : List Reply) (events : List SseEvent) : List Reply := events.foldl receive blocks

def received (events : List SseEvent) : List Reply := after [] events

variable {blocks : List Reply} {m : SseStateManager}

@[simp] theorem after_nil : after blocks [] = blocks := rfl

@[simp] theorem after_cons (e : SseEvent) (events : List SseEvent) :
    after blocks (e :: events) = after (receive blocks e) events := rfl

theorem after_append (front back : List SseEvent) :
    after blocks (front ++ back) = after (after blocks front) back := List.foldl_append

theorem length_le_receive (e : SseEvent) : blocks.length ≤ (receive blocks e).length := by
  cases e with
  | contentBlockStart index content =>
    have grown : (receive blocks (.contentBlockStart index content)).length = blocks.length + 1 :=
      List.length_append
    omega
  | contentBlockDelta index delta => exact Nat.le_of_eq length_send.symm
  | contentBlockStop index => exact Nat.le_of_eq length_send.symm
  | messageStart _ _ _ | messageDelta _ _ | messageStop | error _ _ => exact Nat.le_refl _

theorem length_le_after (events : List SseEvent) : blocks.length ≤ (after blocks events).length := by
  induction events generalizing blocks with
  | nil => exact Nat.le_refl _
  | cons e events ih => exact Nat.le_trans (length_le_receive e) ih

/-- There are fewer blocks than an `i32` counts. -/
def Fits (blocks : List Reply) : Prop := (blocks.length : Int) < 2 ^ 31

theorem Fits.before {events : List SseEvent} (fits : Fits (after blocks events)) : Fits blocks := by
  have grows : blocks.length ≤ (after blocks events).length := length_le_after events
  unfold Fits at fits ⊢
  omega

def hasStop (b : Reply) : Bool := b.items.any (·.isNone)

def entry (b : Reply) : Int × BlockState :=
  (b.key, { blockType := b.content.type, started := true, stopped := hasStop b })

/-- The manager keeps the blocks that the client has, under the indices from zero on. -/
structure Tracks (blocks : List Reply) (m : SseStateManager) : Prop where
  known : m.activeBlocks = blocks.map entry
  counted : keys blocks = (List.range blocks.length).map Int.ofNat
  next : m.nextBlockIndex = blocks.length

/-- A block of this index and type was started. -/
def Has (blocks : List Reply) (index : Int) (type : BlockType) : Prop :=
  ∃ b ∈ blocks, b.key = index ∧ b.content.type = type

theorem Has.receive {index : Int} {type : BlockType} (has : Has blocks index type) (e : SseEvent) :
    Has (receive blocks e) index type := by
  have sent : ∀ i item, Has (send blocks i item) index type := by
    intro i item
    obtain ⟨b, mem, rfl, rfl⟩ := has
    refine ⟨_, mem_send.mpr ⟨b, mem, rfl⟩, ?_⟩
    split_ifs <;> exact ⟨rfl, rfl⟩
  cases e with
  | contentBlockStart i content =>
    obtain ⟨b, mem, rest⟩ := has
    exact ⟨b, List.mem_append_left _ mem, rest⟩
  | contentBlockDelta i delta => exact sent i _
  | contentBlockStop i => exact sent i _
  | messageStart _ _ _ | messageDelta _ _ | messageStop | error _ _ => exact has

theorem Has.after {index : Int} {type : BlockType} (has : Has blocks index type)
    (events : List SseEvent) : Has (after blocks events) index type := by
  induction events generalizing blocks with
  | nil => exact has
  | cons e events ih => exact ih (has.receive e)

namespace Tracks

theorem nodup (h : Tracks blocks m) : (keys blocks).Nodup := by
  rw [h.counted]
  exact List.nodup_range.map fun a b same => Int.ofNat.inj same

theorem fresh (h : Tracks blocks m) : m.nextBlockIndex ∉ keys blocks := by
  rw [h.counted, h.next]
  intro mem
  obtain ⟨n, small, same⟩ := List.mem_map.mp mem
  have lt := List.mem_range.mp small
  have eq := Int.ofNat.inj same
  omega

theorem lookup_entry {rest : List Reply} {b : Reply} (nodup : (keys rest).Nodup) (mem : b ∈ rest) :
    (rest.map entry).lookup b.key = some (entry b).2 := by
  induction rest with
  | nil => cases mem
  | cons c rest ih =>
    obtain ⟨absent, nodup⟩ := List.nodup_cons.mp nodup
    rw [List.map_cons, List.lookup_cons]
    rcases List.mem_cons.mp mem with rfl | later
    · show (match b.key == b.key with | true => _ | false => _) = _
      rw [beq_self_eq_true]
    · have ne : b.key ≠ c.key := by
        intro same
        have mem_key : b.key ∈ keys rest := List.mem_map_of_mem later
        rw [same] at mem_key
        exact absent mem_key
      have skip : (b.key == (entry c).1) = false := beq_eq_false_iff_ne.mpr ne
      rw [skip]
      exact ih nodup later

theorem block (h : Tracks blocks m) {b : Reply} (mem : b ∈ blocks) :
    m.block b.key = some (entry b).2 := by
  unfold SseStateManager.block
  rw [h.known]
  exact lookup_entry h.nodup mem

theorem block_absent (h : Tracks blocks m) {index : Int} (absent : index ∉ keys blocks) :
    m.block index = none := by
  unfold SseStateManager.block
  rw [h.known, List.lookup_eq_none_iff]
  intro p mem
  obtain ⟨b, mem_b, rfl⟩ := List.mem_map.mp mem
  refine bne_iff_ne.mpr fun same => absent ?_
  rw [same]
  exact List.mem_map_of_mem mem_b

theorem of_same (h : Tracks blocks m) {m' : SseStateManager}
    (known : m'.activeBlocks = m.activeBlocks) (next : m'.nextBlockIndex = m.nextBlockIndex) :
    Tracks blocks m' := ⟨known.trans h.known, h.counted, next.trans h.next⟩

theorem sent {index : Int} {item : Option Delta} (h : Tracks blocks m) {m' : SseStateManager}
    (known : m'.activeBlocks = (send blocks index item).map entry)
    (next : m'.nextBlockIndex = m.nextBlockIndex) : Tracks (send blocks index item) m' where
  known := known
  counted := by rw [keys_send, length_send, h.counted]
  next := by rw [length_send, next, h.next]

end Tracks

def isOpen (blocks : List Reply) (index : Int) : Bool :=
  blocks.any fun b => b.key == index && !hasStop b

theorem hasStop_add_delta (b : Reply) (d : Delta) : hasStop (b.add (some d)) = hasStop b := by
  unfold hasStop
  rw [Slot.add_items, List.any_append]
  exact Bool.or_false _

theorem hasStop_add_stop (b : Reply) : hasStop (b.add none) = true := by
  unfold hasStop
  rw [Slot.add_items, List.any_append]
  exact Bool.or_true _

theorem map_entry_send_delta (index : Int) (d : Delta) :
    (send blocks index (some d)).map entry = blocks.map entry := by
  unfold send
  rw [List.map_map]
  refine List.map_congr_left fun b _ => ?_
  dsimp only [Function.comp_apply]
  split_ifs
  · unfold entry
    rw [hasStop_add_delta]
    rfl
  · rfl

theorem tracks_delta (h : Tracks blocks m) (index : Int) (d : Delta) :
    Tracks (send blocks index (some d)) m :=
  h.sent (by rw [map_entry_send_delta]; exact h.known) rfl

theorem isOpen_of_mem (h : Tracks blocks m) {b : Reply} (mem : b ∈ blocks) :
    isOpen blocks b.key = !hasStop b := by
  unfold isOpen
  cases open_here : !hasStop b with
  | true =>
    rw [List.any_eq_true]
    exact ⟨b, mem, by rw [open_here, beq_self_eq_true]; rfl⟩
  | false =>
    rw [List.any_eq_false]
    intro c mem_c same
    rw [Bool.and_eq_true, beq_iff_eq] at same
    rw [eq_of_key h.nodup mem_c mem same.1, open_here] at same
    exact absurd same.2 Bool.false_ne_true

theorem isOpen_absent {index : Int} (absent : index ∉ keys blocks) :
    isOpen blocks index = false := by
  unfold isOpen
  rw [List.any_eq_false]
  intro b mem same
  rw [Bool.and_eq_true, beq_iff_eq] at same
  refine absent ?_
  rw [← same.1]
  exact List.mem_map_of_mem mem

theorem isBlockOpenOfType_eq (h : Tracks blocks m) {b : Reply} (mem : b ∈ blocks)
    (type : BlockType) :
    m.isBlockOpenOfType b.key type = (!hasStop b && b.content.type == type) := by
  unfold SseStateManager.isBlockOpenOfType
  rw [h.block mem]
  show (true && !hasStop b && b.content.type == type) = _
  rw [Bool.true_and]

theorem after_handleDelta (h : Tracks blocks m) (index : Int) (d : Delta) :
    (m.handleContentBlockDelta index d).2 = m ∧
      after blocks (m.handleContentBlockDelta index d).1 =
        if isOpen blocks index then send blocks index (some d) else blocks := by
  unfold SseStateManager.handleContentBlockDelta
  by_cases mem : index ∈ keys blocks
  · obtain ⟨b, mem_b, rfl⟩ := List.mem_map.mp mem
    have same : (entry b).2.stopped = hasStop b := rfl
    rw [h.block mem_b, isOpen_of_mem h mem_b]
    dsimp only
    rw [same]
    cases hasStop b <;> exact ⟨rfl, rfl⟩
  · rw [h.block_absent mem, isOpen_absent mem]
    exact ⟨rfl, rfl⟩

theorem map_entry_send_stop (index : Int) :
    (send blocks index none).map entry = (blocks.map entry).map fun p =>
      if p.1 = index then (p.1, { p.2 with stopped := true }) else p := by
  unfold send
  rw [List.map_map, List.map_map]
  refine List.map_congr_left fun b _ => ?_
  dsimp only [Function.comp_apply]
  by_cases here : b.key = index
  · rw [if_pos here, if_pos (show (entry b).1 = index from here)]
    unfold entry
    rw [hasStop_add_stop]
    rfl
  · rw [if_neg here, if_neg (show (entry b).1 ≠ index from here)]

/-- A block is stopped once. -/
theorem after_handleStop (h : Tracks blocks m) (index : Int) :
    Tracks (after blocks (m.handleContentBlockStop index).1) (m.handleContentBlockStop index).2 ∧
      after blocks (m.handleContentBlockStop index).1 =
        if isOpen blocks index then send blocks index none else blocks := by
  unfold SseStateManager.handleContentBlockStop
  by_cases mem : index ∈ keys blocks
  · obtain ⟨b, mem_b, rfl⟩ := List.mem_map.mp mem
    have same : (entry b).2.stopped = hasStop b := rfl
    rw [h.block mem_b, isOpen_of_mem h mem_b]
    dsimp only
    rw [same]
    cases hasStop b with
    | true => exact ⟨h, rfl⟩
    | false =>
      refine ⟨h.sent ?_ rfl, rfl⟩
      show m.activeBlocks.map _ = _
      rw [map_entry_send_stop, h.known]
  · rw [h.block_absent mem, isOpen_absent mem]
    exact ⟨h, rfl⟩

def stopKind (which : BlockType → Bool) (blocks : List Reply) : List Reply :=
  blocks.map fun b => if which b.content.type && !hasStop b then b.add none else b

theorem after_stops (targets : List Int) :
    after blocks (targets.map .contentBlockStop) = sendAll blocks targets none := by
  induction targets generalizing blocks with
  | nil => rfl
  | cons i targets ih => exact ih

theorem after_stopOpen (env : StreamEnv) (h : Tracks blocks m) (which : BlockType → Bool) :
    Tracks (after blocks (m.stopOpen env which).1) (m.stopOpen env which).2 ∧
      after blocks (m.stopOpen env which).1 = stopKind which blocks := by
  have at_client : after blocks (m.stopOpen env which).1 = stopKind which blocks := by
    unfold SseStateManager.stopOpen stopKind
    dsimp only
    rw [after_stops]
    have perm := env.blockOrder_perm (m.activeBlocks.map (·.1))
    have nodup : (m.activeBlocks.map (·.1)).Nodup := by
      rw [h.known, List.map_map]
      exact h.nodup
    rw [sendAll_eq ((perm.nodup_iff.mpr nodup).filter _)]
    refine List.map_congr_left fun b mem => ?_
    have listed : b.key ∈ env.blockOrder (m.activeBlocks.map (·.1)) := by
      rw [perm.mem_iff, h.known, List.map_map]
      exact List.mem_map_of_mem mem
    have decides : b.key ∈ (env.blockOrder (m.activeBlocks.map (·.1))).filter (fun i =>
        (m.block i).any fun s => which s.blockType && s.started && !s.stopped) ↔
        (which b.content.type && !hasStop b) = true := by
      rw [List.mem_filter, h.block mem, Option.any_some]
      show _ ∧ (which b.content.type && true && !hasStop b) = true ↔ _
      rw [Bool.and_true]
      exact and_iff_right listed
    simp only [decides]
  refine ⟨?_, at_client⟩
  rw [at_client]
  unfold stopKind
  constructor
  · show m.activeBlocks.map _ = _
    rw [h.known, List.map_map, List.map_map]
    refine List.map_congr_left fun b _ => ?_
    dsimp only [Function.comp_apply]
    have same : (which (entry b).2.blockType && (entry b).2.started && !(entry b).2.stopped) =
        (which b.content.type && !hasStop b) := by
      show (which b.content.type && true && !hasStop b) = _
      rw [Bool.and_true]
    simp only [same]
    split_ifs
    · unfold entry
      rw [hasStop_add_stop]
      rfl
    · rfl
  · have same_keys : keys (stopKind which blocks) = keys blocks := by
      unfold keys stopKind
      rw [List.map_map]
      refine List.map_congr_left fun b _ => ?_
      dsimp only [Function.comp_apply]
      split_ifs <;> rfl
    unfold stopKind at same_keys
    rw [same_keys, List.length_map, h.counted]
  · rw [List.length_map]
    exact h.next

/-- The block of the next index, which fits. -/
theorem tracks_begin (h : Tracks blocks m) (content : ContentBlock)
    (fits : Fits (blocks ++ [Slot.fresh m.nextBlockIndex content])) :
    ∃ m', SseStateManager.beginBlock m.takeIndex.1 content m.takeIndex.2 =
        ([.contentBlockStart m.nextBlockIndex content], m') ∧
      Tracks (blocks ++ [Slot.fresh m.nextBlockIndex content]) m' := by
  have absent : m.takeIndex.2.block m.takeIndex.1 = none := h.block_absent h.fresh
  refine ⟨{ m.takeIndex.2 with activeBlocks :=
    m.activeBlocks ++ [(m.nextBlockIndex, { blockType := content.type, started := true })] },
    ?_, ?_⟩
  · unfold SseStateManager.beginBlock
    rw [absent]
    rfl
  · unfold Fits at fits
    rw [List.length_append, List.length_singleton] at fits
    have next := h.next
    constructor
    · rw [List.map_append, ← h.known]
      rfl
    · unfold keys
      rw [List.map_append, List.length_append, List.length_singleton, List.range_succ,
        List.map_append]
      have front := h.counted
      unfold keys at front
      rw [front]
      congr 1
      exact congrArg ([·]) next
    · show wrapI32 (m.nextBlockIndex + 1) = _
      rw [wrapI32_of_lt (by omega) (by push_cast at fits; omega), List.length_append, next]
      rfl

end KiroRs.Stream.Replies
