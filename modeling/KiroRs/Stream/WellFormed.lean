/- Path: KiroRs/Stream/WellFormed
   source: src/anthropic/stream.rs
   digest: Which sequences of client events are well formed, and how the state manager keeps a
   sequence well formed that is not at its end yet. -/

import KiroRs.Stream.StateManager

set_option autoImplicit false
set_option relaxedAutoImplicit false

namespace KiroRs.Stream.WellFormed

open KiroRs.Lib.Emits
open KiroRs.Stream.Events
open KiroRs.Stream.StateManager

def fits : ContentBlock → Delta → Bool
  | .text, .textDelta _ => true
  | .thinking, .thinkingDelta _ => true
  | .thinking, .signatureDelta _ => true
  | .toolUse _ _, .inputJsonDelta _ => true
  | _, _ => false

/-- A content block with its deltas, which fit its type. -/
structure Block where
  index : Int
  content : ContentBlock
  deltas : List Delta
  fits : ∀ d ∈ deltas, fits content d = true

namespace Block

/-- The events of a block that is still open. -/
def opening (b : Block) : List SseEvent :=
  .contentBlockStart b.index b.content :: b.deltas.map (.contentBlockDelta b.index)

def events (b : Block) : List SseEvent := b.opening ++ [.contentBlockStop b.index]

/-- A block that was just started. -/
def fresh (index : Int) (content : ContentBlock) : Block where
  index := index
  content := content
  deltas := []
  fits := by
    intro d mem
    cases mem

def add (b : Block) (d : Delta) (fit : KiroRs.Stream.WellFormed.fits b.content d = true) : Block where
  index := b.index
  content := b.content
  deltas := b.deltas ++ [d]
  fits := by
    intro e mem
    rcases List.mem_append.mp mem with old | new
    · exact b.fits e old
    · rw [List.mem_singleton.mp new]
      exact fit

theorem opening_add (b : Block) {d : Delta} (fit : KiroRs.Stream.WellFormed.fits b.content d = true) :
    (b.add d fit).opening = b.opening ++ [.contentBlockDelta b.index d] := by
  unfold opening add
  rw [List.map_append, List.cons_append]
  rfl

end Block

def Increasing (blocks : List Block) : Prop := (blocks.map (·.index)).Pairwise (· < ·)

/-- The events of a whole message: its start, its blocks one behind the other under increasing
indices, its two last events, and an error if there was one. -/
def IsMessage (failure : Option (String × String)) (log : List SseEvent) : Prop :=
  ∃ id model usage blocks stopReason finalUsage, Increasing blocks ∧
    log = .messageStart id model usage :: (blocks.flatMap Block.events ++
      (.messageDelta stopReason finalUsage :: .messageStop ::
        (failure.map fun e => SseEvent.error e.1 e.2).toList))

def stoppedEntry (b : Block) : Int × BlockState :=
  (b.index, { blockType := b.content.type, started := true, stopped := true })

def openEntry (b : Block) : Int × BlockState :=
  (b.index, { blockType := b.content.type, started := true, stopped := false })

/-- What was sent so far is a message up to some block, and the manager knows its blocks. -/
structure Written (log : List SseEvent) (m : SseStateManager) (closed : List Block)
    (opened : Option Block) : Prop where
  sent : ∃ id model usage, log = .messageStart id model usage ::
    (closed.flatMap Block.events ++ opened.elim [] Block.opening)
  known : m.activeBlocks = closed.map stoppedEntry ++ (opened.map openEntry).toList
  increasing : Increasing (closed ++ opened.toList)
  below : ∀ b ∈ closed ++ opened.toList, b.index < m.nextBlockIndex
  nonneg : 0 ≤ m.nextBlockIndex
  messageStarted : m.messageStarted = true
  deltaUnsent : m.messageDeltaSent = false
  notEnded : m.messageEnded = false

variable {log : List SseEvent} {m : SseStateManager} {closed : List Block} {opened : Option Block}

theorem lookup_of_not_mem {blocks : List (Int × BlockState)} {index : Int}
    (absent : ∀ p ∈ blocks, p.1 ≠ index) (rest : List (Int × BlockState)) :
    (blocks ++ rest).lookup index = rest.lookup index := by
  induction blocks with
  | nil => rfl
  | cons p blocks ih =>
    have ne : (index == p.1) = false := beq_eq_false_iff_ne.mpr (absent p List.mem_cons_self).symm
    rw [List.cons_append, List.lookup_cons, ne]
    exact ih fun q mem => absent q (List.mem_cons_of_mem p mem)

namespace Written

theorem block_next (h : Written log m closed opened) : m.block m.nextBlockIndex = none := by
  have absent : ∀ p ∈ m.activeBlocks, p.1 ≠ m.nextBlockIndex := by
    intro p mem
    rw [h.known] at mem
    rcases List.mem_append.mp mem with old | now
    · obtain ⟨b, mem_b, rfl⟩ := List.mem_map.mp old
      exact Int.ne_of_lt (h.below b (List.mem_append_left _ mem_b))
    · cases opened with
      | none => cases now
      | some b =>
        rw [List.mem_singleton.mp now]
        exact Int.ne_of_lt (h.below b (List.mem_append_right _ List.mem_cons_self))
  have := lookup_of_not_mem absent []
  rwa [List.append_nil] at this

theorem index_lt {b : Block} (h : Written log m closed (some b)) {c : Block} (mem : c ∈ closed) :
    c.index < b.index := by
  have sorted := h.increasing
  unfold Increasing at sorted
  rw [List.map_append, List.pairwise_append] at sorted
  exact sorted.2.2 _ (List.mem_map_of_mem mem) _ (List.mem_singleton.mpr rfl)

theorem block_open {b : Block} (h : Written log m closed (some b)) :
    m.block b.index = some (openEntry b).2 := by
  unfold SseStateManager.block
  rw [h.known, lookup_of_not_mem]
  · show [(b.index, (openEntry b).2)].lookup b.index = _
    rw [List.lookup_cons_self]
  · intro p mem
    obtain ⟨c, mem_c, rfl⟩ := List.mem_map.mp mem
    exact Int.ne_of_lt (h.index_lt mem_c)

theorem lookup_closed {closed : List Block} (sorted : Increasing closed) {c : Block}
    (mem : c ∈ closed) (rest : List (Int × BlockState)) :
    (closed.map stoppedEntry ++ rest).lookup c.index = some (stoppedEntry c).2 := by
  induction closed with
  | nil => cases mem
  | cons b closed ih =>
    unfold Increasing at sorted
    rw [List.map_cons, List.pairwise_cons] at sorted
    rw [List.map_cons, List.cons_append, List.lookup_cons]
    rcases List.mem_cons.mp mem with rfl | later
    · show (match c.index == c.index with | true => _ | false => _) = _
      rw [beq_self_eq_true]
    · have lt := sorted.1 _ (List.mem_map_of_mem later)
      have ne : (c.index == (stoppedEntry b).1) = false :=
        beq_eq_false_iff_ne.mpr (Int.ne_of_gt lt)
      rw [ne]
      exact ih sorted.2 later

theorem block_closed (h : Written log m closed opened) {c : Block} (mem : c ∈ closed) :
    m.block c.index = some (stoppedEntry c).2 := by
  have sorted := h.increasing
  unfold Increasing at sorted
  rw [List.map_append, List.pairwise_append] at sorted
  unfold SseStateManager.block
  rw [h.known]
  exact lookup_closed sorted.1 mem _

theorem of_same (h : Written log m closed opened) {m' : SseStateManager}
    (blocks : m'.activeBlocks = m.activeBlocks) (next : m'.nextBlockIndex = m.nextBlockIndex)
    (started : m'.messageStarted = m.messageStarted)
    (delta : m'.messageDeltaSent = m.messageDeltaSent)
    (ended : m'.messageEnded = m.messageEnded) : Written log m' closed opened where
  sent := h.sent
  known := blocks.trans h.known
  increasing := h.increasing
  below := by
    rw [next]
    exact h.below
  nonneg := by
    rw [next]
    exact h.nonneg
  messageStarted := started.trans h.messageStarted
  deltaUnsent := delta.trans h.deltaUnsent
  notEnded := ended.trans h.notEnded

theorem delta {b : Block} (h : Written log m closed (some b)) {d : Delta}
    (fit : KiroRs.Stream.WellFormed.fits b.content d = true) :
    Written (log ++ [.contentBlockDelta b.index d]) m closed (some (b.add d fit)) where
  sent := by
    obtain ⟨id, model, usage, eq⟩ := h.sent
    refine ⟨id, model, usage, ?_⟩
    rw [eq, Option.elim_some, Option.elim_some, Block.opening_add, List.cons_append,
      List.append_assoc]
  known := h.known
  increasing := by
    have same : (closed ++ [b.add d fit]).map (·.index) = (closed ++ [b]).map (·.index) := by
      rw [List.map_append, List.map_append]
      rfl
    show ((closed ++ [b.add d fit]).map (·.index)).Pairwise (· < ·)
    rw [same]
    exact h.increasing
  below := fun c mem => by
    rcases List.mem_append.mp mem with old | now
    · exact h.below c (List.mem_append_left _ old)
    · rw [List.mem_singleton.mp now]
      exact h.below b (List.mem_append_right _ List.mem_cons_self)
  nonneg := h.nonneg
  messageStarted := h.messageStarted
  deltaUnsent := h.deltaUnsent
  notEnded := h.notEnded

theorem delta_open {b : Block} (h : Written log m closed (some b)) (d : Delta) :
    m.handleContentBlockDelta b.index d = ([.contentBlockDelta b.index d], m) := by
  unfold SseStateManager.handleContentBlockDelta
  rw [h.block_open]
  rfl

theorem stop {b : Block} (h : Written log m closed (some b)) {m' : SseStateManager}
    (blocks : m'.activeBlocks = (closed ++ [b]).map stoppedEntry)
    (next : m'.nextBlockIndex = m.nextBlockIndex) (started : m'.messageStarted = m.messageStarted)
    (delta : m'.messageDeltaSent = m.messageDeltaSent)
    (ended : m'.messageEnded = m.messageEnded) :
    Written (log ++ [.contentBlockStop b.index]) m' (closed ++ [b]) none where
  sent := by
    obtain ⟨id, model, usage, eq⟩ := h.sent
    refine ⟨id, model, usage, ?_⟩
    rw [eq, Option.elim_some, Option.elim_none, List.flatMap_append, List.flatMap_singleton,
      List.append_nil, Block.events, List.cons_append, List.append_assoc]
  known := by
    rw [blocks]
    exact (List.append_nil _).symm
  increasing := by
    rw [Option.toList_none, List.append_nil]
    exact h.increasing
  below := fun c mem => by
    rw [Option.toList_none, List.append_nil] at mem
    rw [next]
    exact h.below c mem
  nonneg := by
    rw [next]
    exact h.nonneg
  messageStarted := started.trans h.messageStarted
  deltaUnsent := delta.trans h.deltaUnsent
  notEnded := ended.trans h.notEnded

theorem stop_open {b : Block} (h : Written log m closed (some b)) :
    ∃ m', m.handleContentBlockStop b.index = ([.contentBlockStop b.index], m') ∧
      m'.nextBlockIndex = m.nextBlockIndex ∧
      Written (log ++ [.contentBlockStop b.index]) m' (closed ++ [b]) none := by
  refine ⟨m.setBlock b.index fun s => { s with stopped := true }, ?_, rfl, ?_⟩
  · unfold SseStateManager.handleContentBlockStop
    rw [h.block_open]
    rfl
  · refine h.stop ?_ rfl rfl rfl rfl
    show m.activeBlocks.map _ = _
    rw [h.known, List.map_append, List.map_append]
    congr 1
    · rw [List.map_map]
      refine List.map_congr_left fun c mem => ?_
      have ne : (stoppedEntry c).1 ≠ b.index := Int.ne_of_lt (h.index_lt mem)
      show (if (stoppedEntry c).1 = b.index then _ else stoppedEntry c) = _
      rw [if_neg ne]
    · show [if b.index = b.index then _ else _] = _
      rw [if_pos rfl]
      rfl

theorem stop_closed (h : Written log m closed opened) {c : Block} (mem : c ∈ closed) :
    m.handleContentBlockStop c.index = quiet m := by
  unfold SseStateManager.handleContentBlockStop
  rw [h.block_closed mem]
  rfl

theorem delta_closed (h : Written log m closed opened) {c : Block} (mem : c ∈ closed) (d : Delta) :
    m.handleContentBlockDelta c.index d = quiet m := by
  unfold SseStateManager.handleContentBlockDelta
  rw [h.block_closed mem]
  rfl

theorem isBlockOpenOfType_open {b : Block} (h : Written log m closed (some b)) (t : BlockType) :
    m.isBlockOpenOfType b.index t = (b.content.type == t) := by
  unfold SseStateManager.isBlockOpenOfType
  rw [h.block_open]
  rfl

theorem open_of_isBlockOpenOfType (h : Written log m closed opened) {index : Int} {t : BlockType}
    (is_open : m.isBlockOpenOfType index t = true) :
    ∃ b, opened = some b ∧ b.index = index ∧ b.content.type = t := by
  unfold SseStateManager.isBlockOpenOfType SseStateManager.block at is_open
  cases found : m.activeBlocks.lookup index with
  | none =>
    rw [found] at is_open
    cases is_open
  | some s =>
  rw [found, Option.any_some] at is_open
  have mem : (index, s) ∈ m.activeBlocks := by
    obtain ⟨l₁, l₂, eq, -⟩ := List.lookup_eq_some_iff.mp found
    rw [eq]
    exact List.mem_append_right _ List.mem_cons_self
  rw [h.known] at mem
  rcases List.mem_append.mp mem with old | now
  · obtain ⟨c, -, eq⟩ := List.mem_map.mp old
    cases eq
    simp at is_open
  · cases opened with
    | none => cases now
    | some b =>
      cases List.mem_singleton.mp now
      refine ⟨b, rfl, rfl, ?_⟩
      simpa using is_open

theorem stopping_eq (env : StreamEnv) (h : Written log m closed opened) (p : BlockState → Bool)
    (unstopped : ∀ s, s.stopped = true → p s = false) :
    (env.blockOrder (m.activeBlocks.map (·.1))).filter (fun i => (m.block i).any p) =
      (opened.filter fun b => p (openEntry b).2).toList.map (·.index) := by
  have direct : (m.activeBlocks.map (·.1)).filter (fun i => (m.block i).any p) =
      (opened.filter fun b => p (openEntry b).2).toList.map (·.index) := by
    have none_closed : (closed.map fun c => c.index).filter (fun i => (m.block i).any p) = [] := by
      rw [List.filter_eq_nil_iff]
      intro i mem
      obtain ⟨c, mem_c, rfl⟩ := List.mem_map.mp mem
      rw [h.block_closed mem_c, Option.any_some, unstopped _ rfl]
      exact Bool.false_ne_true
    rw [h.known, List.map_append, List.map_map, List.filter_append]
    show (closed.map fun c => c.index).filter _ ++ _ = _
    rw [none_closed, List.nil_append]
    cases opened with
    | none => rfl
    | some b =>
      show [b.index].filter _ = _
      rw [List.filter_cons, h.block_open, Option.any_some, Option.filter_some]
      split_ifs <;> rfl
  have perm := (env.blockOrder_perm (m.activeBlocks.map (·.1))).filter fun i => (m.block i).any p
  rw [direct] at perm
  generalize opened.filter (fun b => p (openEntry b).2) = stopped at perm ⊢
  cases stopped with
  | none => exact List.perm_nil.mp perm
  | some b => exact List.perm_singleton.mp perm

theorem stopOpen_quiet (env : StreamEnv) (h : Written log m closed opened)
    (which : BlockType → Bool) (other : ∀ b, opened = some b → which b.content.type = false) :
    m.stopOpen env which = quiet m := by
  unfold SseStateManager.stopOpen quiet
  have not_open : opened.filter (fun b => which (openEntry b).2.blockType &&
      (openEntry b).2.started && !(openEntry b).2.stopped) = none := by
    rw [Option.filter_eq_none_iff]
    intro b eq
    have := other b eq
    simp [openEntry, this]
  dsimp only
  rw [h.stopping_eq env (fun s => which s.blockType && s.started && !s.stopped)
    (by intro s stopped; simp [stopped]), not_open]
  have same : m.activeBlocks.map (fun p =>
      if (which p.2.blockType && p.2.started && !p.2.stopped) = true then
        (p.1, { p.2 with stopped := true }) else p) = m.activeBlocks := by
    refine (List.map_congr_left fun p mem => ?_).trans (List.map_id _)
    rw [h.known] at mem
    rcases List.mem_append.mp mem with old | now
    · obtain ⟨c, -, rfl⟩ := List.mem_map.mp old
      simp [stoppedEntry]
    · cases opened with
      | none => cases now
      | some b =>
        rw [List.mem_singleton.mp now]
        simp [openEntry, other b rfl]
  rw [same]
  rfl

theorem stopOpen_some (env : StreamEnv) {b : Block} (h : Written log m closed (some b))
    (which : BlockType → Bool) (this : which b.content.type = true) :
    ∃ m', m.stopOpen env which = ([.contentBlockStop b.index], m') ∧
      m'.nextBlockIndex = m.nextBlockIndex ∧
      Written (log ++ [.contentBlockStop b.index]) m' (closed ++ [b]) none := by
  refine ⟨(m.stopOpen env which).2, ?_, rfl, ?_⟩
  · have one : (some b).filter (fun b => which (openEntry b).2.blockType &&
        (openEntry b).2.started && !(openEntry b).2.stopped) = some b := by
      simp [openEntry, this]
    refine Prod.ext ?_ rfl
    unfold SseStateManager.stopOpen
    dsimp only
    rw [h.stopping_eq env (fun s => which s.blockType && s.started && !s.stopped)
      (by intro s stopped; simp [stopped]), one]
    rfl
  · refine h.stop ?_ rfl rfl rfl rfl
    show m.activeBlocks.map _ = _
    rw [h.known, List.map_append, List.map_append]
    congr 1
    · rw [List.map_map]
      refine List.map_congr_left fun c _ => ?_
      simp [stoppedEntry]
    · simp [openEntry, stoppedEntry, this]

/-- A new block behind the others. -/
theorem start (h : Written log m closed none) (m' : SseStateManager) (content : ContentBlock)
    (room : m.nextBlockIndex + 1 < 2 ^ 31)
    (blocks : m'.activeBlocks =
      m.activeBlocks ++ [openEntry (Block.fresh m.nextBlockIndex content)])
    (next : m'.nextBlockIndex = wrapI32 (m.nextBlockIndex + 1))
    (started : m'.messageStarted = m.messageStarted)
    (delta : m'.messageDeltaSent = m.messageDeltaSent)
    (ended : m'.messageEnded = m.messageEnded) :
    Written (log ++ [.contentBlockStart m.nextBlockIndex content]) m' closed
      (some (Block.fresh m.nextBlockIndex content)) where
  sent := by
    obtain ⟨id, model, usage, eq⟩ := h.sent
    refine ⟨id, model, usage, ?_⟩
    rw [eq, Option.elim_none, List.append_nil]
    rfl
  known := by
    rw [blocks, h.known]
    exact congrArg (· ++ _) (List.append_nil _)
  increasing := by
    have sorted := h.increasing
    have below := h.below
    rw [Option.toList_none, List.append_nil] at sorted below
    unfold Increasing
    rw [List.map_append, List.pairwise_append]
    refine ⟨sorted, List.pairwise_singleton _ _, fun i mem_i j mem_j => ?_⟩
    obtain ⟨c, mem_c, rfl⟩ := List.mem_map.mp mem_i
    rw [List.mem_singleton.mp mem_j]
    exact below c mem_c
  below := fun c mem => by
    have nonneg := h.nonneg
    rw [next, wrapI32_of_lt (by omega) room]
    rcases List.mem_append.mp mem with old | now
    · have := h.below c (List.mem_append_left _ old)
      omega
    · rw [List.mem_singleton.mp now]
      show m.nextBlockIndex < m.nextBlockIndex + 1
      omega
  nonneg := by
    have nonneg := h.nonneg
    rw [next, wrapI32_of_lt (by omega) room]
    omega
  messageStarted := started.trans h.messageStarted
  deltaUnsent := delta.trans h.deltaUnsent
  notEnded := ended.trans h.notEnded

theorem start_next (env : StreamEnv) (h : Written log m closed none) (content : ContentBlock)
    (plain : content.type ≠ .toolUse) (room : m.nextBlockIndex + 1 < 2 ^ 31) :
    ∃ m', m.takeIndex.2.handleContentBlockStart env m.takeIndex.1 content =
        ([.contentBlockStart m.nextBlockIndex content], m') ∧
      m'.nextBlockIndex = m.nextBlockIndex + 1 ∧
      Written (log ++ [.contentBlockStart m.nextBlockIndex content]) m' closed
        (some (Block.fresh m.nextBlockIndex content)) := by
  have nonneg := h.nonneg
  have absent : m.takeIndex.2.block m.takeIndex.1 = none := h.block_next
  refine ⟨{ m.takeIndex.2 with activeBlocks :=
    m.activeBlocks ++ [openEntry (Block.fresh m.nextBlockIndex content)] }, ?_, ?_, ?_⟩
  · unfold SseStateManager.handleContentBlockStart SseStateManager.beginBlock
    rw [if_neg plain, absent]
    rfl
  · exact wrapI32_of_lt (by omega) room
  · exact h.start _ content room rfl rfl rfl rfl rfl

theorem stopText (env : StreamEnv) (h : Written log m closed opened) :
    ∃ out m' closed' opened', ({ m with hasToolUse := true }).stopOpen env (· == BlockType.text) = (out, m') ∧
      m'.nextBlockIndex = m.nextBlockIndex ∧ Written (log ++ out) m' closed' opened' ∧
      (∀ b ∈ closed, b ∈ closed') ∧
      (opened' = opened ∧ (∀ b, opened = some b → b.content.type ≠ .text) ∧ out = [] ∨
        opened' = none ∧ ∃ b, opened = some b ∧ b.content.type = .text) := by
  have h' : Written log { m with hasToolUse := true } closed opened :=
    h.of_same rfl rfl rfl rfl rfl
  by_cases text : ∃ b, opened = some b ∧ b.content.type = .text
  · obtain ⟨b, rfl, type⟩ := text
    obtain ⟨m', stops, next, written⟩ :=
      h'.stopOpen_some env (· == BlockType.text) (by rw [type]; rfl)
    exact ⟨_, m', _, none, stops, next, written, fun c mem => List.mem_append_left _ mem,
      .inr ⟨rfl, b, rfl, type⟩⟩
  · have other : ∀ b, opened = some b → b.content.type ≠ .text := fun b eq type =>
      text ⟨b, eq, type⟩
    have quiet_eq := h'.stopOpen_quiet env (· == BlockType.text)
      fun b eq => beq_eq_false_iff_ne.mpr (other b eq)
    refine ⟨[], _, closed, opened, quiet_eq, rfl, ?_, fun c mem => mem, .inl ⟨rfl, other, rfl⟩⟩
    rwa [List.append_nil]

theorem start_tool (env : StreamEnv) (h : Written log m closed opened)
    (text_only : ∀ b, opened = some b → b.content.type = .text) (id name : String)
    (room : m.nextBlockIndex + 1 < 2 ^ 31) :
    ∃ out m' closed', m.takeIndex.2.handleContentBlockStart env m.takeIndex.1 (.toolUse id name) =
        (out, m') ∧ m'.nextBlockIndex = m.nextBlockIndex + 1 ∧ (∀ b ∈ closed, b ∈ closed') ∧
      Written (log ++ out) m' closed'
        (some (Block.fresh m.nextBlockIndex (.toolUse id name))) := by
  obtain ⟨stops, m₁, closed', opened', eq, next, written, grows, shape⟩ := h.stopText env
  have nothing_open : opened' = none := by
    rcases shape with ⟨same, other, -⟩ | ⟨none_left, -⟩
    · cases opened with
      | none => exact same
      | some b => exact absurd (text_only b rfl) (other b rfl)
    · exact none_left
  subst nothing_open
  have nonneg := written.nonneg
  have stop_eq : ({ m.takeIndex.2 with hasToolUse := true }).stopOpen env (· == BlockType.text) =
      (stops, { m₁ with nextBlockIndex := wrapI32 (m.nextBlockIndex + 1) }) := by
    have moved := congrArg (fun r : Emit SseEvent SseStateManager =>
      (r.1, { r.2 with nextBlockIndex := wrapI32 (m.nextBlockIndex + 1) })) eq
    exact moved
  have absent : m₁.block m.nextBlockIndex = none := by
    rw [← next]
    exact written.block_next
  refine ⟨stops ++ [.contentBlockStart m.nextBlockIndex (.toolUse id name)],
    { m₁ with
      nextBlockIndex := wrapI32 (m.nextBlockIndex + 1)
      activeBlocks := m₁.activeBlocks ++
        [openEntry (Block.fresh m.nextBlockIndex (.toolUse id name))] }, closed', ?_, ?_, grows, ?_⟩
  · unfold SseStateManager.handleContentBlockStart Emit.andThen SseStateManager.beginBlock
    have absent' : SseStateManager.block
        { m₁ with nextBlockIndex := wrapI32 (m.nextBlockIndex + 1) } m.takeIndex.1 = none := absent
    rw [if_pos (show ContentBlock.type (.toolUse id name) = BlockType.toolUse from rfl), stop_eq]
    dsimp only
    rw [absent']
    rfl
  · rw [next] at nonneg
    exact wrapI32_of_lt (by omega) room
  · rw [← List.append_assoc]
    have started := written.start { m₁ with
      nextBlockIndex := wrapI32 (m.nextBlockIndex + 1)
      activeBlocks := m₁.activeBlocks ++
        [openEntry (Block.fresh m₁.nextBlockIndex (.toolUse id name))] }
      (.toolUse id name) (by rw [next]; exact room) rfl (by rw [next]) rfl rfl rfl
    rw [next] at started
    exact started

theorem start_known (env : StreamEnv) (h : Written log m closed opened) {c : Block}
    (mem : c ∈ closed) (id name : String) :
    ∃ out m' closed' opened', m.handleContentBlockStart env c.index (.toolUse id name) = (out, m') ∧
      m'.nextBlockIndex = m.nextBlockIndex ∧ Written (log ++ out) m' closed' opened' ∧
      (∀ b ∈ closed, b ∈ closed') ∧
      (opened' = opened ∧ (∀ b, opened = some b → b.content.type ≠ .text) ∧ out = [] ∨
        opened' = none ∧ ∃ b, opened = some b ∧ b.content.type = .text) := by
  obtain ⟨stops, m₁, closed', opened', eq, next, written, grows, shape⟩ := h.stopText env
  refine ⟨stops, m₁, closed', opened', ?_, next, written, grows, shape⟩
  unfold SseStateManager.handleContentBlockStart Emit.andThen SseStateManager.beginBlock
  rw [if_pos (show ContentBlock.type (.toolUse id name) = BlockType.toolUse from rfl), eq]
  dsimp only
  rw [written.block_closed (grows c mem)]
  show (stops ++ [], m₁) = (stops, m₁)
  rw [List.append_nil]

theorem start_again (env : StreamEnv) {b : Block} (h : Written log m closed (some b))
    (content : ContentBlock) (plain : content.type ≠ .toolUse) :
    m.handleContentBlockStart env b.index content = quiet m := by
  unfold SseStateManager.handleContentBlockStart SseStateManager.beginBlock
  rw [if_neg plain, h.block_open]
  rfl

/-- The end of the message, whatever block is open. -/
theorem final (env : StreamEnv) (h : Written log m closed opened) (usage : Usage)
    (failure : Option (String × String)) :
    IsMessage failure (log ++ ((m.generateFinalEvents env usage).1 ++
      (failure.map fun e => SseEvent.error e.1 e.2).toList)) := by
  obtain ⟨stops, m₁, blocks, eq, written⟩ : ∃ stops m₁ blocks,
      (m.stopOpen env fun _ => true) = (stops, m₁) ∧ Written (log ++ stops) m₁ blocks none := by
    cases opened with
    | none =>
      refine ⟨[], m, closed, h.stopOpen_quiet env _ (fun b eq => by cases eq), ?_⟩
      rwa [List.append_nil]
    | some b =>
      obtain ⟨m₁, eq, -, written⟩ := h.stopOpen_some env (fun _ => true) rfl
      exact ⟨_, m₁, _, eq, written⟩
  have out : (m.generateFinalEvents env usage).1 =
      stops ++ [.messageDelta m₁.getStopReason usage, .messageStop] := by
    unfold SseStateManager.generateFinalEvents Emit.andThen
    rw [eq]
    dsimp only
    unfold SseStateManager.sendMessageDelta
    rw [written.deltaUnsent, if_neg Bool.false_ne_true]
    dsimp only
    unfold SseStateManager.sendMessageStop
    have ended : ({ m₁ with messageDeltaSent := true } : SseStateManager).messageEnded = false :=
      written.notEnded
    rw [ended, if_neg Bool.false_ne_true, List.append_assoc]
    rfl
  obtain ⟨id, model, usage₀, sent⟩ := written.sent
  have increasing := written.increasing
  rw [Option.toList_none, List.append_nil] at increasing
  refine ⟨id, model, usage₀, blocks, m₁.getStopReason, usage, increasing, ?_⟩
  rw [out, List.append_assoc, ← List.append_assoc, sent, Option.elim_none, List.append_nil]
  rfl

end Written

theorem written_messageStart (id model : String) (usage : Usage) :
    Written [.messageStart id model usage] { messageStarted := true } [] none where
  sent := ⟨id, model, usage, rfl⟩
  known := rfl
  increasing := List.Pairwise.nil
  below := fun b mem => by cases mem
  nonneg := Int.le_refl 0
  messageStarted := rfl
  deltaUnsent := rfl
  notEnded := rfl

end KiroRs.Stream.WellFormed
