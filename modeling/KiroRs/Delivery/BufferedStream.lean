/- Path: KiroRs/Delivery/BufferedStream
   source: src/anthropic/handlers.rs
   digest: The driver of a buffered stream sends pings until its end, and then what the live driver
   would have sent for the same arrivals, with the usage that is kept. -/

import KiroRs.Delivery.LiveStream

set_option autoImplicit false
set_option relaxedAutoImplicit false

namespace KiroRs.Delivery.BufferedStream

open KiroRs.Lib.Drivers
open KiroRs.Lib.Emits
open KiroRs.Lib.Wire (Bytes)
open KiroRs.Converter.Json (Value)
open KiroRs.Converter.ToolNames (ToolNameMap)
open KiroRs.Parser.StreamDecoder
open KiroRs.Stream.Events
open KiroRs.Stream.Context
open KiroRs.Stream.Buffered
open KiroRs.Delivery.FrameEvents
open KiroRs.Delivery.Arrivals
open KiroRs.Delivery.Accounting
open KiroRs.Delivery.LiveStream

structure BufferedSseStream where
  ctx : BufferedStreamContext
  credits : UInt64 := 0
  decoder : EventStreamDecoder := EventStreamDecoder.new
  finished : Bool := false
  firstUpstreamChunkSeen : Bool := false
  credentialId : Nat
  sentBytes : Nat := 0

namespace BufferedSseStream

/-- The arguments of `create_buffered_sse_stream`. -/
def start (b : BufferedStreamContext) (credentialId : Nat) : BufferedSseStream where
  ctx := b
  credentialId := credentialId

def onChunk (env : WireEnv) (s : BufferedSseStream) (bytes : Bytes) :
    List Put × BufferedSseStream :=
  let (decoder, events) := decodeChunk env s.decoder bytes
  (if s.firstUpstreamChunkSeen then [] else [.send .ping], { s with
    ctx := events.foldl (BufferedStreamContext.processAndBuffer env.toStreamEnv) s.ctx
    credits := events.foldl (meter env) s.credits
    decoder
    firstUpstreamChunkSeen := true
    sentBytes := s.sentBytes + bytes.length })

def finalUsageOf (env : WireEnv) (b : BufferedStreamContext) : Usage :=
  let (input, output, creation, read) := b.finalUsage env.toStreamEnv
  ⟨input, output, creation, read⟩

def onFailed (env : WireEnv) (s : BufferedSseStream) (error : String) :
    List Put × BufferedSseStream :=
  let (allEvents, ctx) := s.ctx.finishAndGetAllEvents env.toStreamEnv
  let usage := finalUsageOf env ctx
  ([.record s.credentialId usage s.credits "error", .setUsage usage,
      .finalize .interrupted (some .streamInterrupted) (some error) (some s.sentBytes)] ++
      sends allEvents,
    { s with ctx, finished := true })

def onEnded (env : WireEnv) (s : BufferedSseStream) : List Put × BufferedSseStream :=
  let (allEvents, ctx) := s.ctx.finishAndGetAllEvents env.toStreamEnv
  let usage := finalUsageOf env ctx
  let accounts : List Put :=
    match ctx.inner.toolJsonError with
    | some err =>
      [.record s.credentialId usage s.credits "error", .setUsage usage,
        .finalize .error (some .badRequest) (some err.message) none]
    | none =>
      [.record s.credentialId usage s.credits "success", .commitSuccess, .setUsage usage,
        .finalize .success none none none]
  (accounts ++ sends allEvents, { s with ctx, finished := true })

/-- One turn of `create_buffered_sse_stream`. The timer is only asked once a chunk was seen. -/
def step (env : WireEnv) (s : BufferedSseStream) (arrival : Arrival) :
    Option (List Put × BufferedSseStream) :=
  if s.finished then none
  else
    match arrival with
    | .chunk bytes => some (s.onChunk env bytes)
    | .failed error => some (s.onFailed env error)
    | .ended => some (s.onEnded env)
    | .tick => if s.firstUpstreamChunkSeen then some ([.send .ping], s) else none
    | .answered _ | .refused _ _ _ => none

end BufferedSseStream

abbrev DeferredBufferedStream := Deferred BufferedStreamContext BufferedSseStream

/-- `create_deferred_buffered_sse_stream`. -/
def DeferredBufferedStream.step (env : WireEnv) (fromStr : String → Option Value) :
    DeferredBufferedStream → Arrival → Option (List Put × DeferredBufferedStream) :=
  Deferred.step fromStr (fun b => b.inner.inputTokens) BufferedSseStream.start
    (BufferedSseStream.step env)

def DeferredBufferedStream.ended (s : DeferredBufferedStream) : Bool :=
  Deferred.ended BufferedSseStream.finished s

/-- The context of `create_deferred_buffered_sse_stream`. -/
def deferredBufferedContext (model messageId : String) (fallbackInputTokens : Int)
    (thinkingEnabled : Bool) (names : ToolNameMap) (usage : CacheUsage) : BufferedStreamContext :=
  (BufferedStreamContext.new model messageId fallbackInputTokens thinkingEnabled
    names).setCacheUsage usage

/-- A buffered stream that has not ended, beside a live one that met the same: nothing but pings is
sent, one for each tick and one for the first chunk, and the context has buffered the events. -/
structure Gathering (env : WireEnv) (b : BufferedStreamContext) (id : Nat)
    (arrivals : List Arrival) (puts : List Put) (s : BufferedSseStream) : Prop where
  running : s.finished = false
  credential : s.credentialId = id
  ctx : s.ctx = (bodyEvents env (chunks arrivals)).foldl
    (BufferedStreamContext.processAndBuffer env.toStreamEnv) b
  received : Received env arrivals s.credits s.decoder s.sentBytes
  seen : s.firstUpstreamChunkSeen = true ↔ chunks arrivals ≠ []
  silent : sentEvents puts = []
  kept : notes puts = []
  pings : (items puts).count .ping = ticks arrivals + if chunks arrivals = [] then 0 else 1

section Gather

variable {env : WireEnv} {b : BufferedStreamContext} {id : Nat} {arrivals : List Arrival}
  {puts new : List Put} {s s' : BufferedSseStream} {last : Arrival}

theorem gathering_start (env : WireEnv) (b : BufferedStreamContext) (id : Nat) :
    Gathering env b id [] [] (BufferedSseStream.start b id) where
  running := rfl
  credential := rfl
  ctx := rfl
  received := received_start env
  seen := ⟨nofun, fun none => absurd rfl none⟩
  silent := rfl
  kept := rfl
  pings := rfl

theorem Gathering.chunk (h : Gathering env b id arrivals puts s) (bytes : Bytes) :
    Gathering env b id (arrivals ++ [.chunk bytes]) (puts ++ (s.onChunk env bytes).1)
      (s.onChunk env bytes).2 := by
  have ping_only : (s.onChunk env bytes).1 = [] ∨ (s.onChunk env bytes).1 = [.send .ping] := by
    unfold BufferedSseStream.onChunk
    dsimp only
    split_ifs
    · exact Or.inl rfl
    · exact Or.inr rfl
  refine ⟨h.running, h.credential, ?_, h.received.chunk bytes,
    ⟨fun _ => chunks_chunk_ne arrivals bytes, fun _ => rfl⟩, ?_, ?_, ?_⟩
  · rw [h.received.events, List.foldl_append, ← h.ctx]
    rfl
  · rw [sentEvents_append, h.silent]
    rcases ping_only with eq | eq <;> rw [eq] <;> rfl
  · rw [notes_append, h.kept]
    rcases ping_only with eq | eq <;> rw [eq] <;> rfl
  · have ticked : ticks (arrivals ++ [.chunk bytes]) = ticks arrivals := by
      rw [ticks, ticks, List.count_append]
      rfl
    rw [items_append, List.count_append, h.pings, ticked, if_neg (chunks_chunk_ne arrivals bytes)]
    by_cases first : chunks arrivals = []
    · have unseen : s.firstUpstreamChunkSeen = false := by
        rw [Bool.eq_false_iff]
        exact fun seen => h.seen.mp seen first
      simp only [BufferedSseStream.onChunk, unseen, if_pos first]
      rfl
    · simp only [BufferedSseStream.onChunk, h.seen.mpr first, if_neg first]
      rfl

theorem Gathering.tick (h : Gathering env b id arrivals puts s) :
    Gathering env b id (arrivals ++ [.tick]) (puts ++ [.send .ping]) s := by
  have same := chunks_tick arrivals
  refine ⟨h.running, h.credential, ?_, h.received.same same, ?_, ?_, ?_, ?_⟩
  · rw [same]
    exact h.ctx
  · rw [same]
    exact h.seen
  · rw [sentEvents_append, h.silent]
    rfl
  · rw [notes_append, h.kept]
    rfl
  · have ticked : ticks (arrivals ++ [.tick]) = ticks arrivals + 1 := by
      rw [ticks, ticks, List.count_append]
      rfl
    rw [items_append, List.count_append, h.pings, ticked, same]
    show _ + 1 = _
    omega

end Gather

section Close

variable {env : WireEnv} {b : BufferedStreamContext} {id : Nat} {arrivals : List Arrival}
  {puts new : List Put} {s s' : BufferedSseStream} {last : Arrival}

theorem step_closes (open_ : s.finished = false) (closes : last.closes = true) :
    ∃ accounts : List Put, accounts.Perm (accountsOf env s.credentialId
        (s.ctx.finishAndGetAllEvents env.toStreamEnv).2.inner s.credits s.sentBytes last).puts ∧
      s.step env last = some
        (accounts ++ sends (s.ctx.finishAndGetAllEvents env.toStreamEnv).1,
          { s with ctx := (s.ctx.finishAndGetAllEvents env.toStreamEnv).2, finished := true }) := by
  cases last with
  | failed error =>
    refine ⟨_, List.Perm.refl _, ?_⟩
    rw [BufferedSseStream.step, if_neg (by rw [open_]; exact Bool.false_ne_true)]
    rfl
  | ended =>
    rw [BufferedSseStream.step, if_neg (by rw [open_]; exact Bool.false_ne_true)]
    cases broken : (s.ctx.finishAndGetAllEvents env.toStreamEnv).2.inner.toolJsonError with
    | some err =>
      refine ⟨_, List.Perm.refl _, ?_⟩
      simp only [BufferedSseStream.onEnded, accountsOf, broken]
      rfl
    | none =>
      let usage := streamUsage env (s.ctx.finishAndGetAllEvents env.toStreamEnv).2.inner
      refine ⟨[.record s.credentialId usage s.credits "success", .commitSuccess, .setUsage usage,
        .finalize .success none none none], ?_, ?_⟩
      · simp only [accountsOf, broken]
        exact (List.Perm.swap _ _ _).cons _
      · simp only [BufferedSseStream.onEnded, broken]
        rfl
  | answered id => cases closes
  | refused error lastAttempt traceHint => cases closes
  | chunk bytes => cases closes
  | tick => cases closes

end Close

/-- What the two drivers have done once they are finished. -/
structure Alike (arrivals : List Arrival) (puts puts' : List Put) : Prop where
  kept : (notes puts').Perm (notes puts)
  sent : ∃ usage : Usage, (∀ told ∈ (sentEvents puts).filterMap toldUsage, told = usage) ∧
    sentEvents puts' = (sentEvents puts).map (BufferedStreamContext.correctStart
      (usage.inputTokens, usage.cacheCreationInputTokens, usage.cacheReadInputTokens))
  pings : (items puts').count .ping =
    (items puts).count .ping + if chunks arrivals = [] then 0 else 1

section Both

variable {env : WireEnv} {b : BufferedStreamContext} {id : Nat} {arrivals : List Arrival}
  {puts puts' : List Put} {s : SseStream} {t : BufferedSseStream} {last : Arrival}

def Beside (env : WireEnv) (b : BufferedStreamContext) (id : Nat) (arrivals : List Arrival)
    (puts : List Put) (s : SseStream) (puts' : List Put) (t : BufferedSseStream) : Prop :=
  Flowing env b.inner id arrivals puts s ∧ Gathering env b id arrivals puts' t ∨
    s.finished = true ∧ t.finished = true ∧ Alike arrivals puts puts'

theorem closes_alike (fresh : frame b.inner.stateManager = (false, false, false))
    (ungenerated : b.initialEventsGenerated = false) (empty : b.eventBuffer = [])
    (flowing : Flowing env b.inner id arrivals puts s)
    (gathering : Gathering env b id arrivals puts' t) (closes : last.closes = true) :
    ∃ new s' new' t', s.step env last = some (new, s') ∧ t.step env last = some (new', t') ∧
      Beside env b id (arrivals ++ [last]) (puts ++ new) s' (puts' ++ new') t' := by
  have begins : (b.inner.generateInitialEvents env.toStreamEnv).1 ≠ [] := by
    obtain ⟨blocks, shape, -, -⟩ :=
      generateInitialEvents_shape env.toStreamEnv b.inner (congrArg Prod.fst fresh)
    rw [shape]
    exact List.cons_ne_nil _ _
  obtain ⟨accounts, perm, closed'⟩ := @step_closes env t last gathering.running closes
  have closed := @LiveStream.step_closes env s last flowing.running closes
  have whole := flowing.close closes begins closed
  obtain ⟨same, ticked⟩ := closes_frame closes arrivals
  let events := bodyEvents env (chunks arrivals)
  let final := b.inner.streamed env.toStreamEnv events
  have left := whole.ctx
  have sent := whole.sent
  have kept := whole.kept
  rw [same] at left sent kept
  have finish := finish_buffered env.toStreamEnv ungenerated empty events
  rw [← gathering.ctx] at finish
  have accounts_eq : accountsOf env t.credentialId
      (t.ctx.finishAndGetAllEvents env.toStreamEnv).2.inner t.credits t.sentBytes last =
        accountsOf env id final.2 (metered env events) (chunks arrivals).flatten.length last := by
    rw [finish, gathering.credential, gathering.received.credits, gathering.received.bytes]
  rw [accounts_eq] at perm
  rw [left] at kept
  obtain ⟨all_notes, no_items⟩ := notes_accounts
    (accountsOf env id final.2 (metered env events) (chunks arrivals).flatten.length last)
  have no_items' : items accounts = [] :=
    List.Perm.eq_nil ((perm.filterMap Put.item).trans (List.Perm.of_eq no_items))
  refine ⟨_, _, _, _, closed, closed', Or.inr ⟨whole.finished, rfl, ?_, ?_, ?_⟩⟩
  · have notes_perm : (notes accounts).Perm (accountsOf env id final.2 (metered env events)
        (chunks arrivals).flatten.length last).puts :=
      (perm.filter _).trans (List.Perm.of_eq all_notes)
    rw [notes_append, notes_append, gathering.kept, notes_sends, List.nil_append, List.append_nil,
      kept]
    exact notes_perm
  · obtain ⟨told, -⟩ := streamed_told env.toStreamEnv b.inner events fresh
    obtain ⟨body, -, -, inside⟩ := running_shape env.toStreamEnv b.inner events fresh
    have resolved := (closing_generateFinalEvents env.toStreamEnv inside).usage
    refine ⟨streamUsage env final.2, ?_, ?_⟩
    · rw [sent, told]
      exact fun u mem => List.mem_singleton.mp mem
    · have nothing : sentEvents accounts = [] := by
        rw [sentEvents, no_items']
        rfl
      rw [sentEvents_append, gathering.silent, List.nil_append, sentEvents_append, nothing,
        List.nil_append, sentEvents_sends, finish, sent, ← resolved]
      rfl
  · rw [items_append, List.count_append, items_append, no_items', List.nil_append, items_sends,
      count_ping_events, gathering.pings, whole.pings, ticked, same]
    omega

theorem steps_beside (fresh : frame b.inner.stateManager = (false, false, false))
    (ungenerated : b.initialEventsGenerated = false) (empty : b.eventBuffer = [])
    (beside : Beside env b id arrivals puts s puts' t) (a : Arrival) :
    (s.step env a = none ∧ t.step env a = none) ∨ ∃ new s' new' t', s.step env a = some (new, s') ∧
      t.step env a = some (new', t') ∧
      Beside env b id (arrivals ++ [a]) (puts ++ new) s' (puts' ++ new') t' := by
  rcases beside with ⟨flowing, gathering⟩ | ⟨finished, finished', -⟩
  · have begins : (b.inner.generateInitialEvents env.toStreamEnv).1 ≠ [] := by
      obtain ⟨blocks, shape, -, -⟩ :=
        generateInitialEvents_shape env.toStreamEnv b.inner (congrArg Prod.fst fresh)
      rw [shape]
      exact List.cons_ne_nil _ _
    have open_ : ¬ s.finished = true := by rw [flowing.running]; exact Bool.false_ne_true
    have open_' : ¬ t.finished = true := by rw [gathering.running]; exact Bool.false_ne_true
    cases a with
    | chunk bytes =>
      exact Or.inr ⟨_, _, _, _, if_neg open_, if_neg open_',
        Or.inl ⟨flowing.chunk bytes begins, gathering.chunk bytes⟩⟩
    | tick =>
      by_cases first : chunks arrivals = []
      · have waits : ¬ s.pendingInitialEvents.isNone = true := by
          rw [flowing.waiting, if_pos first]
          exact Bool.false_ne_true
        have unseen : ¬ t.firstUpstreamChunkSeen = true := fun seen => gathering.seen.mp seen first
        exact Or.inl ⟨(if_neg open_).trans (if_neg waits), (if_neg open_').trans (if_neg unseen)⟩
      · have asked : s.pendingInitialEvents.isNone = true := by
          rw [flowing.waiting, if_neg first]
          rfl
        exact Or.inr ⟨_, _, _, _, (if_neg open_).trans (if_pos asked),
          (if_neg open_').trans (if_pos (gathering.seen.mpr first)),
          Or.inl ⟨flowing.tick asked, gathering.tick⟩⟩
    | failed error =>
      exact Or.inr (closes_alike fresh ungenerated empty flowing gathering rfl)
    | ended => exact Or.inr (closes_alike fresh ungenerated empty flowing gathering rfl)
    | answered id => exact Or.inl ⟨if_neg open_, if_neg open_'⟩
    | refused error lastAttempt traceHint => exact Or.inl ⟨if_neg open_, if_neg open_'⟩
  · refine Or.inl ⟨?_, ?_⟩
    · rw [SseStream.step.eq_def, if_pos finished]
    · rw [BufferedSseStream.step.eq_def, if_pos finished']

end Both

/-- The buffered driver beside the live one: they take the same arrivals and end alike. Until then
the buffered one sends nothing but pings. In the end it has sent the events of the live one, whose
`message_start` has the usage that the end of the message tells, it has kept the same accounts, and
for the first chunk it has sent one ping more. -/
theorem buffered_beside_live (env : WireEnv) (fromStr : String → Option Value)
    (model messageId : String) (inputTokens : Int) (thinkingEnabled : Bool) (names : ToolNameMap)
    (usage : CacheUsage) (arrivals : List Arrival) :
    let live := drive (DeferredStream.step env fromStr) arrivals
      (.calling (deferredContext model messageId inputTokens thinkingEnabled names usage))
    let buffered := drive (DeferredBufferedStream.step env fromStr) arrivals
      (.calling (deferredBufferedContext model messageId inputTokens thinkingEnabled names usage))
    live = none ∧ buffered = none ∨ ∃ puts s puts' s', live = some (puts, s) ∧
      buffered = some (puts', s') ∧ s'.ended = s.ended ∧
      (s.ended = false → sentEvents puts' = [] ∧ notes puts' = []) ∧
      (s.ended = true → (notes puts').Perm (notes puts) ∧ ∃ usage : Usage,
        (∀ told ∈ (sentEvents puts).filterMap toldUsage, told = usage) ∧
        sentEvents puts' = (sentEvents puts).map (BufferedStreamContext.correctStart
          (usage.inputTokens, usage.cacheCreationInputTokens, usage.cacheReadInputTokens))) ∧
      (items puts').count .ping =
        (items puts).count .ping + if chunks arrivals = [] then 0 else 1 := by
  intro live buffered
  let b := deferredBufferedContext model messageId inputTokens thinkingEnabled names usage
  cases arrivals with
  | nil =>
    exact Or.inr ⟨[], _, [], _, rfl, rfl, rfl, fun _ => ⟨rfl, rfl⟩, nofun, rfl⟩
  | cons first body =>
    cases first with
    | answered id =>
      have both := drive_beside (R := Beside env b id)
        (Or.inl ⟨flowing_start env b.inner id, gathering_start env b id⟩)
        (fun _ _ _ _ _ a beside => steps_beside rfl rfl rfl beside a) body
      have live_eq : live = (drive (SseStream.step env) body (SseStream.start env b.inner id)).map
          fun r => (r.1, .streaming r.2) := Deferred.drive_answered id body
      have buffered_eq : buffered = (drive (BufferedSseStream.step env) body
          (BufferedSseStream.start b id)).map fun r => (r.1, .streaming r.2) :=
        Deferred.drive_answered id body
      rw [live_eq, buffered_eq]
      rcases both with ⟨refused, refused'⟩ | ⟨puts, s, puts', t, run, run', beside⟩
      · exact Or.inl ⟨by rw [refused, Option.map_none], by rw [refused', Option.map_none]⟩
      · refine Or.inr ⟨puts, .streaming s, puts', .streaming t, by rw [run, Option.map_some],
          by rw [run', Option.map_some], ?_⟩
        rcases beside with ⟨flowing, gathering⟩ | ⟨finished, finished', alike⟩
        · have open_ : DeferredStream.ended (.streaming s) = false := flowing.running
          have open_' : DeferredBufferedStream.ended (.streaming t) = false := gathering.running
          rw [open_, open_']
          refine ⟨rfl, fun _ => ⟨gathering.silent, gathering.kept⟩, nofun, ?_⟩
          rw [gathering.pings, flowing.pings]
          rfl
        · have ended : DeferredStream.ended (.streaming s) = true := finished
          have ended' : DeferredBufferedStream.ended (.streaming t) = true := finished'
          rw [ended, ended']
          exact ⟨rfl, nofun, fun _ => ⟨alike.kept, alike.sent⟩, alike.pings⟩
    | refused error lastAttempt traceHint =>
      cases body with
      | nil =>
        refine Or.inr ⟨_, _, _, _, rfl, rfl, rfl, nofun, fun _ => ⟨List.Perm.refl _, ?_⟩, rfl⟩
        exact ⟨⟨0, 0, 0, 0⟩, nofun, rfl⟩
      | cons later more => exact Or.inl ⟨rfl, rfl⟩
    | chunk bytes => exact Or.inl ⟨rfl, rfl⟩
    | failed error => exact Or.inl ⟨rfl, rfl⟩
    | ended => exact Or.inl ⟨rfl, rfl⟩
    | tick => exact Or.inl ⟨rfl, rfl⟩

end KiroRs.Delivery.BufferedStream
