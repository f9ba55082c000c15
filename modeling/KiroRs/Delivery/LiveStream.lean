/- Path: KiroRs/Delivery/LiveStream
   source: src/anthropic/handlers.rs
   digest: The driver of a live stream: whatever the upstream's chunks and the timer do to each
   other, the client gets what the context puts out for the body's events, and an ended stream is
   accounted for once. -/

import KiroRs.Delivery.Accounting

set_option autoImplicit false
set_option relaxedAutoImplicit false

namespace KiroRs.Delivery.LiveStream

open KiroRs.Lib.Drivers
open KiroRs.Lib.Emits
open KiroRs.Lib.Wire (Bytes)
open KiroRs.Converter.Json (Value)
open KiroRs.Converter.ToolNames (ToolNameMap)
open KiroRs.Parser.FrameCodec
open KiroRs.Parser.StreamDecoder
open KiroRs.Stream.Events
open KiroRs.Stream.Context
open KiroRs.Stream.Buffered
open KiroRs.Delivery.FrameEvents
open KiroRs.Delivery.Arrivals
open KiroRs.Delivery.Accounting

/-- The state that `stream::unfold` carries. The initial events wait for the first chunk. -/
structure SseStream where
  ctx : StreamContext
  credits : UInt64 := 0
  decoder : EventStreamDecoder := EventStreamDecoder.new
  finished : Bool := false
  credentialId : Nat
  sentBytes : Nat := 0
  pendingInitialEvents : Option (List SseEvent)

def recordStreamUsage (env : WireEnv) (c : StreamContext) (credits : UInt64) (credentialId : Nat)
    (status : String) : List Put :=
  [.record credentialId (streamUsage env c) credits status, .setUsage (streamUsage env c)]

namespace SseStream

/-- The arguments of `create_sse_stream`. -/
def start (env : WireEnv) (c : StreamContext) (credentialId : Nat) : SseStream where
  ctx := (c.generateInitialEvents env.toStreamEnv).2
  credentialId := credentialId
  pendingInitialEvents := some (c.generateInitialEvents env.toStreamEnv).1

def onChunk (env : WireEnv) (s : SseStream) (bytes : Bytes) : List Put × SseStream :=
  let (decoder, events) := decodeChunk env s.decoder bytes
  let (sent, ctx) := emitAll (StreamContext.processKiroEvent env.toStreamEnv) events s.ctx
  (sends (s.pendingInitialEvents.getD [] ++ sent), { s with
    ctx
    credits := events.foldl (meter env) s.credits
    decoder
    sentBytes := s.sentBytes + bytes.length
    pendingInitialEvents := none })

def onFailed (env : WireEnv) (s : SseStream) (error : String) : List Put × SseStream :=
  let (sent, ctx) := s.ctx.generateFinalEvents env.toStreamEnv
  (recordStreamUsage env ctx s.credits s.credentialId "error" ++
      [.finalize .interrupted (some .streamInterrupted) (some error) (some s.sentBytes)] ++
      sends (s.pendingInitialEvents.getD [] ++ sent),
    { s with ctx, finished := true, pendingInitialEvents := none })

def onEnded (env : WireEnv) (s : SseStream) : List Put × SseStream :=
  let (sent, ctx) := s.ctx.generateFinalEvents env.toStreamEnv
  let accounts :=
    match ctx.toolJsonError with
    | some err =>
      recordStreamUsage env ctx s.credits s.credentialId "error" ++
        [.finalize .error (some .badRequest) (some err.message) none]
    | none =>
      recordStreamUsage env ctx s.credits s.credentialId "success" ++
        [.commitSuccess, .finalize .success none none none]
  (accounts ++ sends (s.pendingInitialEvents.getD [] ++ sent),
    { s with ctx, finished := true, pendingInitialEvents := none })

/-- One turn of `create_sse_stream`. The timer is only asked once the initial events are out. -/
def step (env : WireEnv) (s : SseStream) (arrival : Arrival) : Option (List Put × SseStream) :=
  if s.finished then none
  else
    match arrival with
    | .chunk bytes => some (s.onChunk env bytes)
    | .failed error => some (s.onFailed env error)
    | .ended => some (s.onEnded env)
    | .tick => if s.pendingInitialEvents.isNone then some ([.send .ping], s) else none
    | .answered _ | .refused _ _ _ => none

end SseStream

/-- The context of `create_deferred_sse_stream`. -/
def deferredContext (model messageId : String) (inputTokens : Int) (thinkingEnabled : Bool)
    (names : ToolNameMap) (usage : CacheUsage) : StreamContext :=
  { StreamContext.newWithThinking model messageId inputTokens thinkingEnabled names with
    cacheUsage := usage }

abbrev DeferredStream := Deferred StreamContext SseStream

/-- `create_deferred_sse_stream`. -/
def DeferredStream.step (env : WireEnv) (fromStr : String → Option Value) :
    DeferredStream → Arrival → Option (List Put × DeferredStream) :=
  Deferred.step fromStr StreamContext.inputTokens (SseStream.start env) (SseStream.step env)

def DeferredStream.ended (s : DeferredStream) : Bool := Deferred.ended SseStream.finished s

def Begun (puts : List Put) : Prop := ∃ item, (items puts).head? = some item ∧ item ≠ .ping

theorem Begun.append {first : List Put} (begun : Begun first) (later : List Put) :
    Begun (first ++ later) := by
  obtain ⟨item, head, event⟩ := begun
  refine ⟨item, ?_, event⟩
  rw [items_append, List.head?_append, head, Option.some_or]

/-- A stream that has not ended: everything that its context has put out is sent, or waits with
the initial events for the first chunk; the decoder and the sums are those of the chunks. -/
structure Flowing (env : WireEnv) (c : StreamContext) (id : Nat) (arrivals : List Arrival)
    (puts : List Put) (s : SseStream) : Prop where
  running : s.finished = false
  credential : s.credentialId = id
  ctx : s.ctx = (c.running env.toStreamEnv (bodyEvents env (chunks arrivals))).2
  received : Received env arrivals s.credits s.decoder s.sentBytes
  delivered : sentEvents puts ++ s.pendingInitialEvents.getD [] =
    (c.running env.toStreamEnv (bodyEvents env (chunks arrivals))).1
  waiting : s.pendingInitialEvents = if chunks arrivals = [] then
    some (c.generateInitialEvents env.toStreamEnv).1 else none
  unsent : chunks arrivals = [] → puts = []
  begun : chunks arrivals ≠ [] → Begun puts
  kept : notes puts = []
  pings : (items puts).count .ping = ticks arrivals

section Flow

variable {env : WireEnv} {c : StreamContext} {id : Nat} {arrivals : List Arrival}
  {puts new : List Put} {s s' : SseStream}

theorem running_concat (env : StreamEnv) (c : StreamContext) (events later : List Event) :
    c.running env (events ++ later) = (c.running env events).andThen fun c =>
      emitAll (StreamContext.processKiroEvent env) later c := by
  rw [StreamContext.running, StreamContext.running, andThen_assoc]
  exact congrArg _ (funext fun c => emitAll_append _ _ _ _)

theorem flowing_start (env : WireEnv) (c : StreamContext) (id : Nat) :
    Flowing env c id [] [] (SseStream.start env c id) where
  running := rfl
  credential := rfl
  ctx := rfl
  received := received_start env
  delivered := (List.append_nil _).symm
  waiting := rfl
  unsent _ := rfl
  begun none := absurd rfl none
  kept := rfl
  pings := rfl

theorem Flowing.chunk (h : Flowing env c id arrivals puts s) (bytes : Bytes)
    (begins : (c.generateInitialEvents env.toStreamEnv).1 ≠ []) :
    Flowing env c id (arrivals ++ [.chunk bytes]) (puts ++ (s.onChunk env bytes).1)
      (s.onChunk env bytes).2 := by
  have ran := running_concat env.toStreamEnv c (bodyEvents env (chunks arrivals))
    (decodeChunk env s.decoder bytes).2
  rw [← h.received.events] at ran
  constructor
  · exact h.running
  · exact h.credential
  · rw [ran]
    show (emitAll _ _ s.ctx).2 = _
    rw [h.ctx]
    rfl
  · exact h.received.chunk bytes
  · rw [ran, Emit.andThen, ← h.delivered, ← h.ctx]
    simp only [SseStream.onChunk, sentEvents_append, sentEvents_sends, Option.getD_none,
      List.append_nil, List.append_assoc]
  · rw [if_neg (chunks_chunk_ne arrivals bytes)]
    rfl
  · exact fun none => absurd none (chunks_chunk_ne arrivals bytes)
  · intro _
    by_cases first : chunks arrivals = []
    · have waits := h.waiting
      rw [if_pos first] at waits
      obtain ⟨e, rest, eq⟩ := List.exists_cons_of_ne_nil begins
      refine ⟨.event e, ?_, by simp⟩
      rw [h.unsent first, List.nil_append, SseStream.onChunk]
      simp only [waits, Option.getD_some, items_sends, eq]
      rfl
    · exact (h.begun first).append _
  · rw [notes_append, h.kept]
    simp only [SseStream.onChunk, notes_sends, List.append_nil]
  · rw [items_append, List.count_append, h.pings, ticks, ticks, List.count_append]
    simp only [SseStream.onChunk, items_sends, count_ping_events]
    rfl

theorem Flowing.tick (h : Flowing env c id arrivals puts s)
    (asked : s.pendingInitialEvents.isNone = true) :
    Flowing env c id (arrivals ++ [.tick]) (puts ++ [.send .ping]) s := by
  have some_chunk : chunks arrivals ≠ [] := by
    intro none
    rw [h.waiting, if_pos none] at asked
    cases asked
  have same := chunks_tick arrivals
  refine ⟨h.running, h.credential, ?_, h.received.same same, ?_, ?_, ?_, ?_, ?_, ?_⟩
  · rw [same]
    exact h.ctx
  · rw [same, sentEvents_append]
    exact (congrArg (· ++ _) (List.append_nil _)).trans h.delivered
  · rw [same]
    exact h.waiting
  · rw [same]
    exact fun none => absurd none some_chunk
  · exact fun _ => (h.begun some_chunk).append _
  · rw [notes_append, h.kept]
    rfl
  · rw [items_append, List.count_append, h.pings, ticks, ticks, List.count_append]
    rfl

end Flow

section Close

variable {env : WireEnv} {c : StreamContext} {id : Nat} {arrivals : List Arrival}
  {puts new : List Put} {s s' : SseStream} {last : Arrival}

theorem step_closes (open_ : s.finished = false) (closes : last.closes = true) :
    s.step env last = some
      ((accountsOf env s.credentialId (s.ctx.generateFinalEvents env.toStreamEnv).2 s.credits
          s.sentBytes last).puts ++
        sends (s.pendingInitialEvents.getD [] ++ (s.ctx.generateFinalEvents env.toStreamEnv).1),
      { s with
        ctx := (s.ctx.generateFinalEvents env.toStreamEnv).2
        finished := true
        pendingInitialEvents := none }) := by
  cases last with
  | failed error =>
    rw [SseStream.step, if_neg (by rw [open_]; exact Bool.false_ne_true)]
    rfl
  | ended =>
    rw [SseStream.step, if_neg (by rw [open_]; exact Bool.false_ne_true)]
    cases broken : (s.ctx.generateFinalEvents env.toStreamEnv).2.toolJsonError with
    | some err =>
      simp only [SseStream.onEnded, accountsOf, broken]
      rfl
    | none =>
      simp only [SseStream.onEnded, accountsOf, broken]
      rfl
  | answered id => cases closes
  | refused error lastAttempt traceHint => cases closes
  | chunk bytes => cases closes
  | tick => cases closes

theorem flowing_or_closed (begins : (c.generateInitialEvents env.toStreamEnv).1 ≠ [])
    (run : drive (SseStream.step env) arrivals (SseStream.start env c id) = some (puts, s)) :
    Flowing env c id arrivals puts s ∨
      ∃ before last done s₀ new, arrivals = before ++ [last] ∧ puts = done ++ new ∧
        Flowing env c id before done s₀ ∧ last.closes = true ∧
        s₀.step env last = some (new, s) := by
  refine drive_invariant (I := fun arrivals puts s => Flowing env c id arrivals puts s ∨
    ∃ before last done s₀ new, arrivals = before ++ [last] ∧ puts = done ++ new ∧
      Flowing env c id before done s₀ ∧ last.closes = true ∧ s₀.step env last = some (new, s))
    (Or.inl (flowing_start env c id)) ?_ run
  intro arrivals puts s a new s' inv taken
  rcases inv with flowing | ⟨before, last, done, s₀, late, rfl, rfl, flowing, closes, closed⟩
  · have running := flowing.running
    cases a with
    | chunk bytes =>
      rw [SseStream.step, if_neg (by rw [running]; exact Bool.false_ne_true)] at taken
      cases taken
      exact Or.inl (flowing.chunk bytes begins)
    | tick =>
      rw [SseStream.step, if_neg (by rw [running]; exact Bool.false_ne_true)] at taken
      split_ifs at taken with asked
      cases taken
      exact Or.inl (flowing.tick asked)
    | failed error => exact Or.inr ⟨_, _, _, _, _, rfl, rfl, flowing, rfl, taken⟩
    | ended => exact Or.inr ⟨_, _, _, _, _, rfl, rfl, flowing, rfl, taken⟩
    | answered id =>
      rw [SseStream.step, if_neg (by rw [running]; exact Bool.false_ne_true)] at taken
      cases taken
    | refused error lastAttempt traceHint =>
      rw [SseStream.step, if_neg (by rw [running]; exact Bool.false_ne_true)] at taken
      cases taken
  · rw [step_closes flowing.running closes] at closed
    cases closed
    cases taken

structure Closed (env : WireEnv) (c : StreamContext) (id : Nat) (arrivals : List Arrival)
    (puts : List Put) (s : SseStream) (last : Arrival) : Prop where
  finished : s.finished = true
  last_eq : arrivals.getLast? = some last
  closes : last.closes = true
  ctx : s.ctx = (c.streamed env.toStreamEnv (bodyEvents env (chunks arrivals))).2
  sent : sentEvents puts = (c.streamed env.toStreamEnv (bodyEvents env (chunks arrivals))).1
  begun : Begun puts
  kept : notes puts = (accountsOf env id s.ctx (metered env (bodyEvents env (chunks arrivals)))
    (chunks arrivals).flatten.length last).puts
  pings : (items puts).count .ping = ticks arrivals

theorem Flowing.close (h : Flowing env c id arrivals puts s) (closes : last.closes = true)
    (begins : (c.generateInitialEvents env.toStreamEnv).1 ≠ [])
    (closed : s.step env last = some (new, s')) :
    Closed env c id (arrivals ++ [last]) (puts ++ new) s' last := by
  obtain ⟨arrived, ticked⟩ := closes_frame closes arrivals
  rw [step_closes h.running closes] at closed
  cases closed
  have ends : c.streamed env.toStreamEnv (bodyEvents env (chunks arrivals)) =
      (c.running env.toStreamEnv (bodyEvents env (chunks arrivals))).andThen fun c =>
        c.generateFinalEvents env.toStreamEnv := rfl
  obtain ⟨all_notes, no_items⟩ := notes_accounts (accountsOf env s.credentialId
    (s.ctx.generateFinalEvents env.toStreamEnv).2 s.credits s.sentBytes last)
  have nothing : sentEvents (accountsOf env s.credentialId
      (s.ctx.generateFinalEvents env.toStreamEnv).2 s.credits s.sentBytes last).puts = [] := by
    rw [sentEvents, no_items]
    rfl
  refine ⟨rfl, List.getLast?_concat, closes, ?_, ?_, ?_, ?_, ?_⟩
  · rw [arrived, ends, Emit.andThen, ← h.ctx]
  · rw [arrived, ends, Emit.andThen, ← h.ctx, ← h.delivered, sentEvents_append, sentEvents_append,
      sentEvents_sends, nothing, List.nil_append, List.append_assoc]
  · by_cases first : chunks arrivals = []
    · have waits := h.waiting
      rw [if_pos first] at waits
      obtain ⟨e, rest, eq⟩ := List.exists_cons_of_ne_nil begins
      refine ⟨.event e, ?_, by simp⟩
      rw [h.unsent first, List.nil_append, items_append, no_items, items_sends, waits,
        Option.getD_some, eq]
      rfl
    · exact (h.begun first).append _
  · rw [arrived, notes_append, notes_append, notes_sends, h.kept, all_notes, List.nil_append,
      List.append_nil, h.credential, h.received.credits, h.received.bytes]
  · rw [items_append, items_append, no_items, List.nil_append, List.count_append, h.pings,
      items_sends, count_ping_events, ticked]
    rfl

end Close

/-- However the chunks of the body and the ticks of the timer fall, the client of an answered call
gets the events of the context for the events of the body, from the first chunk on and with the final
ones once the stream ends, and one ping for each tick, none of them first. Where the body is the
encoding of some frames and no chunk is more than the decoder can hold beside what it has, the
events are those of the frames, wherever it was cut. -/
theorem live_delivered (env : WireEnv) (fromStr : String → Option Value) (model messageId : String)
    (inputTokens : Int) (thinkingEnabled : Bool) (names : ToolNameMap)
    (usage : CacheUsage) (id : Nat) (rest : List Arrival) {puts : List Put} {s : DeferredStream}
    (run : drive (DeferredStream.step env fromStr) (.answered id :: rest)
      (.calling (deferredContext model messageId inputTokens thinkingEnabled names usage)) =
        some (puts, s)) :
    let c := deferredContext model messageId inputTokens thinkingEnabled names usage
    let events := bodyEvents env (chunks rest)
    sentEvents puts = (if s.ended = true then (c.streamed env.toStreamEnv events).1
      else if chunks rest = [] then [] else (c.running env.toStreamEnv events).1) ∧
    (items puts).count .ping = ticks rest ∧ (items puts).head? ≠ some .ping ∧
    ∀ frames : List WireFrame, (chunks rest).flatten = (frames.map (·.encode env.crc32)).flatten →
      Accepted env.crc32 EventStreamDecoder.new (chunks rest) →
      events = frames.filterMap fun f => (fromFrame env f.toFrame).toOption := by
  intro c events
  have first : (c.generateInitialEvents env.toStreamEnv).1 ≠ [] := by
    obtain ⟨blocks, shape, -, -⟩ := generateInitialEvents_shape env.toStreamEnv c rfl
    rw [shape]
    exact List.cons_ne_nil _ _
  have framed (frames : List WireFrame)
      (split : (chunks rest).flatten = (frames.map (·.encode env.crc32)).flatten)
      (accepted : Accepted env.crc32 EventStreamDecoder.new (chunks rest)) :
      events = frames.filterMap fun f => (fromFrame env f.toFrame).toOption :=
    bodyEvents_encoded env frames (chunks rest) split accepted
  have begun_head {puts : List Put} (begun : Begun puts) : (items puts).head? ≠ some .ping := by
    obtain ⟨item, head, event⟩ := begun
    rw [head]
    exact fun eq => event (Option.some.inj eq)
  rcases Deferred.cases run with ⟨none, -, -⟩ | ⟨id', body, t, eq, rfl, inner⟩ | ⟨_, _, _, eq, -⟩
  · cases none
  · cases eq
    rcases flowing_or_closed first inner with
      flowing | ⟨before, last, done, s₀, new, rfl, rfl, flowing, closes, closed⟩
    · have unfinished : DeferredStream.ended (.streaming t) = false := flowing.running
      rw [unfinished, if_neg Bool.false_ne_true]
      have delivered := flowing.delivered
      rw [flowing.waiting] at delivered
      by_cases none : chunks rest = []
      · rw [if_pos none]
        refine ⟨by rw [flowing.unsent none]; rfl, flowing.pings, ?_, framed⟩
        rw [flowing.unsent none]
        exact (Option.some_ne_none _).symm
      · rw [if_neg none] at delivered ⊢
        rw [Option.getD_none, List.append_nil] at delivered
        exact ⟨delivered, flowing.pings, begun_head (flowing.begun none), framed⟩
    · have whole := flowing.close closes first closed
      have finished : DeferredStream.ended (.streaming t) = true := whole.finished
      rw [finished, if_pos rfl]
      exact ⟨whole.sent, whole.pings, begun_head whole.begun, framed⟩
  · cases eq

def twoChunks : List Arrival :=
  [.chunk ((Parser.DecoderRuns.sampleFrame.encode WireEnv.sample.crc32).take 5),
    .chunk ((Parser.DecoderRuns.sampleFrame.encode WireEnv.sample.crc32).drop 5), .tick, .ended]

theorem live_delivered_twoChunks : ∃ puts s, drive (DeferredStream.step WireEnv.sample fun _ => none)
      (.answered 7 :: twoChunks) (.calling (deferredContext "m" "msg" 10 false [] {})) =
        some (puts, s) ∧
    sentEvents puts = ((deferredContext "m" "msg" 10 false [] {}).streamed
      WireEnv.sample.toStreamEnv [.unknown]).1 ∧ (items puts).count .ping = 1 := by
  have runs : (drive (DeferredStream.step WireEnv.sample fun _ => none) (.answered 7 :: twoChunks)
      (.calling (deferredContext "m" "msg" 10 false [] {}))).map (·.2.ended) = some true := rfl
  obtain ⟨⟨puts, s⟩, run, ended⟩ := Option.map_eq_some_iff.mp runs
  obtain ⟨sent, pings, -, framed⟩ :=
    live_delivered WireEnv.sample (fun _ => none) "m" "msg" 10 false [] {} 7 twoChunks run
  have accepted : Accepted WireEnv.sample.crc32 EventStreamDecoder.new (chunks twoChunks) :=
    Parser.DecoderRuns.accepted_of_length_le _ _ _ (by decide +kernel)
  have events := framed [Parser.DecoderRuns.sampleFrame] (by decide +kernel) accepted
  have unknown : (fromFrame WireEnv.sample Parser.DecoderRuns.sampleFrame.toFrame).toOption =
      some .unknown := by decide +kernel
  refine ⟨puts, s, run, ?_, pings⟩
  rw [sent, if_pos ended, events, List.filterMap_cons, unknown]
  rfl

/-- A request is accounted for once, when it ends, and not before: one usage record, one closed
trace, and a commit of the cache plan exactly if the body ended and the client was sent no error.
The usage that is kept is the one that the client was told. -/
theorem live_accounted (env : WireEnv) (fromStr : String → Option Value) (model messageId : String)
    (inputTokens : Int) (thinkingEnabled : Bool) (names : ToolNameMap)
    (usage : CacheUsage) (arrivals : List Arrival) {puts : List Put} {s : DeferredStream}
    (run : drive (DeferredStream.step env fromStr) arrivals
      (.calling (deferredContext model messageId inputTokens thinkingEnabled names usage)) =
        some (puts, s)) :
    (s.ended = false → notes puts = []) ∧
      (s.ended = true → ∃ a : Accounts, notes puts = a.puts ∧ a.Sound env arrivals puts) := by
  let c := deferredContext model messageId inputTokens thinkingEnabled names usage
  have first : (c.generateInitialEvents env.toStreamEnv).1 ≠ [] := by
    obtain ⟨blocks, shape, -, -⟩ := generateInitialEvents_shape env.toStreamEnv c rfl
    rw [shape]
    exact List.cons_ne_nil _ _
  rcases Deferred.cases run with ⟨rfl, rfl, rfl⟩ | ⟨id, body, t, rfl, rfl, inner⟩ |
    ⟨error, lastAttempt, traceHint, rfl, rfl, rfl⟩
  · exact ⟨fun _ => rfl, fun ended => absurd ended Bool.false_ne_true⟩
  · have same : chunks (.answered id :: body) = chunks body := rfl
    rcases flowing_or_closed first inner with
      flowing | ⟨before, last, done, s₀, new, rfl, rfl, flowing, closes, closed⟩
    · have unfinished : DeferredStream.ended (.streaming t) = false := flowing.running
      rw [unfinished]
      exact ⟨fun _ => flowing.kept, fun ended => absurd ended Bool.false_ne_true⟩
    · have whole := flowing.close closes first closed
      have finished : DeferredStream.ended (.streaming t) = true := whole.finished
      rw [finished]
      refine ⟨fun open_ => absurd open_.symm Bool.false_ne_true, fun _ => ⟨_, whole.kept, ?_⟩⟩
      have final : (Arrival.answered id :: (before ++ [last])).getLast? = some last := by
        rw [← List.cons_append, List.getLast?_concat]
      obtain ⟨told, sound⟩ :=
        streamed_told env.toStreamEnv c (bodyEvents env (chunks (before ++ [last]))) rfl
      rw [← whole.sent, ← whole.ctx] at told sound
      exact sound_accountsOf final closes told sound rfl
  · exact ⟨nofun, fun _ => ⟨_, rfl, sound_refused env inputTokens error _ _ lastAttempt traceHint⟩⟩

theorem live_accounted_cutFrame : ∃ puts s, drive (DeferredStream.step WireEnv.sample fun _ => none)
      [.answered 7, .chunk [0, 0], .failed "reset"]
        (.calling (deferredContext "m" "msg" 10 false [] {})) = some (puts, s) ∧
    ∃ a : Accounts, notes puts = a.puts ∧ a.committed = false ∧ a.finalStatus = .interrupted ∧
      a.interruptedAfterBytes = some 2 := by
  have runs : (drive (DeferredStream.step WireEnv.sample fun _ => none)
      [.answered 7, .chunk [0, 0], .failed "reset"]
        (.calling (deferredContext "m" "msg" 10 false [] {}))).map (·.2.ended) = some true := rfl
  obtain ⟨⟨puts, s⟩, run, ended⟩ := Option.map_eq_some_iff.mp runs
  obtain ⟨a, kept, sound⟩ :=
    (live_accounted WireEnv.sample (fun _ => none) "m" "msg" 10 false [] {} _ run).2 ended
  have interrupted : a.finalStatus = .interrupted := sound.interrupted_iff.mpr ⟨"reset", rfl⟩
  refine ⟨puts, s, run, a, kept, ?_, interrupted, ?_⟩
  · rw [Bool.eq_false_iff]
    intro committed
    cases (sound.committed_iff.mp committed).1
  · rw [sound.bytes, if_pos interrupted]
    rfl

end KiroRs.Delivery.LiveStream
