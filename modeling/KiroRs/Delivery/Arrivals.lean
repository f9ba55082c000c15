/- Path: KiroRs/Delivery/Arrivals
   source: src/anthropic/handlers.rs
   digest: What a stream meets and what it does about it: the chunks of the body and what is decoded
   of them, the items that go out, and the call that a deferred stream waits for. -/

import KiroRs.Admin.TraceDb
import KiroRs.Delivery.FrameEvents
import KiroRs.Lib.Drivers
import KiroRs.Pool.Failover

set_option autoImplicit false
set_option relaxedAutoImplicit false

namespace KiroRs.Delivery.Arrivals

open KiroRs.Lib.Drivers
open KiroRs.Lib.Text (contains)
open KiroRs.Lib.Wire (Bytes)
open KiroRs.Admin.TraceDb
open KiroRs.Converter.Json (Value)
open KiroRs.Parser.StreamDecoder
open KiroRs.Stream.Events
open KiroRs.Delivery.FrameEvents

inductive Item where
  | ping
  | event (e : SseEvent)
  deriving DecidableEq, Repr

/-- What a driver does: it sends an item, writes a usage record, tells the tracer the usage,
commits the cache plan, or closes the trace. -/
inductive Put where
  | send (item : Item)
  | record (credentialId : Nat) (usage : Usage) (credits : UInt64) (status : String)
  | setUsage (usage : Usage)
  | commitSuccess
  | finalize (finalStatus : FinalStatus) (errorType : Option Outcome)
      (errorMessage : Option String) (interruptedAfterBytes : Option Nat)
  deriving DecidableEq, Repr

def sends (events : List SseEvent) : List Put := events.map fun e => .send (.event e)

def Put.item : Put → Option Item
  | .send item => some item
  | _ => none

def Item.sent : Item → Option SseEvent
  | .event e => some e
  | .ping => none

/-- What goes out to the client, pings included. -/
def items (puts : List Put) : List Item := puts.filterMap Put.item

def sentEvents (puts : List Put) : List SseEvent := (items puts).filterMap Item.sent

def notes (puts : List Put) : List Put := puts.filter fun p => p.item.isNone

/-- `provider_error_status_and_detail`, with a new UUID and `serde_json::from_str`. -/
def providerErrorStatusAndDetail (fromStr : String → Option Value) (err traceHint : String) :
    Nat × String × String :=
  if contains err "CONTENT_LENGTH_EXCEEDS_THRESHOLD" then
    (400, "invalid_request_error",
      "Context window is full. Reduce conversation history, system prompt, or tools.")
  else if contains err "Input is too long" then
    (400, "invalid_request_error", "Input is too long. Reduce the size of your messages.")
  else if Pool.Failover.isClientValidationError fromStr err then
    (400, "invalid_request_error",
      "Invalid message sequence: tool_use and tool_result blocks must be correctly paired and " ++
        "ordered.")
  else (502, "api_error", "Upstream request failed. trace_id=" ++ traceHint)

/-- What a stream meets: the upstream answers or the call fails, with the outcome of its last
attempt; a chunk of the body arrives, the body breaks off or ends; the timer ticks. -/
inductive Arrival where
  | answered (credentialId : Nat)
  | refused (error : String) (lastAttempt : Option Outcome) (traceHint : String)
  | chunk (bytes : Bytes)
  | failed (error : String)
  | ended
  | tick
  deriving DecidableEq, Repr

def Arrival.bytes : Arrival → Option Bytes
  | .chunk bytes => some bytes
  | _ => none

/-- The chunks of the body, in the order of their arrival. -/
def chunks (arrivals : List Arrival) : List Bytes := arrivals.filterMap Arrival.bytes

def decodeChunk (env : WireEnv) (decoder : EventStreamDecoder) (bytes : Bytes) :
    EventStreamDecoder × List Event :=
  let (decoder, results) := feedAndDrain env.crc32 decoder bytes
  (decoder, results.filterMap (eventOf env))

/-- The field `credits` of a context behind an event. -/
def meter (env : WireEnv) (credits : UInt64) : Event → UInt64
  | .metering usage => env.addCredits credits usage
  | _ => credits

def metered (env : WireEnv) (events : List Event) : UInt64 := events.foldl (meter env) 0

@[simp] theorem items_append (first later : List Put) :
    items (first ++ later) = items first ++ items later := List.filterMap_append

@[simp] theorem sentEvents_append (first later : List Put) :
    sentEvents (first ++ later) = sentEvents first ++ sentEvents later := by
  simp only [sentEvents, items_append, List.filterMap_append]

@[simp] theorem notes_append (first later : List Put) :
    notes (first ++ later) = notes first ++ notes later := List.filter_append ..

@[simp] theorem items_sends (events : List SseEvent) : items (sends events) = events.map .event := by
  simp only [items, sends, List.filterMap_map]
  exact (List.filterMap_eq_map' (f := Item.event)).symm ▸ rfl

@[simp] theorem sentEvents_sends (events : List SseEvent) : sentEvents (sends events) = events := by
  rw [sentEvents, items_sends, List.filterMap_map]
  exact List.filterMap_some

@[simp] theorem notes_sends (events : List SseEvent) : notes (sends events) = [] := by
  induction events with
  | nil => rfl
  | cons e rest ih => exact ih

theorem chunks_append (first later : List Arrival) :
    chunks (first ++ later) = chunks first ++ chunks later := List.filterMap_append

def ticks (arrivals : List Arrival) : Nat := arrivals.count .tick

theorem count_ping_events (events : List SseEvent) : (events.map Item.event).count .ping = 0 := by
  rw [List.count_eq_zero]
  simp

/-- What is decoded of the chunks so far: the sum of the credits, the decoder and the bytes. -/
structure Received (env : WireEnv) (arrivals : List Arrival) (credits : UInt64)
    (decoder : EventStreamDecoder) (bytes : Nat) : Prop where
  credits : credits = metered env (bodyEvents env (chunks arrivals))
  decoder : decoder = (feedAll env.crc32 EventStreamDecoder.new (chunks arrivals)).1
  bytes : bytes = (chunks arrivals).flatten.length

theorem received_start (env : WireEnv) : Received env [] 0 EventStreamDecoder.new 0 :=
  ⟨rfl, rfl, rfl⟩

section Received

variable {env : WireEnv} {arrivals : List Arrival} {credits : UInt64}
  {decoder : EventStreamDecoder} {count : Nat}

theorem chunks_chunk (arrivals : List Arrival) (bytes : Bytes) :
    chunks (arrivals ++ [.chunk bytes]) = chunks arrivals ++ [bytes] := chunks_append _ _

theorem chunks_chunk_ne (arrivals : List Arrival) (bytes : Bytes) :
    chunks (arrivals ++ [.chunk bytes]) ≠ [] := by
  rw [chunks_chunk]
  exact List.append_ne_nil_of_right_ne_nil _ (List.cons_ne_nil _ _)

theorem chunks_tick (arrivals : List Arrival) : chunks (arrivals ++ [.tick]) = chunks arrivals := by
  rw [chunks_append]
  exact List.append_nil _

theorem Received.events (h : Received env arrivals credits decoder count) (bytes : Bytes) :
    bodyEvents env (chunks (arrivals ++ [.chunk bytes])) =
      bodyEvents env (chunks arrivals) ++ (decodeChunk env decoder bytes).2 := by
  rw [chunks_chunk, bodyEvents_concat, decodeChunk, h.decoder]

theorem Received.chunk (h : Received env arrivals credits decoder count) (bytes : Bytes) :
    Received env (arrivals ++ [.chunk bytes])
      ((decodeChunk env decoder bytes).2.foldl (meter env) credits)
      (decodeChunk env decoder bytes).1 (count + bytes.length) := by
  constructor
  · rw [h.events, metered, List.foldl_append, h.credits]
    rfl
  · rw [chunks_chunk, feedAll_concat, ← h.decoder]
    rfl
  · rw [chunks_chunk, List.flatten_append, List.length_append, ← h.bytes, List.flatten_cons,
      List.flatten_nil, List.append_nil]

theorem Received.same {later : List Arrival} (h : Received env arrivals credits decoder count)
    (same : chunks later = chunks arrivals) : Received env later credits decoder count := by
  obtain ⟨sum, left, length⟩ := h
  exact ⟨by rwa [same], by rwa [same], by rwa [same]⟩

end Received

def Arrival.closes : Arrival → Bool
  | .failed _ | .ended => true
  | _ => false

theorem closes_frame {last : Arrival} (closes : last.closes = true) (arrivals : List Arrival) :
    chunks (arrivals ++ [last]) = chunks arrivals ∧ ticks (arrivals ++ [last]) = ticks arrivals := by
  rw [chunks_append, ticks, ticks, List.count_append]
  cases last with
  | failed error => exact ⟨List.append_nil _, rfl⟩
  | ended => exact ⟨List.append_nil _, rfl⟩
  | answered id => cases closes
  | refused error lastAttempt traceHint => cases closes
  | chunk bytes => cases closes
  | tick => cases closes

/-- A stream that waits for the answer to its call: the call is under way, the body is streamed, or
the call failed. -/
inductive Deferred (κ σ : Type) where
  | calling (c : κ)
  | streaming (s : σ)
  | refused

namespace Deferred

/-- `create_deferred_sse_stream` and `create_deferred_buffered_sse_stream`: from the call's context
`start` makes the stream that `inner` drives. -/
def step {κ σ : Type} (fromStr : String → Option Value) (inputTokens : κ → Int)
    (start : κ → Nat → σ) (inner : σ → Arrival → Option (List Put × σ)) (s : Deferred κ σ)
    (arrival : Arrival) : Option (List Put × Deferred κ σ) :=
  match s with
  | .calling c =>
    match arrival with
    | .answered credentialId => some ([], .streaming (start c credentialId))
    | .refused error lastAttempt traceHint =>
      let (_, type, message) := providerErrorStatusAndDetail fromStr error traceHint
      some ([.record 0 ⟨inputTokens c, 0, 0, 0⟩ 0 "error",
        .finalize .error lastAttempt (some error) none,
        .send (.event (.error type message))], .refused)
    | _ => none
  | .streaming s => (inner s arrival).map fun r => (r.1, .streaming r.2)
  | .refused => none

def ended {κ σ : Type} (finished : σ → Bool) : Deferred κ σ → Bool
  | .calling _ => false
  | .streaming s => finished s
  | .refused => true

variable {κ σ : Type} {fromStr : String → Option Value} {inputTokens : κ → Int}
  {start : κ → Nat → σ} {inner : σ → Arrival → Option (List Put × σ)} {c : κ}
  {arrivals : List Arrival} {puts : List Put} {s : Deferred κ σ}

/-- A stream whose call is answered is the stream behind the answer. -/
theorem drive_answered (id : Nat) (body : List Arrival) :
    drive (step fromStr inputTokens start inner) (.answered id :: body) (.calling c) =
      (drive inner body (start c id)).map fun r => (r.1, .streaming r.2) := by
  have inside : drive (step fromStr inputTokens start inner) body (.streaming (start c id)) =
      (drive inner body (start c id)).map fun r => (r.1, .streaming r.2) :=
    drive_embed (fun _ _ => rfl) body (start c id)
  show (drive (step fromStr inputTokens start inner) body (.streaming (start c id))).map _ = _
  rw [inside, Option.map_map]
  rfl

/-- A refused call ends the stream. -/
theorem cases (run : drive (step fromStr inputTokens start inner) arrivals (.calling c) =
    some (puts, s)) :
    arrivals = [] ∧ puts = [] ∧ s = .calling c ∨
    (∃ id body t, arrivals = .answered id :: body ∧ s = .streaming t ∧
      drive inner body (start c id) = some (puts, t)) ∨
    ∃ error lastAttempt traceHint, arrivals = [.refused error lastAttempt traceHint] ∧
      s = .refused ∧ puts = [.record 0 ⟨inputTokens c, 0, 0, 0⟩ 0 "error",
        .finalize .error lastAttempt (some error) none,
        .send (.event (.error (providerErrorStatusAndDetail fromStr error traceHint).2.1
          (providerErrorStatusAndDetail fromStr error traceHint).2.2))] := by
  cases arrivals with
  | nil =>
    cases run
    exact Or.inl ⟨rfl, rfl, rfl⟩
  | cons a body =>
    cases a with
    | answered id =>
      rw [drive_answered] at run
      obtain ⟨⟨puts, t⟩, inside, eq⟩ := Option.map_eq_some_iff.mp run
      cases eq
      exact Or.inr (Or.inl ⟨id, body, t, rfl, rfl, inside⟩)
    | refused error lastAttempt traceHint =>
      obtain ⟨new, s', later, taken, rest, rfl⟩ := drive_cons run
      cases taken
      cases body with
      | nil =>
        cases rest
        exact Or.inr (Or.inr ⟨error, lastAttempt, traceHint, rfl, rfl, rfl⟩)
      | cons b more =>
        obtain ⟨_, _, _, taken, -, -⟩ := drive_cons rest
        cases taken
    | chunk bytes => cases run
    | failed error => cases run
    | ended => cases run
    | tick => cases run

end Deferred

end KiroRs.Delivery.Arrivals
