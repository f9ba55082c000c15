/- Path: KiroRs/Parser/StreamDecoder
   source: src/kiro/parser/decoder.rs
   digest: The four-state event-stream decoder, its iterator and one lemma for each thing a
   drain can do. -/

import KiroRs.Parser.FrameCodec

set_option autoImplicit false
set_option relaxedAutoImplicit false

namespace KiroRs.Parser.StreamDecoder

open KiroRs.Lib.Wire
open KiroRs.Parser.HeaderCodec
open KiroRs.Parser.FrameCodec

def defaultMaxBufferSize : Nat := 16 * 1024 * 1024
def defaultMaxErrors : Nat := 5

inductive DecoderState where
  | ready | parsing | recovering | stopped
  deriving DecidableEq, Repr

structure EventStreamDecoder where
  buffer : Bytes
  state : DecoderState
  framesDecoded : Nat
  errorCount : Nat
  maxErrors : Nat
  maxBufferSize : Nat
  bytesSkipped : Nat
  deriving DecidableEq

namespace EventStreamDecoder

def new : EventStreamDecoder where
  buffer := []
  state := .ready
  framesDecoded := 0
  errorCount := 0
  maxErrors := defaultMaxErrors
  maxBufferSize := defaultMaxBufferSize
  bytesSkipped := 0

def feed (d : EventStreamDecoder) (data : Bytes) : EventStreamDecoder × ParseResult Unit :=
  let newSize := d.buffer.length + data.length
  if newSize > d.maxBufferSize then (d, .error (.bufferOverflow newSize d.maxBufferSize))
  else
    ({ d with
        buffer := d.buffer ++ data
        state := if d.state = .recovering then .ready else d.state }, .ok ())

/-- Drop `n` bytes as damaged. -/
def skip (d : EventStreamDecoder) (n : Nat) : EventStreamDecoder :=
  { d with buffer := d.buffer.drop n, bytesSkipped := d.bytesSkipped + n }

def tryRecover (d : EventStreamDecoder) (error : ParseError) : EventStreamDecoder :=
  if d.buffer = [] then d
  else
    match error with
    | .preludeCrcMismatch _ _ | .messageTooSmall _ _ | .messageTooLarge _ _ => d.skip 1
    | .messageCrcMismatch _ _ | .headerParseFailed _ =>
        if d.buffer.length ≥ preludeSize then
          let totalLength := u32At d.buffer 0
          if totalLength ≥ 16 ∧ totalLength ≤ d.buffer.length then d.skip totalLength
          else d.skip 1
        else d.skip 1
    | _ => d.skip 1

def decode (crc32 : Bytes → UInt32) (d : EventStreamDecoder) :
    EventStreamDecoder × ParseResult (Option Frame) :=
  if d.state = .stopped then (d, .error (.tooManyErrors d.errorCount "解码器已停止"))
  else if d.buffer = [] then ({ d with state := .ready }, .ok none)
  else
    let d := { d with state := .parsing }
    match parseFrame crc32 d.buffer with
    | .ok (some (frame, consumed)) =>
        ({ d with
            buffer := d.buffer.drop consumed
            state := .ready
            framesDecoded := d.framesDecoded + 1
            errorCount := 0 }, .ok (some frame))
    | .ok none => ({ d with state := .ready }, .ok none)
    | .error e =>
        let d := { d with errorCount := d.errorCount + 1 }
        if d.errorCount ≥ d.maxErrors then
          ({ d with state := .stopped }, .error (.tooManyErrors d.errorCount e.message))
        else ({ d.tryRecover e with state := .recovering }, .error e)

def next (crc32 : Bytes → UInt32) (d : EventStreamDecoder) :
    EventStreamDecoder × Option (ParseResult Frame) :=
  match d.state with
  | .stopped | .recovering => (d, none)
  | _ =>
      match d.decode crc32 with
      | (d, .ok (some frame)) => (d, some (.ok frame))
      | (d, .ok none) => (d, none)
      | (d, .error e) => (d, some (.error e))

end EventStreamDecoder

open EventStreamDecoder

theorem parseFrame_consumed {crc32 : Bytes → UInt32} {buffer : Bytes} {frame : Frame} {n : Nat}
    (h : parseFrame crc32 buffer = .ok (some (frame, n))) :
    16 ≤ n ∧ n ≤ buffer.length := by
  unfold parseFrame at h
  simp only [minMessageSize, preludeSize] at h
  grind

/-- Bytes still buffered, doubled, plus one while the iterator may go on. -/
private def EventStreamDecoder.fuel (d : EventStreamDecoder) : Nat :=
  2 * d.buffer.length + if d.state = .stopped ∨ d.state = .recovering then 0 else 1

/-- The number of bytes recovery drops: a byte while frame boundaries are in doubt, the
announced message where the boundary stands. -/
def recoverySkip (buffer : Bytes) (error : ParseError) : Nat :=
  if buffer = [] then 0
  else
    match error with
    | .messageCrcMismatch _ _ | .headerParseFailed _ =>
        if preludeSize ≤ buffer.length ∧ 16 ≤ u32At buffer 0 ∧ u32At buffer 0 ≤ buffer.length then
          u32At buffer 0
        else 1
    | _ => 1

theorem tryRecover_eq_skip (d : EventStreamDecoder) (e : ParseError) :
    d.tryRecover e = d.skip (recoverySkip d.buffer e) := by
  by_cases empty : d.buffer = []
  · unfold tryRecover recoverySkip
    rw [if_pos empty, if_pos empty]
    rfl
  · cases e <;> simp only [tryRecover, recoverySkip, if_neg empty]
    case messageCrcMismatch | headerParseFailed =>
      by_cases enough : preludeSize ≤ d.buffer.length
      · by_cases whole : 16 ≤ u32At d.buffer 0 ∧ u32At d.buffer 0 ≤ d.buffer.length
        · rw [if_pos enough, if_pos whole, if_pos ⟨enough, whole⟩]
        · rw [if_pos enough, if_neg whole, if_neg (fun h => whole h.2)]
      · rw [if_neg enough, if_neg (fun h => enough h.1)]

private theorem length_tryRecover_le (d : EventStreamDecoder) (e : ParseError) :
    (d.tryRecover e).buffer.length ≤ d.buffer.length := by
  rw [tryRecover_eq_skip]
  simp [skip]

private theorem fuel_next_lt {crc32 : Bytes → UInt32} {d d' : EventStreamDecoder}
    {r : ParseResult Frame} (h : d.next crc32 = (d', some r)) : d'.fuel < d.fuel := by
  unfold next at h
  have live (state : d.state ≠ .stopped ∧ d.state ≠ .recovering) :
      d.fuel = 2 * d.buffer.length + 1 := by
    simp [EventStreamDecoder.fuel, state.1, state.2]
  split at h
  · cases h
  · cases h
  · rename_i not_stopped not_recovering
    have full := live ⟨not_stopped, not_recovering⟩
    unfold decode at h
    rw [if_neg not_stopped] at h
    split_ifs at h with empty
    · cases h
    · cases parsed : parseFrame crc32 d.buffer with
      | ok found =>
          cases found with
          | none => simp [parsed] at h
          | some found =>
              obtain ⟨frame, consumed⟩ := found
              obtain ⟨lo, hi⟩ := parseFrame_consumed parsed
              simp only [parsed, Prod.mk.injEq] at h
              obtain ⟨rfl, -⟩ := h
              rw [full]
              simp only [EventStreamDecoder.fuel, List.length_drop, reduceCtorEq, or_self, if_false]
              omega
      | error e =>
          simp only [parsed] at h
          rw [full]
          split_ifs at h with too_many
          · cases h
            simp [EventStreamDecoder.fuel]
          · cases h
            have shorter := length_tryRecover_le
              { d with state := .parsing, errorCount := d.errorCount + 1 } e
            simp only [EventStreamDecoder.fuel, or_true, if_true, Nat.add_zero]
            exact Nat.lt_succ_of_le (Nat.mul_le_mul_left 2 shorter)

/-- `for result in decoder.decode_iter()`, run to its end. -/
def drain (crc32 : Bytes → UInt32) (d : EventStreamDecoder) :
    EventStreamDecoder × List (ParseResult Frame) :=
  match _h : d.next crc32 with
  | (d', none) => (d', [])
  | (d', some r) =>
      let rest := drain crc32 d'
      (rest.1, r :: rest.2)
termination_by d.fuel
decreasing_by exact fuel_next_lt _h

/-- One received chunk, as both handlers process it: a rejected feed is only logged. -/
def feedAndDrain (crc32 : Bytes → UInt32) (d : EventStreamDecoder) (data : Bytes) :
    EventStreamDecoder × List (ParseResult Frame) :=
  drain crc32 (d.feed data).1

/-- A whole body, received in the given chunks. -/
def feedAll (crc32 : Bytes → UInt32) : EventStreamDecoder → List Bytes →
    EventStreamDecoder × List (ParseResult Frame)
  | d, [] => (d, [])
  | d, data :: more =>
      let here := feedAndDrain crc32 d data
      let rest := feedAll crc32 here.1 more
      (rest.1, here.2 ++ rest.2)

/-- Every feed of the run is accepted, that is, stays within the buffer limit. -/
def Accepted (crc32 : Bytes → UInt32) : EventStreamDecoder → List Bytes → Prop
  | _, [] => True
  | d, data :: more =>
      (d.feed data).2 = .ok () ∧ Accepted crc32 (feedAndDrain crc32 d data).1 more

def okFrames (results : List (ParseResult Frame)) : List Frame :=
  results.filterMap fun r => match r with
    | .ok frame => some frame
    | .error _ => none

end KiroRs.Parser.StreamDecoder
