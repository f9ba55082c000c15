/- Path: KiroRs/Parser/DecoderRuns
   source: src/kiro/parser/decoder.rs
   digest: What a drain does on delimited blocks, and the round trip of a frame stream under
   every chunking. -/

import KiroRs.Parser.StreamDecoder

set_option autoImplicit false
set_option relaxedAutoImplicit false

namespace KiroRs.Parser.DecoderRuns

open KiroRs.Lib.Wire
open KiroRs.Parser.HeaderCodec
open KiroRs.Parser.FrameCodec
open KiroRs.Parser.StreamDecoder
open KiroRs.Parser.StreamDecoder.EventStreamDecoder

/-- The part of a decoder that decides what it does next. The counters of decoded frames and
skipped bytes are left out; the two limits are the defaults. -/
structure At (d : EventStreamDecoder) (state : DecoderState) (buffer : Bytes) (errors : Nat) :
    Prop where
  state_eq : d.state = state
  buffer_eq : d.buffer = buffer
  errors_eq : d.errorCount = errors
  maxErrors_eq : d.maxErrors = defaultMaxErrors
  maxBufferSize_eq : d.maxBufferSize = defaultMaxBufferSize

theorem at_new : At EventStreamDecoder.new .ready [] 0 := ⟨rfl, rfl, rfl, rfl, rfl⟩

variable {crc32 : Bytes → UInt32} {d : EventStreamDecoder} {buffer : Bytes} {errors : Nat}

variable (crc32) in
theorem parseFrame_nil : parseFrame crc32 [] = .ok none := rfl

/-- What a decoded frame, a wait for more or an error is handed out as. -/
private def handed : EventStreamDecoder × ParseResult (Option Frame) →
    EventStreamDecoder × Option (ParseResult Frame)
  | (d, .ok (some frame)) => (d, some (.ok frame))
  | (d, .ok none) => (d, none)
  | (d, .error e) => (d, some (.error e))

variable (crc32) in
theorem next_ready (h : At d .ready buffer errors) :
    (∃ frame n d', parseFrame crc32 buffer = .ok (some (frame, n)) ∧
      d.next crc32 = (d', some (.ok frame)) ∧ At d' .ready (buffer.drop n) 0) ∨
    (∃ d', parseFrame crc32 buffer = .ok none ∧
      d.next crc32 = (d', none) ∧ At d' .ready buffer errors) ∨
    (∃ e d' r, parseFrame crc32 buffer = .error e ∧ defaultMaxErrors ≤ errors + 1 ∧
      d.next crc32 = (d', some (.error r)) ∧ At d' .stopped buffer (errors + 1)) ∨
    (∃ e d', parseFrame crc32 buffer = .error e ∧ errors + 1 < defaultMaxErrors ∧
      d.next crc32 = (d', some (.error e)) ∧
      At d' .recovering (buffer.drop (recoverySkip buffer e)) (errors + 1)) := by
  obtain ⟨state_eq, rfl, rfl, max_eq, size_eq⟩ := h
  have turn : d.next crc32 = handed (d.decode crc32) := by
    simp only [next, state_eq]
    rfl
  have live : d.state ≠ .stopped := by simp [state_eq]
  by_cases empty : d.buffer = []
  · refine Or.inr (Or.inl ⟨{ d with state := .ready }, ?_, ?_, rfl, rfl, rfl, max_eq, size_eq⟩)
    · rw [empty, parseFrame_nil crc32]
    · rw [turn, decode, if_neg live, if_pos empty]
      rfl
  · cases parsed : parseFrame crc32 d.buffer with
    | ok found =>
        cases found with
        | none =>
            refine Or.inr (Or.inl ⟨{ d with state := .ready }, rfl, ?_, rfl, rfl, rfl, max_eq,
              size_eq⟩)
            rw [turn, decode, if_neg live, if_neg empty]
            simp only [parsed, handed]
        | some found =>
            obtain ⟨frame, n⟩ := found
            refine Or.inl ⟨frame, n, { d with
              buffer := d.buffer.drop n
              state := .ready
              framesDecoded := d.framesDecoded + 1
              errorCount := 0 }, rfl, ?_, rfl, rfl, rfl, max_eq, size_eq⟩
            rw [turn, decode, if_neg live, if_neg empty]
            simp only [parsed, handed]
    | error e =>
        refine Or.inr (Or.inr ?_)
        rcases Nat.lt_or_ge (d.errorCount + 1) defaultMaxErrors with few | many
        · refine Or.inr ⟨e, { ({ d with
            state := .parsing
            errorCount := d.errorCount + 1 } : EventStreamDecoder).tryRecover e with
              state := .recovering }, rfl, few, ?_, ?_⟩
          · rw [turn, decode, if_neg live, if_neg empty]
            simp only [parsed, max_eq]
            rw [if_neg (Nat.not_le_of_lt few)]
            rfl
          · rw [tryRecover_eq_skip]
            exact ⟨rfl, rfl, rfl, max_eq, size_eq⟩
        · refine Or.inl ⟨e, { d with
            state := .stopped
            errorCount := d.errorCount + 1 }, .tooManyErrors (d.errorCount + 1) e.message, rfl,
            many, ?_, rfl, rfl, rfl, max_eq, size_eq⟩
          rw [turn, decode, if_neg live, if_neg empty]
          simp only [parsed, max_eq]
          rw [if_pos many]
          rfl

theorem drain_of_none {d' : EventStreamDecoder} (h : d.next crc32 = (d', none)) :
    drain crc32 d = (d', []) := by
  rw [drain]
  split <;> simp_all

theorem drain_of_some {d' : EventStreamDecoder} {r : ParseResult Frame}
    (h : d.next crc32 = (d', some r)) :
    drain crc32 d = ((drain crc32 d').1, r :: (drain crc32 d').2) := by
  rw [drain]
  split <;> simp_all

theorem drain_halted (h : d.state = .recovering ∨ d.state = .stopped) :
    drain crc32 d = (d, []) := by
  apply drain_of_none
  rcases h with h | h <;> simp [next, h]

theorem drain_wait (h : At d .ready buffer errors) (wait : parseFrame crc32 buffer = .ok none) :
    ∃ d', drain crc32 d = (d', []) ∧ At d' .ready buffer errors := by
  rcases next_ready crc32 h with ⟨_, _, _, parsed, _⟩ | ⟨d', _, step, after⟩ |
    ⟨_, _, _, parsed, _⟩ | ⟨_, _, parsed, _⟩
  · simp [wait] at parsed
  · exact ⟨d', drain_of_none step, after⟩
  · simp [wait] at parsed
  · simp [wait] at parsed

theorem drain_frames (fs : List WireFrame) (rest : Bytes) (h : At d .ready
      ((fs.map (·.encode crc32)).flatten ++ rest) errors) :
    ∃ d', drain crc32 d = ((drain crc32 d').1, fs.map (.ok ·.toFrame) ++ (drain crc32 d').2) ∧
      At d' .ready rest (if fs = [] then errors else 0) := by
  induction fs generalizing d errors with
  | nil => exact ⟨d, rfl, by simpa using h⟩
  | cons f fs ih =>
      have parsed : parseFrame crc32 (((f :: fs).map (·.encode crc32)).flatten ++ rest) =
          .ok (some (f.toFrame, f.totalLength)) := by
        rw [List.map_cons, List.flatten_cons, List.append_assoc,
          parseFrame_append crc32 (f.delimited crc32), parseFrame_encode]
      rcases next_ready crc32 h with ⟨frame, n, d', got, step, after⟩ | ⟨_, got, _⟩ |
        ⟨_, _, _, got, _⟩ | ⟨_, _, got, _⟩
      · rw [parsed] at got
        cases got
        rw [List.map_cons, List.flatten_cons, List.append_assoc,
          List.drop_left' (WireFrame.length_encode crc32 f)] at after
        obtain ⟨d'', out, at_rest⟩ := ih after
        refine ⟨d'', ?_, ?_⟩
        · rw [drain_of_some step, out]
          rfl
        · by_cases empty : fs = []
          · simpa [empty] using at_rest
          · simpa [empty] using at_rest
      · rw [parsed] at got
        cases got
      · rw [parsed] at got
        cases got
      · rw [parsed] at got
        cases got

theorem cut_blocks {α : Type} (enc : α → Bytes) (blocks : List α) (tail p : Bytes)
    (pre : p <+: (blocks.map enc).flatten ++ tail) :
    ∃ done rest t, blocks = done ++ rest ∧ p = (done.map enc).flatten ++ t ∧
      ((∃ b more, rest = b :: more ∧ t <+: enc b ∧ t.length < (enc b).length) ∨
        rest = [] ∧ t <+: tail) := by
  induction blocks generalizing p with
  | nil => exact ⟨[], [], p, rfl, rfl, Or.inr ⟨rfl, by simpa using pre⟩⟩
  | cons b blocks ih =>
      rw [List.map_cons, List.flatten_cons, List.append_assoc] at pre
      rcases Nat.lt_or_ge p.length (enc b).length with short | long
      · have inside : p <+: enc b :=
          List.prefix_of_prefix_length_le pre (List.prefix_append _ _) (Nat.le_of_lt short)
        exact ⟨[], b :: blocks, p, rfl, rfl, Or.inl ⟨b, blocks, rfl, inside, short⟩⟩
      · obtain ⟨q, rfl⟩ := List.prefix_of_prefix_length_le (List.prefix_append _ _) pre long
        obtain ⟨done, rest, t, rfl, rfl, cut⟩ :=
          ih q ((List.prefix_append_right_inj (enc b)).mp pre)
        exact ⟨b :: done, rest, t, rfl, by simp, cut⟩

theorem at_feed {state : DecoderState} {data : Bytes} (h : At d state buffer errors)
    (accepted : (d.feed data).2 = .ok ()) :
    At (d.feed data).1 (if state = .recovering then .ready else state) (buffer ++ data) errors := by
  obtain ⟨rfl, rfl, rfl, max_eq, size_eq⟩ := h
  simp only [feed] at accepted ⊢
  split_ifs at accepted ⊢ with too_big
  · exact ⟨rfl, rfl, rfl, max_eq, size_eq⟩
  · exact ⟨rfl, rfl, rfl, max_eq, size_eq⟩

theorem feed_fits {state : DecoderState} {data : Bytes} (h : At d state buffer errors)
    (accepted : (d.feed data).2 = .ok ()) :
    buffer.length + data.length ≤ defaultMaxBufferSize := by
  obtain ⟨-, rfl, -, -, size_eq⟩ := h
  by_contra too_big
  rw [← size_eq] at too_big
  rw [feed, if_pos (Nat.lt_of_not_le too_big)] at accepted
  cases accepted

def Live (state : DecoderState) : Prop := state = .ready ∨ state = .recovering

theorem at_feed_live {state : DecoderState} {data : Bytes} (h : At d state buffer errors)
    (live : Live state) (accepted : (d.feed data).2 = .ok ()) :
    At (d.feed data).1 .ready (buffer ++ data) errors := by
  have fed := at_feed h accepted
  rcases live with rfl | rfl <;> exact fed

/-- One chunk of a stream that starts with frames. Either the chunk leaves a cut frame buffered,
or every frame is out and the drain goes on with the bytes behind them. -/
theorem feedAndDrain_frames {state : DecoderState} {data later tail : Bytes}
    {fs : List WireFrame} (h : At d state buffer errors) (live : Live state)
    (accepted : (d.feed data).2 = .ok ())
    (stream : buffer ++ (data ++ later) = (fs.map (·.encode crc32)).flatten ++ tail) :
    (∃ d' done f rest t errors', feedAndDrain crc32 d data = (d', done.map (.ok ·.toFrame)) ∧
      fs = done ++ f :: rest ∧ At d' .ready t errors' ∧ (errors = 0 → errors' = 0) ∧
      t ++ later = ((f :: rest).map (·.encode crc32)).flatten ++ tail ∧
      t.length < f.totalLength) ∨
    (∃ d' t, feedAndDrain crc32 d data =
        ((drain crc32 d').1, fs.map (.ok ·.toFrame) ++ (drain crc32 d').2) ∧
      At d' .ready t (if fs = [] then errors else 0) ∧ t ++ later = tail ∧
      buffer ++ data = (fs.map (·.encode crc32)).flatten ++ t) := by
  have fed := at_feed_live h live accepted
  have pre : buffer ++ data <+: (fs.map (·.encode crc32)).flatten ++ tail := by
    rw [← stream, ← List.append_assoc]
    exact List.prefix_append _ _
  obtain ⟨done, rest, t, rfl, cut, side⟩ := cut_blocks (·.encode crc32) fs tail _ pre
  have behind : t ++ later = (rest.map (·.encode crc32)).flatten ++ tail := by
    rw [← List.append_assoc, cut, List.map_append, List.flatten_append, List.append_assoc,
      List.append_assoc] at stream
    exact List.append_cancel_left stream
  rw [cut] at fed
  obtain ⟨d', out, at_t⟩ := drain_frames done t fed
  rcases side with ⟨f, more, rfl, inside, short⟩ | ⟨rfl, inside⟩
  · left
    obtain ⟨d'', quiet, at_end⟩ :=
      drain_wait at_t (parseFrame_short crc32 (f.delimited crc32) inside short)
    refine ⟨d'', done, f, more, t, _, ?_, rfl, at_end, ?_, behind, by simpa using short⟩
    · rw [feedAndDrain, out, quiet, List.append_nil]
    · rintro rfl
      exact ite_self 0
  · right
    rw [List.append_nil]
    exact ⟨d', t, out, at_t, behind, cut⟩

theorem feedAll_frames (pieces : List Bytes) {state : DecoderState} {fs : List WireFrame}
    (h : At d state buffer errors) (live : Live state) (accepted : Accepted crc32 d pieces)
    (stream : buffer ++ pieces.flatten = (fs.map (·.encode crc32)).flatten)
    (pending : pieces = [] → ∀ f more, fs = f :: more → buffer.length < f.totalLength) :
    (feedAll crc32 d pieces).2 = fs.map (.ok ·.toFrame) := by
  induction pieces generalizing d state buffer errors fs with
  | nil =>
      cases fs with
      | nil => rfl
      | cons f more =>
          have short := pending rfl f more rfl
          have len := congrArg List.length stream
          simp only [List.flatten_nil, List.append_nil, List.map_cons, List.flatten_cons,
            List.length_append, WireFrame.length_encode] at len
          omega
  | cons data more ih =>
      rw [List.flatten_cons, ← List.append_nil (fs.map _).flatten] at stream
      rcases feedAndDrain_frames h live accepted.1 stream with
        ⟨d', done, f, rest, t, errors', out, rfl, at_t, -, stream', short⟩ |
        ⟨d', t, out, at_t, stream', -⟩
      · have accepted' : Accepted crc32 d' more := by simpa only [out] using accepted.2
        rw [List.append_nil] at stream'
        have tail := ih at_t (Or.inl rfl) accepted' stream' (by
          rintro - g rest' eq
          cases eq
          exact short)
        simp only [feedAll, out, tail, List.map_append]
      · obtain ⟨rfl, ended⟩ := List.append_eq_nil_iff.mp stream'
        obtain ⟨d'', quiet, at_end⟩ := drain_wait at_t (parseFrame_nil crc32)
        have accepted' : Accepted crc32 d'' more := by
          simpa only [out, quiet] using accepted.2
        have nothing : [] ++ more.flatten = (([] : List WireFrame).map (·.encode crc32)).flatten := by
          rw [ended]
          rfl
        have tail := ih at_end (Or.inl rfl) accepted' nothing (by
          rintro - f rest eq
          cases eq)
        simp only [feedAll, out, quiet, tail, List.map_nil, List.append_nil]

private theorem next_shrinks {d' : EventStreamDecoder} {r : Option (ParseResult Frame)}
    (h : d.next crc32 = (d', r)) :
    d'.buffer.length ≤ d.buffer.length ∧ d'.maxBufferSize = d.maxBufferSize := by
  unfold next at h
  split at h
  · cases h
    exact ⟨le_rfl, rfl⟩
  · cases h
    exact ⟨le_rfl, rfl⟩
  · have shrinks : (d.decode crc32).1.buffer.length ≤ d.buffer.length ∧
        (d.decode crc32).1.maxBufferSize = d.maxBufferSize := by
      unfold decode
      split_ifs
      · exact ⟨le_rfl, rfl⟩
      · exact ⟨le_rfl, rfl⟩
      · simp only [tryRecover_eq_skip]
        split
        · exact ⟨by simp, rfl⟩
        · exact ⟨le_rfl, rfl⟩
        · split
          · exact ⟨le_rfl, rfl⟩
          · exact ⟨by simp [skip], rfl⟩
    have same : d' = (d.decode crc32).1 := by
      split at h <;> cases h <;> simp_all
    rw [same]
    exact shrinks

theorem drain_shrinks (crc32 : Bytes → UInt32) (d : EventStreamDecoder) :
    (drain crc32 d).1.buffer.length ≤ d.buffer.length ∧
      (drain crc32 d).1.maxBufferSize = d.maxBufferSize := by
  induction d using drain.induct crc32 with
  | case1 d d' step =>
      rw [drain_of_none step]
      exact next_shrinks step
  | case2 d d' r step ih =>
      obtain ⟨le, eq⟩ := next_shrinks step
      rw [drain_of_some step]
      exact ⟨ih.1.trans le, ih.2.trans eq⟩

theorem accepted_of_length_le (crc32 : Bytes → UInt32) (d : EventStreamDecoder)
    (pieces : List Bytes)
    (fits : d.buffer.length + pieces.flatten.length ≤ d.maxBufferSize) :
    Accepted crc32 d pieces := by
  induction pieces generalizing d with
  | nil => trivial
  | cons data more ih =>
      rw [List.flatten_cons, List.length_append] at fits
      have room : ¬ d.buffer.length + data.length > d.maxBufferSize := by omega
      have fed : d.feed data = ({ d with
          buffer := d.buffer ++ data
          state := if d.state = .recovering then .ready else d.state }, .ok ()) := by
        rw [feed, if_neg room]
      obtain ⟨le, eq⟩ := drain_shrinks crc32 (d.feed data).1
      rw [fed] at le eq
      refine ⟨by rw [fed], ih _ ?_⟩
      rw [feedAndDrain, fed, eq]
      rw [List.length_append] at le
      refine (Nat.add_le_add_right le _).trans ?_
      show d.buffer.length + data.length + more.flatten.length ≤ d.maxBufferSize
      omega

/-- Every list of frames survives encoding and decoding under every chunking: each frame comes
out once, in order, with its headers and payload, and no error is reported. -/
theorem feedAll_encode (crc32 : Bytes → UInt32) (frames : List WireFrame) (pieces : List Bytes)
    (split : pieces.flatten = (frames.map (·.encode crc32)).flatten)
    (accepted : Accepted crc32 EventStreamDecoder.new pieces) :
    (feedAll crc32 EventStreamDecoder.new pieces).2 = frames.map (.ok ·.toFrame) := by
  apply feedAll_frames pieces at_new (Or.inl rfl) accepted split
  rintro - f more rfl
  exact lt_of_lt_of_le (by decide : 0 < 16) (f.delimited crc32).min_le |>.trans_eq (by simp)

def sampleFrame : WireFrame where
  headers := [⟨":event-type", .string "pingEvent", by decide, by decide, by decide⟩]
  payload := [123, 125]
  size_le := by decide

theorem feedAll_encode_sample :
    (feedAll crc32IsoHdlc EventStreamDecoder.new
      [(sampleFrame.encode crc32IsoHdlc).take 5,
        (sampleFrame.encode crc32IsoHdlc).drop 5 ++ sampleFrame.encode crc32IsoHdlc]).2 =
      [.ok sampleFrame.toFrame, .ok sampleFrame.toFrame] :=
  feedAll_encode crc32IsoHdlc [sampleFrame, sampleFrame] _ (by decide +kernel)
    (accepted_of_length_le _ _ _ (by decide +kernel))

end KiroRs.Parser.DecoderRuns
