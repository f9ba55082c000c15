/- Path: KiroRs/Parser/StrayBytes
   source: src/kiro/parser/decoder.rs, src/kiro/parser/frame.rs
   digest: Bytes between two frames that start no prelude: when the decoder finds the next frame
   again, and when it stops. -/

import KiroRs.Parser.Recovery

set_option autoImplicit false
set_option relaxedAutoImplicit false

namespace KiroRs.Parser.StrayBytes

open KiroRs.Lib.Wire
open KiroRs.Parser.HeaderCodec
open KiroRs.Parser.FrameCodec
open KiroRs.Parser.StreamDecoder
open KiroRs.Parser.StreamDecoder.EventStreamDecoder
open KiroRs.Parser.DecoderRuns
open KiroRs.Parser.Recovery

/-- The bytes of the stream: intact frames, the stray region, intact frames. -/
def strayStream (crc32 : Bytes → UInt32) (before : List WireFrame) (region : Bytes)
    (after : List WireFrame) : Bytes :=
  (before.map (·.encode crc32)).flatten ++ (region ++ (after.map (·.encode crc32)).flatten)

/-- The scan over the region ends before the chunks do: every stray byte is passed in a chunk of
its own, which completes the bytes announced there, and a chunk is left for what follows. Of the
bytes from the current position on, `fed` are buffered; `rest` is what stands behind the region. -/
def Resyncs (rest : Bytes) : Bytes → Nat → List Bytes → Prop
  | _, _, [] => False
  | [], _, _ :: _ => True
  | b :: region, fed, data :: more =>
      if awaited (b :: region ++ rest) ≤ fed + data.length then
        Resyncs rest region (fed + data.length - 1) more
      else Resyncs rest (b :: region) (fed + data.length) more

def Reported (results : List (ParseResult Frame)) : Prop := ∃ e, .error e ∈ results

variable {crc32 : Bytes → UInt32} {d : EventStreamDecoder} {buffer : Bytes} {errors : Nat}

theorem awaited_append {p : Bytes} (post : Bytes) (h : 4 ≤ p.length) :
    awaited (p ++ post) = awaited p := by
  rw [awaited, awaited, u32At_append post (by omega)]

theorem Reported.append_right {xs : List (ParseResult Frame)} (ys : List (ParseResult Frame))
    (h : Reported ys) : Reported (xs ++ ys) := by
  obtain ⟨e, mem⟩ := h
  exact ⟨e, List.mem_append_right xs mem⟩

private theorem parseFrame_stray {stream post : Bytes} (stream_eq : stream = buffer ++ post)
    (no : ¬ PreludeMatches crc32 stream) :
    if awaited stream ≤ buffer.length then
      ∃ e, parseFrame crc32 buffer = .error e ∧ recoverySkip buffer e = 1
    else parseFrame crc32 buffer = .ok none := by
  have lo := preludeSize_le_awaited stream
  have lo' := preludeSize_le_awaited buffer
  have same : 4 ≤ buffer.length → awaited stream = awaited buffer := by
    intro enough
    rw [stream_eq, awaited_append post enough]
  rw [preludeSize] at lo lo'
  rcases parseFrame_mismatch (fun found => no (found.extend ⟨post, stream_eq.symm⟩)) with
    ⟨short, wait⟩ | ⟨enough, failed⟩
  · rw [if_neg]
    · exact wait
    · intro le
      have := same (by omega)
      omega
  · rw [if_pos]
    · exact failed
    · rw [same (by omega)]
      exact enough

theorem feedAll_resyncs (after : List WireFrame) (pieces : List Bytes) {state : DecoderState}
    {region : Bytes} (h : At d state buffer errors) (live : Live state)
    (accepted : Accepted crc32 d pieces)
    (stream : buffer ++ pieces.flatten = region ++ (after.map (·.encode crc32)).flatten)
    (budget : errors + region.length < defaultMaxErrors)
    (blind : Blind crc32 (region ++ (after.map (·.encode crc32)).flatten) region.length)
    (resyncs : Resyncs (after.map (·.encode crc32)).flatten region buffer.length pieces) :
    okFrames (feedAll crc32 d pieces).2 = after.map (·.toFrame) ∧
      (region ≠ [] → Reported (feedAll crc32 d pieces).2) := by
  induction pieces generalizing d state buffer errors region with
  | nil => cases resyncs
  | cons data more ih =>
      cases region with
      | nil =>
          rw [feedAll_frames (data :: more) h live accepted stream (fun ended => by cases ended),
            okFrames_frames]
          exact ⟨rfl, fun some => absurd rfl some⟩
      | cons b region =>
          have fed := at_feed_live h live accepted.1
          have later := accepted.2
          rw [feedAndDrain] at later
          rw [List.flatten_cons, ← List.append_assoc] at stream
          have parsed := parseFrame_stray stream.symm (blind 0 (Nat.succ_pos _))
          rw [List.length_append] at parsed
          rw [Resyncs] at resyncs
          split_ifs at parsed resyncs with enough
          · obtain ⟨e, failed, one⟩ := parsed
            obtain ⟨d', r, out, after'⟩ := drain_error fed failed
            rw [List.length_cons] at budget
            rw [if_pos (by omega), one] at after'
            rw [out] at later
            have twelve := (preludeSize_le_awaited (b :: region ++ _)).trans enough
            rw [preludeSize] at twelve
            have shift : (buffer ++ data).drop 1 ++ more.flatten =
                region ++ (after.map (·.encode crc32)).flatten := by
              rw [← List.drop_append_of_le_length (by rw [List.length_append]; omega), stream]
              rfl
            have len : ((buffer ++ data).drop 1).length = buffer.length + data.length - 1 := by
              rw [List.length_drop, List.length_append]
            have blind' : Blind crc32 (region ++ (after.map (·.encode crc32)).flatten)
                region.length := blind.drop_one
            obtain ⟨frames, -⟩ := ih after' (Or.inr rfl) later shift (by omega) blind'
              (by rwa [len])
            simp only [feedAll, feedAndDrain, out]
            refine ⟨by rw [okFrames_append, frames]; rfl, fun _ => ⟨r, ?_⟩⟩
            exact List.mem_append_left _ List.mem_cons_self
          · obtain ⟨d', quiet, at_end⟩ := drain_wait fed parsed
            rw [quiet] at later
            have rest := ih at_end (Or.inl rfl) later stream budget blind
              (by rwa [List.length_append])
            simpa only [feedAll, feedAndDrain, quiet, List.nil_append] using rest

theorem feedAll_reports (pieces : List Bytes) {state : DecoderState} {stream : Bytes}
    (h : At d state buffer errors) (live : Live state) (accepted : Accepted crc32 d pieces)
    (stream_eq : stream = buffer ++ pieces.flatten) (no : ¬ PreludeMatches crc32 stream)
    (short : buffer.length < awaited stream) (whole : awaited stream ≤ stream.length) :
    Reported (feedAll crc32 d pieces).2 := by
  induction pieces generalizing d state buffer with
  | nil =>
      rw [stream_eq, List.flatten_nil, List.append_nil] at whole short
      omega
  | cons data more ih =>
      have fed := at_feed_live h live accepted.1
      have later := accepted.2
      rw [feedAndDrain] at later
      rw [List.flatten_cons, ← List.append_assoc] at stream_eq
      have parsed := parseFrame_stray stream_eq no
      split_ifs at parsed with enough
      · obtain ⟨e, failed, -⟩ := parsed
        obtain ⟨d', r, out, -⟩ := drain_error fed failed
        simp only [feedAll, feedAndDrain, out]
        exact ⟨r, List.mem_append_left _ List.mem_cons_self⟩
      · obtain ⟨d', quiet, at_end⟩ := drain_wait fed parsed
        rw [quiet] at later
        have rest := ih at_end (Or.inl rfl) later stream_eq (Nat.lt_of_not_le enough)
        simpa only [feedAll, feedAndDrain, quiet, List.nil_append] using rest

private theorem reach_stray (before : List WireFrame) (region : Bytes) (after : List WireFrame)
    (pieces : List Bytes) (split : pieces.flatten = strayStream crc32 before region after)
    (accepted : Accepted crc32 EventStreamDecoder.new pieces) :
    ∃ d state, At d state [] 0 ∧ Live state ∧
      Accepted crc32 d (behind (before.map (·.encode crc32)).flatten.length pieces) ∧
      (behind (before.map (·.encode crc32)).flatten.length pieces).flatten =
        region ++ (after.map (·.encode crc32)).flatten ∧
      (feedAll crc32 EventStreamDecoder.new pieces).2 = before.map (.ok ·.toFrame) ++
        (feedAll crc32 d (behind (before.map (·.encode crc32)).flatten.length pieces)).2 := by
  obtain ⟨d, state, start, live, accepted', run⟩ :=
    feedAll_reach pieces at_new (Or.inl rfl) accepted split (pending_nil before)
  refine ⟨d, state, start, live, accepted', ?_, run⟩
  rw [flatten_behind, split, strayStream]
  exact List.drop_left' rfl

/-- Stray bytes that start no prelude, between two frames. The decoder reports them once the bytes
they announce are there. Fewer of them than the error budget cost no frame, given the chunks the
scan takes; where they use the budget up, the decoder stops and no later frame comes out. -/
theorem feedAll_strayStream (crc32 : Bytes → UInt32) (before : List WireFrame) (region : Bytes)
    (after : List WireFrame) (pieces : List Bytes) (stray : region ≠ [])
    (blind : Blind crc32 (region ++ (after.map (·.encode crc32)).flatten) region.length)
    (split : pieces.flatten = strayStream crc32 before region after)
    (accepted : Accepted crc32 EventStreamDecoder.new pieces) :
    (awaited (region ++ (after.map (·.encode crc32)).flatten) ≤
        (region ++ (after.map (·.encode crc32)).flatten).length →
      Reported (feedAll crc32 EventStreamDecoder.new pieces).2) ∧
    (region.length < defaultMaxErrors →
      Resyncs (after.map (·.encode crc32)).flatten region 0
        (behind (before.map (·.encode crc32)).flatten.length pieces) →
      Reported (feedAll crc32 EventStreamDecoder.new pieces).2 ∧
        okFrames (feedAll crc32 EventStreamDecoder.new pieces).2 =
          (before ++ after).map (·.toFrame)) ∧
    (defaultMaxErrors ≤ region.length →
      okFrames (feedAll crc32 EventStreamDecoder.new pieces).2 = before.map (·.toFrame)) := by
  obtain ⟨d, state, start, live, accepted', stream, run⟩ :=
    reach_stray before region after pieces split accepted
  have no : ¬ PreludeMatches crc32 (region ++ (after.map (·.encode crc32)).flatten) :=
    blind 0 (List.length_pos_of_ne_nil stray)
  rw [run, okFrames_append, okFrames_frames]
  refine ⟨fun whole => ?_, fun few resyncs => ?_, fun many => ?_⟩
  · apply Reported.append_right
    refine feedAll_reports _ start live accepted' stream.symm no ?_ whole
    exact lt_of_lt_of_le (by decide) (preludeSize_le_awaited _)
  · obtain ⟨frames, reported⟩ := feedAll_resyncs after _ start live accepted' stream
      (by rwa [Nat.zero_add]) blind resyncs
    rw [frames, List.map_append]
    exact ⟨(reported stray).append_right, rfl⟩
  · have quiet := feedAll_blind _ start live accepted' (by decide : defaultMaxErrors ≤ 0 + 5)
      (by rw [List.nil_append, stream]; exact blind.mono many) (by decide)
    rw [quiet, List.append_nil]

theorem ping_size : minMessageSize + (encodeHeaders []).length + ([] : Bytes).length ≤
    maxMessageSize := by
  decide

def ping : WireFrame := ⟨[], [], ping_size⟩

private def pingBytes : Bytes := [0, 0, 0, 16, 0, 0, 0, 0, 5, 194, 72, 235, 125, 152, 200, 255]

private theorem encode_ping : ping.encode crc32IsoHdlc = pingBytes := by decide +kernel

/-- Stray bytes lose frames in three ways: five of them use up the error budget, the iterator
pauses at an error until the next feed, and a bogus length within the limits is waited for, without
a report. -/
theorem strayBytes_lose_frames :
    (Blind crc32IsoHdlc ([0, 0, 0, 0, 0] ++ ping.encode crc32IsoHdlc) 5 ∧
      okFrames (feedAll crc32IsoHdlc EventStreamDecoder.new
        (([0, 0, 0, 0, 0] ++ ping.encode crc32IsoHdlc) ::
          List.replicate 5 (ping.encode crc32IsoHdlc))).2 = []) ∧
    (Blind crc32IsoHdlc (0 :: ping.encode crc32IsoHdlc) 1 ∧
      okFrames (feedAll crc32IsoHdlc EventStreamDecoder.new
        [0 :: ping.encode crc32IsoHdlc]).2 = []) ∧
    (Blind crc32IsoHdlc (1 :: ping.encode crc32IsoHdlc) 1 ∧
      (feedAll crc32IsoHdlc EventStreamDecoder.new
        [1 :: ping.encode crc32IsoHdlc, ping.encode crc32IsoHdlc]).2 = []) := by
  rw [encode_ping]
  decide +kernel

theorem feedAll_strayStream_one_byte :
    Reported (feedAll crc32IsoHdlc EventStreamDecoder.new
        [0 :: ping.encode crc32IsoHdlc, ping.encode crc32IsoHdlc]).2 ∧
      okFrames (feedAll crc32IsoHdlc EventStreamDecoder.new
        [0 :: ping.encode crc32IsoHdlc, ping.encode crc32IsoHdlc]).2 =
          [ping.toFrame, ping.toFrame] :=
  (feedAll_strayStream crc32IsoHdlc [] [0] [ping, ping] _ (by decide) (by decide +kernel)
    (by decide +kernel) (accepted_of_length_le _ _ _ (by decide +kernel))).2.1 (by decide) (by
      rw [List.map_nil, List.flatten_nil, List.length_nil, behind_of_le (Nat.zero_le _), Resyncs,
        if_pos (by decide +kernel)]
      trivial)

end KiroRs.Parser.StrayBytes
