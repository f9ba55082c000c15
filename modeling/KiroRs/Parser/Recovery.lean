/- Path: KiroRs/Parser/Recovery
   source: src/kiro/parser/decoder.rs
   digest: What the decoder does with bytes that are no frame: one error a chunk, a skip, and the
   budget of consecutive errors. -/

import KiroRs.Parser.DecoderRuns

set_option autoImplicit false
set_option relaxedAutoImplicit false

namespace KiroRs.Parser.Recovery

open KiroRs.Lib.Wire
open KiroRs.Parser.HeaderCodec
open KiroRs.Parser.FrameCodec
open KiroRs.Parser.StreamDecoder
open KiroRs.Parser.StreamDecoder.EventStreamDecoder
open KiroRs.Parser.DecoderRuns

variable {crc32 : Bytes → UInt32} {d : EventStreamDecoder} {buffer : Bytes} {errors : Nat}

@[simp] theorem okFrames_append (xs ys : List (ParseResult Frame)) :
    okFrames (xs ++ ys) = okFrames xs ++ okFrames ys := by
  simp [okFrames]

@[simp] theorem okFrames_frames (fs : List WireFrame) :
    okFrames (fs.map (.ok ·.toFrame)) = fs.map (·.toFrame) := by
  induction fs with
  | nil => rfl
  | cons f fs ih => simp [okFrames]

@[simp] theorem okFrames_error (e : ParseError) : okFrames [.error e] = [] := rfl

def PreludeMatches (crc32 : Bytes → UInt32) (s : Bytes) : Prop :=
  preludeSize ≤ s.length ∧ crc32 (s.take 8) = UInt32.ofNat (u32At s 8)

instance (crc32 : Bytes → UInt32) (s : Bytes) : Decidable (PreludeMatches crc32 s) :=
  inferInstanceAs (Decidable (_ ∧ _))

/-- None of the first `n` positions starts a prelude whose checksum matches. -/
def Blind (crc32 : Bytes → UInt32) (s : Bytes) (n : Nat) : Prop :=
  ∀ j < n, ¬ PreludeMatches crc32 (s.drop j)

instance (crc32 : Bytes → UInt32) (s : Bytes) (n : Nat) : Decidable (Blind crc32 s n) :=
  inferInstanceAs (Decidable (∀ j < n, _))

theorem PreludeMatches.extend {p s : Bytes} (pre : p <+: s) (h : PreludeMatches crc32 p) :
    PreludeMatches crc32 s := by
  obtain ⟨enough, sum⟩ := h
  have twelve : 12 ≤ p.length := enough
  obtain ⟨post, rfl⟩ := pre
  refine ⟨by rw [List.length_append]; omega, ?_⟩
  rw [List.take_append_of_le_length (by omega), u32At_append post (by omega), sum]

theorem Blind.drop_one {s : Bytes} {n : Nat} (h : Blind crc32 s (n + 1)) :
    Blind crc32 (s.drop 1) n := by
  intro j lt
  rw [List.drop_drop, Nat.add_comm]
  exact h (j + 1) (Nat.succ_lt_succ lt)

theorem Blind.mono {s : Bytes} {m n : Nat} (h : Blind crc32 s n) (le : m ≤ n) :
    Blind crc32 s m := fun j lt => h j (lt_of_lt_of_le lt le)

/-- The number of bytes the parser wants before it answers for a prelude that does not match: the
announced length where it is within the limits, the prelude alone otherwise. -/
def awaited (s : Bytes) : Nat :=
  if minMessageSize ≤ u32At s 0 ∧ u32At s 0 ≤ maxMessageSize then u32At s 0 else preludeSize

theorem preludeSize_le_awaited (s : Bytes) : preludeSize ≤ awaited s := by
  unfold awaited
  split_ifs with within
  · exact le_trans (by decide) within.1
  · exact le_rfl

theorem parseFrame_mismatch (no : ¬ PreludeMatches crc32 buffer) :
    (buffer.length < awaited buffer ∧ parseFrame crc32 buffer = .ok none) ∨
      (awaited buffer ≤ buffer.length ∧ ∃ e, parseFrame crc32 buffer = .error e ∧
        recoverySkip buffer e = 1) := by
  have lo := preludeSize_le_awaited buffer
  by_cases few : buffer.length < preludeSize
  · refine Or.inl ⟨lt_of_lt_of_le few lo, ?_⟩
    rw [parseFrame, if_pos few]
  · have nonempty : buffer ≠ [] := by
      rintro rfl
      exact few (by decide)
    have mismatch : ¬ crc32 (buffer.take 8) = UInt32.ofNat (u32At buffer 8) :=
      fun sum => no ⟨Nat.le_of_not_lt few, sum⟩
    unfold parseFrame
    simp only [if_neg few]
    by_cases small : u32At buffer 0 < minMessageSize
    · have wants : awaited buffer = preludeSize := if_neg (fun h => absurd h.1 (by omega))
      refine Or.inr ⟨by omega, _, by rw [if_pos small], ?_⟩
      simp only [recoverySkip, if_neg nonempty]
    · by_cases large : u32At buffer 0 > maxMessageSize
      · have wants : awaited buffer = preludeSize := if_neg (fun h => absurd h.2 (by omega))
        refine Or.inr ⟨by omega, _, by rw [if_neg small, if_pos large], ?_⟩
        simp only [recoverySkip, if_neg nonempty]
      · have wants : awaited buffer = u32At buffer 0 := if_pos ⟨by omega, by omega⟩
        rw [if_neg small, if_neg large, wants]
        by_cases short : buffer.length < u32At buffer 0
        · exact Or.inl ⟨short, by rw [if_pos short]⟩
        · refine Or.inr ⟨by omega, _, by rw [if_neg short, if_pos mismatch], ?_⟩
          simp only [recoverySkip, if_neg nonempty]

theorem drain_error {e : ParseError} (h : At d .ready buffer errors)
    (failed : parseFrame crc32 buffer = .error e) :
    ∃ d' r, drain crc32 d = (d', [.error r]) ∧
      (if errors + 1 < defaultMaxErrors then
        At d' .recovering (buffer.drop (recoverySkip buffer e)) (errors + 1)
      else At d' .stopped buffer (errors + 1)) := by
  rcases next_ready crc32 h with ⟨_, _, _, got, _⟩ | ⟨_, got, _⟩ |
    ⟨e', d', r, got, many, step, after⟩ | ⟨e', d', got, few, step, after⟩
  · rw [failed] at got
    cases got
  · rw [failed] at got
    cases got
  · refine ⟨d', r, ?_, ?_⟩
    · rw [drain_of_some step, drain_halted (Or.inr after.state_eq)]
    · rwa [if_neg (Nat.not_lt_of_le many)]
  · rw [failed] at got
    cases got
    refine ⟨d', e, ?_, ?_⟩
    · rw [drain_of_some step, drain_halted (Or.inl after.state_eq)]
    · rwa [if_pos few]

theorem feed_stopped (data : Bytes) (h : d.state = .stopped) :
    (d.feed data).1.state = .stopped := by
  rw [feed]
  split_ifs with _ recovering
  · exact h
  · exact absurd (h.symm.trans recovering) (by decide)
  · exact h

theorem feedAll_stopped (pieces : List Bytes) (h : d.state = .stopped) :
    (feedAll crc32 d pieces).2 = [] := by
  induction pieces generalizing d with
  | nil => rfl
  | cons data more ih =>
      have fed := feed_stopped data h
      simp only [feedAll, feedAndDrain, drain_halted (Or.inr fed), List.nil_append]
      exact ih fed

/-- As long as the error budget lasts, nothing comes out of a stream none of whose first positions
starts a matching prelude. -/
theorem feedAll_blind (pieces : List Bytes) {state : DecoderState} (h : At d state buffer errors)
    (live : Live state) (accepted : Accepted crc32 d pieces) {n : Nat}
    (budget : defaultMaxErrors ≤ errors + n)
    (blind : Blind crc32 (buffer ++ pieces.flatten) n) (few : errors < defaultMaxErrors) :
    okFrames (feedAll crc32 d pieces).2 = [] := by
  induction pieces generalizing d state buffer errors n with
  | nil => rfl
  | cons data more ih =>
      have fed := at_feed_live h live accepted.1
      rw [List.flatten_cons, ← List.append_assoc] at blind
      obtain ⟨m, rfl⟩ : ∃ m, n = m + 1 := ⟨n - 1, by omega⟩
      have no : ¬ PreludeMatches crc32 (buffer ++ data) := fun found =>
        blind 0 (Nat.succ_pos m) (found.extend (List.prefix_append _ _))
      have later := accepted.2
      rw [feedAndDrain] at later
      rcases parseFrame_mismatch no with ⟨_, wait⟩ | ⟨enough, e, failed, one⟩
      · obtain ⟨d', quiet, at_end⟩ := drain_wait fed wait
        rw [quiet] at later
        have rest := ih at_end (Or.inl rfl) later budget blind few
        simpa only [feedAll, feedAndDrain, quiet, List.nil_append] using rest
      · obtain ⟨d', r, out, after⟩ := drain_error fed failed
        rw [out] at later
        simp only [feedAll, feedAndDrain, out, okFrames_append, okFrames_error, List.nil_append]
        by_cases left : errors + 1 < defaultMaxErrors
        · rw [if_pos left, one] at after
          have shift : (buffer ++ data).drop 1 ++ more.flatten =
              (buffer ++ data ++ more.flatten).drop 1 := by
            have twelve := (preludeSize_le_awaited (buffer ++ data)).trans enough
            exact (List.drop_append_of_le_length (le_trans (by decide) twelve)).symm
          refine ih after (Or.inr rfl) later (by omega : defaultMaxErrors ≤ errors + 1 + m) ?_ left
          rw [shift]
          exact blind.drop_one
        · rw [if_neg left] at after
          rw [feedAll_stopped more after.state_eq]
          rfl

/-- The chunks as they cut what stands behind the first `n` bytes. -/
def behind : Nat → List Bytes → List Bytes
  | _, [] => []
  | n, data :: more => if data.length < n then behind (n - data.length) more else data.drop n :: more

theorem behind_of_lt {n : Nat} {data : Bytes} {more : List Bytes} (h : data.length < n) :
    behind n (data :: more) = behind (n - data.length) more := by
  rw [behind, if_pos h]

theorem behind_of_le {n : Nat} {data : Bytes} {more : List Bytes} (h : n ≤ data.length) :
    behind n (data :: more) = data.drop n :: more := by
  rw [behind, if_neg (Nat.not_lt_of_le h)]

@[simp] theorem flatten_behind (n : Nat) (pieces : List Bytes) :
    (behind n pieces).flatten = pieces.flatten.drop n := by
  induction pieces generalizing n with
  | nil => simp [behind]
  | cons data more ih =>
      by_cases short : data.length < n
      · rw [behind_of_lt short, ih, List.flatten_cons, List.drop_append,
          List.drop_of_length_le (Nat.le_of_lt short), List.nil_append]
      · have long := Nat.le_of_not_lt short
        rw [behind_of_le long, List.flatten_cons, List.flatten_cons,
          List.drop_append_of_le_length long]

private theorem refeed {t : Bytes} (h : At d .ready t errors) (fits : t.length ≤ defaultMaxBufferSize) :
    ({ d with buffer := [] } : EventStreamDecoder).feed t = (d, .ok ()) := by
  obtain ⟨state_eq, rfl, -, -, size_eq⟩ := h
  have room : ¬ 0 + d.buffer.length > d.maxBufferSize := by rw [size_eq]; omega
  simp only [feed, List.length_nil, if_neg room, List.nil_append, state_eq]
  rw [if_neg (by decide), ← state_eq]

/-- The frames in front come out; what follows is the run of a decoder with an empty buffer and no
errors over the chunks behind them. -/
theorem feedAll_reach (pieces : List Bytes) {state : DecoderState} {fs : List WireFrame}
    {tail : Bytes} (h : At d state buffer 0) (live : Live state) (accepted : Accepted crc32 d pieces)
    (stream : buffer ++ pieces.flatten = (fs.map (·.encode crc32)).flatten ++ tail)
    (pending : (fs = [] ∧ buffer = []) ∨ ∃ f rest, fs = f :: rest ∧ buffer.length < f.totalLength) :
    ∃ d' state', At d' state' [] 0 ∧ Live state' ∧
      Accepted crc32 d' (behind ((fs.map (·.encode crc32)).flatten.length - buffer.length) pieces) ∧
      (feedAll crc32 d pieces).2 = fs.map (.ok ·.toFrame) ++ (feedAll crc32 d'
        (behind ((fs.map (·.encode crc32)).flatten.length - buffer.length) pieces)).2 := by
  induction pieces generalizing d state buffer fs with
  | nil =>
      rcases pending with ⟨rfl, rfl⟩ | ⟨f, rest, rfl, short⟩
      · exact ⟨d, state, h, live, trivial, rfl⟩
      · have len := congrArg List.length stream
        simp only [List.flatten_nil, List.append_nil, List.map_cons, List.flatten_cons,
          List.length_append, WireFrame.length_encode] at len
        omega
  | cons data more ih =>
      have whole : buffer.length ≤ (fs.map (·.encode crc32)).flatten.length := by
        rcases pending with ⟨rfl, rfl⟩ | ⟨f, rest, rfl, short⟩
        · exact Nat.zero_le _
        · simp only [List.map_cons, List.flatten_cons, List.length_append, WireFrame.length_encode]
          omega
      rw [List.flatten_cons] at stream
      rcases feedAndDrain_frames h live accepted.1 stream with
        ⟨d', done, f, rest, t, errors', out, rfl, at_t, zero, stream', short⟩ |
        ⟨d', t, out, at_t, stream', cut⟩
      · obtain rfl := zero rfl
        have accepted' : Accepted crc32 d' more := by simpa only [out] using accepted.2
        obtain ⟨d'', state', at_start, live', accepted'', run⟩ :=
          ih at_t (Or.inl rfl) accepted' stream' (Or.inr ⟨f, rest, rfl, short⟩)
        have lens := congrArg List.length stream
        have lens' := congrArg List.length stream'
        simp only [List.length_append, List.map_append, List.flatten_append, List.map_cons,
          List.flatten_cons, WireFrame.length_encode] at lens lens'
        have skip : behind (((done ++ f :: rest).map (·.encode crc32)).flatten.length -
            buffer.length) (data :: more) =
              behind (((f :: rest).map (·.encode crc32)).flatten.length - t.length) more := by
          simp only [List.length_append, List.map_append, List.flatten_append, List.map_cons,
            List.flatten_cons, WireFrame.length_encode]
          rw [behind_of_lt (by omega)]
          congr 1
          omega
        rw [skip]
        refine ⟨d'', state', at_start, live', accepted'', ?_⟩
        simp only [feedAll, out, run, List.map_append, List.append_assoc]
      · rw [ite_self] at at_t
        have accepted' : Accepted crc32 (drain crc32 d').1 more := by
          simpa only [out] using accepted.2
        have lens := congrArg List.length cut
        simp only [List.length_append] at lens
        have skip : behind ((fs.map (·.encode crc32)).flatten.length - buffer.length)
            (data :: more) = t :: more := by
          have drops := congrArg (List.drop (fs.map (·.encode crc32)).flatten.length) cut
          rw [List.drop_append, List.drop_of_length_le whole, List.nil_append,
            List.drop_left' rfl] at drops
          rw [behind_of_le (by omega), drops]
        have fits : t.length ≤ defaultMaxBufferSize := by
          have room := feed_fits h accepted.1
          omega
        have fed := refeed at_t fits
        have once : feedAndDrain crc32 { d' with buffer := [] } t = drain crc32 d' := by
          rw [feedAndDrain, fed]
        rw [skip]
        refine ⟨{ d' with buffer := [] }, .ready, ⟨at_t.state_eq, rfl, at_t.errors_eq,
          at_t.maxErrors_eq, at_t.maxBufferSize_eq⟩, Or.inl rfl, ⟨by rw [fed], ?_⟩, ?_⟩
        · rwa [once]
        · simp only [feedAll, out, once, List.append_assoc]

theorem pending_nil (fs : List WireFrame) : (fs = [] ∧ ([] : Bytes) = []) ∨
    ∃ f rest, fs = f :: rest ∧ ([] : Bytes).length < f.totalLength := by
  cases fs with
  | nil => exact Or.inl ⟨rfl, rfl⟩
  | cons f rest =>
      refine Or.inr ⟨f, rest, rfl, ?_⟩
      rw [List.length_nil, WireFrame.totalLength, minMessageSize]
      omega

end KiroRs.Parser.Recovery
