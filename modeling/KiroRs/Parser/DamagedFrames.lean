/- Path: KiroRs/Parser/DamagedFrames
   source: src/kiro/parser/decoder.rs, src/anthropic/handlers.rs
   digest: A frame with an intact prelude that the parser rejects: which of the other frames of
   its stream come out. -/

import KiroRs.Parser.Recovery

set_option autoImplicit false
set_option relaxedAutoImplicit false

namespace KiroRs.Parser.DamagedFrames

open KiroRs.Lib.Wire
open KiroRs.Parser.HeaderCodec
open KiroRs.Parser.FrameCodec
open KiroRs.Parser.StreamDecoder
open KiroRs.Parser.StreamDecoder.EventStreamDecoder
open KiroRs.Parser.DecoderRuns
open KiroRs.Parser.Recovery

/-- A frame whose prelude is intact and that the parser rejects all the same. -/
structure DamagedFrame (crc32 : Bytes → UInt32) where
  bytes : Bytes
  delimited : Delimited bytes
  prelude_ok : crc32 (bytes.take 8) = UInt32.ofNat (u32At bytes 8)
  error : ParseError
  rejected : parseFrame crc32 bytes = .error error

def skipsFrame : ParseError → Bool
  | .messageCrcMismatch _ _ | .headerParseFailed _ => true
  | _ => false

/-- The bytes in front of `n` are all there before the last feed. -/
abbrev BeforeLastFeed (n : Nat) (pieces : List Bytes) : Prop :=
  n ≤ pieces.dropLast.flatten.length

variable {crc32 : Bytes → UInt32} {d : EventStreamDecoder} {buffer : Bytes} {errors : Nat}

theorem recoverySkip_damaged (bad : DamagedFrame crc32) (post : Bytes) :
    recoverySkip (bad.bytes ++ post) bad.error =
      if skipsFrame bad.error then bad.bytes.length else 1 := by
  have min_le : 16 ≤ bad.bytes.length := bad.delimited.min_le
  have declared : u32At (bad.bytes ++ post) 0 = bad.bytes.length := by
    rw [u32At_append post (by omega), bad.delimited.declared]
  have nonempty : bad.bytes ++ post ≠ [] := by
    intro empty
    have len := congrArg List.length empty
    rw [List.length_append, List.length_nil] at len
    omega
  have whole : preludeSize ≤ (bad.bytes ++ post).length ∧ 16 ≤ bad.bytes.length ∧
      bad.bytes.length ≤ (bad.bytes ++ post).length := by
    rw [List.length_append, preludeSize]
    omega
  unfold recoverySkip skipsFrame
  rw [if_neg nonempty, declared]
  cases bad.error with
  | messageCrcMismatch | headerParseFailed => exact if_pos whole
  | _ => rfl

theorem feedAll_damaged (bad : DamagedFrame crc32) (tail : Bytes) (pieces : List Bytes)
    {state : DecoderState} (h : At d state buffer 0) (live : Live state)
    (accepted : Accepted crc32 d pieces) (stream : buffer ++ pieces.flatten = bad.bytes ++ tail)
    (short : buffer.length < bad.bytes.length) :
    if bad.bytes.length ≤ buffer.length + pieces.dropLast.flatten.length then
      ∃ d' u rest, okFrames (feedAll crc32 d pieces).2 = okFrames (feedAll crc32 d' rest).2 ∧
        At d' .recovering
          ((bad.bytes ++ u).drop (if skipsFrame bad.error then bad.bytes.length else 1)) 1 ∧
        u ++ rest.flatten = tail ∧ rest ≠ [] ∧ Accepted crc32 d' rest
    else okFrames (feedAll crc32 d pieces).2 = [] := by
  induction pieces generalizing d state buffer with
  | nil =>
      rw [if_neg (by simpa using short)]
      rfl
  | cons data more ih =>
      have fed := at_feed_live h live accepted.1
      have later := accepted.2
      rw [feedAndDrain] at later
      rw [List.flatten_cons, ← List.append_assoc] at stream
      have pre : buffer ++ data <+: bad.bytes ++ tail := by
        rw [← stream]
        exact List.prefix_append _ _
      rcases Nat.lt_or_ge (buffer ++ data).length bad.bytes.length with inside | complete
      · have cut : buffer ++ data <+: bad.bytes :=
          List.prefix_of_prefix_length_le pre (List.prefix_append _ _) (Nat.le_of_lt inside)
        obtain ⟨d', quiet, at_end⟩ := drain_wait fed (parseFrame_short crc32 bad.delimited cut inside)
        rw [quiet] at later
        have rest := ih at_end (Or.inl rfl) later stream inside
        have same : (bad.bytes.length ≤ buffer.length + (data :: more).dropLast.flatten.length) ↔
            (bad.bytes.length ≤ (buffer ++ data).length + more.dropLast.flatten.length) := by
          rw [List.length_append] at inside ⊢
          cases more with
          | nil =>
              simp only [List.dropLast_singleton, List.dropLast_nil, List.flatten_nil,
                List.length_nil]
              omega
          | cons next more =>
              simp only [List.dropLast_cons_cons, List.flatten_cons, List.length_append]
              omega
        have run : (feedAll crc32 d (data :: more)).2 = (feedAll crc32 d' more).2 := by
          simp only [feedAll, feedAndDrain, quiet, List.nil_append]
        rw [run]
        simpa only [same] using rest
      · obtain ⟨u, cut⟩ := List.prefix_of_prefix_length_le (List.prefix_append _ _) pre complete
        rw [← cut, List.append_assoc] at stream
        have tail_eq : u ++ more.flatten = tail := List.append_cancel_left stream
        rw [← cut] at fed
        have failed : parseFrame crc32 (bad.bytes ++ u) = .error bad.error := by
          rw [parseFrame_append crc32 bad.delimited, bad.rejected]
        obtain ⟨d', r, out, after⟩ := drain_error fed failed
        rw [if_pos (by decide), recoverySkip_damaged] at after
        rw [out] at later
        have run : okFrames (feedAll crc32 d (data :: more)).2 =
            okFrames (feedAll crc32 d' more).2 := by
          simp only [feedAll, feedAndDrain, out, okFrames_append, okFrames_error, List.nil_append]
        cases more with
        | nil =>
            rw [if_neg (by simpa using short), run]
            rfl
        | cons next more =>
            rw [if_pos, run]
            · exact ⟨d', u, next :: more, rfl, after, tail_eq, by simp, later⟩
            · rw [List.length_append] at complete
              simp only [List.dropLast_cons_cons, List.flatten_cons, List.length_append]
              omega

def damagedStream (before : List WireFrame) (bad : DamagedFrame crc32) (after : List WireFrame) :
    Bytes :=
  (before.map (·.encode crc32)).flatten ++ (bad.bytes ++ (after.map (·.encode crc32)).flatten)

def OthersYielded (before after : List WireFrame) (results : List (ParseResult Frame)) : Prop :=
  okFrames results = (before ++ after).map (·.toFrame)

/-- The damaged bytes spell no second prelude where recovery looks for one. -/
def NoInnerPrelude (bad : DamagedFrame crc32) : Prop := Blind crc32 (bad.bytes.drop 1) 4

instance (bad : DamagedFrame crc32) : Decidable (NoInnerPrelude bad) :=
  inferInstanceAs (Decidable (Blind _ _ _))

/-- The damaged frame is followed by no frame, or it is one that recovery drops as a whole and it
is there before the last feed. -/
def Isolated (before : List WireFrame) (bad : DamagedFrame crc32) (after : List WireFrame)
    (pieces : List Bytes) : Prop :=
  let received :=
    BeforeLastFeed ((before.map (·.encode crc32)).flatten.length + bad.bytes.length) pieces
  if skipsFrame bad.error then after = [] ∨ received
  else after = [] ∧ (received → NoInnerPrelude bad)

theorem NoInnerPrelude.blind {bad : DamagedFrame crc32} (h : NoInnerPrelude bad) (tail : Bytes) :
    Blind crc32 ((bad.bytes ++ tail).drop 1) 4 := by
  intro j lt found
  have min_le : 16 ≤ bad.bytes.length := bad.delimited.min_le
  apply h j lt
  obtain ⟨-, sum⟩ := found
  rw [List.drop_drop, List.drop_append_of_le_length (by omega)] at sum
  have len : 12 ≤ (bad.bytes.drop (1 + j)).length := by rw [List.length_drop]; omega
  rw [List.take_append_of_le_length (by omega), u32At_append tail (by omega)] at sum
  rw [List.drop_drop]
  exact ⟨len, sum⟩

private theorem after_damaged (bad : DamagedFrame crc32) (after : List WireFrame)
    (pieces : List Bytes) {state : DecoderState} (h : At d state [] 0) (live : Live state)
    (accepted : Accepted crc32 d pieces)
    (stream : pieces.flatten = bad.bytes ++ (after.map (·.encode crc32)).flatten) :
    (if skipsFrame bad.error then
      after = [] ∨ BeforeLastFeed bad.bytes.length pieces ↔
        okFrames (feedAll crc32 d pieces).2 = after.map (·.toFrame)
    else
      (BeforeLastFeed bad.bytes.length pieces → NoInnerPrelude bad) →
        (after = [] ↔ okFrames (feedAll crc32 d pieces).2 = after.map (·.toFrame))) := by
  have min_le : 16 ≤ bad.bytes.length := bad.delimited.min_le
  have nothing (quiet : okFrames (feedAll crc32 d pieces).2 = []) :
      after = [] ↔ okFrames (feedAll crc32 d pieces).2 = after.map (·.toFrame) := by
    rw [quiet]
    constructor
    · rintro rfl
      rfl
    · intro none
      exact List.map_eq_nil_iff.mp none.symm
  have run := feedAll_damaged bad _ pieces h live accepted stream (by rw [List.length_nil]; omega)
  rw [List.length_nil, Nat.zero_add] at run
  by_cases received : BeforeLastFeed bad.bytes.length pieces
  · rw [if_pos received] at run
    obtain ⟨d', u, rest, same, at_after, tail_eq, more, accepted'⟩ := run
    by_cases skips : skipsFrame bad.error
    · rw [if_pos skips, List.drop_left' rfl] at at_after
      rw [if_pos skips, same, feedAll_frames rest at_after (Or.inr rfl) accepted' tail_eq
        (fun ended => absurd ended more), okFrames_frames]
      exact ⟨fun _ => rfl, fun _ => Or.inr received⟩
    · rw [if_neg skips] at at_after ⊢
      intro inner
      apply nothing
      rw [same]
      refine feedAll_blind rest at_after (Or.inr rfl) accepted' (by decide : 5 ≤ 1 + 4) ?_
        (by decide)
      rw [← List.drop_append_of_le_length (by rw [List.length_append]; omega), List.append_assoc,
        tail_eq]
      exact (inner received).blind _
  · rw [if_neg received] at run
    by_cases skips : skipsFrame bad.error
    · rw [if_pos skips, or_iff_left received]
      exact nothing run
    · rw [if_neg skips]
      exact fun _ => nothing run

private theorem behind_dropLast (n : Nat) (pieces : List Bytes) :
    (behind n pieces).dropLast = behind n pieces.dropLast := by
  induction pieces generalizing n with
  | nil => rfl
  | cons data more ih =>
      cases more with
      | nil =>
          rw [behind]
          split_ifs
          · rfl
          · rfl
      | cons next more =>
          rw [List.dropLast_cons_cons]
          by_cases short : data.length < n
          · rw [behind_of_lt short, behind_of_lt short]
            exact ih _
          · rw [behind_of_le (Nat.le_of_not_lt short), behind_of_le (Nat.le_of_not_lt short)]
            rfl

private theorem reach_damaged (before : List WireFrame) (bad : DamagedFrame crc32)
    (after : List WireFrame) (pieces : List Bytes)
    (split : pieces.flatten = damagedStream before bad after)
    (accepted : Accepted crc32 EventStreamDecoder.new pieces) :
    ∃ d state more, At d state [] 0 ∧ Live state ∧ Accepted crc32 d more ∧
      more.flatten = bad.bytes ++ (after.map (·.encode crc32)).flatten ∧
      (BeforeLastFeed bad.bytes.length more ↔ BeforeLastFeed
        ((before.map (·.encode crc32)).flatten.length + bad.bytes.length) pieces) ∧
      (OthersYielded before after (feedAll crc32 EventStreamDecoder.new pieces).2 ↔
        okFrames (feedAll crc32 d more).2 = after.map (·.toFrame)) := by
  obtain ⟨d, state, start, live, accepted', run⟩ :=
    feedAll_reach pieces at_new (Or.inl rfl) accepted split (pending_nil before)
  have pos : 16 ≤ bad.bytes.length := bad.delimited.min_le
  refine ⟨d, state, _, start, live, accepted', ?_, ?_, ?_⟩
  · rw [flatten_behind, split, damagedStream]
    exact List.drop_left' rfl
  · rw [BeforeLastFeed, behind_dropLast, flatten_behind, List.length_drop, List.length_nil]
    omega
  · rw [OthersYielded, run, okFrames_append, okFrames_frames, List.map_append]
    exact List.append_right_inj _

private theorem others_of_isolated (before : List WireFrame) (bad : DamagedFrame crc32)
    (after : List WireFrame) (pieces : List Bytes)
    (split : pieces.flatten = damagedStream before bad after)
    (accepted : Accepted crc32 EventStreamDecoder.new pieces)
    (isolated : Isolated before bad after pieces) :
    OthersYielded before after (feedAll crc32 EventStreamDecoder.new pieces).2 := by
  obtain ⟨d, state, more, start, live, accepted', stream, received, same⟩ :=
    reach_damaged before bad after pieces split accepted
  have run := after_damaged bad after more start live accepted' stream
  rw [same]
  rw [Isolated, ← received] at isolated
  split_ifs at run isolated with skips
  · exact run.mp isolated
  · exact (run isolated.2).mp isolated.1

private theorem isolated_of_others (before : List WireFrame) (bad : DamagedFrame crc32)
    (after : List WireFrame) (pieces : List Bytes)
    (split : pieces.flatten = damagedStream before bad after)
    (accepted : Accepted crc32 EventStreamDecoder.new pieces)
    (sure : skipsFrame bad.error ∨ NoInnerPrelude bad)
    (others : OthersYielded before after (feedAll crc32 EventStreamDecoder.new pieces).2) :
    Isolated before bad after pieces := by
  obtain ⟨d, state, more, start, live, accepted', stream, received, same⟩ :=
    reach_damaged before bad after pieces split accepted
  have run := after_damaged bad after more start live accepted' stream
  rw [same] at others
  rw [Isolated, ← received]
  split_ifs at run ⊢ with skips
  · exact run.mpr others
  · have inner := sure.resolve_left skips
    exact ⟨(run fun _ => inner).mpr others, fun _ => inner⟩

/-- The frames around a damaged one all come out where the damage is isolated; and unless the
damaged bytes happen to spell a second prelude, only there. -/
theorem othersYielded_iff_isolated (crc32 : Bytes → UInt32) (before : List WireFrame)
    (bad : DamagedFrame crc32) (after : List WireFrame) (pieces : List Bytes)
    (split : pieces.flatten = damagedStream before bad after)
    (accepted : Accepted crc32 EventStreamDecoder.new pieces) :
    (Isolated before bad after pieces →
      OthersYielded before after (feedAll crc32 EventStreamDecoder.new pieces).2) ∧
    (skipsFrame bad.error ∨ NoInnerPrelude bad →
      OthersYielded before after (feedAll crc32 EventStreamDecoder.new pieces).2 →
        Isolated before bad after pieces) :=
  ⟨others_of_isolated before bad after pieces split accepted,
    isolated_of_others before bad after pieces split accepted⟩

def badSum : DamagedFrame crc32IsoHdlc where
  bytes := [0, 0, 0, 16, 0, 0, 0, 0, 5, 194, 72, 235, 0, 0, 0, 0]
  delimited := ⟨by decide, by decide, by decide⟩
  prelude_ok := by decide +kernel
  error := .messageCrcMismatch 0 2107164927
  rejected := by decide +kernel

/-- A frame with both checksums right and a header named `a` of the unassigned type 10. -/
def badHeader : DamagedFrame crc32IsoHdlc where
  bytes := [0, 0, 0, 19, 0, 0, 0, 3, 219, 107, 99, 129, 1, 97, 10, 255, 171, 150, 34]
  delimited := ⟨by decide, by decide, by decide⟩
  prelude_ok := by decide +kernel
  error := .invalidHeaderType 10
  rejected := by decide +kernel

def emptyFrame : WireFrame := ⟨[], [], by decide⟩

/-- A frame behind a damaged one is lost when both arrive in one feed, and behind an unknown
header type also when each arrives in a feed of its own. -/
theorem others_lost :
    ¬ OthersYielded [emptyFrame] [emptyFrame] (feedAll crc32IsoHdlc EventStreamDecoder.new
        [damagedStream [emptyFrame] badSum [emptyFrame]]).2 ∧
      ¬ OthersYielded [emptyFrame] [emptyFrame] (feedAll crc32IsoHdlc EventStreamDecoder.new
        [emptyFrame.encode crc32IsoHdlc, badHeader.bytes, emptyFrame.encode crc32IsoHdlc, []]).2 := by
  constructor
  · intro others
    have isolated := isolated_of_others [emptyFrame] badSum [emptyFrame] _ (List.append_nil _)
      (accepted_of_length_le _ _ _ (by decide +kernel)) (Or.inl rfl) others
    rcases isolated with none | received
    · exact absurd none (by simp)
    · exact absurd received (by decide +kernel)
  · intro others
    have isolated := isolated_of_others [emptyFrame] badHeader [emptyFrame] _ (by rfl)
      (accepted_of_length_le _ _ _ (by decide +kernel)) (Or.inr (by decide +kernel)) others
    exact absurd isolated.1 (by simp)

theorem othersYielded_iff_isolated_two_feeds :
    OthersYielded [emptyFrame] [emptyFrame] (feedAll crc32IsoHdlc EventStreamDecoder.new
      [emptyFrame.encode crc32IsoHdlc ++ badSum.bytes, emptyFrame.encode crc32IsoHdlc]).2 :=
  (othersYielded_iff_isolated crc32IsoHdlc [emptyFrame] badSum [emptyFrame] _
    (by decide +kernel) (accepted_of_length_le _ _ _ (by decide +kernel))).1
    (Or.inr (by decide +kernel))

end KiroRs.Parser.DamagedFrames
