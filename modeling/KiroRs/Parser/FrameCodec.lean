/- Path: KiroRs/Parser/FrameCodec
   source: src/kiro/parser/frame.rs, src/kiro/parser/crc.rs
   digest: The event-stream frame parser, the frame encoding and its inverse. -/

import KiroRs.Parser.HeaderCodec

set_option autoImplicit false
set_option relaxedAutoImplicit false

namespace KiroRs.Parser.FrameCodec

open KiroRs.Lib.Wire
open KiroRs.Parser.HeaderCodec

def preludeSize : Nat := 12
def minMessageSize : Nat := preludeSize + 4
def maxMessageSize : Nat := 16 * 1024 * 1024

structure Frame where
  headers : Headers
  payload : Bytes
  deriving DecidableEq

/-- `u32::from_be_bytes` of the four bytes at `i`. -/
def u32At (buffer : Bytes) (i : Nat) : Nat := beNat (slice buffer i (i + 4))

/-- The frame at the front of the buffer with the number of bytes it takes; `none` waits for
more data. The checksum is the fixed function `crc32`. -/
def parseFrame (crc32 : Bytes → UInt32) (buffer : Bytes) : ParseResult (Option (Frame × Nat)) :=
  if buffer.length < preludeSize then .ok none
  else
    let totalLength := u32At buffer 0
    let headerLength := u32At buffer 4
    let preludeCrc := UInt32.ofNat (u32At buffer 8)
    if totalLength < minMessageSize then .error (.messageTooSmall totalLength minMessageSize)
    else if totalLength > maxMessageSize then .error (.messageTooLarge totalLength maxMessageSize)
    -- the whole message is awaited before either checksum is looked at
    else if buffer.length < totalLength then .ok none
    else
      let actualPreludeCrc := crc32 (buffer.take 8)
      if actualPreludeCrc ≠ preludeCrc then
        .error (.preludeCrcMismatch preludeCrc actualPreludeCrc)
      else
        let messageCrc := UInt32.ofNat (u32At buffer (totalLength - 4))
        let actualMessageCrc := crc32 (buffer.take (totalLength - 4))
        if actualMessageCrc ≠ messageCrc then
          .error (.messageCrcMismatch messageCrc actualMessageCrc)
        else
          let headersEnd := preludeSize + headerLength
          if headersEnd > totalLength - 4 then
            .error (.headerParseFailed "头部长度超出消息边界")
          else
            match parseHeaders (slice buffer preludeSize headersEnd) headerLength with
            | .error e => .error e
            | .ok headers =>
                .ok (some (⟨headers, slice buffer headersEnd (totalLength - 4)⟩, totalLength))

/-- A byte string whose length field announces its own length, within the limits. -/
structure Delimited (block : Bytes) : Prop where
  min_le : minMessageSize ≤ block.length
  le_max : block.length ≤ maxMessageSize
  declared : u32At block 0 = block.length

theorem u32At_append {block : Bytes} {i : Nat} (post : Bytes) (h : i + 4 ≤ block.length) :
    u32At (block ++ post) i = u32At block i := by
  rw [u32At, u32At, slice_append_left h]

theorem u32At_prefix {p block : Bytes} {i : Nat} (pre : p <+: block) (h : i + 4 ≤ p.length) :
    u32At block i = u32At p i := by
  obtain ⟨post, rfl⟩ := pre
  exact u32At_append post h

theorem parseFrame_append (crc32 : Bytes → UInt32) {block : Bytes} (h : Delimited block)
    (post : Bytes) : parseFrame crc32 (block ++ post) = parseFrame crc32 block := by
  have min_le : 16 ≤ block.length := h.min_le
  have le_max : block.length ≤ 16777216 := h.le_max
  have declared := h.declared
  have headers_inside (n : Nat) (le : preludeSize + n ≤ block.length - 4) :
      slice (block ++ post) preludeSize (preludeSize + n) =
        slice block preludeSize (preludeSize + n) := slice_append_left (by omega)
  have payload_inside (i : Nat) :
      slice (block ++ post) i (block.length - 4) = slice block i (block.length - 4) :=
    slice_append_left (by omega)
  unfold parseFrame
  simp only [u32At_append post (show 0 + 4 ≤ block.length by omega),
    u32At_append post (show 4 + 4 ≤ block.length by omega),
    u32At_append post (show 8 + 4 ≤ block.length by omega), declared,
    u32At_append post (show block.length - 4 + 4 ≤ block.length by omega),
    List.take_append_of_le_length (show 8 ≤ block.length by omega),
    List.take_append_of_le_length (show block.length - 4 ≤ block.length by omega),
    payload_inside, List.length_append]
  have lo : ¬ block.length < minMessageSize := by simp only [minMessageSize, preludeSize]; omega
  have hi : ¬ block.length > maxMessageSize := by simp only [maxMessageSize]; omega
  have enough : ¬ block.length < preludeSize := by simp only [preludeSize]; omega
  rw [if_neg lo, if_neg lo, if_neg hi, if_neg hi, if_neg enough,
    if_neg (show ¬ block.length + post.length < preludeSize by omega),
    if_neg (show ¬ block.length + post.length < block.length by omega), if_neg (lt_irrefl _)]
  split_ifs with crc msg_crc beyond <;> try rfl
  rw [headers_inside _ (Nat.le_of_not_lt beyond)]

theorem parseFrame_short (crc32 : Bytes → UInt32) {p block : Bytes} (h : Delimited block)
    (pre : p <+: block) (short : p.length < block.length) : parseFrame crc32 p = .ok none := by
  unfold parseFrame
  by_cases hp : p.length < preludeSize
  · rw [if_pos hp]
  · have twelve : 12 ≤ p.length := Nat.le_of_not_lt hp
    have declared : u32At p 0 = block.length := by
      rw [← u32At_prefix pre (by omega), h.declared]
    have min_le := h.min_le
    have le_max := h.le_max
    simp only [if_neg hp, declared]
    rw [if_neg (by omega), if_neg (by omega), if_pos short]

/-- A frame the format can carry: encoded, it does not exceed the message limit. -/
structure WireFrame where
  headers : List WireHeader
  payload : Bytes
  size_le : minMessageSize + (encodeHeaders headers).length + payload.length ≤ maxMessageSize

def WireFrame.toFrame (f : WireFrame) : Frame := ⟨Headers.ofList f.headers, f.payload⟩

def WireFrame.totalLength (f : WireFrame) : Nat :=
  minMessageSize + (encodeHeaders f.headers).length + f.payload.length

def WireFrame.lengths (f : WireFrame) : Bytes :=
  beBytes 4 f.totalLength ++ beBytes 4 (encodeHeaders f.headers).length

/-- Everything the message checksum covers. -/
def WireFrame.covered (crc32 : Bytes → UInt32) (f : WireFrame) : Bytes :=
  f.lengths ++ (beBytes 4 (crc32 f.lengths).toNat ++ (encodeHeaders f.headers ++ f.payload))

def WireFrame.encode (crc32 : Bytes → UInt32) (f : WireFrame) : Bytes :=
  f.covered crc32 ++ beBytes 4 (crc32 (f.covered crc32)).toNat

variable (crc32 : Bytes → UInt32) (f : WireFrame)

private theorem length_lengths : f.lengths.length = 8 := by simp [WireFrame.lengths]

private theorem length_covered : (f.covered crc32).length + 4 = f.totalLength := by
  simp only [WireFrame.covered, List.length_append, length_lengths, length_beBytes,
    WireFrame.totalLength, minMessageSize, preludeSize]
  omega

@[simp] theorem WireFrame.length_encode : (f.encode crc32).length = f.totalLength := by
  rw [WireFrame.encode, List.length_append, length_beBytes, length_covered]

private theorem totalLength_bounds :
    16 ≤ f.totalLength ∧ f.totalLength ≤ 16777216 ∧
      12 + (encodeHeaders f.headers).length + f.payload.length + 4 = f.totalLength := by
  have size_le := f.size_le
  simp only [WireFrame.totalLength, minMessageSize, preludeSize, maxMessageSize] at *
  omega

private theorem u32At_of_drop {data : Bytes} (rest : Bytes) {i n : Nat} (fits : n < 256 ^ 4)
    (h : data.drop i = beBytes 4 n ++ rest) : u32At data i = n := by
  rw [u32At, slice, List.drop_take, h, Nat.add_sub_cancel_left,
    List.take_left' (length_beBytes 4 n), beNat_beBytes_of_lt fits]

private theorem drop_encode_zero : (f.encode crc32).drop 0 =
    beBytes 4 f.totalLength ++ (beBytes 4 (encodeHeaders f.headers).length ++
      (beBytes 4 (crc32 f.lengths).toNat ++ (encodeHeaders f.headers ++
        (f.payload ++ beBytes 4 (crc32 (f.covered crc32)).toNat)))) := by
  simp only [WireFrame.encode, List.drop_zero]
  rw [WireFrame.covered, WireFrame.lengths]
  simp only [List.append_assoc]

private theorem drop_append_beBytes {data rest : Bytes} {i n : Nat}
    (h : data.drop i = beBytes 4 n ++ rest) : data.drop (i + 4) = rest := by
  rw [← List.drop_drop, h, List.drop_left' (length_beBytes 4 n)]

theorem WireFrame.delimited : Delimited (f.encode crc32) := by
  obtain ⟨lo, hi, _⟩ := totalLength_bounds f
  refine ⟨?_, ?_, ?_⟩
  · simpa [minMessageSize, preludeSize] using lo
  · simpa [maxMessageSize] using hi
  · rw [WireFrame.length_encode]
    exact u32At_of_drop _ (by omega) (drop_encode_zero crc32 f)

/-- The frame parser inverts the encoding and takes the whole of it. -/
theorem parseFrame_encode :
    parseFrame crc32 (f.encode crc32) = .ok (some (f.toFrame, f.totalLength)) := by
  obtain ⟨lo, hi, sum⟩ := totalLength_bounds f
  have at0 := drop_encode_zero crc32 f
  have at4 := drop_append_beBytes at0
  have at8 := drop_append_beBytes at4
  have at12 := drop_append_beBytes at8
  have len0 : u32At (f.encode crc32) 0 = f.totalLength := u32At_of_drop _ (by omega) at0
  have len4 : u32At (f.encode crc32) 4 = (encodeHeaders f.headers).length :=
    u32At_of_drop _ (by omega) at4
  have crc8 : u32At (f.encode crc32) 8 = (crc32 f.lengths).toNat :=
    u32At_of_drop _ (crc32 f.lengths).toNat_lt at8
  have first8 : (f.encode crc32).take 8 = f.lengths := by
    rw [WireFrame.encode, WireFrame.covered, List.append_assoc]
    exact List.take_left' (length_lengths f)
  have cov := length_covered crc32 f
  have cov_eq : f.totalLength - 4 = (f.covered crc32).length := by omega
  have body : (f.encode crc32).take (f.totalLength - 4) = f.covered crc32 := by
    rw [cov_eq]
    exact List.take_left' rfl
  have msg : u32At (f.encode crc32) (f.totalLength - 4) = (crc32 (f.covered crc32)).toNat := by
    refine u32At_of_drop [] (crc32 (f.covered crc32)).toNat_lt ?_
    rw [cov_eq, List.append_nil]
    exact List.drop_left' rfl
  have heads : slice (f.encode crc32) 12 (12 + (encodeHeaders f.headers).length) =
      encodeHeaders f.headers := by
    rw [slice, List.drop_take, at12, Nat.add_sub_cancel_left, List.take_left' rfl]
  have pay : slice (f.encode crc32) (12 + (encodeHeaders f.headers).length)
      (f.totalLength - 4) = f.payload := by
    have size : f.totalLength - 4 - (12 + (encodeHeaders f.headers).length) = f.payload.length := by
      omega
    rw [slice, List.drop_take, ← List.drop_drop, at12, List.drop_left' rfl, size,
      List.take_left' rfl]
  unfold parseFrame
  simp only [len0, len4, crc8, first8, body, msg, UInt32.ofNat_toNat, WireFrame.length_encode,
    ne_eq, not_true_eq_false, if_false, preludeSize, minMessageSize, maxMessageSize, heads, pay,
    parseHeaders_encodeHeaders]
  rw [if_neg (by omega), if_neg (by omega), if_neg (by omega), if_neg (by omega),
    if_neg (by omega)]
  rfl

end KiroRs.Parser.FrameCodec
