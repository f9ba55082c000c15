/- Path: KiroRs/Parser/Safety
   source: src/kiro/parser/frame.rs, src/kiro/parser/header.rs, src/kiro/parser/decoder.rs
   digest: The parser with every index, slice, sum and difference checked never faults and returns
   what the parser returns; a drain makes progress with every item and ends. -/

import KiroRs.Lib.Checked
import KiroRs.Lib.Results
import KiroRs.Parser.StreamDecoder

set_option autoImplicit false
set_option relaxedAutoImplicit false

namespace KiroRs.Parser.Safety

open KiroRs.Lib.Wire
open KiroRs.Lib.Checked
open KiroRs.Lib.Results (bind_ok ok_bind)
open KiroRs.Parser.HeaderCodec
open KiroRs.Parser.FrameCodec
open KiroRs.Parser.StreamDecoder
open KiroRs.Parser.StreamDecoder.EventStreamDecoder

/-- One more than the largest `usize`. -/
def sizeLimit : Nat := 2 ^ 64

/-- A byte string the program can hold: no slice is longer than `isize::MAX`. -/
structure ByteString where
  bytes : Bytes
  fits : bytes.length < 2 ^ 63

/-- A sum of `usize` values. -/
def addSize (a b : Nat) : MayFault Nat := add sizeLimit a b

theorem addSize_of_lt {a b : Nat} (fits : a + b < 2 ^ 64) : addSize a b = .ok (a + b) :=
  add_of_lt fits

def checkedReadFixed (data : Bytes) (width : Nat) (value : Nat → HeaderValue) :
    MayFault (ParseResult (HeaderValue × Nat)) :=
  match ensureBytes data width with
  | .error e => return .error e
  | .ok _ => do
    let bytes ← indexes data (List.range' 0 width)
    return .ok (value (beNat bytes), width)

def checkedReadSized (data : Bytes) (value : Bytes → HeaderValue) :
    MayFault (ParseResult (HeaderValue × Nat)) :=
  match ensureBytes data 2 with
  | .error e => return .error e
  | .ok _ => do
    let len := beNat (← indexes data [0, 1])
    let stop ← addSize 2 len
    match ensureBytes data stop with
    | .error e => return .error e
    | .ok _ =>
      let bytes ← range data 2 stop
      return .ok (value bytes, stop)

/-- `copy_from_slice` into the sixteen bytes of a UUID wants exactly sixteen bytes. -/
def checkedReadUuid (data : Bytes) : MayFault (ParseResult (HeaderValue × Nat)) :=
  match ensureBytes data 16 with
  | .error e => return .error e
  | .ok _ => do
    let bytes ← range data 0 16
    if exact : bytes.length = 16 then return .ok (.uuid ⟨bytes, exact⟩, 16)
    else throw (.lengthMismatch 16 bytes.length)

def checkedParseHeaderValue (data : Bytes) :
    HeaderValueType → MayFault (ParseResult (HeaderValue × Nat))
  | .boolTrue => return .ok (.bool true, 0)
  | .boolFalse => return .ok (.bool false, 0)
  | .byte => checkedReadFixed data 1 fun n => .byte (UInt8.ofNat n).toInt8
  | .short => checkedReadFixed data 2 fun n => .short (UInt16.ofNat n).toInt16
  | .integer => checkedReadFixed data 4 fun n => .integer (UInt32.ofNat n).toInt32
  | .long => checkedReadFixed data 8 fun n => .long (UInt64.ofNat n).toInt64
  | .timestamp => checkedReadFixed data 8 fun n => .timestamp (UInt64.ofNat n).toInt64
  | .byteArray => checkedReadSized data .byteArray
  | .string => checkedReadSized data fun v => .string (fromUtf8Lossy v)
  | .uuid => checkedReadUuid data

def checkedParseHeader (data : Bytes) (offset : Nat) :
    MayFault (ParseResult (String × HeaderValue × Nat)) := do
  let nameLen := (← index data offset).toNat
  let nameStart ← addSize offset 1
  if nameLen = 0 then return .error (.headerParseFailed "头部名称长度不能为 0")
  else
    let typeAt ← addSize nameStart nameLen
    if typeAt > data.length then
      let available ← minus data.length nameStart
      return .error (.incomplete nameLen available)
    else
      let name ← range data nameStart typeAt
      if typeAt ≥ data.length then return .error (.incomplete 1 0)
      else
        match HeaderValueType.tryFrom (← index data typeAt) with
        | .error e => return .error e
        | .ok valueType =>
          let valueStart ← addSize typeAt 1
          let rest ← range data valueStart data.length
          match ← checkedParseHeaderValue rest valueType with
          | .error e => return .error e
          | .ok (value, consumed) =>
            let next ← addSize valueStart consumed
            return .ok (fromUtf8Lossy name, value, next)

theorem checkedReadFixed_eq (data : Bytes) (width : Nat) (value : Nat → HeaderValue) :
    checkedReadFixed data width value = .ok (readFixed data width value) := by
  unfold checkedReadFixed readFixed
  by_cases short : data.length < width
  · simp only [ensureBytes, if_pos short]
    rfl
  · have bytes := indexes_consecutive data (i := 0) width (by omega)
    rw [Nat.zero_add, List.drop_zero] at bytes
    simp only [ensureBytes, if_neg short, bytes]
    rfl

theorem checkedReadSized_eq (data : Bytes) (value : Bytes → HeaderValue) :
    checkedReadSized data value = .ok (readSized data value) := by
  unfold checkedReadSized readSized
  by_cases short : data.length < 2
  · simp only [ensureBytes, if_pos short]
    rfl
  · have two : indexes data [0, 1] = .ok (data.take 2) :=
      indexes_consecutive data (i := 0) 2 (by omega)
    have small : beNat (data.take 2) < 256 ^ 2 := by
      have bound := beNat_lt (data.take 2)
      rwa [List.length_take_of_le (by omega)] at bound
    have stop : addSize 2 (beNat (data.take 2)) = .ok (2 + beNat (data.take 2)) :=
      addSize_of_lt (by omega)
    simp only [ensureBytes, if_neg short, two, stop, ok_bind]
    by_cases cut : data.length < 2 + beNat (data.take 2)
    · simp only [if_pos cut]
      rfl
    · have body := range_of_le data (i := 2) (Nat.le_add_right 2 _) (Nat.le_of_not_lt cut)
      simp only [if_neg cut, body]
      rfl

theorem checkedParseHeaderValue_eq (data : Bytes) (t : HeaderValueType) :
    checkedParseHeaderValue data t = .ok (parseHeaderValue data t) := by
  cases t with
  | boolTrue => rfl
  | boolFalse => rfl
  | byte | short | integer | long | timestamp =>
    simp only [checkedParseHeaderValue, parseHeaderValue]
    exact checkedReadFixed_eq data _ _
  | byteArray | string =>
    simp only [checkedParseHeaderValue, parseHeaderValue]
    exact checkedReadSized_eq data _
  | uuid =>
    unfold checkedParseHeaderValue checkedReadUuid parseHeaderValue
    by_cases short : data.length < 16
    · simp only [ensureBytes, if_pos short, dif_pos short]
      rfl
    · have body := range_of_le data (Nat.zero_le 16) (Nat.le_of_not_lt short)
      have exact16 : ((data.take 16).drop 0).length = 16 := by
        rw [List.drop_zero, List.length_take]
        omega
      simp only [ensureBytes, if_neg short, dif_neg short, body, ok_bind, dif_pos exact16]
      rfl

theorem parseHeaderValue_consumed {data : Bytes} {t : HeaderValueType} {v : HeaderValue} {n : Nat}
    (h : parseHeaderValue data t = .ok (v, n)) : n ≤ data.length := by
  have fixed (width : Nat) (value : Nat → HeaderValue)
      (h : readFixed data width value = .ok (v, n)) : n ≤ data.length := by
    unfold readFixed ensureBytes at h
    grind
  have sized (value : Bytes → HeaderValue) (h : readSized data value = .ok (v, n)) :
      n ≤ data.length := by
    unfold readSized ensureBytes at h
    grind
  cases t with
  | boolTrue | boolFalse =>
    cases h
    exact Nat.zero_le _
  | byte | short | integer | long | timestamp =>
    simp only [parseHeaderValue] at h
    exact fixed _ _ h
  | byteArray | string =>
    simp only [parseHeaderValue] at h
    exact sized _ h
  | uuid =>
    unfold parseHeaderValue at h
    grind

theorem checkedParseHeader_eq {data : Bytes} (fits : data.length < 2 ^ 63) {offset : Nat}
    (inside : offset < data.length) :
    checkedParseHeader data offset = .ok (parseHeader data offset) := by
  have byte := (data.getD offset 0).toNat_lt
  have start := addSize_of_lt (a := offset) (b := 1) (by omega)
  have typeAt := addSize_of_lt (a := offset + 1) (b := (data.getD offset 0).toNat) (by omega)
  unfold checkedParseHeader parseHeader
  simp only [index_of_lt 0 inside, start, typeAt, ok_bind]
  by_cases unnamed : (data.getD offset 0).toNat = 0
  · simp only [if_pos unnamed]
    rfl
  · rw [if_neg unnamed, if_neg unnamed]
    by_cases cut : offset + 1 + (data.getD offset 0).toNat > data.length
    · simp only [if_pos cut, minus_of_le (show offset + 1 ≤ data.length by omega)]
      rfl
    · have name := range_of_le data (Nat.le_add_right (offset + 1)
        (data.getD offset 0).toNat) (Nat.le_of_not_lt cut)
      simp only [if_neg cut, name, ok_bind]
      by_cases untyped : offset + 1 + (data.getD offset 0).toNat ≥ data.length
      · simp only [if_pos untyped]
        rfl
      · have typed := Nat.lt_of_not_le untyped
        have value := addSize_of_lt (a := offset + 1 + (data.getD offset 0).toNat) (b := 1)
          (by omega)
        have rest := range_of_le data
          (show offset + 1 + (data.getD offset 0).toNat + 1 ≤ data.length by omega) le_rfl
        rw [List.take_length] at rest
        simp only [if_neg untyped, index_of_lt 0 typed, ok_bind]
        cases HeaderValueType.tryFrom _ with
        | error e => rfl
        | ok valueType =>
          simp only [value, rest, ok_bind, checkedParseHeaderValue_eq]
          cases parsed : parseHeaderValue _ valueType with
          | error e => rfl
          | ok found =>
            obtain ⟨v, consumed⟩ := found
            have within := parseHeaderValue_consumed parsed
            rw [List.length_drop] at within
            have next := addSize_of_lt (a := offset + 1 + (data.getD offset 0).toNat + 1)
              (b := consumed) (by omega)
            simp only [next, ok_bind]
            rfl

theorem checkedParseHeader_offset_lt {data : Bytes} {offset next : Nat} {name : String}
    {value : HeaderValue} (h : checkedParseHeader data offset = .ok (.ok (name, value, next))) :
    offset < next := by
  unfold checkedParseHeader at h
  obtain ⟨_, -, h⟩ := bind_ok h
  obtain ⟨nameStart, start, h⟩ := bind_ok h
  have start := add_ok start
  split at h
  · cases h
  obtain ⟨typeAt, named, h⟩ := bind_ok h
  have named := add_ok named
  split at h
  · obtain ⟨_, -, h⟩ := bind_ok h
    cases h
  obtain ⟨_, -, h⟩ := bind_ok h
  split at h
  · cases h
  obtain ⟨_, -, h⟩ := bind_ok h
  split at h
  · cases h
  obtain ⟨valueStart, typed, h⟩ := bind_ok h
  have typed := add_ok typed
  obtain ⟨_, -, h⟩ := bind_ok h
  obtain ⟨found, -, h⟩ := bind_ok h
  split at h
  · cases h
  obtain ⟨_, last, h⟩ := bind_ok h
  have last := add_ok last
  cases h
  omega

def checkedParseHeadersFrom (data : Bytes) (headerLength offset : Nat) (headers : Headers) :
    MayFault (ParseResult Headers) :=
  if offset < headerLength then
    if offset ≥ data.length then return .ok headers
    else
      match _h : checkedParseHeader data offset with
      | .error fault => throw fault
      | .ok (.error e) => return .error e
      | .ok (.ok (name, value, next)) =>
          checkedParseHeadersFrom data headerLength next (headers.insert name value)
  else return .ok headers
termination_by headerLength - offset
decreasing_by
  have := checkedParseHeader_offset_lt _h
  omega

def checkedParseHeaders (data : Bytes) (headerLength : Nat) : MayFault (ParseResult Headers) :=
  if data.length < headerLength then return .error (.incomplete headerLength data.length)
  else checkedParseHeadersFrom data headerLength 0 ∅

theorem checkedParseHeadersFrom_eq {data : Bytes} (fits : data.length < 2 ^ 63)
    (headerLength offset : Nat) (headers : Headers) :
    checkedParseHeadersFrom data headerLength offset headers =
      .ok (parseHeadersFrom data headerLength offset headers) := by
  induction offset, headers using parseHeadersFrom.induct data headerLength with
  | case1 offset headers more ended =>
    rw [checkedParseHeadersFrom, parseHeadersFrom, if_pos more, if_pos more, if_pos ended,
      if_pos ended]
    rfl
  | case2 offset headers more inside e failed =>
    have same := checkedParseHeader_eq fits (Nat.lt_of_not_le inside)
    rw [failed] at same
    rw [checkedParseHeadersFrom, parseHeadersFrom, if_pos more, if_pos more, if_neg inside,
      if_neg inside]
    split <;> rename_i checked <;> rw [same] at checked <;> cases checked
    split <;> rename_i parsed <;> rw [failed] at parsed <;> cases parsed
    rfl
  | case3 offset headers more inside name value next parsed ih =>
    have same := checkedParseHeader_eq fits (Nat.lt_of_not_le inside)
    rw [parsed] at same
    rw [checkedParseHeadersFrom, parseHeadersFrom, if_pos more, if_pos more, if_neg inside,
      if_neg inside]
    split <;> rename_i checked <;> rw [same] at checked <;> cases checked
    split <;> rename_i found <;> rw [parsed] at found <;> cases found
    exact ih
  | case4 offset headers done =>
    rw [checkedParseHeadersFrom, parseHeadersFrom, if_neg done, if_neg done]
    rfl

theorem checkedParseHeaders_eq {data : Bytes} (fits : data.length < 2 ^ 63) (headerLength : Nat) :
    checkedParseHeaders data headerLength = .ok (parseHeaders data headerLength) := by
  unfold checkedParseHeaders parseHeaders
  split_ifs with short
  · rfl
  · exact checkedParseHeadersFrom_eq fits headerLength 0 ∅

def checkedParseFrame (crc32 : Bytes → UInt32) (buffer : Bytes) :
    MayFault (ParseResult (Option (Frame × Nat))) :=
  if buffer.length < preludeSize then return .ok none
  else do
    let totalLength := beNat (← indexes buffer [0, 1, 2, 3])
    let headerLength := beNat (← indexes buffer [4, 5, 6, 7])
    let preludeCrc := UInt32.ofNat (beNat (← indexes buffer [8, 9, 10, 11]))
    if totalLength < minMessageSize then
      return .error (.messageTooSmall totalLength minMessageSize)
    else if totalLength > maxMessageSize then
      return .error (.messageTooLarge totalLength maxMessageSize)
    else if buffer.length < totalLength then return .ok none
    else
      let actualPreludeCrc := crc32 (← range buffer 0 8)
      if actualPreludeCrc ≠ preludeCrc then
        return .error (.preludeCrcMismatch preludeCrc actualPreludeCrc)
      else
        let messageCrc := UInt32.ofNat (beNat (← indexes buffer
          [← minus totalLength 4, ← minus totalLength 3, ← minus totalLength 2,
            ← minus totalLength 1]))
        let actualMessageCrc := crc32 (← range buffer 0 (← minus totalLength 4))
        if actualMessageCrc ≠ messageCrc then
          return .error (.messageCrcMismatch messageCrc actualMessageCrc)
        else
          let headersEnd ← addSize preludeSize headerLength
          if headersEnd > (← minus totalLength 4) then
            return .error (.headerParseFailed "头部长度超出消息边界")
          else
            match ← checkedParseHeaders (← range buffer preludeSize headersEnd) headerLength with
            | .error e => return .error e
            | .ok headers =>
              let payload ← range buffer headersEnd (← minus totalLength 4)
              return .ok (some (⟨headers, payload⟩, totalLength))

/-- The frame parser reads inside its buffer, whatever the wire announces. -/
theorem checkedParseFrame_eq (crc32 : Bytes → UInt32) {buffer : Bytes}
    (fits : buffer.length < 2 ^ 63) :
    checkedParseFrame crc32 buffer = .ok (parseFrame crc32 buffer) := by
  have word (i : Nat) (inside : i + 4 ≤ buffer.length) :
      indexes buffer [i, i + 1, i + 2, i + 3] = .ok (slice buffer i (i + 4)) :=
    indexes_consecutive buffer 4 inside
  have narrow : beNat (slice buffer 4 (4 + 4)) < 256 ^ 4 := by
    have bound := beNat_lt (slice buffer 4 8)
    rw [length_slice] at bound
    exact bound.trans_le (Nat.pow_le_pow_right (by omega) (by omega))
  unfold checkedParseFrame parseFrame u32At
  by_cases waiting : buffer.length < preludeSize
  · rw [if_pos waiting, if_pos waiting]
    rfl
  have prelude12 : 12 ≤ buffer.length := Nat.le_of_not_lt waiting
  have first8 := range_of_le buffer (Nat.zero_le 8) (by omega)
  simp only [if_neg waiting, word 0 (by omega), word 4 (by omega), word 8 (by omega), ok_bind]
  generalize beNat (slice buffer 0 (0 + 4)) = total at *
  generalize beNat (slice buffer 4 (4 + 4)) = header at *
  by_cases tooSmall : total < minMessageSize
  · rw [if_pos tooSmall, if_pos tooSmall]
    rfl
  by_cases tooLarge : total > maxMessageSize
  · rw [if_neg tooSmall, if_neg tooSmall, if_pos tooLarge, if_pos tooLarge]
    rfl
  by_cases short : buffer.length < total
  · rw [if_neg tooSmall, if_neg tooSmall, if_neg tooLarge, if_neg tooLarge, if_pos short,
      if_pos short]
    rfl
  rw [if_neg tooSmall, if_neg tooSmall, if_neg tooLarge, if_neg tooLarge, if_neg short,
    if_neg short]
  have total16 : 16 ≤ total := Nat.le_of_not_lt tooSmall
  have back (n : Nat) (le : n ≤ 4) : minus total n = .ok (total - n) := minus_of_le (by omega)
  have last := word (total - 4) (by omega)
  rw [show total - 4 + 1 = total - 3 by omega, show total - 4 + 2 = total - 2 by omega,
    show total - 4 + 3 = total - 1 by omega] at last
  have covered := range_of_le buffer (Nat.zero_le (total - 4)) (by omega)
  have stop : addSize preludeSize header = .ok (preludeSize + header) :=
    addSize_of_lt (by simp only [preludeSize]; omega)
  simp only [first8, back 4 (by omega), back 3 (by omega), back 2 (by omega), back 1 (by omega),
    last, covered, stop, ok_bind, List.drop_zero]
  by_cases preludeCrc : crc32 (buffer.take 8) ≠ UInt32.ofNat (beNat (slice buffer 8 (8 + 4)))
  · rw [if_pos preludeCrc, if_pos preludeCrc]
    rfl
  rw [if_neg preludeCrc, if_neg preludeCrc]
  by_cases messageCrc : crc32 (buffer.take (total - 4)) ≠
      UInt32.ofNat (beNat (slice buffer (total - 4) (total - 4 + 4)))
  · rw [if_pos messageCrc, if_pos messageCrc]
    rfl
  rw [if_neg messageCrc, if_neg messageCrc]
  by_cases beyond : preludeSize + header > total - 4
  · rw [if_pos beyond, if_pos beyond]
    rfl
  rw [if_neg beyond, if_neg beyond]
  have headers := range_of_le buffer (Nat.le_add_right preludeSize header) (by omega)
  have payload := range_of_le buffer (Nat.le_of_not_lt beyond) (by omega)
  have within : (slice buffer preludeSize (preludeSize + header)).length < 2 ^ 63 := by
    rw [length_slice]
    omega
  have parsed := checkedParseHeaders_eq within header
  rw [slice] at parsed
  simp only [headers, payload, parsed, ok_bind]
  rw [slice]
  cases parseHeaders _ header <;> rfl

/-- A decoder that stays within the program's words: the buffer within its limit, the errors within
theirs, and every byte received so far still buffered, skipped or taken by a frame. -/
structure Within (received : Nat) (d : EventStreamDecoder) : Prop where
  maxBufferSize : d.maxBufferSize = defaultMaxBufferSize
  maxErrors : d.maxErrors = defaultMaxErrors
  buffered : d.buffer.length ≤ d.maxBufferSize
  errors : d.errorCount ≤ d.maxErrors
  live : d.state ≠ .stopped → d.errorCount < d.maxErrors
  accounted : d.buffer.length + d.bytesSkipped + 16 * d.framesDecoded ≤ received

def checkedFeed (d : EventStreamDecoder) (data : Bytes) :
    MayFault (EventStreamDecoder × ParseResult Unit) := do
  let newSize ← addSize d.buffer.length data.length
  if newSize > d.maxBufferSize then return (d, .error (.bufferOverflow newSize d.maxBufferSize))
  else
    return ({ d with
        buffer := d.buffer ++ data
        state := if d.state = .recovering then .ready else d.state }, .ok ())

/-- Advance past `n` damaged bytes and count them. -/
def checkedSkip (d : EventStreamDecoder) (n : Nat) : MayFault EventStreamDecoder := do
  let buffer ← advance d.buffer n
  let bytesSkipped ← addSize d.bytesSkipped n
  return { d with buffer, bytesSkipped }

def checkedSkipByte (d : EventStreamDecoder) : MayFault EventStreamDecoder := do
  let _skippedByte ← index d.buffer 0
  checkedSkip d 1

def checkedTryRecover (d : EventStreamDecoder) (error : ParseError) :
    MayFault EventStreamDecoder :=
  if d.buffer = [] then return d
  else
    match error with
    | .preludeCrcMismatch _ _ | .messageTooSmall _ _ | .messageTooLarge _ _ => checkedSkipByte d
    | .messageCrcMismatch _ _ | .headerParseFailed _ =>
        if d.buffer.length ≥ preludeSize then do
          let totalLength := beNat (← indexes d.buffer [0, 1, 2, 3])
          if totalLength ≥ 16 ∧ totalLength ≤ d.buffer.length then checkedSkip d totalLength
          else checkedSkipByte d
        else checkedSkipByte d
    | _ => checkedSkipByte d

def checkedDecode (crc32 : Bytes → UInt32) (d : EventStreamDecoder) :
    MayFault (EventStreamDecoder × ParseResult (Option Frame)) :=
  if d.state = .stopped then return (d, .error (.tooManyErrors d.errorCount "解码器已停止"))
  else if d.buffer = [] then return ({ d with state := .ready }, .ok none)
  else do
    let d := { d with state := .parsing }
    match ← checkedParseFrame crc32 d.buffer with
    | .ok (some (frame, consumed)) =>
      let buffer ← advance d.buffer consumed
      let framesDecoded ← addSize d.framesDecoded 1
      return ({ d with buffer, state := .ready, framesDecoded, errorCount := 0 }, .ok (some frame))
    | .ok none => return ({ d with state := .ready }, .ok none)
    | .error e =>
      let errorCount ← addSize d.errorCount 1
      let d := { d with errorCount }
      if d.errorCount ≥ d.maxErrors then
        return ({ d with state := .stopped }, .error (.tooManyErrors d.errorCount e.message))
      else
        let recovered ← checkedTryRecover d e
        return ({ recovered with state := .recovering }, .error e)

def checkedNext (crc32 : Bytes → UInt32) (d : EventStreamDecoder) :
    MayFault (EventStreamDecoder × Option (ParseResult Frame)) :=
  match d.state with
  | .stopped | .recovering => return (d, none)
  | _ => do
    match ← checkedDecode crc32 d with
    | (d, .ok (some frame)) => return (d, some (.ok frame))
    | (d, .ok none) => return (d, none)
    | (d, .error e) => return (d, some (.error e))

theorem recoverySkip_bounds {buffer : Bytes} (some_byte : buffer ≠ []) (e : ParseError) :
    0 < recoverySkip buffer e ∧ recoverySkip buffer e ≤ buffer.length := by
  have pos := List.length_pos_of_ne_nil some_byte
  have announced : 0 < (if preludeSize ≤ buffer.length ∧ 16 ≤ u32At buffer 0 ∧
          u32At buffer 0 ≤ buffer.length then u32At buffer 0 else 1) ∧
      (if preludeSize ≤ buffer.length ∧ 16 ≤ u32At buffer 0 ∧
          u32At buffer 0 ≤ buffer.length then u32At buffer 0 else 1) ≤ buffer.length := by
    split_ifs <;> omega
  unfold recoverySkip
  rw [if_neg some_byte]
  cases e with
  | messageCrcMismatch | headerParseFailed => exact announced
  | _ => exact ⟨Nat.one_pos, pos⟩

theorem checkedSkip_eq {d : EventStreamDecoder} {n : Nat} (inside : n ≤ d.buffer.length)
    (room : d.bytesSkipped + n < 2 ^ 64) : checkedSkip d n = .ok (d.skip n) := by
  rw [checkedSkip, advance_of_le inside, ok_bind, addSize_of_lt room]
  rfl

theorem checkedSkipByte_eq {d : EventStreamDecoder} (some_byte : d.buffer ≠ [])
    (room : d.bytesSkipped + 1 < 2 ^ 64) : checkedSkipByte d = .ok (d.skip 1) := by
  have pos := List.length_pos_of_ne_nil some_byte
  rw [checkedSkipByte, index_of_lt 0 pos, ok_bind]
  exact checkedSkip_eq pos room

theorem checkedTryRecover_eq {d : EventStreamDecoder}
    (room : d.buffer.length + d.bytesSkipped < 2 ^ 64) (e : ParseError) :
    checkedTryRecover d e = .ok (d.tryRecover e) := by
  unfold checkedTryRecover EventStreamDecoder.tryRecover
  by_cases empty : d.buffer = []
  · rw [if_pos empty, if_pos empty]
    rfl
  have pos := List.length_pos_of_ne_nil empty
  have byte := checkedSkipByte_eq empty (by omega)
  rw [if_neg empty, if_neg empty]
  have announced : (if d.buffer.length ≥ preludeSize then do
        let totalLength := beNat (← indexes d.buffer [0, 1, 2, 3])
        if totalLength ≥ 16 ∧ totalLength ≤ d.buffer.length then checkedSkip d totalLength
        else checkedSkipByte d
      else checkedSkipByte d) =
      .ok (if d.buffer.length ≥ preludeSize then
          let totalLength := u32At d.buffer 0
          if totalLength ≥ 16 ∧ totalLength ≤ d.buffer.length then d.skip totalLength
          else d.skip 1
        else d.skip 1) := by
    by_cases enough : d.buffer.length ≥ preludeSize
    · have word : indexes d.buffer [0, 1, 2, 3] = .ok (slice d.buffer 0 (0 + 4)) :=
        indexes_consecutive d.buffer 4 (by simp only [preludeSize] at enough; omega)
      rw [if_pos enough, if_pos enough, word, ok_bind]
      unfold u32At
      by_cases whole : beNat (slice d.buffer 0 (0 + 4)) ≥ 16 ∧
          beNat (slice d.buffer 0 (0 + 4)) ≤ d.buffer.length
      · rw [if_pos whole, if_pos whole]
        exact checkedSkip_eq whole.2 (by omega)
      · rw [if_neg whole, if_neg whole]
        exact byte
    · rw [if_neg enough, if_neg enough]
      exact byte
  cases e with
  | messageCrcMismatch | headerParseFailed => exact announced
  | _ => exact byte

/-- What one call of the decoder does, as far as its bytes and counters go. -/
theorem decode_cases (crc32 : Bytes → UInt32) (d : EventStreamDecoder) :
    (d.state = .stopped ∧
      d.decode crc32 = (d, .error (.tooManyErrors d.errorCount "解码器已停止"))) ∨
    (d.state ≠ .stopped ∧ d.decode crc32 = ({ d with state := .ready }, .ok none)) ∨
    (∃ frame n, d.state ≠ .stopped ∧ 16 ≤ n ∧ n ≤ d.buffer.length ∧
      d.decode crc32 = ({ d with
        buffer := d.buffer.drop n
        state := .ready
        framesDecoded := d.framesDecoded + 1
        errorCount := 0 }, .ok (some frame))) ∨
    (∃ e : ParseError, d.state ≠ .stopped ∧
      d.decode crc32 = ({ d with errorCount := d.errorCount + 1, state := .stopped },
        .error (.tooManyErrors (d.errorCount + 1) e.message))) ∨
    (∃ e n, d.state ≠ .stopped ∧ d.errorCount + 1 < d.maxErrors ∧ 0 < n ∧ n ≤ d.buffer.length ∧
      d.decode crc32 = ({ d with
        buffer := d.buffer.drop n
        bytesSkipped := d.bytesSkipped + n
        errorCount := d.errorCount + 1
        state := .recovering }, .error e)) := by
  by_cases stopped : d.state = .stopped
  · refine .inl ⟨stopped, ?_⟩
    rw [decode, if_pos stopped]
  by_cases empty : d.buffer = []
  · refine .inr (.inl ⟨stopped, ?_⟩)
    rw [decode, if_neg stopped, if_pos empty]
  refine .inr ?_
  unfold decode
  rw [if_neg stopped, if_neg empty]
  cases parsed : parseFrame crc32 d.buffer with
  | ok found =>
    cases found with
    | none => exact .inl ⟨stopped, by simp only [parsed]⟩
    | some found =>
      obtain ⟨frame, n⟩ := found
      obtain ⟨lo, hi⟩ := parseFrame_consumed parsed
      exact .inr (.inl ⟨frame, n, stopped, lo, hi, by simp only [parsed]⟩)
  | error e =>
    refine .inr (.inr ?_)
    by_cases limit : d.errorCount + 1 ≥ d.maxErrors
    · exact .inl ⟨e, stopped, by simp only [parsed, if_pos limit]⟩
    · obtain ⟨lo, hi⟩ := recoverySkip_bounds empty e
      refine .inr ⟨e, recoverySkip d.buffer e, stopped, Nat.lt_of_not_le limit, lo, hi, ?_⟩
      simp only [parsed, if_neg limit, tryRecover_eq_skip]
      rfl

theorem checkedDecode_eq (crc32 : Bytes → UInt32) {received : Nat} {d : EventStreamDecoder}
    (within : Within received d) (small : received < 2 ^ 63) :
    checkedDecode crc32 d = .ok (d.decode crc32) := by
  have accounted := within.accounted
  have errors := within.errors
  have maxErrors : d.maxErrors = 5 := within.maxErrors
  unfold checkedDecode decode
  by_cases stopped : d.state = .stopped
  · rw [if_pos stopped, if_pos stopped]
    rfl
  by_cases empty : d.buffer = []
  · rw [if_neg stopped, if_neg stopped, if_pos empty, if_pos empty]
    rfl
  rw [if_neg stopped, if_neg stopped, if_neg empty, if_neg empty]
  have short : d.buffer.length < 2 ^ 63 := by omega
  simp only [checkedParseFrame_eq crc32 short, ok_bind]
  cases parsed : parseFrame crc32 d.buffer with
  | ok found =>
    cases found with
    | none => rfl
    | some found =>
      obtain ⟨frame, n⟩ := found
      have taken := advance_of_le (parseFrame_consumed parsed).2
      have counted : addSize d.framesDecoded 1 = .ok (d.framesDecoded + 1) :=
        addSize_of_lt (by omega)
      simp only [taken, counted, ok_bind]
      rfl
  | error e =>
    have counted : addSize d.errorCount 1 = .ok (d.errorCount + 1) := addSize_of_lt (by omega)
    simp only [counted, ok_bind]
    by_cases limit : d.errorCount + 1 ≥ d.maxErrors
    · rw [if_pos limit, if_pos limit]
      rfl
    · have recovered := checkedTryRecover_eq
        (d := { d with state := .parsing, errorCount := d.errorCount + 1 })
        (show d.buffer.length + d.bytesSkipped < 2 ^ 64 by omega) e
      rw [if_neg limit, if_neg limit, recovered, ok_bind]
      rfl

theorem checkedNext_eq (crc32 : Bytes → UInt32) {received : Nat} {d : EventStreamDecoder}
    (within : Within received d) (small : received < 2 ^ 63) :
    checkedNext crc32 d = .ok (d.next crc32) := by
  have decoded := checkedDecode_eq crc32 within small
  unfold checkedNext next
  cases d.state with
  | stopped | recovering => rfl
  | ready | parsing =>
    simp only [decoded, ok_bind]
    rcases d.decode crc32 with ⟨d', _ | _ | _⟩ <;> rfl

theorem checkedFeed_eq {received : Nat} {d : EventStreamDecoder} (within : Within received d)
    {data : Bytes} (small : data.length < 2 ^ 63) : checkedFeed d data = .ok (d.feed data) := by
  have buffered := within.buffered
  have limit : d.maxBufferSize = 16777216 := within.maxBufferSize
  unfold checkedFeed feed
  rw [addSize_of_lt (show d.buffer.length + data.length < 2 ^ 64 by omega), ok_bind]
  by_cases beyond : d.buffer.length + data.length > d.maxBufferSize
  · simp only [if_pos beyond]
    rfl
  · simp only [if_neg beyond]
    rfl

/-- One call on the decoder: a feed, a `decode`, or a step of its iterator. -/
inductive Op where
  | feed (data : Bytes)
  | decode
  | next

def apply (crc32 : Bytes → UInt32) (d : EventStreamDecoder) : Op → EventStreamDecoder
  | .feed data => (d.feed data).1
  | .decode => (d.decode crc32).1
  | .next => (d.next crc32).1

def checkedApply (crc32 : Bytes → UInt32) (d : EventStreamDecoder) :
    Op → MayFault EventStreamDecoder
  | .feed data => return (← checkedFeed d data).1
  | .decode => return (← checkedDecode crc32 d).1
  | .next => return (← checkedNext crc32 d).1

/-- The state after a whole run of calls. -/
def run (crc32 : Bytes → UInt32) (ops : List Op) : EventStreamDecoder :=
  ops.foldl (apply crc32) new

def checkedRun (crc32 : Bytes → UInt32) (ops : List Op) : MayFault EventStreamDecoder :=
  ops.foldlM (checkedApply crc32) new

/-- The bytes a call brings in. -/
def Op.received : Op → Bytes
  | .feed data => data
  | .decode | .next => []

/-- All bytes a run is fed, in order. -/
def received (ops : List Op) : Bytes := ops.flatMap Op.received

theorem within_new : Within 0 new :=
  ⟨rfl, rfl, Nat.zero_le _, Nat.zero_le _, fun _ => Nat.zero_lt_succ 4, le_rfl⟩

theorem within_feed {n : Nat} {d : EventStreamDecoder} (within : Within n d) (data : Bytes) :
    Within (n + data.length) (d.feed data).1 := by
  obtain ⟨maxBufferSize, maxErrors, buffered, errors, live, accounted⟩ := within
  unfold feed
  by_cases beyond : d.buffer.length + data.length > d.maxBufferSize
  · simp only [if_pos beyond]
    exact ⟨maxBufferSize, maxErrors, buffered, errors, live, by omega⟩
  · simp only [if_neg beyond]
    refine ⟨maxBufferSize, maxErrors, ?_, errors, ?_, ?_⟩
    · simp only [List.length_append]
      omega
    · intro going
      refine live fun stopped => going ?_
      simp only [stopped, reduceCtorEq, if_false]
    · simp only [List.length_append]
      omega

theorem within_decode (crc32 : Bytes → UInt32) {n : Nat} {d : EventStreamDecoder}
    (within : Within n d) : Within n (d.decode crc32).1 := by
  obtain ⟨maxBufferSize, maxErrors, buffered, errors, live, accounted⟩ := within
  have some_errors : 0 < d.maxErrors := by
    rw [maxErrors]
    exact Nat.zero_lt_succ 4
  rcases decode_cases crc32 d with ⟨-, eq⟩ | ⟨going, eq⟩ | ⟨frame, taken, -, lo, hi, eq⟩ |
    ⟨e, going, eq⟩ | ⟨e, skipped, going, limit, lo, hi, eq⟩ <;> rw [eq]
  · exact ⟨maxBufferSize, maxErrors, buffered, errors, live, accounted⟩
  · exact ⟨maxBufferSize, maxErrors, buffered, errors, fun _ => live going, accounted⟩
  · refine ⟨maxBufferSize, maxErrors, ?_, Nat.zero_le _, fun _ => some_errors, ?_⟩
    · simp only [List.length_drop]
      omega
    · simp only [List.length_drop]
      omega
  · exact ⟨maxBufferSize, maxErrors, buffered, live going, fun going => absurd rfl going, accounted⟩
  · refine ⟨maxBufferSize, maxErrors, ?_, limit.le, fun _ => limit, ?_⟩
    · simp only [List.length_drop]
      omega
    · simp only [List.length_drop]
      omega

theorem next_state (crc32 : Bytes → UInt32) (d : EventStreamDecoder) :
    (d.next crc32).1 = d ∨ (d.next crc32).1 = (d.decode crc32).1 := by
  unfold next
  cases d.state with
  | stopped | recovering => exact .inl rfl
  | ready | parsing =>
    refine .inr ?_
    simp only
    rcases d.decode crc32 with ⟨d', _ | _ | _⟩ <;> rfl

theorem within_apply (crc32 : Bytes → UInt32) {n : Nat} {d : EventStreamDecoder}
    (within : Within n d) (op : Op) : Within (n + op.received.length) (apply crc32 d op) := by
  cases op with
  | feed data => exact within_feed within data
  | decode => exact within_decode crc32 within
  | next =>
    simp only [apply, Op.received, List.length_nil, Nat.add_zero]
    rcases next_state crc32 d with eq | eq <;> rw [eq]
    · exact within
    · exact within_decode crc32 within

theorem checkedApply_eq (crc32 : Bytes → UInt32) {n : Nat} {d : EventStreamDecoder}
    (within : Within n d) {op : Op} (small : n + op.received.length < 2 ^ 63) :
    checkedApply crc32 d op = .ok (apply crc32 d op) := by
  cases op with
  | feed data =>
    have fits : data.length < 2 ^ 63 := (Nat.le_add_left _ n).trans_lt small
    simp only [checkedApply, checkedFeed_eq within fits, ok_bind]
    rfl
  | decode =>
    simp only [checkedApply, checkedDecode_eq crc32 within small, ok_bind]
    rfl
  | next =>
    simp only [checkedApply, checkedNext_eq crc32 within small, ok_bind]
    rfl

theorem run_within (crc32 : Bytes → UInt32) (ops : List Op)
    (small : (received ops).length < 2 ^ 63) :
    checkedRun crc32 ops = .ok (run crc32 ops) ∧
      Within (received ops).length (run crc32 ops) := by
  induction ops using List.reverseRecOn with
  | nil => exact ⟨rfl, within_new⟩
  | append_singleton ops op ih =>
    have total : (received (ops ++ [op])).length =
        (received ops).length + op.received.length := by
      simp [received]
    rw [total] at small ⊢
    obtain ⟨checked, within⟩ := ih (by omega)
    have last : run crc32 (ops ++ [op]) = apply crc32 (run crc32 ops) op := List.foldl_concat ..
    refine ⟨?_, ?_⟩
    · rw [checkedRun] at checked ⊢
      rw [List.foldlM_append, checked, ok_bind, List.foldlM_cons,
        checkedApply_eq crc32 within small, ok_bind, last]
      rfl
    · rw [last]
      exact within_apply crc32 within op

theorem decode_frame {crc32 : Bytes → UInt32} {d d' : EventStreamDecoder} {frame : Frame}
    (h : d.decode crc32 = (d', .ok (some frame))) :
    ∃ n, 16 ≤ n ∧ n ≤ d.buffer.length ∧ d'.buffer = d.buffer.drop n := by
  rcases decode_cases crc32 d with ⟨-, eq⟩ | ⟨-, eq⟩ | ⟨_, n, -, lo, hi, eq⟩ | ⟨_, -, eq⟩ |
    ⟨_, _, -, -, -, -, eq⟩ <;> rw [eq] at h <;> cases h
  exact ⟨n, lo, hi, rfl⟩

theorem decode_error {crc32 : Bytes → UInt32} {d d' : EventStreamDecoder} {e : ParseError}
    (h : d.decode crc32 = (d', .error e)) (going : d'.state ≠ .stopped) :
    d'.buffer.length < d.buffer.length := by
  rcases decode_cases crc32 d with ⟨stopped, eq⟩ | ⟨-, eq⟩ | ⟨_, _, -, -, -, eq⟩ | ⟨_, -, eq⟩ |
    ⟨_, n, -, -, lo, hi, eq⟩ <;> rw [eq] at h <;> cases h
  · exact absurd stopped going
  · exact absurd rfl going
  · simp only [List.length_drop]
    omega

theorem next_item {crc32 : Bytes → UInt32} {d d' : EventStreamDecoder} {item : ParseResult Frame}
    (h : d.next crc32 = (d', some item)) :
    d'.buffer.length + 16 ≤ d.buffer.length ∨ d'.state = .stopped ∨ d'.state = .recovering := by
  have decoded : ∃ r, d.decode crc32 = (d', r) ∧ r ≠ .ok none := by
    unfold next at h
    split at h
    · cases h
    · cases h
    · split at h <;> cases h
      all_goals exact ⟨_, ‹_›, by simp⟩
  obtain ⟨r, decoded, not_none⟩ := decoded
  rcases decode_cases crc32 d with ⟨stopped, eq⟩ | ⟨-, eq⟩ | ⟨_, n, -, lo, hi, eq⟩ | ⟨_, -, eq⟩ |
    ⟨_, n, -, -, lo, hi, eq⟩ <;> rw [eq] at decoded <;> cases decoded
  · exact .inr (.inl stopped)
  · exact absurd rfl not_none
  · refine .inl ?_
    simp only [List.length_drop]
    omega
  · exact .inr (.inl rfl)
  · exact .inr (.inr rfl)

theorem next_halted {crc32 : Bytes → UInt32} {d : EventStreamDecoder}
    (halted : d.state = .stopped ∨ d.state = .recovering) : d.next crc32 = (d, none) := by
  unfold next
  rcases halted with halted | halted <;> rw [halted]

/-- The decoder after `n` steps of its iterator. -/
def after (crc32 : Bytes → UInt32) (d : EventStreamDecoder) (n : Nat) : EventStreamDecoder :=
  (fun d => (d.next crc32).1)^[n] d

theorem drain_ends (crc32 : Bytes → UInt32) (d : EventStreamDecoder) :
    (drain crc32 d).2.length ≤ d.buffer.length / 16 + 1 ∧
      ((after crc32 d (drain crc32 d).2.length).next crc32).2 = none ∧
      (drain crc32 d).1 = ((after crc32 d (drain crc32 d).2.length).next crc32).1 := by
  induction d using drain.induct crc32 with
  | case1 d d' ended =>
    rw [drain]
    split <;> rename_i stepped <;> rw [ended] at stepped <;> cases stepped
    simp only [List.length_nil, after, Function.iterate_zero, id_eq, ended]
    exact ⟨Nat.zero_le _, trivial, trivial⟩
  | case2 d d' item more ih =>
    obtain ⟨count, none_left, last⟩ := ih
    have unrolled : drain crc32 d = ((drain crc32 d').1, item :: (drain crc32 d').2) := by
      rw [drain]
      split <;> rename_i stepped <;> rw [more] at stepped <;> cases stepped
      rfl
    have shifted (n : Nat) : after crc32 d (n + 1) = after crc32 d' n := by
      simp only [after, Function.iterate_succ, Function.comp_apply, more]
    rw [unrolled]
    simp only [List.length_cons, shifted]
    refine ⟨?_, none_left, last⟩
    rcases next_item more with taken | halted
    · omega
    · have halts : d'.next crc32 = (d', none) := next_halted halted
      have beyond : drain crc32 d' = (d', []) := by
        rw [drain]
        split <;> rename_i stepped <;> rw [halts] at stepped <;> cases stepped
        rfl
      rw [beyond]
      simp

/-- No byte string, in whatever pieces it arrives and whatever is called in between, makes the
parser index outside its data or overflow a word; a frame takes sixteen bytes at least, an error
that does not stop the decoder shrinks the buffer, and a drain ends. -/
theorem parser_never_faults (crc32 : Bytes → UInt32) (body : ByteString) :
    checkedParseFrame crc32 body.bytes = .ok (parseFrame crc32 body.bytes) ∧
    (∀ headerLength, checkedParseHeaders body.bytes headerLength =
      .ok (parseHeaders body.bytes headerLength)) ∧
    ∀ ops, received ops = body.bytes →
      checkedRun crc32 ops = .ok (run crc32 ops) ∧
      (∀ d' frame, (run crc32 ops).decode crc32 = (d', .ok (some frame)) →
        ∃ n, 16 ≤ n ∧ n ≤ (run crc32 ops).buffer.length ∧
          d'.buffer = (run crc32 ops).buffer.drop n) ∧
      (∀ d' e, (run crc32 ops).decode crc32 = (d', .error e) → d'.state ≠ .stopped →
        d'.buffer.length < (run crc32 ops).buffer.length) ∧
      ∃ n ≤ (run crc32 ops).buffer.length / 16 + 1,
        ((after crc32 (run crc32 ops) n).next crc32).2 = none := by
  refine ⟨checkedParseFrame_eq crc32 body.fits, checkedParseHeaders_eq body.fits, ?_⟩
  intro ops pieces
  obtain ⟨checked, -⟩ := run_within crc32 ops (by rw [pieces]; exact body.fits)
  obtain ⟨count, ended, -⟩ := drain_ends crc32 (run crc32 ops)
  exact ⟨checked, fun _ _ => decode_frame, fun _ _ => decode_error, _, count, ended⟩

theorem parser_never_faults_zeros :
    checkedRun crc32IsoHdlc [.feed (List.replicate 12 0), .next, .next, .feed [7], .decode] =
      .ok (run crc32IsoHdlc [.feed (List.replicate 12 0), .next, .next, .feed [7], .decode]) :=
  ((parser_never_faults crc32IsoHdlc ⟨List.replicate 12 0 ++ [7], by decide⟩).2.2 _ rfl).1

end KiroRs.Parser.Safety
