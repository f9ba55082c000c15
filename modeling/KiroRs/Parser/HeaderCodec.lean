/- Path: KiroRs/Parser/HeaderCodec
   source: src/kiro/parser/error.rs, src/kiro/parser/header.rs
   digest: Event-stream header values, their ten wire types and the header parser. -/

import Mathlib.Data.List.AList
import KiroRs.Lib.Wire

set_option autoImplicit false
set_option relaxedAutoImplicit false

namespace KiroRs.Parser.HeaderCodec

open KiroRs.Lib.Wire

/-- Everything the event-stream parser reports. The two wrapped library errors keep their text. -/
inductive ParseError where
  | incomplete (needed available : Nat)
  | preludeCrcMismatch (expected actual : UInt32)
  | messageCrcMismatch (expected actual : UInt32)
  | invalidHeaderType (value : UInt8)
  | headerParseFailed (message : String)
  | messageTooLarge (length max : Nat)
  | messageTooSmall (length min : Nat)
  | invalidMessageType (value : String)
  | payloadDeserialize (error : String)
  | io (error : String)
  | tooManyErrors (count : Nat) (lastError : String)
  | bufferOverflow (size max : Nat)
  deriving DecidableEq, Repr

/-- `{:08x}`: at least eight lowercase hexadecimal digits. -/
def hex8 (n : UInt32) : String :=
  let digits := Nat.toDigits 16 n.toNat
  String.ofList (List.replicate (8 - digits.length) '0' ++ digits)

/-- The `Display` text of an error. -/
def ParseError.message : ParseError → String
  | .incomplete needed available => s!"数据不足: 需要 {needed} 字节, 当前 {available} 字节"
  | .preludeCrcMismatch expected actual =>
      "Prelude CRC 校验失败: 期望 0x" ++ hex8 expected ++ ", 实际 0x" ++ hex8 actual
  | .messageCrcMismatch expected actual =>
      "Message CRC 校验失败: 期望 0x" ++ hex8 expected ++ ", 实际 0x" ++ hex8 actual
  | .invalidHeaderType t => s!"无效的头部值类型: {t}"
  | .headerParseFailed msg => s!"头部解析失败: {msg}"
  | .messageTooLarge length max => s!"消息长度超限: {length} 字节 (最大 {max})"
  | .messageTooSmall length min => s!"消息长度过小: {length} 字节 (最小 {min})"
  | .invalidMessageType t => s!"无效的消息类型: {t}"
  | .payloadDeserialize e => s!"Payload 反序列化失败: {e}"
  | .io e => s!"IO 错误: {e}"
  | .tooManyErrors count lastError => s!"连续错误过多 ({count} 次)，解码器已停止: {lastError}"
  | .bufferOverflow size max => s!"缓冲区溢出: {size} 字节 (最大 {max})"

abbrev ParseResult (α : Type) := Except ParseError α

inductive HeaderValueType where
  | boolTrue | boolFalse | byte | short | integer | long | byteArray | string | timestamp | uuid
  deriving DecidableEq, Repr

def HeaderValueType.tryFrom (value : UInt8) : ParseResult HeaderValueType :=
  match value.toNat with
  | 0 => .ok .boolTrue
  | 1 => .ok .boolFalse
  | 2 => .ok .byte
  | 3 => .ok .short
  | 4 => .ok .integer
  | 5 => .ok .long
  | 6 => .ok .byteArray
  | 7 => .ok .string
  | 8 => .ok .timestamp
  | 9 => .ok .uuid
  | _ => .error (.invalidHeaderType value)

/-- A parsed header value. A UUID carries exactly its sixteen bytes. -/
inductive HeaderValue where
  | bool (v : Bool)
  | byte (v : Int8)
  | short (v : Int16)
  | integer (v : Int32)
  | long (v : Int64)
  | byteArray (v : Bytes)
  | string (v : String)
  | timestamp (v : Int64)
  | uuid (v : {b : Bytes // b.length = 16})
  deriving DecidableEq

/-- The header collection; a later header replaces an earlier one of the same name. -/
abbrev Headers := AList (fun _ : String => HeaderValue)

def Headers.get (headers : Headers) (name : String) : Option HeaderValue := headers.lookup name

def Headers.getString (headers : Headers) (name : String) : Option String :=
  match headers.get name with
  | some (.string s) => some s
  | _ => none

def Headers.messageType (headers : Headers) : Option String := headers.getString ":message-type"
def Headers.eventType (headers : Headers) : Option String := headers.getString ":event-type"
def Headers.exceptionType (headers : Headers) : Option String :=
  headers.getString ":exception-type"
def Headers.errorCode (headers : Headers) : Option String := headers.getString ":error-code"

def ensureBytes (data : Bytes) (needed : Nat) : ParseResult Unit :=
  if data.length < needed then .error (.incomplete needed data.length) else .ok ()

/-- A fixed-width value read from the first `width` bytes. -/
def readFixed (data : Bytes) (width : Nat) (value : Nat → HeaderValue) :
    ParseResult (HeaderValue × Nat) :=
  match ensureBytes data width with
  | .error e => .error e
  | .ok _ => .ok (value (beNat (data.take width)), width)

def readSized (data : Bytes) (value : Bytes → HeaderValue) : ParseResult (HeaderValue × Nat) :=
  match ensureBytes data 2 with
  | .error e => .error e
  | .ok _ =>
      let len := beNat (data.take 2)
      match ensureBytes data (2 + len) with
      | .error e => .error e
      | .ok _ => .ok (value (slice data 2 (2 + len)), 2 + len)

/-- The value at the front of `data` and the number of bytes it takes, by which the caller
advances its own offset. -/
def parseHeaderValue (data : Bytes) : HeaderValueType → ParseResult (HeaderValue × Nat)
  | .boolTrue => .ok (.bool true, 0)
  | .boolFalse => .ok (.bool false, 0)
  | .byte => readFixed data 1 fun n => .byte (UInt8.ofNat n).toInt8
  | .short => readFixed data 2 fun n => .short (UInt16.ofNat n).toInt16
  | .integer => readFixed data 4 fun n => .integer (UInt32.ofNat n).toInt32
  | .long => readFixed data 8 fun n => .long (UInt64.ofNat n).toInt64
  | .timestamp => readFixed data 8 fun n => .timestamp (UInt64.ofNat n).toInt64
  | .byteArray => readSized data .byteArray
  | .string => readSized data fun v => .string (fromUtf8Lossy v)
  | .uuid =>
      if h : data.length < 16 then .error (.incomplete 16 data.length)
      else .ok (.uuid ⟨data.take 16, by simp only [List.length_take]; omega⟩, 16)

/-- One pass of the loop of `parse_headers`: the header at `offset` and the offset after it. -/
def parseHeader (data : Bytes) (offset : Nat) : ParseResult (String × HeaderValue × Nat) :=
  let nameLen := (data.getD offset 0).toNat
  let nameStart := offset + 1
  if nameLen = 0 then .error (.headerParseFailed "头部名称长度不能为 0")
  else if nameStart + nameLen > data.length then
    .error (.incomplete nameLen (data.length - nameStart))
  else
    let name := fromUtf8Lossy (slice data nameStart (nameStart + nameLen))
    let typeAt := nameStart + nameLen
    if typeAt ≥ data.length then .error (.incomplete 1 0)
    else
      match HeaderValueType.tryFrom (data.getD typeAt 0) with
      | .error e => .error e
      | .ok valueType =>
          match parseHeaderValue (data.drop (typeAt + 1)) valueType with
          | .error e => .error e
          | .ok (value, consumed) => .ok (name, value, typeAt + 1 + consumed)

theorem parseHeader_offset_lt {data : Bytes} {offset next : Nat} {name : String}
    {value : HeaderValue} (h : parseHeader data offset = .ok (name, value, next)) :
    offset < next := by
  unfold parseHeader at h
  grind

/-- The loop of `parse_headers` from `offset` on. -/
def parseHeadersFrom (data : Bytes) (headerLength offset : Nat) (headers : Headers) :
    ParseResult Headers :=
  if offset < headerLength then
    if offset ≥ data.length then .ok headers
    else
      match _h : parseHeader data offset with
      | .error e => .error e
      | .ok (name, value, next) =>
          parseHeadersFrom data headerLength next (headers.insert name value)
  else .ok headers
termination_by headerLength - offset
decreasing_by
  have := parseHeader_offset_lt _h
  omega

def parseHeaders (data : Bytes) (headerLength : Nat) : ParseResult Headers :=
  if data.length < headerLength then .error (.incomplete headerLength data.length)
  else parseHeadersFrom data headerLength 0 ∅

def encodeValue : HeaderValue → Bytes
  | .bool true => [0]
  | .bool false => [1]
  | .byte v => 2 :: beBytes 1 v.toUInt8.toNat
  | .short v => 3 :: beBytes 2 v.toUInt16.toNat
  | .integer v => 4 :: beBytes 4 v.toUInt32.toNat
  | .long v => 5 :: beBytes 8 v.toUInt64.toNat
  | .byteArray v => 6 :: (beBytes 2 v.length ++ v)
  | .string v => 7 :: (beBytes 2 (utf8Bytes v).length ++ utf8Bytes v)
  | .timestamp v => 8 :: beBytes 8 v.toUInt64.toNat
  | .uuid v => 9 :: v.val

/-- The variable-length values a 16-bit length can announce. -/
def HeaderValue.Sized : HeaderValue → Prop
  | .byteArray v => v.length < 65536
  | .string v => (utf8Bytes v).length < 65536
  | _ => True

instance (v : HeaderValue) : Decidable v.Sized := by
  cases v <;> unfold HeaderValue.Sized <;> infer_instance

/-- A header that the format can carry: its name takes 1 to 255 bytes. -/
structure WireHeader where
  name : String
  value : HeaderValue
  name_pos : 0 < (utf8Bytes name).length
  name_le : (utf8Bytes name).length ≤ 255
  sized : value.Sized

def encodeHeader (h : WireHeader) : Bytes :=
  UInt8.ofNat (utf8Bytes h.name).length :: (utf8Bytes h.name ++ encodeValue h.value)

def encodeHeaders (hs : List WireHeader) : Bytes := (hs.map encodeHeader).flatten

/-- The collection a list of headers stands for. -/
def Headers.ofList (hs : List WireHeader) : Headers :=
  hs.foldl (fun headers h => headers.insert h.name h.value) ∅

theorem length_encodeHeader_pos (h : WireHeader) : 0 < (encodeHeader h).length := by
  simp [encodeHeader]

private theorem readFixed_beBytes (w n : Nat) (post : Bytes) (value : Nat → HeaderValue)
    (fits : n < 256 ^ w) :
    readFixed (beBytes w n ++ post) w value = .ok (value n, w) := by
  have enough : ensureBytes (beBytes w n ++ post) w = .ok () := by simp [ensureBytes]
  rw [readFixed, enough]
  simp only [List.take_left' (length_beBytes w n), beNat_beBytes_of_lt fits]

private theorem readSized_append (v post : Bytes) (value : Bytes → HeaderValue)
    (fits : v.length < 65536) :
    readSized (beBytes 2 v.length ++ (v ++ post)) value = .ok (value v, 2 + v.length) := by
  have len : beNat ((beBytes 2 v.length ++ (v ++ post)).take 2) = v.length := by
    rw [List.take_left' (length_beBytes 2 _), beNat_beBytes_of_lt (by omega)]
  have mid : slice (beBytes 2 v.length ++ (v ++ post)) 2 (2 + v.length) = v := by
    simpa using slice_length_add (beBytes 2 v.length) v post
  have length : (beBytes 2 v.length ++ (v ++ post)).length = 2 + v.length + post.length := by
    rw [List.length_append, List.length_append, length_beBytes]
    omega
  have two : ensureBytes (beBytes 2 v.length ++ (v ++ post)) 2 = .ok () := by
    rw [ensureBytes, if_neg (by omega)]
  have all : ensureBytes (beBytes 2 v.length ++ (v ++ post)) (2 + v.length) = .ok () := by
    rw [ensureBytes, if_neg (by omega)]
  simp only [readSized, two, len, all, mid]

/-- Past its type byte, an encoded value is read back whole. -/
theorem parseHeaderValue_encodeValue (v : HeaderValue) (post : Bytes) (sized : v.Sized) :
    ∃ ty body, encodeValue v = ty :: body ∧
      (∃ t, HeaderValueType.tryFrom ty = .ok t ∧
        parseHeaderValue (body ++ post) t = .ok (v, body.length)) := by
  cases v with
  | bool b => cases b <;> exact ⟨_, _, rfl, _, rfl, rfl⟩
  | byte v =>
      refine ⟨_, _, rfl, .byte, rfl, ?_⟩
      have fits := v.toUInt8.toNat_lt
      rw [parseHeaderValue, readFixed_beBytes _ _ _ _ (by omega), length_beBytes]
      simp
  | short v =>
      refine ⟨_, _, rfl, .short, rfl, ?_⟩
      have fits := v.toUInt16.toNat_lt
      rw [parseHeaderValue, readFixed_beBytes _ _ _ _ (by omega), length_beBytes]
      simp
  | integer v =>
      refine ⟨_, _, rfl, .integer, rfl, ?_⟩
      have fits := v.toUInt32.toNat_lt
      rw [parseHeaderValue, readFixed_beBytes _ _ _ _ (by omega), length_beBytes]
      simp
  | long v =>
      refine ⟨_, _, rfl, .long, rfl, ?_⟩
      have fits := v.toUInt64.toNat_lt
      rw [parseHeaderValue, readFixed_beBytes _ _ _ _ (by omega), length_beBytes]
      simp
  | timestamp v =>
      refine ⟨_, _, rfl, .timestamp, rfl, ?_⟩
      have fits := v.toUInt64.toNat_lt
      rw [parseHeaderValue, readFixed_beBytes _ _ _ _ (by omega), length_beBytes]
      simp
  | byteArray v =>
      refine ⟨_, _, rfl, .byteArray, rfl, ?_⟩
      rw [parseHeaderValue, List.append_assoc, readSized_append v post _ sized]
      simp
  | string v =>
      refine ⟨_, _, rfl, .string, rfl, ?_⟩
      rw [parseHeaderValue, List.append_assoc, readSized_append (utf8Bytes v) post _ sized]
      simp [fromUtf8Lossy_utf8Bytes]
  | uuid v =>
      refine ⟨_, _, rfl, .uuid, rfl, ?_⟩
      have taken : (v.val ++ post).take 16 = v.val := List.take_left' v.property
      rw [parseHeaderValue, dif_neg (by simp [v.property])]
      simp [taken, v.property]

private theorem getD_of_drop {data rest : Bytes} {offset : Nat} {b : UInt8}
    (h : data.drop offset = b :: rest) : data.getD offset 0 = b := by
  have at0 : (data.drop offset)[0]? = some b := by rw [h]; rfl
  rw [List.getElem?_drop, Nat.add_zero] at at0
  rw [List.getD_eq_getElem?_getD, at0, Option.getD_some]

private theorem drop_of_drop {data : Bytes} (pre : Bytes) {rest : Bytes} {offset : Nat}
    (h : data.drop offset = pre ++ rest) : data.drop (offset + pre.length) = rest := by
  rw [← List.drop_drop, h, List.drop_left' rfl]

private theorem length_of_drop {data rest : Bytes} {offset : Nat} (h : data.drop offset = rest)
    (hne : rest ≠ []) : data.length = offset + rest.length := by
  have len := congrArg List.length h
  have pos := List.length_pos_of_ne_nil hne
  rw [List.length_drop] at len
  omega

theorem parseHeader_encodeHeader (h : WireHeader) {data post : Bytes} {offset : Nat}
    (at_offset : data.drop offset = encodeHeader h ++ post) :
    parseHeader data offset =
      .ok (h.name, h.value, offset + (encodeHeader h).length) := by
  obtain ⟨ty, body, enc, t, type_ok, value_ok⟩ :=
    parseHeaderValue_encodeValue h.value post h.sized
  have name_pos := h.name_pos
  have name_le := h.name_le
  have shape : data.drop offset =
      UInt8.ofNat (utf8Bytes h.name).length :: (utf8Bytes h.name ++ (ty :: (body ++ post))) := by
    rw [at_offset, encodeHeader, enc]
    simp
  have len_byte : (data.getD offset 0).toNat = (utf8Bytes h.name).length := by
    rw [getD_of_drop shape, UInt8.toNat_ofNat']
    exact Nat.mod_eq_of_lt (by omega)
  have after_len : data.drop (offset + 1) = utf8Bytes h.name ++ (ty :: (body ++ post)) :=
    drop_of_drop [UInt8.ofNat (utf8Bytes h.name).length] shape
  have after_name := drop_of_drop _ after_len
  have after_type : data.drop (offset + 1 + (utf8Bytes h.name).length + 1) = body ++ post :=
    drop_of_drop [ty] after_name
  have total : data.length =
      offset + (1 + ((utf8Bytes h.name).length + (1 + (body.length + post.length)))) := by
    rw [length_of_drop shape (by simp)]
    simp
    omega
  have name_ok : slice data (offset + 1) (offset + 1 + (utf8Bytes h.name).length) =
      utf8Bytes h.name := by
    rw [slice, List.drop_take, after_len, Nat.add_sub_cancel_left, List.take_left' rfl]
  have enc_len : (encodeHeader h).length = 1 + ((utf8Bytes h.name).length + (1 + body.length)) := by
    rw [encodeHeader, enc]
    simp
    omega
  simp only [parseHeader, len_byte, getD_of_drop after_name, type_ok, after_type, value_ok,
    name_ok, fromUtf8Lossy_utf8Bytes, enc_len]
  rw [if_neg (by omega), if_neg (by omega), if_neg (by omega)]
  simp only [Except.ok.injEq, Prod.mk.injEq, true_and]
  omega

private theorem parseHeadersFrom_encodeHeaders (hs : List WireHeader) (data : Bytes)
    (offset : Nat) (headers : Headers) (at_offset : data.drop offset = encodeHeaders hs)
    (inside : offset ≤ data.length) :
    parseHeadersFrom data data.length offset headers =
      .ok (hs.foldl (fun headers h => headers.insert h.name h.value) headers) := by
  induction hs generalizing offset headers with
  | nil =>
      have ended : data.length ≤ offset := by simpa [encodeHeaders] using at_offset
      rw [parseHeadersFrom, if_neg (by omega)]
      rfl
  | cons h hs ih =>
      have shape : data.drop offset = encodeHeader h ++ encodeHeaders hs := by
        rw [at_offset]
        simp [encodeHeaders]
      have pos := length_encodeHeader_pos h
      have total := congrArg List.length shape
      rw [List.length_drop, List.length_append] at total
      rw [parseHeadersFrom, if_pos (by omega), if_neg (by omega)]
      split
      · rename_i e failed
        rw [parseHeader_encodeHeader h shape] at failed
        cases failed
      · rename_i name value next parsed
        rw [parseHeader_encodeHeader h shape] at parsed
        cases parsed
        exact ih _ _ (drop_of_drop _ shape) (by omega)

theorem parseHeaders_encodeHeaders (hs : List WireHeader) :
    parseHeaders (encodeHeaders hs) (encodeHeaders hs).length = .ok (Headers.ofList hs) := by
  rw [parseHeaders, if_neg (by omega)]
  exact parseHeadersFrom_encodeHeaders hs _ 0 ∅ rfl (Nat.zero_le _)

end KiroRs.Parser.HeaderCodec
