/- Path: KiroRs/Images/Resize
   source: src/image_resize.rs
   digest: The processing of one inbound image: limits, pass-through, and the two loops that lower
   quality and size until the image fits. -/

import KiroRs.Lib.Logs
import KiroRs.Lib.Text

set_option autoImplicit false
set_option relaxedAutoImplicit false

namespace KiroRs.Images.Resize

open KiroRs.Lib.Logs
open KiroRs.Lib.Text (trimEndMatches)

inductive ResizeError where
  | limitExceeded (message : String)
  | base64 (message : String)
  | decode (message : String)
  | encode (message : String)
  deriving DecidableEq, Repr

def ResizeError.toString : ResizeError → String
  | .limitExceeded message => "image rejected: " ++ message
  | .base64 message => "base64 decode: " ++ message
  | .decode message => "image decode: " ++ message
  | .encode message => "image encode: " ++ message

structure RequestImageLimits where
  maxCount : Nat
  maxTotalBase64Bytes : Nat
  deriving DecidableEq, Repr

/-- What `from_env` reads where nothing is set. -/
def RequestImageLimits.default : RequestImageLimits :=
  { maxCount := 32, maxTotalBase64Bytes := 24 * 1024 * 1024 }

def RequestImageLimits.validate (limits : RequestImageLimits) (count totalBase64Bytes : Nat) :
    Except ResizeError Unit :=
  if limits.maxCount < count then
    .error (.limitExceeded s!"too many inline images: {count} > {limits.maxCount}")
  else if limits.maxTotalBase64Bytes < totalBase64Bytes then
    .error (.limitExceeded
      ("inline image payload too large: " ++
        s!"{totalBase64Bytes} > {limits.maxTotalBase64Bytes} base64 bytes"))
  else .ok ()

structure ResizeConfig where
  enabled : Bool
  maxLongSide : UInt32
  maxBytes : Nat
  jpegQuality : UInt8
  maxBase64Bytes : Nat
  maxDecodedBytes : Nat
  maxPixels : Nat
  deriving DecidableEq, Repr

/-- What `from_env` reads where nothing is set. -/
def ResizeConfig.default : ResizeConfig where
  enabled := true
  maxLongSide := 1568
  maxBytes := 400000
  jpegQuality := 85
  maxBase64Bytes := 8 * 1024 * 1024
  maxDecodedBytes := 6 * 1024 * 1024
  maxPixels := 40000000

abbrev Bytes := List UInt8

inductive ImageFormat where
  | png | jpeg | webP | gif
  deriving DecidableEq, Repr

def guessFormat : String → Option ImageFormat
  | "png" => some .png
  | "jpeg" => some .jpeg
  | "jpg" => some .jpeg
  | "webp" => some .webP
  | "gif" => some .gif
  | _ => none

/-- The standard alphabet with padding. -/
structure Base64 where
  decode : String → Except String Bytes
  encode : Bytes → String
  encode_length : ∀ bytes, (encode bytes).utf8ByteSize = (bytes.length + 2) / 3 * 4
  decode_empty : decode "" = .ok []

/-- Neither quality nor long side is lowered any further. -/
def minJpegQuality : UInt8 := 35
def minLongSide : UInt32 := 256

def isizeMax : Nat := 2 ^ 63 - 1

/-- The image codec and the `f32` arithmetic on sizes. Without a format it guesses one from the
bytes. `decode` answers with the size of the decoded image, and `encode` encodes that image, scaled
to a size or as it is. -/
structure Codec where
  guessFormat : Bytes → Option ImageFormat
  dimensions : Option ImageFormat → Bytes → Option (UInt32 × UInt32)
  decode : Option ImageFormat → Bytes → Except String (UInt32 × UInt32)
  encode : Option ImageFormat → Bytes → Option (UInt32 × UInt32) → UInt8 → Except String Bytes
  scaledTo : UInt32 → UInt32 → UInt32 → UInt32 × UInt32
  shrunk : UInt32 → UInt32
  shrunk_lt : ∀ n, minLongSide < n → shrunk n < n
  encode_length : ∀ format raw size quality out,
    encode format raw size quality = .ok out → out.length ≤ isizeMax

structure ProcessedImage where
  format : String
  dataBase64 : String
  wasResized : Bool
  originalBytes : Nat
  finalBytes : Nat
  deriving DecidableEq, Repr

def usizeMax : Nat := 2 ^ 64 - 1

/-- `saturating_mul` of a `usize`. -/
def saturatingMul (a b : Nat) : Nat := min (a * b) usizeMax

def estimatedDecodedLen (dataBase64 : String) : Nat :=
  saturatingMul (trimEndMatches dataBase64 '=').utf8ByteSize 3 / 4

def validateBase64Limits (cfg : ResizeConfig) (dataBase64 : String) : Except ResizeError Unit :=
  if cfg.maxBase64Bytes < dataBase64.utf8ByteSize then
    .error (.limitExceeded
      s!"image base64 too large: {dataBase64.utf8ByteSize} > {cfg.maxBase64Bytes} bytes")
  else if cfg.maxDecodedBytes < estimatedDecodedLen dataBase64 then
    .error (.limitExceeded
      s!"decoded image too large: {estimatedDecodedLen dataBase64} > {cfg.maxDecodedBytes} bytes")
  else .ok ()

/-- The product of two sides fits the word that holds it. -/
def validatePixelCount (cfg : ResizeConfig) (w h : UInt32) : Except ResizeError Unit :=
  if cfg.maxPixels < w.toNat * h.toNat then
    .error (.limitExceeded s!"image pixels too large: {w.toNat * h.toNat} > {cfg.maxPixels}")
  else .ok ()

section Processing

variable (base64 : Base64) (codec : Codec) (cfg : ResizeConfig) (format dataBase64 : String)

/-- The encoded bytes within the limits, where peeking and shrinking begin. -/
def checkedRaw : Except ResizeError Bytes := do
  validateBase64Limits cfg dataBase64
  let raw ← (base64.decode dataBase64).mapError ResizeError.base64
  if cfg.maxDecodedBytes < raw.length then
    .error (.limitExceeded
      s!"decoded image too large: {raw.length} > {cfg.maxDecodedBytes} bytes")
  else .ok raw

def readDimensionsFromRaw (raw : Bytes) : Except ResizeError (Option (UInt32 × UInt32)) :=
  match codec.dimensions (guessFormat format) raw with
  | none => .ok none
  | some (w, h) => do
    validatePixelCount cfg w h
    return some (w, h)

def peekDimensionsChecked : Except ResizeError (Option (UInt32 × UInt32)) := do
  let raw ← checkedRaw base64 cfg dataBase64
  readDimensionsFromRaw codec cfg format raw

/-- Bytes of unknown or broken content pass if they are few. -/
def unreadable : Except ResizeError Unit :=
  if dataBase64.utf8ByteSize ≤ cfg.maxBytes then .ok ()
  else .error (.limitExceeded "oversized image payload has unknown or invalid dimensions")

def validatePassthroughSafe : Except ResizeError Unit :=
  match peekDimensionsChecked base64 codec cfg format dataBase64 with
  | .ok (some _) => .ok ()
  | .ok none => unreadable cfg dataBase64
  | .error (.base64 _) => unreadable cfg dataBase64
  | .error (.decode _) => unreadable cfg dataBase64
  | .error e => .error e

def formatName : ImageFormat → String
  | .png => "png"
  | .jpeg => "jpeg"
  | .gif => "gif"
  | .webP => "webp"

def detectFormatFromBytes : Option String :=
  let head := String.ofList (dataBase64.toList.take 24)
  match base64.decode head with
  | .ok bytes => (codec.guessFormat bytes).map formatName
  | .error _ => none

def passthrough : ProcessedImage :=
  let n := dataBase64.utf8ByteSize
  { format := (detectFormatFromBytes base64 codec dataBase64).getD format
    dataBase64, wasResized := false, originalBytes := n, finalBytes := n }

/-- The budget test takes four thirds of the bytes for the length of their base64. -/
def fitsBudget (out : Bytes) : Bool := saturatingMul out.length 4 / 3 ≤ cfg.maxBytes

def loweredQuality (quality : UInt8) : UInt8 :=
  max (if 10 ≤ quality then quality - 10 else 0) minJpegQuality

/-- The inner loop, which lowers the quality; `encodeAt` encodes at a quality. -/
def lowerQuality (encodeAt : UInt8 → Except String Bytes) :
    Nat → UInt8 → Option (Except ResizeError (Bytes × UInt8))
  | 0, _ => none
  | fuel + 1, quality =>
    match encodeAt quality with
    | .error e => some (.error (.encode e))
    | .ok out =>
      if fitsBudget cfg out || quality ≤ minJpegQuality then some (.ok (out, quality))
      else lowerQuality encodeAt fuel (loweredQuality quality)

/-- The last encoding, the quality it was made at and the long side it was made for. -/
structure Encoded where
  out : Bytes
  quality : UInt8
  curLong : UInt32

/-- The size to scale an image of `w` by `h` to, unless its long side is within the bound. -/
def targetSize (w h curLong : UInt32) : Option (UInt32 × UInt32) :=
  if curLong < max w h then some (codec.scaledTo curLong w h) else none

/-- The outer loop, which lowers the long side; `encodeFor` encodes for a long side at a
quality. -/
def lowerLongSide (encodeFor : UInt32 → UInt8 → Except String Bytes) :
    Nat → UInt32 → Option (Except ResizeError Encoded)
  | 0, _ => none
  | fuel + 1, curLong =>
    match lowerQuality cfg (encodeFor curLong) (fuel + 1) cfg.jpegQuality with
    | none => none
    | some (.error e) => some (.error e)
    | some (.ok (out, quality)) =>
      if fitsBudget cfg out || curLong ≤ minLongSide then some (.ok ⟨out, quality, curLong⟩)
      else lowerLongSide encodeFor fuel (max (codec.shrunk curLong) minLongSide)

/-- What is checked before the pixels are decoded. -/
def readForShrinking : Except ResizeError (Bytes × UInt32 × UInt32) := do
  let raw ← checkedRaw base64 cfg dataBase64
  match ← readDimensionsFromRaw codec cfg format raw with
  | none => .error (.decode "image dimensions are unavailable")
  | some (w, h) => .ok (raw, w, h)

/-- The long side that the first encoding is made for. -/
def initialLong (w h : UInt32) : UInt32 := max (min (max w h) cfg.maxLongSide) 1

def converge (fuel : Nat) (raw : Bytes) (w h : UInt32) : Option (Except ResizeError Encoded) :=
  lowerLongSide codec cfg
    (fun curLong quality =>
      codec.encode (guessFormat format) raw (targetSize codec w h curLong) quality)
    fuel (initialLong cfg w h)

/-- Decodes the pixels and converges on an encoding. -/
def shrinkStatic (fuel : Nat) : Option (Except ResizeError Encoded) :=
  match readForShrinking base64 codec cfg format dataBase64 with
  | .error e => some (.error e)
  | .ok (raw, w, h) =>
    match codec.decode (guessFormat format) raw with
    | .error e => some (.error (.decode e))
    | .ok (width, height) => converge codec cfg format fuel raw (max w width) (max h height)

def Encoded.image (final : Encoded) : ProcessedImage :=
  { format := "jpeg"
    dataBase64 := base64.encode final.out
    wasResized := true
    originalBytes := dataBase64.utf8ByteSize
    finalBytes := (base64.encode final.out).utf8ByteSize }

def shrinkStaticImage (fuel : Nat) : Option (Except ResizeError ProcessedImage) :=
  (shrinkStatic base64 codec cfg format dataBase64 fuel).map fun outcome =>
    outcome.map (·.image base64 dataBase64)

inductive Route where
  | pass
  | shrink
  deriving DecidableEq, Repr

/-- An image that is too large in bytes or in size. A GIF may be animated, so it is kept. -/
def routeLarge : Except ResizeError Route :=
  if format = "gif" then do
    validatePassthroughSafe base64 codec cfg format dataBase64
    if cfg.maxBytes < dataBase64.utf8ByteSize then
      .error (.limitExceeded ("gif image too large for passthrough: " ++
        s!"{dataBase64.utf8ByteSize} > {cfg.maxBytes} base64 bytes"))
    else .ok .pass
  else .ok .shrink

/-- The branches of `maybe_shrink_image` in front of the shrinking. -/
def route : Except ResizeError Route := do
  validateBase64Limits cfg dataBase64
  if cfg.enabled = false then
    (validatePassthroughSafe base64 codec cfg format dataBase64).map fun _ => .pass
  else if dataBase64.utf8ByteSize ≤ cfg.maxBytes then
    match ← peekDimensionsChecked base64 codec cfg format dataBase64 with
    | none => .ok .pass
    | some (w, h) =>
      if max w h ≤ cfg.maxLongSide then .ok .pass
      else routeLarge base64 codec cfg format dataBase64
  else routeLarge base64 codec cfg format dataBase64

def maybeShrinkImage (fuel : Nat) : Option (Except ResizeError ProcessedImage) :=
  let formatLc := format.toLower
  match route base64 codec cfg formatLc dataBase64 with
  | .error e => some (.error e)
  | .ok .pass => some (.ok (passthrough base64 codec formatLc dataBase64))
  | .ok .shrink => shrinkStaticImage base64 codec cfg formatLc dataBase64 fuel

def pixelsDecoded : List Bytes :=
  after (route base64 codec cfg format.toLower dataBase64) fun
    | .pass => []
    | .shrink =>
      after (readForShrinking base64 codec cfg format.toLower dataBase64) fun read => [read.1]

end Processing

end KiroRs.Images.Resize
