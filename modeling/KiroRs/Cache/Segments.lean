/- Path: KiroRs/Cache/Segments
   source: src/anthropic/cache_metering.rs
   digest: The chain of hashed beginnings of a request, with the tokens of each. -/

import KiroRs.Cache.Signatures
import KiroRs.Lib.Search

set_option autoImplicit false
set_option relaxedAutoImplicit false

namespace KiroRs.Cache.Segments

open KiroRs.Lib
open KiroRs.Lib.Text
open KiroRs.Converter.Json
open KiroRs.Converter.Requests (CacheControl Message)
open KiroRs.Cache.Signatures

/-- What the metering takes from outside: the first eight bytes of the SHA-256 of a text, the
estimate for an image, and the printer of binary fractions. -/
structure Env (H : Type) where
  digest : String → H
  estimateImageTokens : String → String → Nat
  formatFloat : Int → Int → String

structure Segment (H : Type) where
  hash : H
  cumulativeTokens : Nat
  ttlSecs : Nat
  deriving DecidableEq, Repr

/-- The hashed text so far, the two sums and the segments. -/
structure Chain (H : Type) where
  text : String
  cacheTokens : Nat := 0
  promptTotalTokens : Nat := 0
  segments : List (Segment H) := []
  deriving DecidableEq, Repr

variable {H : Type}

def maxTtlSecs : Nat := 3600
def defaultTtlSecs : Nat := 300

def parseTtl (ttl : Option String) : Nat :=
  match ttl with
  | some s =>
    if eqIgnoreAsciiCase s "1h" then 3600
    else if eqIgnoreAsciiCase s "5m" then 300
    else defaultTtlSecs
  | none => defaultTtlSecs

/-- The lifetimes that the blocks of a message ask for. -/
def blockTtls (msg : Message) : List Nat :=
  match msg.content with
  | .array blocks => blocks.filterMap fun v =>
      (((v.get "cache_control").bind (·.get "ttl")).bind Value.asStr).map (parseTtl ∘ some)
  | _ => []

def detectMaxTtl (req : MessagesRequest) : Nat :=
  let controls := (req.tools.getD []).filterMap (·.cacheControl) ++
    (req.system.getD []).filterMap (·.cacheControl)
  (controls.map (parseTtl ·.ttl) ++ req.messages.flatMap blockTtls).foldl max defaultTtlSecs

/-- What stands behind the first `_session_`. -/
def extractSessionId (userId : String) : Option String :=
  (Search.splitFind "_session_".toList userId.toList).bind fun p =>
    let sid := trimChars (p.2.drop "_session_".length)
    if sid.isEmpty then none else some (String.ofList sid)

def isolationSeed (req : MessagesRequest) (keyId : Nat) : Option String :=
  match (req.metadata.bind (·.userId)).bind extractSessionId with
  | some session => some ("sess:" ++ session)
  | none => if keyId = 0 then none else some ("key:" ++ toString keyId)

def u32Max : Nat := 4294967295

def saturatingAdd (a b : Nat) : Nat := min (a + b) u32Max

/-- Counts tokens, for the cache as well where they are hashed. -/
def Chain.count (s : Chain H) (tokens : Nat) (participates : Bool) : Chain H :=
  { s with
    promptTotalTokens := saturatingAdd s.promptTotalTokens tokens
    cacheTokens := if participates then saturatingAdd s.cacheTokens tokens else s.cacheTokens }

def Chain.hash (s : Chain H) (hashText : String) (participates : Bool) : Chain H :=
  if participates then { s with text := s.text ++ hashText } else s

def Chain.feed (s : Chain H) (hashText tokenText : String) (participates : Bool) : Chain H :=
  let s := s.hash hashText participates
  if tokenText.isEmpty then s else s.count (estimateTokens tokenText) participates

/-- Adds a segment, or lengthens the last one when nothing came since. -/
def pushSegment [DecidableEq H] (segment : Segment H) (segments : List (Segment H)) :
    List (Segment H) :=
  match segments.getLast? with
  | some last =>
    if last.hash = segment.hash ∧ last.cumulativeTokens = segment.cumulativeTokens then
      segments.dropLast ++ [{ last with ttlSecs := max last.ttlSecs segment.ttlSecs }]
    else segments ++ [segment]
  | none => [segment]

section

variable [DecidableEq H] (env : Env H) (enabled : Bool) (ttl : Nat)

def Chain.commit (s : Chain H) : Chain H :=
  if !enabled || s.cacheTokens == 0 then s
  else { s with segments := pushSegment ⟨env.digest s.text, s.cacheTokens, ttl⟩ s.segments }

def feedTool (s : Chain H) (t : Tool) : Chain H :=
  s.feed (toolSignature env.formatFloat t) (toolTokenText env.formatFloat t) enabled

def feedSystemMessage (s : Chain H) (sys : SystemMessage) : Chain H :=
  s.feed (systemSignature sys) sys.text enabled

/-- The blocks in front of the first one with a `cache_control` are only counted. -/
def skipUntil (systems : List SystemMessage) : Nat :=
  (systems.findIdx? (·.cacheControl.isSome)).getD 0

def feedSystem (s : Chain H) (systems : List SystemMessage) : Chain H :=
  let s := (systems.take (skipUntil systems)).foldl (fun s sys => s.feed "" sys.text false) s
  (systems.drop (skipUntil systems)).foldl (feedSystemMessage enabled) s

/-- An image is hashed with its data and counted by its size. -/
def feedBlock (s : Chain H) (v : Value) : Chain H :=
  if (v.get "type").bind Value.asStr = some "image" then
    (s.hash (imageSignatureValue env.formatFloat v) enabled).count
      (env.estimateImageTokens (imageSourceParts v).1 (imageSourceParts v).2) enabled
  else
    s.feed (blockSignatureValue env.formatFloat v) (blockTokenText env.formatFloat v) enabled

/-- A block, and a segment behind it when it carries a `cache_control`. -/
def takeBlock (s : Chain H) (v : Value) : Chain H :=
  let s := feedBlock env enabled s v
  if blockHasCacheControl v then s.commit env enabled ttl else s

def feedContent (s : Chain H) : Value → Chain H
  | .string text => s.feed text text enabled
  | .array blocks => blocks.foldl (takeBlock env enabled ttl) s
  | _ => s

def feedMessage (s : Chain H) (msg : Message) : Chain H :=
  feedContent env enabled ttl (s.feed msg.role "" enabled) msg.content

/-- Every message but the last one ends a segment. -/
def feedMessages (s : Chain H) : List Message → Chain H
  | [] => s
  | [msg] => feedMessage env enabled ttl s msg
  | msg :: rest => feedMessages ((feedMessage env enabled ttl s msg).commit env enabled ttl) rest

/-- The chain behind the tools and the system messages, with their segment. -/
def feedBase (req : MessagesRequest) (s : Chain H) : Chain H :=
  let s := (req.tools.getD []).foldl (feedTool env enabled) s
  let s := feedSystem enabled s (req.system.getD [])
  if s.cacheTokens > 0 then s.commit env enabled ttl else s

end

def uncacheable : String := "uncacheable:key:0"

variable [DecidableEq H] (env : Env H) (req : MessagesRequest) (keyId : Nat)

def cacheEnabled : Bool := (isolationSeed req keyId).isSome

def seedChain : Chain H := { text := (isolationSeed req keyId).getD uncacheable }

/-- The whole chain of a request. -/
def chainOf : Chain H :=
  let enabled := cacheEnabled req keyId
  let ttl := detectMaxTtl req
  feedMessages env enabled ttl (feedBase env enabled ttl req (seedChain req keyId)) req.messages

/-- The segments and the tokens of the whole prompt. -/
def extractSegments : List (Segment H) × Nat × Bool :=
  ((chainOf env req keyId).segments, (chainOf env req keyId).promptTotalTokens,
    cacheEnabled req keyId)

end KiroRs.Cache.Segments
