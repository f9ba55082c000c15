/- Path: KiroRs/Cache/Signatures
   source: src/anthropic/cache_metering.rs, src/anthropic/types.rs
   digest: What the simulated prompt cache reads of a request, and the texts of its parts that are
   hashed and counted. -/

import Mathlib.Data.List.Sort
import KiroRs.Converter.Requests

set_option autoImplicit false
set_option relaxedAutoImplicit false

namespace KiroRs.Cache.Signatures

open KiroRs.Lib
open KiroRs.Lib.Text
open KiroRs.Lib.Dicts (Dict)
open KiroRs.Converter.Json
open KiroRs.Converter.Requests (CacheControl Metadata Message)

structure SystemMessage where
  text : String
  cacheControl : Option CacheControl := none
  deriving Repr, Inhabited

structure Tool where
  name : String := ""
  description : String := ""
  inputSchema : Dict Value := []
  cacheControl : Option CacheControl := none
  deriving Repr, Inhabited

/-- The fields of the request that the metering reads. -/
structure MessagesRequest where
  messages : List Message
  system : Option (List SystemMessage) := none
  tools : Option (List Tool) := none
  metadata : Option Metadata := none
  deriving Repr, Inhabited

variable (formatFloat : Int → Int → String)

/-- Pairs in the order of their keys. -/
def sortByKey (pairs : List (String × String)) : List (String × String) :=
  pairs.insertionSort (·.1 ≤ ·.1)

mutual

def canonicalJson : Value → String
  | .object fields =>
    "\x7b" ++ ",".intercalate ((sortByKey (canonicalFields fields)).map fun p =>
      quoted p.1 ++ ":" ++ p.2) ++ "\x7d"
  | .array items => "[" ++ ",".intercalate (canonicalItems items) ++ "]"
  | .null => "null"
  | .bool b => if b then "true" else "false"
  | .number n => n.render formatFloat
  | .string s => quoted s

def canonicalItems : List Value → List String
  | [] => []
  | v :: rest => canonicalJson v :: canonicalItems rest

def canonicalFields : List (String × Value) → List (String × String)
  | [] => []
  | (k, v) :: rest => (k, canonicalJson v) :: canonicalFields rest

end

/-- A text field, empty when it is missing. -/
def textOf (v : Value) (key : String) : String := ((v.get key).bind Value.asStr).getD ""

def asBool : Value → Option Bool
  | .bool b => some b
  | _ => none

def canonicalField (v : Value) (key : String) : String :=
  ((v.get key).map (canonicalJson formatFloat)).getD ""

/-- `serde_json::to_string` of the schema. -/
def schemaText (t : Tool) : String := (Value.object t.inputSchema).render formatFloat

def toolSignature (t : Tool) : String :=
  "tool:" ++ t.name ++ "|" ++ t.description ++ "|" ++ schemaText formatFloat t

def toolTokenText (t : Tool) : String :=
  t.name ++ " " ++ t.description ++ " " ++ schemaText formatFloat t

def systemSignature (s : SystemMessage) : String := "sys:" ++ s.text

/-- The media type and the data of an image block. -/
def imageSourceParts (v : Value) : String × String :=
  match v.get "source" with
  | some source => (textOf source "media_type", textOf source "data")
  | none => ("", "")

def imageSignatureValue (v : Value) : String :=
  let (mediaType, data) := imageSourceParts v
  if data.isEmpty then "block:image|" ++ mediaType ++ "|" ++ canonicalJson formatFloat v
  else "block:image|" ++ mediaType ++ "|" ++ data

def blockSignatureValue (v : Value) : String :=
  match textOf v "type" with
  | "text" => "block:text|" ++ textOf v "text"
  | "thinking" => "block:thinking|" ++ textOf v "thinking"
  | "redacted_thinking" => "block:redacted_thinking|" ++ textOf v "data"
  | "tool_use" =>
    "block:tool_use|" ++ textOf v "name" ++ "|" ++ canonicalField formatFloat v "input"
  | "tool_result" =>
    "block:tool_result|" ++
      (if ((v.get "is_error").bind asBool).getD false then "true" else "false") ++ "|" ++
      canonicalField formatFloat v "content"
  | "image" => imageSignatureValue formatFloat v
  | other => "block:" ++ other ++ "|" ++ canonicalJson formatFloat v

/-- The kinds of blocks whose own field is the counted text. -/
def plainTokenText (v : Value) : Option String :=
  match textOf v "type" with
  | "text" => some (textOf v "text")
  | "thinking" => some (textOf v "thinking")
  | "redacted_thinking" => some (textOf v "data")
  | "tool_use" =>
    let input := canonicalField formatFloat v "input"
    some (if (textOf v "name").isEmpty then input else textOf v "name" ++ " " ++ input)
  | "image" => some ""
  | _ => none

mutual

def blockTokenText : Value → String
  | .object fields =>
    match plainTokenText formatFloat (.object fields) with
    | some text => text
    | none =>
      if textOf (.object fields) "type" = "tool_result" then contentField fields
      else canonicalJson formatFloat (.object fields)
  | v => (plainTokenText formatFloat v).getD (canonicalJson formatFloat v)

/-- The counted text of the first field named `content`. -/
def contentField : List (String × Value) → String
  | [] => ""
  | (k, v) :: rest => if "content" = k then blockContentTokenText v else contentField rest

def blockContentTokenText : Value → String
  | .string s => s
  | .array items => " ".intercalate (contentItems items)
  | v => canonicalJson formatFloat v

/-- The counted texts of the items that are no images, without the empty ones. -/
def contentItems : List Value → List String
  | [] => []
  | v :: rest =>
    let text := if (v.get "type").bind Value.asStr = some "image" then "" else blockTokenText v
    if text.isEmpty then contentItems rest else text :: contentItems rest

end

def blockHasCacheControl (v : Value) : Bool := (v.get "cache_control").isSome

/-- Two tokens for three Chinese characters, one for four others, and at least one. -/
def estimateTokens (text : String) : Nat :=
  let chinese := text.toList.countP fun c => 0x4E00 ≤ c.toNat ∧ c.toNat ≤ 0x9FFF
  let other := text.toList.length - chinese
  max ((chinese * 2 + 2) / 3 + (other + 3) / 4) 1

end KiroRs.Cache.Signatures
