/- Path: KiroRs/Converter/Schema
   source: src/anthropic/converter.rs
   digest: The rewriting of a tool's input schema into the form the upstream accepts. -/

import KiroRs.Converter.Json
import Mathlib.Algebra.Order.Ring.Int

set_option autoImplicit false
set_option relaxedAutoImplicit false

namespace KiroRs.Converter.Schema

open KiroRs.Lib
open KiroRs.Lib.Dicts (Dict)
open KiroRs.Converter.Json

/-- The variant has type `object`. -/
def isObjectVariant : Value → Bool
  | .object m => ((Dicts.get m "type").bind Value.asStr) == some "object"
  | _ => false

/-- Copies the keys that the variant has and the schema lacks. -/
def adoptKeys (m : Dict Value) (obj : Dict Value) (keys : List String) : Dict Value :=
  keys.foldl (fun obj key =>
    match Dicts.get m key with
    | some val => Dicts.orInsert obj key val
    | none => obj) obj

/-- One combinator of `strip_top_level_combinators`. -/
def stripCombinator (hasPropertiesInitially : Bool) (obj : Dict Value) (combinator : String) :
    Dict Value :=
  let stripped := Dicts.remove obj combinator
  match Dicts.get obj combinator with
  | some (.array variants) =>
    if hasPropertiesInitially || Dicts.containsKey stripped "properties" then stripped
    else
      match variants.find? isObjectVariant with
      | some (.object m) =>
        adoptKeys m stripped ["properties", "required", "additionalProperties", "description"]
      | _ => stripped
  | _ => stripped

def stripTopLevelCombinators (obj : Dict Value) : Dict Value :=
  ["oneOf", "anyOf", "allOf"].foldl (stripCombinator (Dicts.containsKey obj "properties")) obj

def exceedsI32 : Number → Bool
  | .posInt n => 2147483647 < n
  | .negInt n => 2147483647 < n || n < -2147483648
  | .float m e =>
    -- `m * 2 ^ e` against the two bounds, without fractions
    if 0 ≤ e then 2147483647 < m * 2 ^ e.toNat || m * 2 ^ e.toNat < -2147483648
    else 2147483647 * 2 ^ (-e).toNat < m || m < -2147483648 * 2 ^ (-e).toNat

def droppedKeyword (key : String) (value : Value) : Bool :=
  if key = "$schema" then true
  else if key = "exclusiveMinimum" || key = "exclusiveMaximum" then value.isNumber
  else if key = "maximum" || key = "minimum" then
    match value with
    | .number n => exceedsI32 n
    | _ => false
  else false

mutual

/-- Objects are in key order, so a keyword that is taken out and put back keeps its place. -/
def normalizePropertySchema : Value → Value
  | .object fields => .object (normalizeKeywords fields)
  | v => v

def normalizeKeywords : List (String × Value) → List (String × Value)
  | [] => []
  | (key, value) :: rest =>
    if droppedKeyword key value then normalizeKeywords rest
    else if key = "properties" then
      match value with
      | .object props => (key, .object (normalizeEach props)) :: normalizeKeywords rest
      | _ => normalizeKeywords rest
    else if key = "items" then (key, normalizePropertySchema value) :: normalizeKeywords rest
    else (key, value) :: normalizeKeywords rest

def normalizeEach : List (String × Value) → List (String × Value)
  | [] => []
  | (key, value) :: rest => (key, normalizePropertySchema value) :: normalizeEach rest

end

def normalizeJsonSchema : Value → Value
  | .object obj =>
    let obj := stripTopLevelCombinators (Dicts.remove obj "$schema")
    let obj :=
      if (Dicts.get obj "type").bind Value.asStr = some "object" then obj
      else Dicts.insert obj "type" (.string "object")
    let properties :=
      match Dicts.get obj "properties" with
      | some (.object props) => normalizeEach props
      | _ => []
    let obj := Dicts.insert obj "properties" (.object properties)
    let required :=
      match Dicts.get obj "required" with
      | some (.array arr) => arr.filterMap fun v => v.asStr.map Value.string
      | _ => []
    let obj := Dicts.insert obj "required" (.array required)
    let obj :=
      match Dicts.get obj "additionalProperties" with
      | some (.bool _) => obj
      | some (.object _) => obj
      | _ => Dicts.insert obj "additionalProperties" (.bool true)
    .object obj
  | _ =>
    .obj [("type", .string "object"), ("properties", .object []), ("required", .array []),
      ("additionalProperties", .bool true)]

end KiroRs.Converter.Schema
