/- Path: KiroRs/Converter/Json
   digest: JSON values as the request converter reads, rewrites and prints them. -/

import KiroRs.Lib.Dicts

set_option autoImplicit false
set_option relaxedAutoImplicit false

namespace KiroRs.Converter.Json

open KiroRs.Lib
open KiroRs.Lib.Dicts (Dict)

/-- A JSON number: an unsigned or a negative integer of 64 bits, or the finite binary fraction
`mantissa * 2 ^ exponent`. -/
inductive Number where
  | posInt (n : UInt64)
  | negInt (n : Int64)
  | float (mantissa exponent : Int)
  deriving DecidableEq, Repr

inductive Value where
  | null
  | bool (b : Bool)
  | number (n : Number)
  | string (s : String)
  | array (items : List Value)
  | object (fields : List (String × Value))
  deriving Repr, Inhabited

namespace Value

def asStr : Value → Option String
  | string s => some s
  | _ => none

def isNull : Value → Bool
  | null => true
  | _ => false

/-- `value.get(key)`, which answers on objects only. -/
def get : Value → String → Option Value
  | object fields, key => Dicts.get fields key
  | _, _ => none

def asI64 : Value → Option Int64
  | number (.posInt n) => if n ≤ 9223372036854775807 then some n.toInt64 else none
  | number (.negInt n) => some n
  | _ => none

def asU64 : Value → Option UInt64
  | number (.posInt n) => some n
  | _ => none

def isNumber : Value → Bool
  | number _ => true
  | _ => false

/-- The number a `serde_json::json!` literal makes of an `i64`. -/
def ofI64 (n : Int64) : Value :=
  if 0 ≤ n then number (.posInt n.toUInt64) else number (.negInt n)

def obj (entries : List (String × Value)) : Value := object (Dicts.ofList entries)

end Value

def hexDigit (n : Nat) : Char := "0123456789abcdef".toList.getD n '0'

def escapeChar (c : Char) : List Char :=
  if c = '"' then ['\\', '"']
  else if c = '\\' then ['\\', '\\']
  else if c.toNat = 8 then ['\\', 'b']
  else if c.toNat = 9 then ['\\', 't']
  else if c.toNat = 10 then ['\\', 'n']
  else if c.toNat = 12 then ['\\', 'f']
  else if c.toNat = 13 then ['\\', 'r']
  else if c.toNat < 32 then ['\\', 'u', '0', '0', hexDigit (c.toNat / 16), hexDigit (c.toNat % 16)]
  else [c]

def quoted (s : String) : String :=
  String.ofList ('"' :: s.toList.flatMap escapeChar ++ ['"'])

/-- The shortest decimal of a binary fraction is left to `formatFloat`. -/
def Number.render (formatFloat : Int → Int → String) : Number → String
  | .posInt n => toString n.toNat
  | .negInt n => toString n.toInt
  | .float mantissa exponent => formatFloat mantissa exponent

mutual

def Value.render (formatFloat : Int → Int → String) : Value → String
  | .null => "null"
  | .bool b => if b then "true" else "false"
  | .number n => n.render formatFloat
  | .string s => quoted s
  | .array items => "[" ++ ",".intercalate (renderItems formatFloat items) ++ "]"
  | .object fields => "\x7b" ++ ",".intercalate (renderFields formatFloat fields) ++ "\x7d"

def renderItems (formatFloat : Int → Int → String) : List Value → List String
  | [] => []
  | v :: rest => v.render formatFloat :: renderItems formatFloat rest

def renderFields (formatFloat : Int → Int → String) : List (String × Value) → List String
  | [] => []
  | (k, v) :: rest =>
    (quoted k ++ ":" ++ v.render formatFloat) :: renderFields formatFloat rest

end

/-- The values of the named fields as a derived deserializer finds them: by name in an object,
where a missing field reads as `null`, and by position in an array of exactly as many items. -/
def structFields (names : List String) : Value → Option (List Value)
  | .object fields => some (names.map fun name => (Dicts.get fields name).getD .null)
  | .array items => if items.length = names.length then some items else none
  | _ => none

/-- A field of type `String`. -/
def reqString : Value → Option String := Value.asStr

/-- A field of type `Option<String>`. -/
def optString : Value → Option (Option String)
  | .null => some none
  | .string s => some (some s)
  | _ => none

/-- A field of type `Option<bool>`. -/
def optBool : Value → Option (Option Bool)
  | .null => some none
  | .bool b => some (some b)
  | _ => none

/-- A field of type `Option<Value>`. -/
def optValue : Value → Option Value
  | .null => none
  | v => some v

/-- A field of type `Option<T>` with the reader of `T`. -/
def optStruct {α : Type} (read : Value → Option α) : Value → Option (Option α)
  | .null => some none
  | v => (read v).map some

end KiroRs.Converter.Json
