/- Path: KiroRs/Converter/ToolNames
   source: src/anthropic/converter.rs
   digest: Tool names and tool inputs on their way to the upstream and back. -/

import KiroRs.Converter.Models

set_option autoImplicit false
set_option relaxedAutoImplicit false

namespace KiroRs.Converter.ToolNames

open KiroRs.Lib
open KiroRs.Lib.Dicts (Dict)
open KiroRs.Converter.Json
open KiroRs.Converter.Models

inductive ToolCompatibilityMode where
  | claudeCode
  | raw
  deriving DecidableEq, Repr

def isClaudeCodeMode (mode : ToolCompatibilityMode) : Bool := mode == .claudeCode

structure UnsupportedToolMapping where
  toolName : String
  reason : String
  deriving DecidableEq, Repr

def UnsupportedToolMapping.toString (e : UnsupportedToolMapping) : String :=
  "unsupported tool mapping for " ++ e.toolName ++ ": " ++ e.reason

def toolNameMaxLen : Nat := 63

def shortenToolName (env : Env) (name : String) : String :=
  let hashSuffix := (env.sha256Hex name).toList.take 8
  -- 54 characters in front of the underscore and the digest's eight
  let pre := name.toList.take (toolNameMaxLen - 1 - 8)
  String.ofList (pre ++ '_' :: hashSuffix)

/-- The reverse map: from the name sent upstream to the client's. -/
abbrev ToolNameMap := Dict String

/-- The limit is tested in bytes. -/
def mapToolName (env : Env) (name : String) (map : ToolNameMap) : String × ToolNameMap :=
  if name.utf8ByteSize ≤ toolNameMaxLen then (name, map)
  else
    let short := shortenToolName env name
    (short, Dicts.insert map short name)

def claudeCodeToolNameToKiro : String → Option String
  | "Write" => some "fs_write"
  | "Edit" => some "str_replace"
  | "Bash" => some "execute_bash"
  | "Read" => some "read_file"
  | "Glob" => some "file_search"
  | "Grep" => some "grep_search"
  | "LS" => some "list_directory"
  | "WebSearch" => some "web_search"
  | _ => none

theorem counterpart_cases {name : String} (counterpart : (claudeCodeToolNameToKiro name).isSome) :
    name = "Write" ∨ name = "Edit" ∨ name = "Bash" ∨ name = "Read" ∨ name = "Glob" ∨
      name = "Grep" ∨ name = "LS" ∨ name = "WebSearch" := by
  unfold claudeCodeToolNameToKiro at counterpart
  split at counterpart
  case h_9 => cases counterpart
  all_goals simp

def mapClientToolNameToKiro (env : Env) (mode : ToolCompatibilityMode) (name : String)
    (map : ToolNameMap) : String × ToolNameMap :=
  match isClaudeCodeMode mode, claudeCodeToolNameToKiro name with
  | true, some kiroName => (kiroName, Dicts.orInsert map kiroName name)
  | _, _ => mapToolName env name map

/-- The name that a client's tool name is sent under. -/
def sentName (env : Env) (mode : ToolCompatibilityMode) (name : String) : String :=
  (mapClientToolNameToKiro env mode name []).1

theorem mapClientToolNameToKiro_fst (env : Env) (mode : ToolCompatibilityMode) (name : String)
    (map : ToolNameMap) : (mapClientToolNameToKiro env mode name map).1 = sentName env mode name := by
  unfold sentName mapClientToolNameToKiro mapToolName
  split
  · rfl
  · split_ifs <;> rfl

/-- `optional_number`, where an unsigned number wraps. -/
def optionalNumber (v : Value) : Option Int64 :=
  match v.asI64 with
  | some n => some n
  | none => v.asU64.map (·.toInt64)

def takeFirst (obj : Dict Value) (keys : List String) : Option Value :=
  keys.findSome? fun key => Dicts.get obj key

def maybeInsert (out : Dict Value) (key : String) : Option Value → Dict Value
  | some v => if v.isNull then out else Dicts.insert out key v
  | none => out

/-- `maybe_insert` of the first of the keys that is there. -/
def copyFirst (obj : Dict Value) (key : String) (keys : List String) (out : Dict Value) :
    Dict Value :=
  maybeInsert out key (takeFirst obj keys)

def defaultExplanation (toolName : String) : Value :=
  .string ("Mapped from Claude Code " ++ toolName ++ " tool.")

/-- The explanation of the input, or the default one. -/
def explain (obj : Dict Value) (toolName : String) (out : Dict Value) : Dict Value :=
  Dicts.orInsert (copyFirst obj "explanation" ["explanation"] out) "explanation"
    (defaultExplanation toolName)

/-- The line window of `Read`. Sums wrap as they do in a release build. -/
def readWindowToKiro (obj : Dict Value) (out : Dict Value) : Dict Value :=
  let offset := (Dicts.get obj "offset").bind optionalNumber
  let limit := (Dicts.get obj "limit").bind optionalNumber
  let out :=
    match offset with
    | some start => Dicts.insert out "start_line" (Value.ofI64 start)
    | none => out
  match limit with
  | some limit =>
    let last :=
      match offset with
      | some start => start + limit - 1
      | none => limit
    Dicts.insert out "end_line" (Value.ofI64 last)
  | none => out

def readWindowFromKiro (obj : Dict Value) (out : Dict Value) : Dict Value :=
  let first := (Dicts.get obj "start_line").bind optionalNumber
  let last := (Dicts.get obj "end_line").bind optionalNumber
  let out :=
    match first with
    | some start => Dicts.insert out "offset" (Value.ofI64 start)
    | none => out
  match last with
  | some last =>
    let limit :=
      match first with
      | some start => last - start + 1
      | none => last
    if 0 < limit then Dicts.insert out "limit" (Value.ofI64 limit) else out
  | none => out

/-- Whether ignored files are searched: booleans are spelled out. -/
def includeIgnoredToKiro (obj : Dict Value) (out : Dict Value) : Dict Value :=
  match takeFirst obj ["includeIgnoredFiles", "include_ignored"] with
  | some (.bool true) => Dicts.insert out "includeIgnoredFiles" (.string "yes")
  | some (.bool false) => Dicts.insert out "includeIgnoredFiles" (.string "no")
  | some other => Dicts.insert out "includeIgnoredFiles" other
  | none => out

def readPagesReason : String := "Claude Code Read.pages has no Kiro read_file equivalent"

/-- The input of a tool that has a counterpart, field by field. -/
def mapFieldsToKiro (clientName : String) (obj : Dict Value) :
    Except UnsupportedToolMapping (Dict Value) :=
  match clientName with
  | "Write" =>
    .ok (copyFirst obj "text" ["content", "text"] (copyFirst obj "path" ["file_path", "path"] []))
  | "Edit" =>
    .ok (copyFirst obj "newStr" ["new_string", "newStr"]
      (copyFirst obj "oldStr" ["old_string", "oldStr"]
        (copyFirst obj "path" ["file_path", "path"] [])))
  | "Bash" =>
    .ok (copyFirst obj "timeout" ["timeout"] (copyFirst obj "command" ["command"] []))
  | "Read" =>
    if (Dicts.get obj "pages").any fun v => !v.isNull then
      .error { toolName := clientName, reason := readPagesReason }
    else
      .ok (explain obj clientName
        (readWindowToKiro obj (copyFirst obj "path" ["file_path", "path"] [])))
  | "Glob" =>
    .ok (explain obj clientName (includeIgnoredToKiro obj
      (copyFirst obj "excludePattern" ["excludePattern", "exclude"]
        (copyFirst obj "query" ["pattern", "query"] []))))
  | "Grep" =>
    .ok (copyFirst obj "explanation" ["explanation"]
      (copyFirst obj "caseSensitive" ["caseSensitive", "case_sensitive"]
        (copyFirst obj "excludePattern" ["excludePattern", "exclude"]
          (copyFirst obj "includePattern" ["glob", "includePattern"]
            (copyFirst obj "query" ["pattern", "query"] [])))))
  | "LS" =>
    .ok (explain obj clientName
      (copyFirst obj "depth" ["depth"] (copyFirst obj "path" ["path"] [])))
  | "WebSearch" => .ok (copyFirst obj "query" ["query"] [])
  | _ => .ok obj

def mapToolInputToKiro (mode : ToolCompatibilityMode) (clientName : String) (input : Value) :
    Except UnsupportedToolMapping Value :=
  if !isClaudeCodeMode mode then .ok input
  else if (claudeCodeToolNameToKiro clientName).isNone then .ok input
  else
    match input with
    | .object obj => (mapFieldsToKiro clientName obj).map Value.object
    | _ => .ok input

def mapFieldsFromKiro (clientName : String) (obj : Dict Value) : Dict Value :=
  match clientName with
  | "Write" =>
    copyFirst obj "content" ["text", "content"] (copyFirst obj "file_path" ["path", "file_path"] [])
  | "Edit" =>
    copyFirst obj "new_string" ["newStr", "new_string"]
      (copyFirst obj "old_string" ["oldStr", "old_string"]
        (copyFirst obj "file_path" ["path", "file_path"] []))
  | "Bash" => copyFirst obj "timeout" ["timeout"] (copyFirst obj "command" ["command"] [])
  | "Read" => readWindowFromKiro obj (copyFirst obj "file_path" ["path", "file_path"] [])
  | "Glob" => copyFirst obj "pattern" ["query", "pattern"] []
  | "Grep" =>
    copyFirst obj "case_sensitive" ["caseSensitive", "case_sensitive"]
      (copyFirst obj "glob" ["includePattern", "glob"]
        (copyFirst obj "pattern" ["query", "pattern"] []))
  | "LS" => copyFirst obj "path" ["path"] []
  | "WebSearch" => copyFirst obj "query" ["query"] []
  | _ => obj

def mapToolInputFromKiro (clientName : String) (input : Value) : Value :=
  if (claudeCodeToolNameToKiro clientName).isNone then input
  else
    match input with
    | .object obj => .object (mapFieldsFromKiro clientName obj)
    | _ => input

def restoreToolUseForClient (kiroName : String) (input : Value) (map : ToolNameMap) :
    String × Value :=
  let clientName := (Dicts.get map kiroName).getD kiroName
  (clientName, mapToolInputFromKiro clientName input)

variable {obj out : Dict Value} {key other : String} {keys : List String}

/-- The value, unless it is null. -/
def nonNull (v : Option Value) : Option Value := v.filter fun v => !v.isNull

/-- What the object gives for a key, where null gives nothing. -/
def given (obj : Dict Value) (key : String) : Option Value := nonNull (Dicts.get obj key)

@[simp] theorem nonNull_none : nonNull none = none := rfl

@[simp] theorem nonNull_nonNull (v : Option Value) : nonNull (nonNull v) = nonNull v := by
  unfold nonNull
  rw [Option.filter_filter]
  simp only [Bool.and_self]

theorem nonNull_some {v : Value} : nonNull (some v) = if v.isNull then none else some v := by
  unfold nonNull
  cases null : v.isNull <;> simp [null]

@[simp] theorem takeFirst_nil : takeFirst obj [] = none := rfl

@[simp] theorem takeFirst_cons :
    takeFirst obj (key :: keys) = (Dicts.get obj key).or (takeFirst obj keys) := by
  unfold takeFirst
  rw [List.findSome?_cons]
  cases Dicts.get obj key <;> rfl

theorem get_copyFirst : Dicts.get (copyFirst obj key keys out) other =
    if other = key then (nonNull (takeFirst obj keys)).or (Dicts.get out key)
    else Dicts.get out other := by
  unfold copyFirst
  cases first : takeFirst obj keys with
  | none =>
    simp only [maybeInsert, nonNull_none, Option.none_or]
    split_ifs with eq
    · rw [eq]
    · rfl
  | some v =>
    rw [nonNull_some]
    simp only [maybeInsert]
    by_cases null : v.isNull = true
    · rw [if_pos null, if_pos null, Option.none_or]
      split_ifs with eq
      · rw [eq]
      · rfl
    · rw [if_neg null, if_neg null, Dicts.get_insert, Option.some_or]

theorem get_explain {tool : String} (ne : other ≠ "explanation") :
    Dicts.get (explain obj tool out) other = Dicts.get out other := by
  unfold explain
  rw [Dicts.get_orInsert, if_neg ne, get_copyFirst, if_neg ne]

theorem get_includeIgnoredToKiro (ne : other ≠ "includeIgnoredFiles") :
    Dicts.get (includeIgnoredToKiro obj out) other = Dicts.get out other := by
  unfold includeIgnoredToKiro
  split
  · exact Dicts.get_insert_ne ne
  · exact Dicts.get_insert_ne ne
  · exact Dicts.get_insert_ne ne
  · rfl

theorem given_copyFirst : given (copyFirst obj key keys out) other =
    if other = key then (nonNull (takeFirst obj keys)).or (given out key) else given out other := by
  unfold given
  rw [get_copyFirst]
  split_ifs
  · cases first : takeFirst obj keys with
    | none => rfl
    | some v =>
      rw [nonNull_some]
      by_cases null : v.isNull = true
      · rw [if_pos null]
        rfl
      · rw [if_neg null, Option.some_or, Option.some_or, nonNull_some, if_neg null]
  · rfl

theorem takeFirst_append {more : List String} :
    takeFirst obj (keys ++ more) = (takeFirst obj keys).or (takeFirst obj more) := by
  unfold takeFirst
  exact List.findSome?_append

/-- A value that is found is the value of one of the keys. -/
theorem exists_of_takeFirst {v : Value} (found : takeFirst obj keys = some v) :
    ∃ key ∈ keys, Dicts.get obj key = some v :=
  List.exists_of_findSome?_eq_some found

theorem takeFirst_eq_none : takeFirst obj keys = none ↔ ∀ key ∈ keys, Dicts.get obj key = none :=
  List.findSome?_eq_none_iff

end KiroRs.Converter.ToolNames
