/- Path: KiroRs/Converter/Tools
   source: src/anthropic/converter.rs
   digest: The tool specifications that are sent upstream: the client's tools, converted, and the
   placeholders for tools that only the history names. -/

import KiroRs.Converter.Schema
import KiroRs.Converter.ToolNames

set_option autoImplicit false
set_option relaxedAutoImplicit false

namespace KiroRs.Converter.Tools

open KiroRs.Lib
open KiroRs.Lib.Text
open KiroRs.Converter.Json
open KiroRs.Converter.Models
open KiroRs.Converter.Schema
open KiroRs.Converter.ToolNames
open KiroRs.Converter.Conversation (Tool ToolSpecification InputSchema)

def writeToolDescriptionSuffix : String :=
  "- IMPORTANT: The upstream Kiro API can truncate one assistant response before a " ++
    "large tool argument is complete. If the content to write exceeds 150 lines, " ++
    "8,000 characters, or roughly 4,000 tokens, you MUST NOT write it all at once. " ++
    "Write only a small skeleton or first chunk using this tool (no more than 50 " ++
    "lines and no more than 4,000 characters), leave a unique placeholder if needed, " ++
    "then use `Edit` to append or replace the remaining content in chunks of no more " ++
    "than 50 lines and no more than 4,000 characters each. If a Write/Edit attempt " ++
    "fails, do not retry the same large payload; split it smaller."

def editToolDescriptionSuffix : String :=
  "- IMPORTANT: The upstream Kiro API can truncate one assistant response before a " ++
    "large tool argument is complete. If `old_string` or `new_string` exceeds 50 " ++
    "lines, 8,000 characters, or roughly 4,000 tokens, you MUST split the " ++
    "modification into multiple Edit calls, each replacing no more than 50 lines and " ++
    "no more than 4,000 characters at a time. If used to append content, leave a " ++
    "unique placeholder to help append content. On the final chunk, do NOT include " ++
    "the placeholder. If an Edit attempt fails, do not retry the same large payload; " ++
    "split it smaller."

def bashToolDescriptionSuffix : String :=
  "- IMPORTANT: Do not send very large commands, inline scripts, or heredocs " ++
    "through Bash. If a command would exceed 100 lines, 8,000 characters, or roughly " ++
    "4,000 tokens, create or modify a script/file with chunked Write/Edit calls " ++
    "first, then run a short Bash command that executes it. If a Bash attempt fails " ++
    "due to argument size or truncation, do not retry the same large command; split " ++
    "it smaller."

def kiroBuiltinToolDescription (name fallback : String) : String :=
  match name with
  | "fs_write" => "Write text content to a file.\n" ++ writeToolDescriptionSuffix
  | "str_replace" => "Replace an exact string in a file.\n" ++ editToolDescriptionSuffix
  | "execute_bash" => "Execute the specified bash command.\n" ++ bashToolDescriptionSuffix
  | "read_file" => "Read a single file with optional line range specification."
  | "file_search" => "Search for files by fuzzy file path query."
  | "grep_search" => "Search file contents using a regex pattern."
  | "list_directory" => "List directory contents."
  | "web_search" => "Search the web for up-to-date information."
  | _ => if (trim fallback).isEmpty then name else fallback

/-- A schema with a type and a description. -/
def described (type description : String) : Value :=
  .obj [("type", .string type), ("description", .string description)]

def optionalSchema (schema : Value) : Value :=
  .obj [("anyOf", .array [schema, .obj [("type", .string "null")]])]

/-- An object schema that is closed. -/
def closedSchema (properties : List (String × Value)) (required : List String) : Value :=
  .obj [("type", .string "object"), ("properties", .obj properties),
    ("required", .array (required.map Value.string)), ("additionalProperties", .bool false)]

def kiroBuiltinToolSchema : String → Option Value
  | "fs_write" =>
    some (closedSchema
      [("path", described "string" "Absolute path to file."),
        ("text", described "string" "Contents to write into the file.")]
      ["path", "text"])
  | "str_replace" =>
    some (closedSchema
      [("path", described "string" "Absolute path to file."),
        ("oldStr", described "string" "Exact string to replace."),
        ("newStr", described "string" "Replacement string.")]
      ["path", "oldStr", "newStr"])
  | "execute_bash" =>
    some (closedSchema
      [("command", described "string" "Bash command to execute."),
        ("timeout", optionalSchema (described "number" "Optional timeout in milliseconds."))]
      ["command"])
  | "read_file" =>
    some (closedSchema
      [("path", described "string" "Path to file to read."),
        ("start_line", optionalSchema (described "number" "Starting line number.")),
        ("end_line", optionalSchema (described "number" "Ending line number.")),
        ("explanation", described "string" "Why this file is being read.")]
      ["path", "explanation"])
  | "file_search" =>
    some (closedSchema
      [("query", described "string" "Fuzzy filename query."),
        ("explanation", described "string" "Why this search is being performed."),
        ("excludePattern", optionalSchema (described "string"
          "Glob pattern for files to exclude.")),
        ("includeIgnoredFiles", optionalSchema (described "string"
          "Whether to include ignored files, yes or no."))]
      ["query", "explanation"])
  | "grep_search" =>
    some (closedSchema
      [("query", .obj [("type", .string "string"), ("minLength", .number (.posInt 1)),
            ("description", .string "Regex pattern to search for.")]),
        ("caseSensitive", optionalSchema (described "boolean"
          "Whether the search should be case sensitive.")),
        ("includePattern", optionalSchema (described "string"
          "Glob pattern for files to include.")),
        ("excludePattern", optionalSchema (described "string"
          "Glob pattern for files to exclude.")),
        ("explanation", optionalSchema (described "string" "Why this search is being performed."))]
      ["query"])
  | "list_directory" =>
    some (closedSchema
      [("path", described "string" "Path to directory."),
        ("depth", optionalSchema (described "number" "Depth of recursive listing.")),
        ("explanation", described "string" "Why this directory is being listed.")]
      ["path", "explanation"])
  | "web_search" =>
    some (closedSchema
      [("query", described "string" "Search query.")]
      ["query"])
  | _ => none

/-- The client's tool is one with a counterpart. -/
def isBuiltin (mode : ToolCompatibilityMode) (name : String) : Bool :=
  isClaudeCodeMode mode && (claudeCodeToolNameToKiro name).isSome

/-- The suffix of a description where the tool keeps its name. -/
def descriptionSuffix : String → String
  | "Write" => writeToolDescriptionSuffix
  | "Edit" => editToolDescriptionSuffix
  | "Bash" => bashToolDescriptionSuffix
  | _ => ""

def toolDescription (mode : ToolCompatibilityMode) (t : Requests.Tool) (mappedName : String) :
    String :=
  let description :=
    if isBuiltin mode t.name then kiroBuiltinToolDescription mappedName t.description
    else
      let suffix := descriptionSuffix t.name
      let description := if suffix.isEmpty then t.description else t.description ++ "\n" ++ suffix
      if (trim description).isEmpty then t.name else description
  String.ofList (description.toList.take 10000)

def toolSchema (mode : ToolCompatibilityMode) (t : Requests.Tool) (mappedName : String) :
    Except Failure Value :=
  if isBuiltin mode t.name then
    match kiroBuiltinToolSchema mappedName with
    | some schema => .ok schema
    | none => .error (.error (.unsupportedToolMapping
        (t.name ++ " cannot be mapped to a Kiro tool schema")))
  else .ok (normalizeJsonSchema (.object t.inputSchema))

/-- The specification that a client tool becomes under its mapped name. -/
def toolSpecificationOf (mode : ToolCompatibilityMode) (t : Requests.Tool) (mappedName : String) :
    Except Failure Tool := do
  let schema ← toolSchema mode t mappedName
  return ⟨{ name := mappedName, description := toolDescription mode t mappedName,
            inputSchema := ⟨schema⟩ }⟩

/-- The state of the loop of `convert_tools`. -/
structure ToolLoop where
  map : ToolNameMap
  seen : List String := []
  out : List Tool := []

/-- One round of the loop: the hidden tool is passed over, and so is a tool whose mapped name was
seen in any case. The reverse map is written before that test. -/
def convertTool (env : Env) (mode : ToolCompatibilityMode) (loop : ToolLoop) (t : Requests.Tool) :
    Except Failure ToolLoop :=
  if isClaudeCodeMode mode && t.name == "fs_append" then .ok loop
  else
    let (mappedName, map) := mapClientToolNameToKiro env mode t.name loop.map
    let lower := env.caseMaps.toLowercase mappedName
    if loop.seen.contains lower then .ok { loop with map := map }
    else do
      let tool ← toolSpecificationOf mode t mappedName
      return { map := map, seen := lower :: loop.seen, out := loop.out ++ [tool] }

def convertTools (env : Env) (mode : ToolCompatibilityMode) (tools : Option (List Requests.Tool))
    (map : ToolNameMap) : Except Failure (List Tool × ToolNameMap) :=
  match tools with
  | none => .ok ([], map)
  | some tools => do
    let loop ← tools.foldlM (convertTool env mode) { map := map }
    return (loop.out, loop.map)

def createPlaceholderTool (name : String) : Tool :=
  ⟨{ name := name, description := "Tool used in conversation history",
     inputSchema := ⟨.obj
      [("$schema", .string "http://json-schema.org/draft-07/schema#"), ("type", .string "object"),
        ("properties", .object []), ("required", .array []),
        ("additionalProperties", .bool true)]⟩ }⟩

end KiroRs.Converter.Tools
