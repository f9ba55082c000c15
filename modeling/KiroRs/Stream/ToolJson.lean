/- Path: KiroRs/Stream/ToolJson
   source: src/anthropic/stream.rs
   digest: The collector of the fragments of tool inputs. -/

import KiroRs.Converter.ToolNames
import KiroRs.Stream.Events

set_option autoImplicit false
set_option relaxedAutoImplicit false

namespace KiroRs.Stream.ToolJson

open KiroRs.Lib
open KiroRs.Lib.Text (trim)
open KiroRs.Lib.Dicts (Dict)
open KiroRs.Converter.Json
open KiroRs.Converter.ToolNames
open KiroRs.Stream.Events

structure CompletedToolUse where
  id : String
  name : String
  input : Value
  deriving Repr

inductive ToolJsonAccumulatorError where
  | invalidJson (toolUseId name message : String)
  | incompleteJson (toolUseId name : String) (bytes : Nat)
  deriving DecidableEq, Repr

namespace ToolJsonAccumulatorError

def errorType (_ : ToolJsonAccumulatorError) : String := "upstream_tool_json_error"

def message : ToolJsonAccumulatorError → String
  | invalidJson toolUseId name message =>
    "Upstream returned invalid JSON for tool_use " ++ toolUseId ++ " (" ++ name ++ "): " ++ message
  | incompleteJson toolUseId name bytes =>
    "Upstream ended before completing tool_use " ++ toolUseId ++ " (" ++ name ++
      ") JSON input; buffered " ++ toString bytes ++
      " bytes. The tool call was not forwarded to the client."

end ToolJsonAccumulatorError

structure ToolJsonAccumulator where
  buffers : Dict (String × String) := []
  deriving Repr

namespace ToolJsonAccumulator

/-- The entry of a tool use with one more fragment. The first name that is not empty stays. -/
def collect (buffers : Dict (String × String)) (e : ToolUseEvent) : String × String :=
  let entry := (Dicts.get buffers e.toolUseId).getD (e.name, "")
  (if entry.1.isEmpty then e.name else entry.1, entry.2 ++ e.input)

/-- Without `stop` the input stays collected; with it the entry is gone, parsed or not. -/
def push (env : StreamEnv) (acc : ToolJsonAccumulator) (e : ToolUseEvent) (map : ToolNameMap) :
    Except ToolJsonAccumulatorError (Option CompletedToolUse) × ToolJsonAccumulator :=
  let (kiroName, inputJson) := collect acc.buffers e
  if !e.stop then (.ok none, ⟨Dicts.insert acc.buffers e.toolUseId (kiroName, inputJson)⟩)
  else
    let removed : ToolJsonAccumulator := ⟨Dicts.remove acc.buffers e.toolUseId⟩
    let deliver (input : Value) : CompletedToolUse :=
      let (name, input) := restoreToolUseForClient kiroName input map
      { id := e.toolUseId, name, input }
    if (trim inputJson).isEmpty then (.ok (some (deliver (.object []))), removed)
    else
      match env.jsonFromStr inputJson with
      | some input => (.ok (some (deliver input)), removed)
      | none => (.error (.invalidJson e.toolUseId kiroName (env.jsonError inputJson)), removed)

def longest : List (String × String × String) → Option (String × String × String)
  | [] => none
  | entry :: rest =>
    match longest rest with
    | none => some entry
    | some other =>
      if other.2.2.utf8ByteSize < entry.2.2.utf8ByteSize then some entry else some other

/-- The entries in the order in which the map gives them out. -/
def entries (env : StreamEnv) (buffers : Dict (String × String)) :
    List (String × String × String) :=
  (env.idOrder (buffers.map (·.1))).filterMap fun id => (Dicts.get buffers id).map fun p => (id, p)

/-- Inputs that stayed empty are delivered, unless one is left that is not. -/
def finish (env : StreamEnv) (acc : ToolJsonAccumulator) (map : ToolNameMap) :
    Except ToolJsonAccumulatorError (List CompletedToolUse) × ToolJsonAccumulator :=
  let isEmptyInput (p : String × String × String) : Bool := (trim p.2.2).isEmpty
  let completed := ((entries env acc.buffers).filter isEmptyInput).map fun (id, kiroName, _) =>
    let (name, input) := restoreToolUseForClient kiroName (.object []) map
    { id, name, input : CompletedToolUse }
  let left := acc.buffers.filter (!isEmptyInput ·)
  match longest (entries env left) with
  | some (id, name, input) =>
    (.error (.incompleteJson id name input.utf8ByteSize), ⟨Dicts.remove left id⟩)
  | none => (.ok completed, ⟨left⟩)

end ToolJsonAccumulator

end KiroRs.Stream.ToolJson
