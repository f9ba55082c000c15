/- Path: KiroRs/WebSearch/DeferredStart
   source: src/anthropic/websearch_loop.rs
   digest: The streamed answer of the web search loop: the task that runs the loop, the channel to the
   body of the response, the signal that starts it, and the client that reads or leaves. -/

import KiroRs.Lib.Traces
import KiroRs.WebSearch.Rendering

set_option autoImplicit false
set_option relaxedAutoImplicit false

namespace KiroRs.WebSearch.DeferredStart

open KiroRs.Lib.Traces
open KiroRs.Converter.Json
open KiroRs.WebSearch.Assembly
open KiroRs.WebSearch.Loop
open KiroRs.WebSearch.Rendering
open KiroRs.WebSearch.Rounds

/-- What goes through the channel. -/
inductive SseBytes where
  | ping
  | event (e : SentEvent)

inductive StreamStartup where
  | started
  | failed (response : ErrorResponse)

/-- What the task does to the channels. A flush ends with the first event that cannot be sent. -/
inductive Action where
  | send (item : SseBytes)
  | flush (item : SseBytes)
  | signal (startup : StreamStartup)

/-- The sender of the startup is taken when it is used. -/
structure StreamFirstByteMarker where
  startupTx : Bool := true
  started : Bool := false

namespace StreamFirstByteMarker

def take (marker : StreamFirstByteMarker) (startup : StreamStartup) :
    List Action × StreamFirstByteMarker :=
  (if marker.startupTx then [.signal startup] else [], { startupTx := false, started := true })

def markFirstUpstreamChunk (marker : StreamFirstByteMarker) : List Action × StreamFirstByteMarker :=
  if marker.started then ([], marker)
  else (.send .ping :: (marker.take .started).1, (marker.take .started).2)

def markStartedBeforeFinalFlush (marker : StreamFirstByteMarker) :
    List Action × StreamFirstByteMarker :=
  if marker.started then ([], marker) else marker.take .started

/-- Whether the response tells of the failure, and what is done. -/
def failBeforeStart (marker : StreamFirstByteMarker) (response : ErrorResponse) :
    Bool × List Action × StreamFirstByteMarker :=
  if marker.started then (false, [], marker) else (true, marker.take (.failed response))

def markChunks : Nat → StreamFirstByteMarker → List Action × StreamFirstByteMarker
  | 0, marker => ([], marker)
  | n + 1, marker =>
    let (actions, next) := marker.markFirstUpstreamChunk
    let (later, last) := markChunks n next
    (actions ++ later, last)

end StreamFirstByteMarker

def createErrorSse (errorType message : String) : SentEvent :=
  ⟨"error", .obj [("type", .string "error"),
    ("error", .obj [("type", .string errorType), ("message", .string message)])]⟩

def lateError : SentEvent :=
  createErrorSse "api_error" "web_search loop failed after the upstream stream had started"

/-- The spawned task of `render_deferred_sse`, for a loop that reads so many chunks and ends with
that result. -/
def taskActions (env : SearchEnv) (messageId : String) (chunks : Nat)
    (result : Except LoopError WebSearchLoopSuccess) : List Action :=
  let (marks, marker) := StreamFirstByteMarker.markChunks chunks {}
  match result with
  | .ok r => marks ++ (marker.markStartedBeforeFinalFlush.1 ++
      (buildSseEvents env.formatFloat messageId r).map fun e => .flush (.event e))
  | .error e =>
    match marker.failBeforeStart (e.response env) with
    | (true, actions, _) => marks ++ actions
    | (false, _, _) => marks ++ [.send (.event lateError)]

/-- The chunks that the loop reads: those of the rounds whose answers it receives. -/
def chunksRead (chunksOf : Nat → Nat) (effects : List Effect) : Nat :=
  let received := effects.countP fun
    | .received _ => true
    | _ => false
  ((List.range received).map chunksOf).sum

/-- The response to the client, and whether the client still waits for it or reads it. -/
inductive Response where
  | awaiting
  | streaming
  | answered (response : ErrorResponse)
  | gone

/-- The task, the two channels, and the client with what it has got. -/
structure World where
  program : List Action
  queue : List SseBytes := []
  startup : Option StreamStartup := none
  response : Response := .awaiting
  received : List SseBytes := []

inductive Turn where
  | task
  | response
  | client
  | leave
  deriving DecidableEq

def capacity : Nat := 32

/-- The receiver of the channel lives in the response until it is the body. -/
def World.alive (w : World) : Bool :=
  match w.response with
  | .awaiting | .streaming => true
  | .answered _ | .gone => false

def orphaned : ErrorResponse :=
  ⟨502, "upstream_error", "web_search loop ended before the response stream could start"⟩

/-- The next thing that the task does. It waits where the channel is full. -/
def World.runTask (w : World) : Option World :=
  match w.program with
  | [] => none
  | .send item :: rest =>
    if w.alive then
      if w.queue.length < capacity then
        some { w with program := rest, queue := w.queue ++ [item] }
      else none
    else some { w with program := rest }
  | .flush item :: rest =>
    if w.alive then
      if w.queue.length < capacity then
        some { w with program := rest, queue := w.queue ++ [item] }
      else none
    else some { w with program := [] }
  | .signal startup :: rest => some { w with program := rest, startup := some startup }

/-- The response waits for the startup. A task that ends drops the sender of it. -/
def World.respond (w : World) : Option World :=
  match w.response, w.startup with
  | .awaiting, some .started => some { w with response := .streaming }
  | .awaiting, some (.failed response) => some { w with response := .answered response }
  | .awaiting, none =>
    match w.program with
    | [] => some { w with response := .answered orphaned }
    | _ :: _ => none
  | _, _ => none

def World.read (w : World) : Option World :=
  match w.response, w.queue with
  | .streaming, item :: rest => some { w with queue := rest, received := w.received ++ [item] }
  | _, _ => none

/-- One party takes a step. -/
def step (w : World) : Turn → Option World
  | .task => w.runTask
  | .response => w.respond
  | .client => w.read
  | .leave => if w.alive then some { w with response := .gone } else none

/-- No party but a client that leaves can go on. -/
def Ended (w : World) : Prop := ∀ turn, turn ≠ .leave → step w turn = none

/-- What the client is to get: the response, and what its body carries. -/
def expected (env : SearchEnv) (messageId : String) (chunks : Nat)
    (result : Except LoopError WebSearchLoopSuccess) : Response × List SseBytes :=
  let pings := if chunks = 0 then [] else [.ping]
  match result with
  | .ok r => (.streaming, pings ++ (buildSseEvents env.formatFloat messageId r).map .event)
  | .error e =>
    if chunks = 0 then (.answered (e.response env), []) else (.streaming, [.ping, .event lateError])

def Action.item : Action → Option SseBytes
  | .send item | .flush item => some item
  | .signal _ => none

def sends (program : List Action) : List SseBytes := program.filterMap Action.item

@[simp] theorem sends_append (first later : List Action) :
    sends (first ++ later) = sends first ++ sends later := List.filterMap_append

/-- A program around its only signal: at most one item goes out before that, nothing but items
behind it, and nothing at all beside a failure. -/
structure Shape (before : List Action) (s : StreamStartup) (after : List Action) : Prop where
  early : ∀ a ∈ before, ∃ item, a = .send item
  short : before.length ≤ 1
  late : ∀ a ∈ after, a.item.isSome = true
  alone : ∀ response, s = .failed response → before = [] ∧ after = []

theorem markChunks_started (n : Nat) (marker : StreamFirstByteMarker)
    (started : marker.started = true) :
    StreamFirstByteMarker.markChunks n marker = ([], marker) := by
  induction n with
  | zero => rfl
  | succ n ih =>
    have none_ : marker.markFirstUpstreamChunk = ([], marker) := if_pos started
    rw [StreamFirstByteMarker.markChunks, none_]
    simp only [ih, List.append_nil]

theorem markChunks_succ (n : Nat) :
    StreamFirstByteMarker.markChunks (n + 1) {} =
      ([.send .ping, .signal .started], { startupTx := false, started := true }) := by
  have rest := markChunks_started n { startupTx := false, started := true } rfl
  rw [StreamFirstByteMarker.markChunks]
  show ([Action.send .ping, .signal .started] ++
      (StreamFirstByteMarker.markChunks n { startupTx := false, started := true }).1,
    (StreamFirstByteMarker.markChunks n { startupTx := false, started := true }).2) = _
  rw [rest, List.append_nil]

/-- What goes out before the signal, the signal, and what goes out behind it. -/
def parts (env : SearchEnv) (messageId : String) (chunks : Nat)
    (result : Except LoopError WebSearchLoopSuccess) :
    List Action × StreamStartup × List Action :=
  match result with
  | .ok r => (if chunks = 0 then [] else [.send .ping], .started,
      (buildSseEvents env.formatFloat messageId r).map fun e => .flush (.event e))
  | .error e =>
    if chunks = 0 then ([], .failed (e.response env), [])
    else ([.send .ping], .started, [.send (.event lateError)])

theorem taskActions_eq (env : SearchEnv) (messageId : String) (chunks : Nat)
    (result : Except LoopError WebSearchLoopSuccess) :
    taskActions env messageId chunks result =
      (parts env messageId chunks result).1 ++
        .signal (parts env messageId chunks result).2.1 ::
          (parts env messageId chunks result).2.2 := by
  cases chunks with
  | zero => cases result <;> rfl
  | succ n =>
    rw [taskActions, markChunks_succ]
    cases result <;> rfl

theorem shape_parts (env : SearchEnv) (messageId : String) (chunks : Nat)
    (result : Except LoopError WebSearchLoopSuccess) :
    Shape (parts env messageId chunks result).1 (parts env messageId chunks result).2.1
      (parts env messageId chunks result).2.2 := by
  have ping : ∀ a ∈ [Action.send .ping], ∃ item, a = .send item := fun a mem =>
    ⟨.ping, List.mem_singleton.mp mem⟩
  cases result with
  | ok r =>
    have flushes : ∀ a ∈ (buildSseEvents env.formatFloat messageId r).map
        (fun e => Action.flush (.event e)), a.item.isSome = true := by
      intro a mem
      obtain ⟨e, -, rfl⟩ := List.mem_map.mp mem
      rfl
    cases chunks with
    | zero => exact ⟨nofun, Nat.zero_le 1, flushes, nofun⟩
    | succ n => exact ⟨ping, le_refl 1, flushes, nofun⟩
  | error e =>
    cases chunks with
    | zero => exact ⟨nofun, Nat.zero_le 1, nofun, fun _ _ => ⟨rfl, rfl⟩⟩
    | succ n =>
      refine ⟨ping, le_refl 1, fun a mem => ?_, nofun⟩
      rw [List.mem_singleton.mp mem]
      rfl

theorem sends_flushes (events : List SentEvent) :
    sends (events.map fun e => .flush (.event e)) = events.map .event := by
  rw [sends, List.filterMap_map, ← List.filterMap_eq_map]
  rfl

section Step

variable {before after : List Action} {s : StreamStartup} {w w' : World} {turn : Turn}

inductive Follows (before : List Action) (s : StreamStartup) (after : List Action) (w : World) :
    Prop where
  /-- The response is not told anything yet. -/
  | early (done rest : List Action) (split : before = done ++ rest)
    (program : w.program = rest ++ .signal s :: after) (startup : w.startup = none)
    (response : w.response = .awaiting) (queue : w.queue = sends done) (received : w.received = [])
  /-- The response can be told, or is streaming. -/
  | late (done : List Action) (split : after = done ++ w.program) (startup : w.startup = some s)
    (response : w.response = .awaiting ∧ w.received = [] ∨
      w.response = .streaming ∧ s = .started)
    (kept : w.received ++ w.queue = sends before ++ sends done)
  | answered (e : ErrorResponse) (failed : s = .failed e) (response : w.response = .answered e)
    (received : w.received = []) (program : w.program = [])
  | left (response : w.response = .gone) (received : w.received <+: sends before ++ sends after)

theorem follows_start (before : List Action) (s : StreamStartup) (after : List Action) :
    Follows before s after { program := before ++ .signal s :: after } :=
  .early [] before rfl rfl rfl rfl rfl rfl

def World.enqueue (w : World) (item : SseBytes) (rest : List Action) : World :=
  { w with program := rest, queue := w.queue ++ [item] }

theorem runTask_item {a : Action} {item : SseBytes} {rest : List Action} (is : a.item = some item)
    (program : w.program = a :: rest) (alive : w.alive = true) (taken : w.runTask = some w') :
    w.queue.length < capacity ∧ w' = w.enqueue item rest := by
  cases a with
  | signal startup => cases is
  | send _ =>
    cases is
    rw [World.runTask, program] at taken
    simp only [alive, if_true] at taken
    split_ifs at taken with room
    cases taken
    exact ⟨room, rfl⟩
  | flush _ =>
    cases is
    rw [World.runTask, program] at taken
    simp only [alive, if_true] at taken
    split_ifs at taken with room
    cases taken
    exact ⟨room, rfl⟩

theorem runTask_of_item {a : Action} {item : SseBytes} {rest : List Action}
    (is : a.item = some item) (program : w.program = a :: rest) (alive : w.alive = true)
    (room : w.queue.length < capacity) : w.runTask = some (w.enqueue item rest) := by
  cases a with
  | signal startup => cases is
  | send _ =>
    cases is
    rw [World.runTask, program]
    simp only [alive, room, if_true]
    rfl
  | flush _ =>
    cases is
    rw [World.runTask, program]
    simp only [alive, room, if_true]
    rfl

theorem runTask_frame (taken : w.runTask = some w') :
    w'.response = w.response ∧ w'.received = w.received := by
  unfold World.runTask at taken
  split at taken
  · cases taken
  all_goals
    first
    | (split_ifs at taken <;> (cases taken; exact ⟨rfl, rfl⟩))
    | (cases taken; exact ⟨rfl, rfl⟩)

theorem follows_task (shape : Shape before s after) (follows : Follows before s after w)
    (taken : w.runTask = some w') : Follows before s after w' := by
  obtain ⟨response', received'⟩ := runTask_frame taken
  cases follows with
  | early done rest split program startup response queue received =>
    cases rest with
    | nil =>
      rw [List.nil_append] at program
      rw [World.runTask, program] at taken
      cases taken
      rw [List.append_nil] at split
      exact .late [] rfl rfl (.inl ⟨response, received⟩) (by
        rw [received, queue, split, List.nil_append]
        exact (List.append_nil _).symm)
    | cons a rest =>
      obtain ⟨item, rfl⟩ := shape.early a (by rw [split]; simp)
      have alive : w.alive = true := by rw [World.alive, response]
      obtain ⟨-, rfl⟩ := runTask_item rfl program alive taken
      refine .early (done ++ [.send item]) rest (by rw [split, List.append_assoc]; rfl) rfl startup
        response ?_ received
      rw [sends_append, ← queue]
      rfl
  | late done split startup response kept =>
    have alive : w.alive = true := by
      rcases response with ⟨awaits, -⟩ | ⟨streams, -⟩
      · rw [World.alive, awaits]
      · rw [World.alive, streams]
    cases program : w.program with
    | nil =>
      rw [World.runTask, program] at taken
      cases taken
    | cons a rest =>
      obtain ⟨item, is⟩ := Option.isSome_iff_exists.mp
        (shape.late a (by rw [split, program]; simp))
      obtain ⟨-, rfl⟩ := runTask_item is program alive taken
      refine .late (done ++ [a]) (by rw [split, program, List.append_assoc]; rfl) startup response ?_
      have one : sends [a] = [item] := List.filterMap_cons_some is
      rw [sends_append, ← List.append_assoc, ← kept, one, List.append_assoc]
      rfl
  | answered e failed response received program =>
    rw [World.runTask, program] at taken
    cases taken
  | left response received =>
    exact .left (response'.trans response) (by rw [received']; exact received)

theorem follows_respond (shape : Shape before s after) (follows : Follows before s after w)
    (taken : w.respond = some w') : Follows before s after w' := by
  cases follows with
  | early done rest split program startup response queue received =>
    rw [World.respond, response, startup, program] at taken
    cases rest with
    | nil => cases taken
    | cons a rest => cases taken
  | late done split startup response kept =>
    rcases response with ⟨awaits, received⟩ | ⟨streams, -⟩
    · rw [World.respond, awaits, startup] at taken
      cases s with
      | started =>
        cases taken
        exact .late done split rfl (.inr ⟨rfl, rfl⟩) kept
      | failed e =>
        cases taken
        obtain ⟨-, none_⟩ := shape.alone e rfl
        rw [none_] at split
        exact .answered e rfl rfl received (List.append_eq_nil_iff.mp split.symm).2
    · rw [World.respond, streams] at taken
      cases taken
  | answered e failed response received program =>
    rw [World.respond, response] at taken
    cases taken
  | left response received =>
    rw [World.respond, response] at taken
    cases taken

theorem follows_read (follows : Follows before s after w)
    (taken : w.read = some w') : Follows before s after w' := by
  cases follows with
  | early done rest split program startup response queue received =>
    rw [World.read, response] at taken
    cases taken
  | late done split startup response kept =>
    rcases response with ⟨awaits, -⟩ | ⟨streams, is⟩
    · rw [World.read, awaits] at taken
      cases taken
    · cases queue : w.queue with
      | nil =>
        rw [World.read, streams, queue] at taken
        cases taken
      | cons item rest =>
        rw [World.read, streams, queue] at taken
        cases taken
        refine .late done split startup (.inr ⟨rfl, is⟩) ?_
        rw [← kept, queue, List.append_assoc]
        rfl
  | answered e failed response received program =>
    rw [World.read, response] at taken
    cases taken
  | left response received =>
    rw [World.read, response] at taken
    cases taken

theorem follows_leave (follows : Follows before s after w) :
    Follows before s after { w with response := .gone } := by
  cases follows with
  | early done rest split program startup response queue received =>
    exact .left rfl (by rw [show w.received = [] from received]; exact List.nil_prefix)
  | late done split startup response kept =>
    refine .left rfl ⟨w.queue ++ sends w.program, ?_⟩
    rw [← List.append_assoc]
    show w.received ++ w.queue ++ sends w.program = _
    rw [kept, split, sends_append, List.append_assoc]
  | answered e failed response received program =>
    exact .left rfl (by rw [show w.received = [] from received]; exact List.nil_prefix)
  | left response received => exact .left rfl received

theorem follows_step (shape : Shape before s after) (follows : Follows before s after w)
    (taken : step w turn = some w') : Follows before s after w' := by
  cases turn with
  | task => exact follows_task shape follows taken
  | response => exact follows_respond shape follows taken
  | client => exact follows_read follows taken
  | leave =>
    rw [step] at taken
    split_ifs at taken
    cases taken
    exact follows_leave follows

theorem follows_ended (shape : Shape before s after) (follows : Follows before s after w)
    (ended : Ended w) : w.response = .gone ∨
      (s = .started ∧ w.response = .streaming ∧ w.received = sends before ++ sends after) ∨
      ∃ e, s = .failed e ∧ w.response = .answered e ∧ w.received = [] := by
  have task : w.runTask = none := ended .task nofun
  have respond : w.respond = none := ended .response nofun
  have read : w.read = none := ended .client nofun
  cases follows with
  | early done rest split program startup response queue received =>
    have alive : w.alive = true := by rw [World.alive, response]
    cases rest with
    | nil =>
      rw [World.runTask, program] at task
      cases task
    | cons a rest =>
      obtain ⟨item, rfl⟩ := shape.early a (by rw [split]; simp)
      have short := shape.short
      have sent : (sends done).length ≤ done.length := List.length_filterMap_le _ _
      rw [split, List.length_append, List.length_cons] at short
      have room : w.queue.length < capacity := by
        rw [queue, capacity]
        omega
      rw [runTask_of_item rfl program alive room] at task
      cases task
  | late done split startup response kept =>
    rcases response with ⟨awaits, -⟩ | ⟨streams, is⟩
    · rw [World.respond, awaits, startup] at respond
      cases s <;> cases respond
    · have empty : w.queue = [] := by
        cases queue : w.queue with
        | nil => rfl
        | cons item rest =>
          rw [World.read, streams, queue] at read
          cases read
      have finished : w.program = [] := by
        cases program : w.program with
        | nil => rfl
        | cons a rest =>
          obtain ⟨item, is_item⟩ := Option.isSome_iff_exists.mp
            (shape.late a (by rw [split, program]; simp))
          have alive : w.alive = true := by rw [World.alive, streams]
          have room : w.queue.length < capacity := by rw [empty]; decide
          rw [runTask_of_item is_item program alive room] at task
          cases task
      rw [finished, List.append_nil] at split
      rw [empty, List.append_nil, ← split] at kept
      exact .inr (.inl ⟨is, streams, kept⟩)
  | answered e failed response received program => exact .inr (.inr ⟨e, failed, response, received⟩)
  | left response received => exact .inl response

def Response.rank : Response → Nat
  | .awaiting => 2
  | .streaming => 1
  | .answered _ | .gone => 0

def World.rank (w : World) : Nat := 2 * w.program.length + w.queue.length + w.response.rank

theorem rank_runTask (taken : w.runTask = some w') : w'.rank < w.rank := by
  cases program : w.program with
  | nil =>
    rw [World.runTask, program] at taken
    cases taken
  | cons a rest =>
    have length : w.program.length = rest.length + 1 := by rw [program, List.length_cons]
    cases alive : w.alive with
    | true =>
      cases is : a.item with
      | none =>
        cases a with
        | signal startup =>
          rw [World.runTask, program] at taken
          cases taken
          simp only [World.rank]
          omega
        | _ => cases is
      | some item =>
        obtain ⟨-, rfl⟩ := runTask_item is program alive taken
        simp only [World.rank, World.enqueue, List.length_append, List.length_singleton]
        omega
    | false =>
      rw [World.runTask, program] at taken
      cases a with
      | send item =>
        simp only [alive, Bool.false_eq_true, if_false] at taken
        cases taken
        simp only [World.rank]
        omega
      | flush item =>
        simp only [alive, Bool.false_eq_true, if_false] at taken
        cases taken
        simp only [World.rank, List.length_nil]
        omega
      | signal startup =>
        cases taken
        simp only [World.rank]
        omega

theorem rank_step (taken : step w turn = some w') : w'.rank < w.rank := by
  cases turn with
  | task => exact rank_runTask taken
  | response =>
    rw [step, World.respond] at taken
    split at taken
    · rename_i awaits _
      cases taken
      simp only [World.rank, awaits, Response.rank]
      omega
    · rename_i awaits _
      cases taken
      simp only [World.rank, awaits, Response.rank]
      omega
    · rename_i awaits _
      split at taken
      · cases taken
        simp only [World.rank, awaits, Response.rank]
        omega
      · cases taken
    · cases taken
  | client =>
    rw [step, World.read] at taken
    split at taken
    · rename_i queue
      cases taken
      simp only [World.rank, queue, List.length_cons]
      omega
    · cases taken
  | leave =>
    rw [step] at taken
    split_ifs at taken with alive
    cases taken
    unfold World.alive at alive
    split at alive
    · rename_i awaits
      simp only [World.rank, awaits, Response.rank]
      omega
    · rename_i streams
      simp only [World.rank, streams, Response.rank]
      omega
    · cases alive
    · cases alive

theorem rank_run {start : World} {trace : List (World × Turn)} (run : Run step start trace w) :
    trace.length + w.rank ≤ start.rank := by
  induction run with
  | nil => exact le_of_eq (Nat.zero_add _)
  | cons run taken ih =>
    have less := rank_step taken
    rw [List.length_cons]
    omega

theorem follows_run (shape : Shape before s after) {trace : List (World × Turn)}
    (run : Run step { program := before ++ .signal s :: after } trace w) :
    Follows before s after w := by
  induction run with
  | nil => exact follows_start before s after
  | cons run taken ih => exact follows_step shape ih taken

theorem received_prefix (follows : Follows before s after w) :
    w.received <+: sends before ++ sends after := by
  cases follows with
  | early done rest split program startup response queue received =>
    rw [received]
    exact List.nil_prefix
  | late done split startup response kept =>
    refine ⟨w.queue ++ sends w.program, ?_⟩
    rw [← List.append_assoc, kept, split, sends_append, List.append_assoc]
  | answered e failed response received program =>
    rw [received]
    exact List.nil_prefix
  | left response received => exact received

end Step

theorem sends_taskActions (env : SearchEnv) (messageId : String) (chunks : Nat)
    (result : Except LoopError WebSearchLoopSuccess) :
    sends (taskActions env messageId chunks result) =
      sends (parts env messageId chunks result).1 ++
        sends (parts env messageId chunks result).2.2 := by
  rw [taskActions_eq, sends_append]
  rfl

theorem expected_eq (env : SearchEnv) (messageId : String) (chunks : Nat)
    (result : Except LoopError WebSearchLoopSuccess) :
    expected env messageId chunks result =
      match (parts env messageId chunks result).2.1 with
      | .started => (.streaming, sends (taskActions env messageId chunks result))
      | .failed e => (.answered e, []) := by
  rw [sends_taskActions]
  cases result with
  | ok r =>
    cases chunks <;> simp only [expected, parts, sends_flushes] <;> rfl
  | error e => cases chunks <;> rfl

theorem answered_of_run (env : SearchEnv) (messageId : String) (chunks : Nat)
    (result : Except LoopError WebSearchLoopSuccess) {trace : List (World × Turn)} {w : World}
    (run : Run step { program := taskActions env messageId chunks result } trace w) :
    trace.length ≤ 2 * (taskActions env messageId chunks result).length + 2 ∧
      w.received <+: sends (taskActions env messageId chunks result) ∧
      (Ended w → w.response = .gone ∨
        (w.response, w.received) = expected env messageId chunks result) := by
  have bounded := rank_run run
  have short : trace.length ≤ 2 * (taskActions env messageId chunks result).length + 2 :=
    le_trans (Nat.le_add_right _ _) bounded
  have shape := shape_parts env messageId chunks result
  rw [taskActions_eq] at run
  have follows := follows_run shape run
  refine ⟨short, ?_, fun ended => ?_⟩
  · rw [sends_taskActions]
    exact received_prefix follows
  · rcases follows_ended shape follows ended with gone | ⟨is, streams, all⟩ | ⟨e, is, answered, none_⟩
    · exact .inl gone
    · refine .inr ?_
      rw [expected_eq, is, sends_taskActions, streams, all]
    · refine .inr ?_
      rw [expected_eq, is, answered, none_]

/-- However the task, the response and the client take their turns, they come to an end after a
bounded number of steps, and the client has always got a beginning of what the task sends. Where it
has not left by the end, it has the response that the outcome of the loop calls for and the whole
body: a loop that fails before its first chunk answers with its own error and no body, and one that
fails later ends a stream that has begun. -/
theorem deferred_answered (env : SearchEnv) (mode : Converter.ToolNames.ToolCompatibilityMode)
    (hook : UsageRecordHook) (cacheUsage : Stream.Events.CacheUsage)
    (payload : Converter.Requests.MessagesRequest) (replies : Nat → RoundReply)
    (chunksOf : Nat → Nat) (messageId : String) {trace : List (World × Turn)} {w : World}
    (run :
      let ran := runWebSearchLoopInner env mode hook cacheUsage payload replies
      Run step { program := taskActions env messageId (chunksRead chunksOf ran.1) ran.2 } trace w) :
    let ran := runWebSearchLoopInner env mode hook cacheUsage payload replies
    let program := taskActions env messageId (chunksRead chunksOf ran.1) ran.2
    trace.length ≤ 2 * program.length + 2 ∧ w.received <+: sends program ∧
      (Ended w → w.response = .gone ∨
        (w.response, w.received) =
          expected env messageId (chunksRead chunksOf ran.1) ran.2) :=
  answered_of_run env messageId _ _ run

private def greeting : Converter.Requests.MessagesRequest where
  model := "claude-sonnet-4-5"
  messages := [⟨"user", .string "hello"⟩]
  tools := some [{ name := "web_search" }, { name := "exec" }]

private def greetingReply : RoundReply where
  call := .ok { credentialId := 1, events := [.assistantResponse "Hello.".toList] }
  mcp := fun _ => .ok {}
  srvIds := fun _ => "srvtoolu_1"

private def greetingRun : List Effect × Except LoopError WebSearchLoopSuccess :=
  runWebSearchLoopInner .sample .claudeCode { keyId := 1, model := "claude-sonnet-4-5" } {} greeting
    fun _ => greetingReply

private def greetingStart : World where
  program := taskActions .sample "msg_1" (chunksRead (fun _ => 1) greetingRun.1) greetingRun.2

/-- The client reads each event before the next one is sent. -/
private def greetingTurns : List Turn :=
  [.task, .task, .response, .client] ++ (List.replicate 6 [.task, .client]).flatten

theorem deferred_answered_greeting : ∃ trace w, Run step greetingStart trace w ∧
    (w.response, w.received) =
      expected .sample "msg_1" (chunksRead (fun _ => 1) greetingRun.1) greetingRun.2 := by
  have followed : ((follow step [] greetingStart greetingTurns).any fun p =>
      [Turn.task, .response, .client].all (fun turn => (step p.2 turn).isNone) && p.2.alive) =
        true := by decide +kernel
  cases reached : follow step [] greetingStart greetingTurns with
  | none =>
    rw [reached] at followed
    cases followed
  | some p =>
    rw [reached] at followed
    obtain ⟨stopped, alive⟩ := Bool.and_eq_true_iff.mp followed
    have run := (follow_run .nil reached).1
    have ended : Ended p.2 := by
      intro turn others
      have none_ := List.all_eq_true.mp stopped turn (by cases turn <;> simp at others ⊢)
      exact Option.isNone_iff_eq_none.mp none_
    have answered := deferred_answered .sample .claudeCode
      { keyId := 1, model := "claude-sonnet-4-5" } {} greeting (fun _ => greetingReply) (fun _ => 1)
      "msg_1" run
    rcases answered.2.2 ended with gone | all
    · rw [World.alive, gone] at alive
      cases alive
    · exact ⟨p.1, p.2, run, all⟩

def SseBytes.sent : SseBytes → SentEvent
  | .ping => Assembly.ping
  | .event e => e

theorem map_sent_expected (env : SearchEnv) (messageId : String) (chunks : Nat)
    (r : WebSearchLoopSuccess) :
    (expected env messageId chunks (.ok r)).2.map SseBytes.sent =
      (if chunks = 0 then [] else [Assembly.ping]) ++ buildSseEvents env.formatFloat messageId r := by
  have events : ((buildSseEvents env.formatFloat messageId r).map SseBytes.event).map
      SseBytes.sent = buildSseEvents env.formatFloat messageId r := by
    rw [List.map_map]
    exact List.map_id' _
  rw [expected, List.map_append, events]
  split_ifs <;> rfl

/-- Whatever rounds and searches an answer took, a client that asked for a stream assembles from its
body, with the ping that starts it, the message that one that asked for JSON has got, where its
parser reads the inputs of tool calls as they were printed. -/
theorem streamed_as_json (env : SearchEnv) (mode : Converter.ToolNames.ToolCompatibilityMode)
    (hook : UsageRecordHook) (cacheUsage : Stream.Events.CacheUsage)
    (payload : Converter.Requests.MessagesRequest) (replies : Nat → RoundReply)
    {effects : List Effect} {r : WebSearchLoopSuccess} (parse : String → Option Value)
    (messageId : String) (chunks : Nat)
    (answered : runWebSearchLoopInner env mode hook cacheUsage payload replies = (effects, .ok r))
    (fits : r.content.length ≤ 2 ^ 31) (reads : ReadsInputs parse env.formatFloat r.content) :
    assemble parse ((expected env messageId chunks (.ok r)).2.map SseBytes.sent) =
      some (renderJson messageId r) := by
  have whole : assemble parse (buildSseEvents env.formatFloat messageId r) =
      some (renderJson messageId r) :=
    assemble_buildSseEvents messageId fits (shown_answer answered) reads
  rw [map_sent_expected]
  split_ifs
  · exact whole
  · exact (assemble_ping _).trans whole

private def newsQuestion : Converter.Requests.MessagesRequest where
  model := "claude-sonnet-4-5"
  messages := [⟨"user", .string "what is new?"⟩]
  tools := some [{ name := "web_search" }, { name := "exec" }]

/-- A search first, and then a text and a call of the client's tool. -/
private def newsReplies : Nat → RoundReply
  | 0 => {
    call := .ok {
      credentialId := 1
      events := [.toolUse { toolUseId := "toolu_2", name := "web_search", input := "", stop := true }] }
    mcp := fun _ => .ok {}
    srvIds := fun _ => "srvtoolu_1" }
  | _ => {
    call := .ok {
      credentialId := 1
      events := [.assistantResponse "News.".toList,
        .toolUse { toolUseId := "toolu_3", name := "exec", input := "", stop := true }] }
    mcp := fun _ => .ok {}
    srvIds := fun _ => "srvtoolu_2" }

private def readEmpty (t : String) : Option Value := if t = "\x7b\x7d" then some (.obj []) else none

private def emptyInput (b : Value) : Bool :=
  textField b "type" != "tool_use" ||
    match b.get "input" with
    | some (.object []) => true
    | _ => false

theorem streamed_as_json_news : ∃ effects r, runWebSearchLoopInner .sample .claudeCode
      { keyId := 1, model := "claude-sonnet-4-5" } {} newsQuestion newsReplies = (effects, .ok r) ∧
    r.content.length = 4 ∧
    assemble readEmpty ((expected .sample "msg_1" 3 (.ok r)).2.map SseBytes.sent) =
      some (renderJson "msg_1" r) := by
  have runs : ((runWebSearchLoopInner .sample .claudeCode
      { keyId := 1, model := "claude-sonnet-4-5" } {} newsQuestion newsReplies).2.toOption.any
        fun r => r.content.length == 4 && r.content.all emptyInput) = true := by decide +kernel
  cases ran : runWebSearchLoopInner .sample .claudeCode
      { keyId := 1, model := "claude-sonnet-4-5" } {} newsQuestion newsReplies with
  | mk effects result =>
    rw [ran] at runs
    cases result with
    | error e => cases runs
    | ok r =>
      obtain ⟨length, inputs⟩ := Bool.and_eq_true_iff.mp runs
      have four : r.content.length = 4 := beq_iff_eq.mp length
      have reads : ReadsInputs readEmpty SearchEnv.sample.formatFloat r.content := by
        intro b mem type input held
        have empty := List.all_eq_true.mp inputs b mem
        have tool : textField b "type" = "tool_use" := by
          rw [textField, type]
          rfl
        rw [emptyInput, tool, held] at empty
        cases input with
        | object fields =>
          cases fields with
          | nil =>
            have printed : (Value.object []).render SearchEnv.sample.formatFloat =
                "\x7b\x7d" := by decide +kernel
            rw [readEmpty, if_pos printed]
            rfl
          | cons p rest => cases empty
        | _ => cases empty
      exact ⟨effects, r, rfl, four, streamed_as_json .sample .claudeCode _ {} newsQuestion newsReplies
        readEmpty "msg_1" 3 ran (by rw [four]; decide) reads⟩

end KiroRs.WebSearch.DeferredStart
