/- Path: KiroRs/Stream/CallReplies
   source: src/anthropic/stream.rs
   digest: The tool calls that a client puts together from a stream, against the calls that the
   upstream's fragments make up. -/

import KiroRs.Stream.BlockOrder
import KiroRs.Stream.ReplyOps
import KiroRs.Stream.ToolCalls

set_option autoImplicit false
set_option relaxedAutoImplicit false

namespace KiroRs.Stream.CallReplies

open KiroRs.Lib
open KiroRs.Lib.Emits
open KiroRs.Lib.Segments
open KiroRs.Lib.Slots
open KiroRs.Converter.ToolNames (ToolNameMap)
open KiroRs.Stream.XmlFilter
open KiroRs.Stream.Events
open KiroRs.Stream.StateManager
open KiroRs.Stream.ToolJson
open KiroRs.Stream.Context
open KiroRs.Stream.Context.StreamContext
open KiroRs.Stream.Replies
open KiroRs.Stream.ReplyOps
open KiroRs.Stream.ToolCalls
open KiroRs.Stream.BlockOrder (newContext)

variable {env : StreamEnv} {blocks : List Reply} {c c' : StreamContext} {r : Sent}

/-- What the functions for text and thinking leave of the tool uses. -/
structure ToolFrame (c c' : StreamContext) : Prop where
  indices : c'.toolBlockIndices = c.toolBlockIndices
  names : c'.toolNameMap = c.toolNameMap
  accumulator : c'.toolJsonAccumulator = c.toolJsonAccumulator
  error : c'.toolJsonError = c.toolJsonError

theorem ToolFrame.refl (c : StreamContext) : ToolFrame c c := ⟨rfl, rfl, rfl, rfl⟩

theorem ToolFrame.trans {c₁ c₂ c₃ : StreamContext} (first : ToolFrame c₁ c₂)
    (second : ToolFrame c₂ c₃) : ToolFrame c₁ c₃ :=
  ⟨second.indices.trans first.indices, second.names.trans first.names,
    second.accumulator.trans first.accumulator, second.error.trans first.error⟩

theorem ToolFrame.andThen {next : StreamContext → Sent} (first : ToolFrame c r.2)
    (second : ToolFrame r.2 (next r.2).2) : ToolFrame c (r.andThen next).2 := first.trans second

theorem ofTextFrame (frame : TextFrame c c') : ToolFrame c c' :=
  ⟨frame.indices, frame.names, frame.accumulator, frame.error⟩

theorem toolFrame_closeReasoning (c : StreamContext) : ToolFrame c c.closeReasoningIfOpen.2 := by
  obtain ⟨m, extracted, eq⟩ := closeReasoningIfOpen_frame c
  rw [eq]
  exact ⟨rfl, rfl, rfl, rfl⟩

theorem toolFrame_closeText (c : StreamContext) : ToolFrame c c.closeTextIfOpen.2 := by
  unfold closeTextIfOpen
  split <;> exact ⟨rfl, rfl, rfl, rfl⟩

theorem toolFrame_openReasoning (env : StreamEnv) (c : StreamContext) :
    ToolFrame c (c.openReasoning env).2 := by
  unfold openReasoning
  refine (toolFrame_closeText c).andThen ?_
  dsimp only
  split <;> exact ⟨rfl, rfl, rfl, rfl⟩

theorem toolFrame_processRedacted (env : StreamEnv) (c : StreamContext) (redacted : String) :
    ToolFrame c (c.processRedacted env redacted).2 := by
  unfold processRedacted
  refine ToolFrame.andThen (ToolFrame.andThen
    ((toolFrame_closeReasoning c).andThen (toolFrame_closeText _)) ?_) ?_
  · exact ⟨rfl, rfl, rfl, rfl⟩
  · exact ⟨rfl, rfl, rfl, rfl⟩

theorem toolFrame_processReasoning (env : StreamEnv) (c : StreamContext)
    (e : ReasoningContentEvent) : ToolFrame c (c.processReasoningContent env e).2 := by
  unfold processReasoningContent
  by_cases disabled : (!c.thinkingEnabled) = true
  · rw [if_pos disabled]
    exact ToolFrame.refl c
  · rw [if_neg disabled]
    cases e.redactedContent.filter fun s => !s.isEmpty with
    | some redacted => exact toolFrame_processRedacted env c redacted
    | none =>
      refine ToolFrame.andThen ?_ ?_
      · split_ifs
        · exact ToolFrame.refl c
        · exact toolFrame_openReasoning env c
      · generalize (if c.reasoningBlockOpen = true then quiet c else c.openReasoning env).2 = c₁
        split_ifs
        · exact ToolFrame.refl c₁
        · rw [sendThinking_frame]
          exact ⟨rfl, rfl, rfl, rfl⟩

theorem toolFrame_processAssistant (env : StreamEnv) (c : StreamContext) (content : Text) :
    ToolFrame c (c.processAssistantResponse env content).2 := by
  unfold processAssistantResponse
  dsimp only
  split_ifs
  · exact ⟨rfl, rfl, rfl, rfl⟩
  · refine ToolFrame.trans ?_ (ofTextFrame (textFrame_processFiltered env _ _))
    exact ⟨rfl, rfl, rfl, rfl⟩

theorem toolFrame_settleThinking (env : StreamEnv) (c : StreamContext) :
    ToolFrame c (c.settleThinking env).2 := by
  unfold settleThinking
  split_ifs
  · split
    · next thinking rest _ =>
      exact (ofTextFrame (textFrame_endThinking c thinking)).andThen
        (ofTextFrame (textFrame_emitRest env _ rest))
    · exact ToolFrame.refl c
  · exact ToolFrame.refl c

theorem toolFrame_flushWaiting (env : StreamEnv) (c : StreamContext) :
    ToolFrame c (c.flushWaiting env).2 := by
  unfold flushWaiting
  split_ifs
  · refine ToolFrame.trans ?_ (ofTextFrame (textFrame_createText env _ _))
    exact ⟨rfl, rfl, rfl, rfl⟩
  · exact ToolFrame.refl c

theorem toolFrame_finishFilter (env : StreamEnv) (c : StreamContext) :
    ToolFrame c (c.finishFilter env).2 := by
  unfold finishFilter
  dsimp only
  split_ifs
  · exact ⟨rfl, rfl, rfl, rfl⟩
  · refine ToolFrame.trans ?_ (ofTextFrame (textFrame_processFiltered env _ _))
    exact ⟨rfl, rfl, rfl, rfl⟩

def view (b : Reply) : ContentBlock × List (Option Delta) := (b.content, b.items)

/-- The blocks of the calls that a client received. -/
def callReplies (blocks : List Reply) : List (ContentBlock × List (Option Delta)) :=
  (ofType .toolUse blocks).map view

/-- The block of a call: its id and its name, its whole input and its stop. -/
def callReply (env : StreamEnv) (t : CompletedToolUse) : ContentBlock × List (Option Delta) :=
  (.toolUse t.id t.name, callItems env t)

/-- The client has the first call of each id, and the context knows these ids. -/
structure ToolInv (env : StreamEnv) (blocks : List Reply) (c : StreamContext)
    (done : List CompletedToolUse) : Prop where
  known : Known blocks c
  sent : callReplies blocks = (firsts (·.id) done).map (callReply env)
  ids : ∀ id, (Dicts.get c.toolBlockIndices id).isSome = done.any fun t => t.id = id

variable {done : List CompletedToolUse}

theorem ToolInv.other (inv : ToolInv env blocks c done) (does : Does notTools blocks r)
    (frame : ToolFrame c r.2) (fits : Fits (after blocks r.1)) :
    ToolInv env (after blocks r.1) r.2 done where
  known := (does fits).known
  sent := by
    have kept := (does fits).keeps .toolUse rfl
    unfold callReplies
    rw [kept]
    exact inv.sent
  ids := by
    rw [frame.indices]
    exact inv.ids

theorem ToolInv.complete (inv : ToolInv env blocks c done) {b : Reply} (mem : b ∈ blocks)
    (tool : b.content.type = .toolUse) : hasStop b = true := by
  have listed : view b ∈ callReplies blocks :=
    List.mem_map_of_mem (mem_ofType.mpr ⟨mem, tool⟩)
  rw [inv.sent] at listed
  obtain ⟨t, -, eq⟩ := List.mem_map.mp listed
  have items : b.items = callItems env t := (congrArg Prod.snd eq).symm
  unfold hasStop
  rw [items]
  rfl

theorem callReplies_stopKind (stopped : ∀ b ∈ blocks, b.content.type = .toolUse → hasStop b = true)
    (which : BlockType → Bool) : callReplies (stopKind which blocks) = callReplies blocks := by
  unfold callReplies
  have same : ofType .toolUse (stopKind which blocks) = ofType .toolUse blocks := by
    unfold stopKind
    induction blocks with
    | nil => rfl
    | cons b blocks ih =>
      have later := ih fun b' mem => stopped b' (List.mem_cons_of_mem b mem)
      unfold ofType at later ⊢
      rw [List.map_cons, ofKind_cons, ofKind_cons, later]
      by_cases tool : b.content.type = .toolUse
      · rw [stopped b List.mem_cons_self tool, Bool.not_true, Bool.and_false,
          if_neg Bool.false_ne_true]
      · have skip : (b.content.type == BlockType.toolUse) = false := beq_eq_false_iff_ne.mpr tool
        have content : (if (which b.content.type && !hasStop b) = true then b.add none
            else b).content = b.content := by
          split_ifs <;> rfl
        rw [content, skip]
        rfl
  rw [same]

theorem ToolInv.emit (inv : ToolInv env blocks c done) (t : CompletedToolUse)
    (fits : Fits (after blocks (c.emitCompletedToolUse env t).1)) :
    ToolInv env (after blocks (c.emitCompletedToolUse env t).1) (c.emitCompletedToolUse env t).2
      (done ++ [t]) ∧
    ∃ m indices tokens, (c.emitCompletedToolUse env t).2 =
      { c with stateManager := m, toolBlockIndices := indices, outputTokens := tokens } := by
  have known := (does_emit env inv.known t fits).known
  cases found : Dicts.get c.toolBlockIndices t.id with
  | some index =>
    obtain ⟨b, mem, key, tool⟩ := inv.known.tools t.id index found
    obtain ⟨out, m, tokens, eq, sent⟩ :=
      emit_again env inv.known found mem key (inv.complete mem tool)
    have before : done.any (fun t' => t'.id = t.id) = true := by
      rw [← inv.ids, found]
      rfl
    rw [eq] at known ⊢
    refine ⟨⟨known, ?_, ?_⟩, m, _, tokens, rfl⟩
    · rw [firsts_append_singleton, if_pos before]
      dsimp only
      rw [sent, callReplies_stopKind fun b mem tool => inv.complete mem tool]
      exact inv.sent
    · intro id
      show (Dicts.get c.toolBlockIndices id).isSome = _
      rw [inv.ids, List.any_append]
      by_cases same : t.id = id
      · rw [← same, before]
        rfl
      · simp [same]
  | none =>
    obtain ⟨out, m, tokens, eq, sent⟩ := emit_new env inv.known found fits
    have before : done.any (fun t' => t'.id = t.id) = false := by
      rw [← inv.ids, found]
      rfl
    rw [eq] at known ⊢
    refine ⟨⟨known, ?_, ?_⟩, m, _, tokens, rfl⟩
    · rw [firsts_append_singleton, before, if_neg Bool.false_ne_true]
      dsimp only
      rw [sent, List.map_append, ← inv.sent,
        ← callReplies_stopKind (fun b mem tool => inv.complete mem tool) (only .text)]
      unfold callReplies
      rw [ofType_append, List.map_append]
      rfl
    · intro id
      show (Dicts.get (Dicts.insert c.toolBlockIndices t.id _) id).isSome = _
      rw [Dicts.get_insert, List.any_append, ← inv.ids]
      by_cases same : id = t.id
      · rw [if_pos same, same]
        simp
      · rw [if_neg same]
        have ne : t.id ≠ id := fun eq => same eq.symm
        simp [ne]

def fragmentOf : Event → Option ToolUseEvent
  | .toolUse e => some e
  | _ => none

def fragments (events : List Event) : List ToolUseEvent := events.filterMap fragmentOf

theorem does_processKiroEvent (env : StreamEnv) (h : Known blocks c) {event : Event}
    (other : fragmentOf event = none) :
    Does notTools blocks (c.processKiroEvent env event) ∧
      ToolFrame c (c.processKiroEvent env event).2 := by
  have closes := (does_closeReasoning h).ofThinking
  have kept := toolFrame_closeReasoning c
  cases event with
  | assistantResponse content | code content =>
    exact ⟨closes.andThen fun known => does_processAssistantResponse env known content,
      kept.andThen (toolFrame_processAssistant env _ content)⟩
  | toolUse e => cases other
  | reasoningContent e =>
    exact ⟨does_processReasoningContent env h e, toolFrame_processReasoning env c e⟩
  | contextUsage percentage =>
    unfold processKiroEvent
    dsimp only
    refine ⟨does_quiet ?_, ⟨rfl, rfl, rfl, rfl⟩⟩
    split_ifs <;> exact h.same rfl rfl rfl rfl rfl
  | exception exceptionType message =>
    unfold processKiroEvent
    dsimp only
    split_ifs
    · exact ⟨does_quiet (h.same rfl rfl rfl rfl rfl), ⟨rfl, rfl, rfl, rfl⟩⟩
    · exact ⟨does_quiet h, ToolFrame.refl c⟩
  | metering _ | error _ _ | unknown => exact ⟨does_quiet h, ToolFrame.refl c⟩

theorem ToolInv.same (inv : ToolInv env blocks c done)
    (known : c'.stateManager.activeBlocks = c.stateManager.activeBlocks)
    (next : c'.stateManager.nextBlockIndex = c.stateManager.nextBlockIndex)
    (text : c'.textBlockIndex = c.textBlockIndex)
    (thinking : c'.thinkingBlockIndex = c.thinkingBlockIndex)
    (tools : c'.toolBlockIndices = c.toolBlockIndices) : ToolInv env blocks c' done where
  known := inv.known.same known next text thinking tools
  sent := inv.sent
  ids := by
    rw [tools]
    exact inv.ids

theorem ToolInv.collect (inv : ToolInv env blocks c done) (e : ToolUseEvent)
    (fits : Fits (after blocks (c.collectToolUse env e).1)) :
    ToolInv env (after blocks (c.collectToolUse env e).1) (c.collectToolUse env e).2
      (done ++ match (c.toolJsonAccumulator.push env e c.toolNameMap).1 with
        | .ok completed => completed.toList
        | .error _ => []) ∧
    (c.collectToolUse env e).2.toolNameMap = c.toolNameMap ∧
    (c.collectToolUse env e).2.toolJsonAccumulator =
      (c.toolJsonAccumulator.push env e c.toolNameMap).2 ∧
    (c.collectToolUse env e).2.toolJsonError.isSome =
      (c.toolJsonError.isSome || !(c.toolJsonAccumulator.push env e c.toolNameMap).1.isOk) := by
  unfold collectToolUse at fits ⊢
  generalize c.toolJsonAccumulator.push env e c.toolNameMap = pushed at fits ⊢
  obtain ⟨result, accumulator⟩ := pushed
  dsimp only at fits ⊢
  have kept : ToolInv env blocks { c with toolJsonAccumulator := accumulator } done :=
    inv.same rfl rfl rfl rfl rfl
  cases result with
  | error err =>
    refine ⟨?_, rfl, rfl, (Bool.or_true _).symm⟩
    show ToolInv env blocks _ (done ++ [])
    rw [List.append_nil]
    exact inv.same rfl rfl rfl rfl rfl
  | ok completed =>
    cases completed with
    | none =>
      refine ⟨?_, rfl, rfl, (Bool.or_false _).symm⟩
      show ToolInv env blocks _ (done ++ [])
      rw [List.append_nil]
      exact kept
    | some t =>
      obtain ⟨inv', m, indices, tokens, eq⟩ := kept.emit t fits
      refine ⟨inv', ?_, ?_, ?_⟩
      · dsimp only
        rw [eq]
      · dsimp only
        rw [eq]
      · dsimp only
        rw [eq]
        exact (Bool.or_false _).symm

theorem after_andThen {next : StreamContext → Sent} :
    after blocks (r.andThen next).1 = after (after blocks r.1) (next r.2).1 := after_append ..

theorem step_toolUse (inv : ToolInv env blocks c done) (e : ToolUseEvent)
    (fits : Fits (after blocks (c.processKiroEvent env (.toolUse e)).1)) :
    ToolInv env (after blocks (c.processKiroEvent env (.toolUse e)).1)
      (c.processKiroEvent env (.toolUse e)).2
      (done ++ match (c.toolJsonAccumulator.push env e c.toolNameMap).1 with
        | .ok completed => completed.toList
        | .error _ => []) ∧
    (c.processKiroEvent env (.toolUse e)).2.toolNameMap = c.toolNameMap ∧
    (c.processKiroEvent env (.toolUse e)).2.toolJsonAccumulator =
      (c.toolJsonAccumulator.push env e c.toolNameMap).2 ∧
    (c.processKiroEvent env (.toolUse e)).2.toolJsonError.isSome =
      (c.toolJsonError.isSome || !(c.toolJsonAccumulator.push env e c.toolNameMap).1.isOk) := by
  let prepared : Sent := c.closeReasoningIfOpen.andThen fun c =>
    ({ c with stateManager := c.stateManager.setHasToolUse true }.settleThinking env).andThen
      fun c => c.flushWaiting env
  have whole : c.processKiroEvent env (.toolUse e) =
      prepared.andThen fun c => c.collectToolUse env e := by
    show c.closeReasoningIfOpen.andThen (fun c => c.processToolUse env e) = _
    unfold processToolUse
    rw [show prepared = _ from rfl, andThen_assoc]
  have does : Does notTools blocks prepared := by
    refine (does_closeReasoning inv.known).ofThinking.andThen fun known => ?_
    refine Does.andThen (does_settleThinking env ?_) fun known =>
      (does_flushWaiting env known).ofText
    exact known.same rfl rfl rfl rfl rfl
  have frame : ToolFrame c prepared.2 := by
    refine (toolFrame_closeReasoning c).andThen ?_
    refine ToolFrame.andThen ?_ (toolFrame_flushWaiting env _)
    refine ToolFrame.trans ?_ (toolFrame_settleThinking env _)
    exact ⟨rfl, rfl, rfl, rfl⟩
  rw [whole] at fits ⊢
  rw [after_andThen] at fits
  have ready := inv.other does frame fits.before
  have step := ready.collect e fits
  rw [frame.names, frame.accumulator, frame.error] at step
  rw [after_andThen]
  exact step

/-- A whole stream of events, up to its end. -/
theorem run_events (env : StreamEnv) (events : List Event) (inv : ToolInv env blocks c done)
    (fits : Fits (after blocks (emitAll (processKiroEvent env) events c).1)) :
    ToolInv env (after blocks (emitAll (processKiroEvent env) events c).1)
      (emitAll (processKiroEvent env) events c).2
      (done ++ pushed env c.toolNameMap c.toolJsonAccumulator (fragments events)) ∧
    (emitAll (processKiroEvent env) events c).2.toolNameMap = c.toolNameMap ∧
    (emitAll (processKiroEvent env) events c).2.toolJsonAccumulator =
      left env c.toolNameMap c.toolJsonAccumulator (fragments events) ∧
    (emitAll (processKiroEvent env) events c).2.toolJsonError.isSome =
      (c.toolJsonError.isSome ||
        failed env c.toolNameMap c.toolJsonAccumulator (fragments events)) := by
  induction events generalizing blocks c done with
  | nil =>
    refine ⟨?_, rfl, rfl, (Bool.or_false _).symm⟩
    show ToolInv env blocks c (done ++ [])
    rw [List.append_nil]
    exact inv
  | cons event rest ih =>
    have here : emitAll (processKiroEvent env) (event :: rest) c =
      (c.processKiroEvent env event).andThen (emitAll (processKiroEvent env) rest) := rfl
    rw [here] at fits ⊢
    rw [after_andThen] at fits ⊢
    have fits_here := fits.before
    by_cases other : fragmentOf event = none
    · obtain ⟨does, frame⟩ := does_processKiroEvent env inv.known other
      have later := ih (inv.other does frame fits_here) fits
      have same : fragments (event :: rest) = fragments rest := List.filterMap_cons_none other
      rw [frame.names, frame.accumulator, frame.error] at later
      rw [same]
      exact later
    · obtain ⟨e, eq⟩ := Option.ne_none_iff_exists'.mp other
      have tool : event = .toolUse e := by
        cases event with
        | toolUse e' =>
          cases eq
          rfl
        | assistantResponse _ | code _ | metering _ | contextUsage _ | reasoningContent _ | unknown
        | error _ _ | exception _ _ => cases eq
      subst tool
      obtain ⟨inv', names, accumulator, error⟩ := step_toolUse inv e fits_here
      obtain ⟨last, names', accumulator', error'⟩ := ih inv' fits
      rw [names, accumulator] at last accumulator' 
      rw [names, accumulator, error] at error'
      rw [names] at names'
      have cons : fragments (.toolUse e :: rest) = e :: fragments rest :=
        List.filterMap_cons_some rfl
      rw [cons]
      refine ⟨?_, names', accumulator', ?_⟩
      · rw [List.append_assoc] at last
        exact last
      · unfold failed
        rw [← Bool.or_assoc]
        exact error'

theorem run_emit (env : StreamEnv) (pending : List CompletedToolUse)
    (inv : ToolInv env blocks c done)
    (fits : Fits (after blocks (emitAll (emitCompletedToolUse env) pending c).1)) :
    ToolInv env (after blocks (emitAll (emitCompletedToolUse env) pending c).1)
      (emitAll (emitCompletedToolUse env) pending c).2 (done ++ pending) := by
  induction pending generalizing blocks c done with
  | nil =>
    rw [List.append_nil]
    exact inv
  | cons t rest ih =>
    have here : emitAll (emitCompletedToolUse env) (t :: rest) c =
      (c.emitCompletedToolUse env t).andThen (emitAll (emitCompletedToolUse env) rest) := rfl
    rw [here] at fits ⊢
    rw [after_andThen] at fits ⊢
    have later := ih (inv.emit t fits.before).1 fits
    rw [List.append_assoc] at later
    exact later

theorem run_finishTools (env : StreamEnv) (inv : ToolInv env blocks c done)
    (fits : Fits (after blocks (c.finishTools env).1)) :
    ToolInv env (after blocks (c.finishTools env).1) (c.finishTools env).2
      (done ++ if c.toolJsonError.isSome then []
        else finished env c.toolNameMap c.toolJsonAccumulator) := by
  unfold finishTools at fits ⊢
  unfold finished
  by_cases error : c.toolJsonError.isSome = true
  · rw [if_pos error, if_pos error, List.append_nil]
    exact inv
  · rw [if_neg error] at fits ⊢
    rw [if_neg error]
    generalize c.toolJsonAccumulator.finish env c.toolNameMap = finish at fits ⊢
    obtain ⟨result, accumulator⟩ := finish
    cases result with
    | error err =>
      show ToolInv env blocks _ (done ++ [])
      rw [List.append_nil]
      exact inv.same rfl rfl rfl rfl rfl
    | ok pending =>
      exact run_emit env pending (c := { c with toolJsonAccumulator := accumulator })
        (inv.same rfl rfl rfl rfl rfl) fits

theorem callReplies_sendFinal (env : StreamEnv) (inv : ToolInv env blocks c done) :
    callReplies (after blocks (c.sendFinal env).1) = callReplies blocks := by
  rw [after_sendFinal env inv.known]
  exact callReplies_stopKind (fun b mem tool => inv.complete mem tool) _

theorem callReplies_generateFinalEvents (env : StreamEnv) (inv : ToolInv env blocks c done)
    (fits : Fits (after blocks (c.generateFinalEvents env).1)) :
    callReplies (after blocks (c.generateFinalEvents env).1) =
      (firsts (·.id) (done ++ if c.toolJsonError.isSome then []
        else finished env c.toolNameMap c.toolJsonAccumulator)).map (callReply env) := by
  unfold generateFinalEvents at fits ⊢
  rw [after_andThen] at fits ⊢
  have fits_front := fits.before
  rw [after_andThen] at fits_front
  have tools := run_finishTools env inv fits_front.before
  have filtered := tools.other (does_finishFilter env tools.known) (toolFrame_finishFilter env _)
    fits_front
  rw [← after_andThen] at filtered
  have same : ((c.finishTools env).andThen fun c => c.finishFilter env).2 =
    ((c.finishTools env).2.finishFilter env).2 := rfl
  rw [← same] at filtered
  generalize ((c.finishTools env).andThen fun c => c.finishFilter env) = front at fits filtered ⊢
  rw [← filtered.sent]
  have closed := does_closeReasoning filtered.known
  split at fits
  · next err _ =>
    rw [andThen_assoc] at fits ⊢
    rw [after_andThen] at fits ⊢
    have inv_closed := filtered.other closed.ofThinking (toolFrame_closeReasoning _) fits.before
    rw [filtered.sent, ← inv_closed.sent, after_andThen]
    exact callReplies_sendFinal env inv_closed
  · rw [after_andThen] at fits ⊢
    have does : Does notTools (after blocks front.1)
        ((front.2.closeReasoningIfOpen.andThen fun c => c.flushBuffer env).andThen fun c =>
          c.padThinkingOnly env) :=
      (closed.ofThinking.andThen fun known => does_flushBuffer env known).andThen fun known =>
        (does_padThinkingOnly env known).ofText
    have frame : ToolFrame front.2
        ((front.2.closeReasoningIfOpen.andThen fun c => c.flushBuffer env).andThen fun c =>
          c.padThinkingOnly env).2 :=
      ((toolFrame_closeReasoning _).andThen (ofTextFrame (textFrame_flushBuffer env _))).andThen
        (ofTextFrame (textFrame_padThinkingOnly env _))
    have inv_last := filtered.other does frame fits.before
    rw [filtered.sent, ← inv_last.sent]
    exact callReplies_sendFinal env inv_last

variable {model messageId : String} {inputTokens : Int} {thinkingEnabled : Bool}
variable {map : ToolNameMap} {usage : CacheUsage}

theorem tracks_empty : Tracks [] {} := ⟨rfl, rfl, rfl⟩

theorem inv_initial (env : StreamEnv)
    (fits : Fits (received ((newContext model messageId inputTokens thinkingEnabled map
      usage).generateInitialEvents env).1)) :
    ToolInv env (received ((newContext model messageId inputTokens thinkingEnabled map
        usage).generateInitialEvents env).1)
      ((newContext model messageId inputTokens thinkingEnabled map
        usage).generateInitialEvents env).2 [] := by
  unfold generateInitialEvents at fits ⊢
  unfold received at fits ⊢
  rw [after_andThen] at fits ⊢
  have first : ToolInv env [] { newContext model messageId inputTokens thinkingEnabled map usage with
      stateManager := { messageStarted := true } } [] := by
    constructor
    · constructor
      · exact tracks_empty.of_same rfl rfl
      · intro i never
        cases never
      · intro i never
        cases never
      · intro id i never
        cases never
    · rfl
    · intro id
      rfl
  cases thinkingEnabled with
  | true => exact first
  | false =>
    have frame : ToolFrame { newContext model messageId inputTokens false map usage with
        stateManager := { messageStarted := true } } (ensureText env
          { newContext model messageId inputTokens false map usage with
            stateManager := { messageStarted := true } }).2 := by
      obtain ⟨m, t, eq⟩ := ensureText_frame env
        { newContext model messageId inputTokens false map usage with
          stateManager := { messageStarted := true } }
      rw [eq]
      exact ⟨rfl, rfl, rfl, rfl⟩
    exact first.other (does_ensureText env first.known).ofText frame fits

theorem callReplies_streamed (env : StreamEnv) (events : List Event)
    (fits : Fits (received
      (streamed env (newContext model messageId inputTokens thinkingEnabled map usage) events).1)) :
    callReplies (received
      (streamed env (newContext model messageId inputTokens thinkingEnabled map usage) events).1) =
        (firsts (·.id) (delivered env map (fragments events))).map (callReply env) := by
  unfold streamed received at fits ⊢
  rw [after_andThen] at fits ⊢
  have fits_run := fits.before
  rw [after_andThen] at fits_run
  have begun := inv_initial env fits_run.before
  obtain ⟨ran, names, accumulator, error⟩ := run_events env events begun fits_run
  have start : ∀ c : StreamContext, c = ((newContext model messageId inputTokens thinkingEnabled map
      usage).generateInitialEvents env).2 → c.toolNameMap = map ∧ c.toolJsonAccumulator = {} ∧
        c.toolJsonError = none := by
    rintro c rfl
    cases thinkingEnabled <;> exact ⟨rfl, rfl, rfl⟩
  obtain ⟨map_eq, acc_eq, error_eq⟩ := start _ rfl
  rw [map_eq, acc_eq] at ran accumulator
  rw [map_eq] at names
  rw [map_eq, acc_eq, error_eq] at error
  unfold received at ran
  rw [← after_andThen] at ran
  have last := callReplies_generateFinalEvents env ran fits
  rw [error, names, accumulator] at last
  exact last

def idOf : ContentBlock → Option String
  | .toolUse id _ => some id
  | _ => none

/-- A client has exactly the complete calls of the fragments, if and only if no id has two of them
and no call without input waits for its stop while another call is broken. -/
theorem calls_received_iff (env : StreamEnv) (model messageId : String) (inputTokens : Int)
    (thinkingEnabled : Bool) (map : ToolNameMap) (usage : CacheUsage) (events : List Event)
    (fits : Fits (received
      (streamed env (newContext model messageId inputTokens thinkingEnabled map usage) events).1)) :
    (∀ id, (callReplies (received (streamed env
        (newContext model messageId inputTokens thinkingEnabled map usage) events).1)).filter
          (fun block => idOf block.1 = some id) =
        (expected env map id (fragments events)).map (callReply env)) ↔
      (∀ id, (expected env map id (fragments events)).length ≤ 1) ∧
        ¬ (HasPending (fragments events) ∧ HasBroken env (fragments events)) := by
  rw [callReplies_streamed env events fits]
  have picked : ∀ id, ((firsts (·.id) (delivered env map (fragments events))).map
      (callReply env)).filter (fun block => idOf block.1 = some id) =
      (((delivered env map (fragments events)).filter fun t => t.id = id).take 1).map
        (callReply env) := by
    intro id
    have own : ((fun block : ContentBlock × List (Option Delta) =>
        decide (idOf block.1 = some id)) ∘ callReply env) = fun t => decide (t.id = id) := by
      funext t
      show decide (some t.id = some id) = decide (t.id = id)
      simp
    rw [List.filter_map, own, filter_firsts]
  simp only [picked]
  constructor
  · intro all
    have short : ∀ id, (expected env map id (fragments events)).length ≤ 1 := by
      intro id
      have lengths := congrArg List.length (all id)
      rw [List.length_map, List.length_map, List.length_take] at lengths
      omega
    refine ⟨short, (delivered_all_iff env map).mp fun id => ?_⟩
    have prefix_of := delivered_prefix env map (fragments events) id
    have lengths := congrArg List.length (all id)
    rw [List.length_map, List.length_map, List.length_take] at lengths
    have le := prefix_of.length_le
    exact prefix_of.eq_of_length (by omega)
  · rintro ⟨short, safe⟩ id
    rw [(delivered_all_iff env map).mpr safe id, List.take_of_length_le (short id)]

def interleaved : List Event :=
  [.toolUse { name := "read", toolUseId := "call_1", input := "1" },
    .toolUse { name := "write", toolUseId := "call_2" },
    .toolUse { name := "", toolUseId := "call_1", input := "2", stop := true }]

theorem calls_received_interleaved :
    (∀ id, (callReplies (received (streamed StreamEnv.sample
        (newContext "claude-sonnet-4.5" "msg_1" 10 true [] {}) interleaved).1)).filter
          (fun block => idOf block.1 = some id) =
        (expected StreamEnv.sample [] id (fragments interleaved)).map
          (callReply StreamEnv.sample)) ↔
      (∀ id, (expected StreamEnv.sample [] id (fragments interleaved)).length ≤ 1) ∧
        ¬ (HasPending (fragments interleaved) ∧
          HasBroken StreamEnv.sample (fragments interleaved)) :=
  calls_received_iff StreamEnv.sample "claude-sonnet-4.5" "msg_1" 10 true [] {} interleaved
    (by unfold Fits; decide +kernel)

/-- A call without input is lost when another one is cut off. -/
theorem pending_call_lost :
    ¬ ∀ (env : StreamEnv) (model messageId : String) (inputTokens : Int) (thinkingEnabled : Bool)
      (map : ToolNameMap) (usage : CacheUsage) (events : List Event) (id : String),
      (callReplies (received (streamed env (newContext model messageId inputTokens thinkingEnabled
        map usage) events).1)).filter (fun block => idOf block.1 = some id) =
          (expected env map id (fragments events)).map (callReply env) := by
  intro all
  have same := all StreamEnv.sample "claude-sonnet-4.5" "msg_1" 10 true [] {}
    [.toolUse { name := "ExitPlanMode", toolUseId := "call_1" },
      .toolUse { name := "write", toolUseId := "call_2", input := "[1" }] "call_1"
  have lengths := congrArg List.length same
  rw [List.length_map] at lengths
  exact absurd lengths (by decide +kernel)

end KiroRs.Stream.CallReplies
