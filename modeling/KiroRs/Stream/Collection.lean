/- Path: KiroRs/Stream/Collection
   source: src/anthropic/handlers.rs
   digest: What the collecting handler answers to a whole sequence of events, in terms of the
   events. -/

import KiroRs.Stream.NonStream
import KiroRs.Stream.Relay

set_option autoImplicit false
set_option relaxedAutoImplicit false

namespace KiroRs.Stream.Collection

open KiroRs.Lib.Search
open KiroRs.Lib.Text
open KiroRs.Converter.ToolNames (ToolNameMap)
open KiroRs.Stream.XmlFilter
open KiroRs.Stream.Events
open KiroRs.Stream.ThinkingTags
open KiroRs.Stream.ToolJson
open KiroRs.Stream.FilterRuns
open KiroRs.Stream.Context (thinkingSignaturePlaceholder)
open KiroRs.Stream.ToolCalls
open KiroRs.Stream.CallReplies (fragments fragmentOf)
open KiroRs.Stream.TextFlow (spoken textOf spoken_append)
open KiroRs.Stream.Relay (reasonIn)
open KiroRs.Stream.NonStream

def reasoningOf : Event → Option ReasoningContentEvent
  | .reasoningContent e => some e
  | _ => none

def reasonings (events : List Event) : List ReasoningContentEvent := events.filterMap reasoningOf

/-- The stop reason that was set last. -/
def lastReason (env : StreamEnv) (events : List Event) : Option String :=
  (events.filterMap (reasonIn env)).getLast?

/-- The data of an event without text. -/
def bareData (e : ReasoningContentEvent) : String :=
  if e.text.isEmpty then e.redactedContent.getD "" else ""

theorem reasonings_append (first later : List Event) :
    reasonings (first ++ later) = reasonings first ++ reasonings later := List.filterMap_append

theorem fragments_append (first later : List Event) :
    fragments (first ++ later) = fragments first ++ fragments later := List.filterMap_append

theorem lastReason_append (env : StreamEnv) (first later : List Event) :
    lastReason env (first ++ later) = (lastReason env later).or (lastReason env first) := by
  unfold lastReason
  rw [List.filterMap_append, List.getLast?_append]

theorem lastReason_single (env : StreamEnv) (event : Event) :
    lastReason env [event] = reasonIn env event := by
  unfold lastReason
  rw [List.filterMap_cons]
  cases reasonIn env event with
  | none => rfl
  | some reason => rfl

theorem ne_of_lastReason {env : StreamEnv} {events : List Event} {reason : String}
    (set : lastReason env events = some reason) : reason ≠ "end_turn" := by
  obtain ⟨event, -, sets⟩ := List.mem_filterMap.mp (List.mem_of_getLast? set)
  unfold reasonIn at sets
  split at sets
  · split_ifs at sets
    cases sets
    decide
  · split_ifs at sets
    cases sets
    decide
  · cases sets

theorem pushed_append (env : StreamEnv) (map : ToolNameMap) (acc : ToolJsonAccumulator)
    (first later : List ToolUseEvent) : pushed env map acc (first ++ later) =
      pushed env map acc first ++ pushed env map (left env map acc first) later := by
  induction first generalizing acc with
  | nil => rfl
  | cons e first ih =>
    rw [List.cons_append, pushed, ih, pushed, List.append_assoc]
    rfl

variable {env : StreamEnv} {model : String} {map : ToolNameMap} {loop next last : NonStreamLoop}
  {first later events : List Event}

/-- What the loop has collected of some events. -/
structure Collected (env : StreamEnv) (map : ToolNameMap) (events : List Event)
    (loop last : NonStreamLoop) : Prop where
  text : last.textContent = loop.textContent ++ spoken events
  reasoning : last.reasoningContent = loop.reasoningContent ++ (reasonings events).flatMap (·.text)
  redacted : last.redactedReasoningContent =
    loop.redactedReasoningContent ++ String.join ((reasonings events).map bareData)
  calls : last.toolUses =
    loop.toolUses ++ pushed env map loop.toolAccumulator (fragments events)
  called : last.hasToolUse = (loop.hasToolUse || !(fragments events).isEmpty)
  reason : last.stopReason = (lastReason env events).getD loop.stopReason
  accumulator : last.toolAccumulator = left env map loop.toolAccumulator (fragments events)

theorem Collected.trans (front : Collected env map first loop next)
    (back : Collected env map later next last) : Collected env map (first ++ later) loop last where
  text := by rw [back.text, front.text, spoken_append, List.append_assoc]
  reasoning := by
    rw [back.reasoning, front.reasoning, reasonings_append, List.flatMap_append, List.append_assoc]
  redacted := by
    rw [back.redacted, front.redacted, reasonings_append, List.map_append, String.join_append,
      String.append_assoc]
  calls := by
    rw [back.calls, front.calls, front.accumulator, fragments_append, pushed_append,
      List.append_assoc]
  called := by
    have both : (fragments first ++ fragments later).isEmpty =
        ((fragments first).isEmpty && (fragments later).isEmpty) := by
      cases fragments first with
      | nil => rfl
      | cons e rest => rfl
    rw [back.called, front.called, fragments_append, both, Bool.not_and, Bool.or_assoc]
  reason := by
    rw [back.reason, front.reason, lastReason_append]
    cases lastReason env later with
    | none => rfl
    | some reason => rfl
  accumulator := by rw [back.accumulator, front.accumulator, fragments_append, left_append]

theorem collected_plain {event : Event} (silent : reasoningOf event = none)
    (toolless : fragmentOf event = none) (text : last.textContent = loop.textContent ++ textOf event)
    (reason : last.stopReason = (reasonIn env event).getD loop.stopReason)
    (same : last = { loop with
      textContent := last.textContent
      stopReason := last.stopReason
      contextInputTokens := last.contextInputTokens }) :
    Collected env map [event] loop last := by
  have reasons : reasonings [event] = [] := List.filterMap_cons_none silent
  have frags : fragments [event] = [] := List.filterMap_cons_none toolless
  constructor
  · rw [text, spoken, List.flatMap_singleton]
  · rw [same, reasons]
    exact (List.append_nil _).symm
  · rw [same, reasons]
    exact (String.append_empty).symm
  · rw [same, frags]
    exact (List.append_nil _).symm
  · rw [same, frags]
    exact (Bool.or_false _).symm
  · rw [reason, lastReason_single]
  · rw [same, frags]
    rfl

theorem collectReasoning_eq (loop : NonStreamLoop) (e : ReasoningContentEvent) :
    loop.collectReasoning e = { loop with
      reasoningContent := loop.reasoningContent ++ e.text
      redactedReasoningContent := loop.redactedReasoningContent ++ bareData e } := by
  rcases e with ⟨text, redactedContent⟩
  cases text with
  | cons first rest =>
    have unsaid : bareData ⟨first :: rest, redactedContent⟩ = "" := rfl
    rw [unsaid, String.append_empty]
    rfl
  | nil =>
    cases redactedContent with
    | none =>
      have nothing : bareData ⟨[], none⟩ = "" := rfl
      rw [nothing, String.append_empty, List.append_nil]
      rfl
    | some redacted =>
      rw [List.append_nil]
      rfl

theorem collected_reasoning (e : ReasoningContentEvent) :
    Collected env map [.reasoningContent e] loop (loop.collectReasoning e) := by
  have reasons : reasonings [.reasoningContent e] = [e] := rfl
  rw [collectReasoning_eq]
  constructor
  · exact (List.append_nil _).symm
  · rw [reasons, List.flatMap_singleton]
  · rw [reasons, List.map_singleton, String.join_cons, String.join_nil, String.append_empty]
  · exact (List.append_nil _).symm
  · exact (Bool.or_false _).symm
  · rfl
  · rfl

theorem collected_toolUse {e : ToolUseEvent}
    (sound : (loop.toolAccumulator.push env e map).1.isOk = true) :
    ∃ next, loop.collectToolUse env map e = .ok next ∧
      Collected env map [.toolUse e] loop next := by
  have frags : fragments [.toolUse e] = [e] := rfl
  unfold NonStreamLoop.collectToolUse
  rcases result : loop.toolAccumulator.push env e map with ⟨outcome, accumulator⟩
  rw [result] at sound
  dsimp only at sound ⊢
  cases outcome with
  | error err => cases sound
  | ok completed =>
    have calls : pushed env map loop.toolAccumulator [e] = completed.toList := by
      rw [pushed, result, pushed]
      exact List.append_nil _
    have leaves : left env map loop.toolAccumulator [e] = accumulator := by
      rw [left, result]
      rfl
    cases completed with
    | none =>
      refine ⟨_, rfl, ?_⟩
      constructor
      · exact (List.append_nil _).symm
      · exact (List.append_nil _).symm
      · exact (String.append_empty).symm
      · rw [frags, calls]
        exact (List.append_nil _).symm
      · exact (Bool.or_true _).symm
      · rfl
      · rw [frags, leaves]
    | some t =>
      refine ⟨_, rfl, ?_⟩
      constructor
      · exact (List.append_nil _).symm
      · exact (List.append_nil _).symm
      · exact (String.append_empty).symm
      · rw [frags, calls]
        rfl
      · exact (Bool.or_true _).symm
      · rfl
      · rw [frags, leaves]

theorem collected_event (event : Event)
    (sound : failed env map loop.toolAccumulator (fragments [event]) = false) :
    ∃ next, loop.collect env model map event = .ok next ∧ Collected env map [event] loop next := by
  cases event with
  | assistantResponse content | code content =>
    exact ⟨_, rfl, collected_plain rfl rfl rfl rfl rfl⟩
  | reasoningContent e => exact ⟨_, rfl, collected_reasoning e⟩
  | toolUse e =>
    have parsed : (loop.toolAccumulator.push env e map).1.isOk = true := by
      have split : failed env map loop.toolAccumulator [e] =
          (!(loop.toolAccumulator.push env e map).1.isOk || false) := rfl
      have frags : fragments [.toolUse e] = [e] := rfl
      rw [frags, split, Bool.or_false, Bool.not_eq_false'] at sound
      exact sound
    exact collected_toolUse parsed
  | contextUsage percentage =>
    refine ⟨_, rfl, collected_plain rfl rfl (List.append_nil _).symm ?_ rfl⟩
    unfold reasonIn
    dsimp only
    split_ifs
    · rfl
    · rfl
  | exception exceptionType message =>
    refine ⟨_, rfl, collected_plain rfl rfl (List.append_nil _).symm ?_ rfl⟩
    unfold reasonIn
    dsimp only
    split_ifs
    · rfl
    · rfl
  | metering _ | error _ _ | unknown =>
    exact ⟨_, rfl, collected_plain rfl rfl (List.append_nil _).symm rfl rfl⟩

theorem collected_events (events : List Event)
    (sound : failed env map loop.toolAccumulator (fragments events) = false) :
    ∃ last, events.foldlM (NonStreamLoop.collect env model map) loop = .ok last ∧
      Collected env map events loop last := by
  induction events generalizing loop with
  | nil =>
    refine ⟨loop, rfl, ?_⟩
    constructor
    · exact (List.append_nil _).symm
    · exact (List.append_nil _).symm
    · exact (String.append_empty).symm
    · exact (List.append_nil _).symm
    · exact (Bool.or_false _).symm
    · rfl
    · rfl
  | cons event rest ih =>
    have split : fragments (event :: rest) = fragments [event] ++ fragments rest :=
      fragments_append [event] rest
    rw [split, failed_append, Bool.or_eq_false_iff] at sound
    have step : ∃ next, loop.collect env model map event = .ok next ∧
        Collected env map [event] loop next := collected_event event sound.1
    obtain ⟨next, here, collected⟩ := step
    rw [← collected.accumulator] at sound
    obtain ⟨last, later, collected'⟩ := ih sound.2
    refine ⟨last, ?_, collected.trans collected'⟩
    rw [List.foldlM_cons, here]
    exact later

def thinkingText : ResponseBlock → Text
  | .thinking thinking _ => thinking
  | _ => []

def redactedData : ResponseBlock → Option String
  | .redactedThinking data => some data
  | _ => none

def plainText : ResponseBlock → Text
  | .text text => text
  | _ => []

def callOf : ResponseBlock → Option CompletedToolUse
  | .toolUse t => some t
  | _ => none

def thinkingIn (response : Response) : Text := response.content.flatMap thinkingText

def redactedIn (response : Response) : List String := response.content.filterMap redactedData

def textIn (response : Response) : Text := response.content.flatMap plainText

def callsIn (response : Response) : List CompletedToolUse := response.content.filterMap callOf

theorem extractThinking_untagged {text : Text} (untagged : ¬ thinkingStartTag <:+: text) :
    extractThinkingFromCompleteText text = (none, text) := by
  have none_found : findRealThinkingStartTag text = none := by
    cases found : findRealThinkingStartTag text with
    | none => rfl
    | some p =>
      obtain ⟨split, -⟩ := findTag_eq_some found
      exact absurd ⟨p.1, p.2, split.symm⟩ untagged
  unfold extractThinkingFromCompleteText
  rw [none_found]

theorem stripToolUseXmlLeaks_unleaked {text : Text} (unleaked : ¬ toolUseXmlPrefix <:+: text) :
    stripToolUseXmlLeaks text = trimChars text := by
  unfold stripToolUseXmlLeaks
  rw [stripLoop_of_none ((splitFind_eq_none prefix_ne_nil).mpr unleaked)]

/-- A block that is there or not. -/
def optional (b : Bool) (block : ResponseBlock) : List ResponseBlock := if b then [block] else []

theorem flatMap_optional (say : ResponseBlock → Text) (b : Bool) (block : ResponseBlock) :
    (optional b block).flatMap say = if b then say block else [] := by
  cases b with
  | false => rfl
  | true => exact List.flatMap_singleton ..

theorem filterMap_optional {α : Type} (pick : ResponseBlock → Option α) (b : Bool)
    (block : ResponseBlock) :
    (optional b block).filterMap pick = if b then (pick block).toList else [] := by
  cases b with
  | false => rfl
  | true =>
    show [block].filterMap pick = (pick block).toList
    rw [List.filterMap_cons]
    cases pick block with
    | none => rfl
    | some a => rfl

variable {thinkingEnabled : Bool}

theorem proseOf_eq (unleaked : ¬ toolUseXmlPrefix <:+: loop.textContent)
    (untagged : ¬ thinkingStartTag <:+: loop.textContent) :
    loop.proseOf thinkingEnabled =
      optional (thinkingEnabled && !loop.reasoningContent.isEmpty)
          (.thinking loop.reasoningContent thinkingSignaturePlaceholder) ++
        (optional (thinkingEnabled && !loop.redactedReasoningContent.isEmpty)
          (.redactedThinking loop.redactedReasoningContent) ++
        optional (!(trimChars loop.textContent).isEmpty) (.text (trimChars loop.textContent))) := by
  have inside : ¬ thinkingStartTag <:+: trimChars loop.textContent :=
    fun found => untagged (found.trans (trimChars_inside _))
  unfold NonStreamLoop.proseOf optional
  rw [stripToolUseXmlLeaks_unleaked unleaked]
  dsimp only
  cases thinkingEnabled with
  | false =>
    rw [Bool.false_and, Bool.false_and]
    rfl
  | true =>
    rw [Bool.true_and, Bool.true_and, if_pos rfl, extractThinking_untagged inside]
    split_ifs <;> rfl

theorem flatMap_calls {say : ResponseBlock → Text} (nothing : ∀ t, say (.toolUse t) = [])
    (calls : List CompletedToolUse) : (calls.map ResponseBlock.toolUse).flatMap say = [] := by
  induction calls with
  | nil => rfl
  | cons t calls ih =>
    rw [List.map_cons, List.flatMap_cons, nothing, ih]
    rfl

theorem filterMap_calls (calls : List CompletedToolUse) :
    (calls.map ResponseBlock.toolUse).filterMap redactedData = [] ∧
      (calls.map ResponseBlock.toolUse).filterMap callOf = calls := by
  induction calls with
  | nil => exact ⟨rfl, rfl⟩
  | cons t calls ih =>
    refine ⟨ih.1, ?_⟩
    rw [List.map_cons, List.filterMap_cons_some (show callOf (.toolUse t) = some t from rfl), ih.2]

/-- All the data stands in one block, if there is any. -/
def oneBlock (data : String) : List String := if data.isEmpty then [] else [data]

/-- What a response says where its text has neither leaks nor tags. -/
theorem respond_eq (env : StreamEnv) (req : NonStreamRequest) (loop : NonStreamLoop)
    (unleaked : ¬ toolUseXmlPrefix <:+: loop.textContent)
    (untagged : ¬ thinkingStartTag <:+: loop.textContent) :
    thinkingIn (loop.respond env req) = (if req.thinkingEnabled then loop.reasoningContent else []) ∧
    redactedIn (loop.respond env req) =
      (if req.thinkingEnabled then oneBlock loop.redactedReasoningContent else []) ∧
    textIn (loop.respond env req) = trimChars loop.textContent ∧
    callsIn (loop.respond env req) = loop.toolUses := by
  have content : (loop.respond env req).content =
      optional (req.thinkingEnabled && !loop.reasoningContent.isEmpty)
          (.thinking loop.reasoningContent thinkingSignaturePlaceholder) ++
        (optional (req.thinkingEnabled && !loop.redactedReasoningContent.isEmpty)
          (.redactedThinking loop.redactedReasoningContent) ++
        optional (!(trimChars loop.textContent).isEmpty) (.text (trimChars loop.textContent))) ++
      loop.toolUses.map .toolUse := by
    rw [← proseOf_eq unleaked untagged]
    rfl
  obtain ⟨no_data, calls⟩ := filterMap_calls loop.toolUses
  have no_thinking : (loop.toolUses.map ResponseBlock.toolUse).flatMap thinkingText = [] :=
    flatMap_calls (fun _ => rfl) loop.toolUses
  have no_text : (loop.toolUses.map ResponseBlock.toolUse).flatMap plainText = [] :=
    flatMap_calls (fun _ => rfl) loop.toolUses
  unfold thinkingIn redactedIn textIn callsIn
  rw [content]
  simp only [List.flatMap_append, List.filterMap_append, flatMap_optional, filterMap_optional,
    no_data, calls, no_thinking, no_text, thinkingText, redactedData, plainText, callOf, ite_self,
    Option.toList_none, Option.toList_some, List.append_nil, List.nil_append]
  refine ⟨?_, ?_, ?_, trivial⟩
  · cases req.thinkingEnabled with
    | false => rfl
    | true =>
      cases loop.reasoningContent with
      | nil => rfl
      | cons first rest => rfl
  · cases req.thinkingEnabled with
    | false => rfl
    | true =>
      rw [if_pos rfl, Bool.true_and]
      unfold oneBlock
      cases loop.redactedReasoningContent.isEmpty <;> rfl
  · cases trimChars loop.textContent with
    | nil => rfl
    | cons first rest => rfl

/-- What the handler answers to some events. -/
structure Answered (env : StreamEnv) (req : NonStreamRequest) (events : List Event)
    (response : Response) : Prop where
  thinking : thinkingIn response =
    if req.thinkingEnabled then (reasonings events).flatMap (·.text) else []
  redacted : redactedIn response =
    if req.thinkingEnabled then oneBlock (String.join ((reasonings events).map bareData)) else []
  text : textIn response = trimChars (spoken events)
  calls : callsIn response = delivered env req.toolNameMap (fragments events)
  stopReason : response.stopReason = (lastReason env events).getD
    (if (fragments events).isEmpty then "end_turn" else "tool_use")

/-- Where every call can be read, and the text has neither leaks nor tags, the handler answers with
what the events say. -/
theorem answered (env : StreamEnv) (req : NonStreamRequest) (events : List Event)
    (whole : ¬ HasBroken env (fragments events))
    (unleaked : ¬ toolUseXmlPrefix <:+: spoken events)
    (untagged : ¬ thinkingStartTag <:+: spoken events) :
    ∃ response, handleNonStreamRequest env req events = .ok response ∧
      Answered env req events response := by
  rw [hasBroken_iff env req.toolNameMap, not_or, Bool.not_eq_true, Bool.not_eq_false] at whole
  have run : ∃ last, events.foldlM (NonStreamLoop.collect env req.model req.toolNameMap) {} =
      .ok last ∧ Collected env req.toolNameMap events {} last := collected_events events whole.1
  obtain ⟨last, ran, collected⟩ := run
  have accumulator : last.toolAccumulator = left env req.toolNameMap {} (fragments events) :=
    collected.accumulator
  have finishes : ∃ pending, (last.toolAccumulator.finish env req.toolNameMap).1 = .ok pending := by
    have ends := whole.2
    rw [← accumulator] at ends
    cases outcome : (last.toolAccumulator.finish env req.toolNameMap).1 with
    | ok pending => exact ⟨pending, rfl⟩
    | error err =>
      rw [outcome] at ends
      cases ends
  obtain ⟨pending, finish⟩ := finishes
  let done : NonStreamLoop := { last with toolUses := last.toolUses ++ pending }
  have answer : handleNonStreamRequest env req events = .ok (done.respond env req) := by
    unfold handleNonStreamRequest
    rw [ran]
    show ((last.finishTools env req.toolNameMap).map _) = _
    unfold NonStreamLoop.finishTools
    rw [finish]
    rfl
  have text : done.textContent = spoken events := collected.text
  obtain ⟨thinking, redacted, shows, calls⟩ := respond_eq env req done
    (by rw [text]; exact unleaked) (by rw [text]; exact untagged)
  refine ⟨done.respond env req, answer, ?_, ?_, ?_, ?_, ?_⟩
  · rw [thinking]
    exact congrArg (fun thought => if req.thinkingEnabled then thought else []) collected.reasoning
  · rw [redacted]
    exact congrArg (fun data => if req.thinkingEnabled then oneBlock data else [])
      (collected.redacted.trans String.empty_append)
  · rw [shows, text]
  · have delivers : finished env req.toolNameMap (left env req.toolNameMap {} (fragments events)) =
        pending := by
      unfold finished
      rw [← accumulator, finish]
    unfold delivered
    rw [calls, whole.1, if_neg Bool.false_ne_true, delivers]
    exact congrArg (· ++ pending) collected.calls
  · have reason : done.stopReason = (lastReason env events).getD "end_turn" := collected.reason
    have called : done.hasToolUse = !(fragments events).isEmpty := collected.called
    show done.stopReasonOf = _
    unfold NonStreamLoop.stopReasonOf
    rw [reason, called]
    cases last_set : lastReason env events with
    | none => cases (fragments events).isEmpty <;> rfl
    | some set =>
      have other : (set == "end_turn") = false := beq_eq_false_iff_ne.mpr (ne_of_lastReason last_set)
      rw [Option.getD_some, Option.getD_some, other, Bool.and_false, if_neg Bool.false_ne_true]

end KiroRs.Stream.Collection
