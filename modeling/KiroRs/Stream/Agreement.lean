/- Path: KiroRs/Stream/Agreement
   source: src/anthropic/handlers.rs, src/anthropic/stream.rs
   digest: The stream and the collected response of the same events, and the events for which a
   client has the same of both. -/

import KiroRs.Stream.Collection

set_option autoImplicit false
set_option relaxedAutoImplicit false

namespace KiroRs.Stream.Agreement

open KiroRs.Lib
open KiroRs.Lib.Segments
open KiroRs.Lib.Slots
open KiroRs.Lib.Text
open KiroRs.Converter.ToolNames (ToolNameMap)
open KiroRs.Stream.XmlFilter
open KiroRs.Stream.Events
open KiroRs.Stream.ThinkingTags
open KiroRs.Stream.ToolJson
open KiroRs.Stream.ToolJson.ToolJsonAccumulator
open KiroRs.Stream.Context
open KiroRs.Stream.Context.StreamContext
open KiroRs.Stream.Replies
open KiroRs.Stream.ReplyOps
open KiroRs.Stream.ToolCalls
open KiroRs.Stream.CallReplies
open KiroRs.Stream.TextFlow (spoken)
open KiroRs.Stream.Telling
open KiroRs.Stream.Relay
open KiroRs.Stream.NonStream
open KiroRs.Stream.Collection
open KiroRs.Stream.BlockOrder (newContext)

/-- The same surroundings with another hash map, which gives its ids out in an order of its own. -/
def withIdOrder (env : StreamEnv) (order : List String → List String)
    (perm : ∀ keys, (order keys).Perm keys) : StreamEnv :=
  { env with idOrder := order, idOrder_perm := perm }

def redactedOfContent : ContentBlock → Option String
  | .redactedThinking data => some data
  | _ => none

def redactedOf (blocks : List Reply) : List String :=
  (blocks.map Slot.content).filterMap redactedOfContent

/-- A client that puts the blocks of a stream together has what the response says. -/
structure Agrees (env : StreamEnv) (sent : List SseEvent) (response : Response) : Prop where
  calls : callReplies (received sent) = (callsIn response).map (callReply env)
  thinking : contentOf .thinking (received sent) = thinkingIn response
  redacted : redactedOf (received sent) = redactedIn response
  text : trimChars (contentOf .text (received sent)) = trimChars (textIn response)
  stopReason : stopReasonIn sent = some response.stopReason

/-- The data with which an event is one of redacted thinking. -/
def dataOf (e : ReasoningContentEvent) : Option String := e.redactedContent.filter fun s => !s.isEmpty

def attended (enabled : Bool) (events : List Event) : List ReasoningContentEvent :=
  if enabled then reasonings events else []

def follow (running : Dicts.Dict Unit) (e : ToolUseEvent) : Dicts.Dict Unit :=
  if e.stop then Dicts.remove running e.toolUseId else Dicts.insert running e.toolUseId ()

def unfinished (fragments : List ToolUseEvent) : List String :=
  Dicts.keys (fragments.foldl follow [])

/-- There is thinking, none of it is redacted, and there is nothing else. -/
structure OnlyThinking (enabled : Bool) (events : List Event) : Prop where
  thinks : attended enabled events ≠ []
  bare : ∀ e ∈ attended enabled events, dataOf e = none
  silent : spoken events = []
  uncalled : fragments events = []

/-- No id has two calls; the unfinished calls come out of both maps in the same order; no event has
both text and data, and only one has data; and what is nothing but thinking ran out of tokens. -/
structure Agreeable (env : StreamEnv) (order : List String → List String) (enabled : Bool)
    (events : List Event) : Prop where
  once : ∀ id, (callsOf id (fragments events)).length ≤ 1
  ordered : env.idOrder (unfinished (fragments events)) = order (unfinished (fragments events))
  unmixed : ∀ e ∈ attended enabled events, e.text = [] ∨ dataOf e = none
  single : (attended enabled events).countP (fun e => (dataOf e).isSome) ≤ 1
  exhausted : OnlyThinking enabled events → lastReason env events = some "max_tokens"

variable {env : StreamEnv} {map : ToolNameMap} {events first later : List Event} {enabled : Bool}
variable {h last : Heard}

def thoughtOf (e : ReasoningContentEvent) : Text := if (dataOf e).isSome then [] else e.text

theorem attended_append (enabled : Bool) (first later : List Event) :
    attended enabled (first ++ later) = attended enabled first ++ attended enabled later := by
  cases enabled with
  | false => rfl
  | true => exact reasonings_append first later

structure Hears (env : StreamEnv) (enabled : Bool) (events : List Event) (h last : Heard) : Prop where
  thinking : last.thinking = h.thinking ++ (attended enabled events).flatMap thoughtOf
  redacted : last.redacted = h.redacted ++ (attended enabled events).filterMap dataOf
  reasoned : last.reasoned =
    (h.reasoned || (attended enabled events).any fun e => (dataOf e).isNone)
  reason : last.reason = (lastReason env events).or h.reason

theorem Hears.trans {next : Heard} (front : Hears env enabled first h next)
    (back : Hears env enabled later next last) : Hears env enabled (first ++ later) h last where
  thinking := by
    rw [back.thinking, front.thinking, attended_append, List.flatMap_append, List.append_assoc]
  redacted := by
    rw [back.redacted, front.redacted, attended_append, List.filterMap_append, List.append_assoc]
  reasoned := by
    rw [back.reasoned, front.reasoned, attended_append, List.any_append, Bool.or_assoc]
  reason := by rw [back.reason, front.reason, lastReason_append, Option.or_assoc]

theorem hears_think (h : Heard) (e : ReasoningContentEvent) :
    Hears env true [.reasoningContent e] h (h.think e) := by
  have only : attended true [.reasoningContent e] = [e] := rfl
  have data : e.redactedContent.filter (fun s => !s.isEmpty) = dataOf e := rfl
  unfold Heard.think
  rw [data]
  cases found : dataOf e with
  | some redacted =>
    constructor
    · rw [only, List.flatMap_singleton, thoughtOf, found]
      exact (List.append_nil _).symm
    · rw [only, List.filterMap_cons_some found]
      rfl
    · rw [only, List.any_cons, found]
      exact (Bool.or_false _).symm
    · rfl
  | none =>
    constructor
    · rw [only, List.flatMap_singleton, thoughtOf, found]
      rfl
    · rw [only, List.filterMap_cons_none found]
      exact (List.append_nil _).symm
    · rw [only, List.any_cons, found]
      exact (Bool.or_true _).symm
    · rfl

theorem hears_other {event : Event} (silent : reasoningOf event = none)
    (reason : last.reason = (reasonIn env event).or h.reason)
    (same : last = { h with text := last.text, called := last.called, reason := last.reason }) :
    Hears env enabled [event] h last := by
  have none_attended : attended enabled [event] = [] := by
    cases enabled with
    | false => rfl
    | true => exact List.filterMap_cons_none silent
  constructor
  · rw [same, none_attended]
    exact (List.append_nil _).symm
  · rw [same, none_attended]
    exact (List.append_nil _).symm
  · rw [same, none_attended]
    exact (Bool.or_false _).symm
  · rw [reason, lastReason_single]

theorem hears_event (h : Heard) (event : Event) :
    Hears env enabled [event] h (h.hear env enabled event) := by
  cases event with
  | reasoningContent e =>
    cases enabled with
    | true => exact hears_think h e
    | false =>
      exact ⟨(List.append_nil _).symm, (List.append_nil _).symm, (Bool.or_false _).symm, rfl⟩
  | assistantResponse _ | code _ | toolUse _ | metering _ | contextUsage _ | unknown | error _ _
  | exception _ _ => exact hears_other rfl rfl rfl

theorem hears_events (events : List Event) (h : Heard) :
    Hears env enabled events h (events.foldl (Heard.hear env enabled) h) := by
  induction events generalizing h with
  | nil =>
    have none_attended : attended enabled [] = [] := by cases enabled <;> rfl
    constructor
    · rw [none_attended]
      exact (List.append_nil _).symm
    · rw [none_attended]
      exact (List.append_nil _).symm
    · rw [none_attended]
      exact (Bool.or_false _).symm
    · rfl
  | cons event rest ih => exact (hears_event h event).trans (ih _)

variable {order : List String → List String} {perm : ∀ keys, (order keys).Perm keys}
  {acc : ToolJsonAccumulator} {frags : List ToolUseEvent}

theorem pushed_withIdOrder (env : StreamEnv) (map : ToolNameMap)
    (perm : ∀ keys, (order keys).Perm keys) (acc : ToolJsonAccumulator)
    (frags : List ToolUseEvent) :
    pushed (withIdOrder env order perm) map acc frags = pushed env map acc frags ∧
      left (withIdOrder env order perm) map acc frags = left env map acc frags ∧
      failed (withIdOrder env order perm) map acc frags = failed env map acc frags := by
  induction frags generalizing acc with
  | nil => exact ⟨rfl, rfl, rfl⟩
  | cons e rest ih =>
    obtain ⟨pushes, leaves, fails⟩ := ih (acc.push env e map).2
    refine ⟨?_, leaves, ?_⟩
    · exact congrArg (_ ++ ·) pushes
    · exact congrArg (_ || ·) fails

theorem push_buffers (acc : ToolJsonAccumulator) (e : ToolUseEvent) :
    (acc.push env e map).2.buffers =
      if e.stop then Dicts.remove acc.buffers e.toolUseId
      else Dicts.insert acc.buffers e.toolUseId (collect acc.buffers e) := by
  unfold push
  dsimp only
  cases e.stop with
  | false => rfl
  | true =>
    rw [if_neg (by decide), if_pos rfl]
    split_ifs
    · rfl
    · split <;> rfl

theorem keys_left (env : StreamEnv) (map : ToolNameMap) (frags : List ToolUseEvent) :
    Dicts.keys (left env map {} frags).buffers = unfinished frags := by
  have held (acc : ToolJsonAccumulator) :
      Dicts.mapValues (fun _ => ()) (left env map acc frags).buffers =
        frags.foldl follow (Dicts.mapValues (fun _ => ()) acc.buffers) := by
    induction frags generalizing acc with
    | nil => rfl
    | cons e rest ih =>
      have step : Dicts.mapValues (fun _ => ()) (acc.push env e map).2.buffers =
          follow (Dicts.mapValues (fun _ => ()) acc.buffers) e := by
        rw [push_buffers]
        unfold follow
        split_ifs
        · exact Dicts.mapValues_remove _ _ _
        · exact Dicts.mapValues_insert _ _ _ _
      rw [left, ih, step, List.foldl_cons]
  unfold unfinished
  rw [show ([] : Dicts.Dict Unit) = Dicts.mapValues (fun _ => ())
    ({} : ToolJsonAccumulator).buffers from rfl, ← held, Dicts.keys_mapValues]

theorem ids_finished (env : StreamEnv) (map : ToolNameMap) {frags : List ToolUseEvent}
    (whole : ¬ HasBroken env frags) :
    (finished env map (left env map {} frags)).map (·.id) = env.idOrder (unfinished frags) := by
  obtain ⟨pending, holds, -⟩ := exists_last env map frags
  rw [hasBroken_iff env map, not_or, Bool.not_eq_true, Bool.not_eq_false] at whole
  rw [finished_entries holds ((isOk_finish env map holds).mp whole.2), List.map_map,
    ← keys_left env map frags, ← ids_entries]
  rfl

theorem ids_delivered (env : StreamEnv) (map : ToolNameMap) {frags : List ToolUseEvent}
    (whole : ¬ HasBroken env frags) : (delivered env map frags).map (·.id) =
      (pushed env map {} frags).map (·.id) ++ env.idOrder (unfinished frags) := by
  have parses := whole
  rw [hasBroken_iff env map, not_or, Bool.not_eq_true] at parses
  unfold delivered
  rw [parses.1, if_neg Bool.false_ne_true, List.map_append, ids_finished env map whole]

theorem delivered_withIdOrder (whole : ¬ HasBroken env frags)
    (ordered : env.idOrder (unfinished frags) = order (unfinished frags)) :
    delivered (withIdOrder env order perm) map frags = delivered env map frags := by
  obtain ⟨pending, holds, -⟩ := exists_last env map frags
  obtain ⟨pushes, leaves, fails⟩ := pushed_withIdOrder env map perm {} frags
  have parses := whole
  rw [hasBroken_iff env map, not_or, Bool.not_eq_true, Bool.not_eq_false] at parses
  have blank := (isOk_finish env map holds).mp parses.2
  have same : entries (withIdOrder env order perm) (left env map {} frags).buffers =
      entries env (left env map {} frags).buffers := by
    have keys : (left env map {} frags).buffers.map (·.1) = unfinished frags :=
      keys_left env map frags
    unfold entries
    rw [keys, ordered]
    rfl
  unfold delivered
  rw [pushes, leaves, fails, finished_entries holds blank, finished_entries holds blank, same]

theorem ids_of_callReplies {ts us : List CompletedToolUse}
    (same : ts.map (callReply env) = us.map (callReply env)) : ts.map (·.id) = us.map (·.id) := by
  have picks (l : List CompletedToolUse) :
      (l.map (callReply env)).filterMap (fun block => idOf block.1) = l.map (·.id) := by
    rw [List.filterMap_map]
    show l.filterMap (fun t => some t.id) = _
    exact congrFun List.filterMap_eq_map' l
  rw [← picks ts, same, picks us]

theorem length_expected (whole : ¬ HasBroken env frags) (id : String) :
    (expected env map id frags).length = (callsOf id frags).length := by
  unfold expected
  rw [List.length_filterMap_eq_countP, List.countP_eq_length]
  intro call mem
  rw [Option.isSome_iff_ne_none]
  intro nothing
  exact whole ⟨id, call, mem, (delivery_eq_none env map id call).mp nothing⟩

/-- A client of the stream has the first call of each id, and one of the response all of them. -/
theorem calls_agree_iff (whole : ¬ HasBroken env frags) :
    (firsts (·.id) (delivered env map frags)).map (callReply env) =
      (delivered (withIdOrder env order perm) map frags).map (callReply env) ↔
    (∀ id, (callsOf id frags).length ≤ 1) ∧
      env.idOrder (unfinished frags) = order (unfinished frags) := by
  have own := ids_delivered env map whole
  have whole' : ¬ HasBroken (withIdOrder env order perm) frags := whole
  have other : (delivered (withIdOrder env order perm) map frags).map (·.id) =
      (pushed env map {} frags).map (·.id) ++ order (unfinished frags) := by
    have ids := ids_delivered (withIdOrder env order perm) map whole'
    rw [(pushed_withIdOrder env map perm {} frags).1] at ids
    exact ids
  have ids_of : ∀ id, ((delivered env map frags).filter fun t => t.id = id).length =
      (callsOf id frags).length := by
    intro id
    rw [delivered_of_unbroken whole, length_expected whole]
  constructor
  · intro same
    have ids := ids_of_callReplies same
    have lengths : (firsts (·.id) (delivered env map frags)).length =
        (delivered env map frags).length := by
      have total := congrArg List.length ids
      have total_own := congrArg List.length own
      have total_other := congrArg List.length other
      have perm_own := (env.idOrder_perm (unfinished frags)).length_eq
      have perm_other := (perm (unfinished frags)).length_eq
      rw [List.length_map, List.length_append] at total_own total_other
      rw [List.length_map, List.length_map] at total
      omega
    have all : firsts (·.id) (delivered env map frags) = delivered env map frags :=
      (firsts_sublist _).eq_of_length lengths
    refine ⟨fun id => ?_, ?_⟩
    · rw [← ids_of id]
      exact short_of_firsts lengths id
    · rw [all, own, other] at ids
      exact List.append_cancel_left ids
  · rintro ⟨once, ordered⟩
    have all : firsts (·.id) (delivered env map frags) = delivered env map frags :=
      firsts_eq_self fun id => by
        rw [ids_of id]
        exact once id
    rw [all, delivered_withIdOrder whole ordered]

theorem thinking_agrees_iff (reasoning : List ReasoningContentEvent) :
    reasoning.flatMap thoughtOf = reasoning.flatMap (·.text) ↔
      ∀ e ∈ reasoning, e.text = [] ∨ dataOf e = none := by
  have part : ∀ e ∈ reasoning, thoughtOf e = e.text ∨ thoughtOf e = [] := by
    intro e _
    unfold thoughtOf
    split_ifs
    · exact .inr rfl
    · exact .inl rfl
  rw [flatMap_eq_iff part]
  refine forall₂_congr fun e _ => ?_
  unfold thoughtOf
  cases dataOf e with
  | some data => exact ⟨fun none => .inl none.symm, fun unmixed => by
      rcases unmixed with none | never
      · exact none.symm
      · cases never⟩
  | none => exact ⟨fun _ => .inr rfl, fun _ => rfl⟩

theorem bareData_of_unmixed {e : ReasoningContentEvent} (unmixed : e.text = [] ∨ dataOf e = none) :
    bareData e = (dataOf e).getD "" := by
  rcases e with ⟨text, redactedContent⟩
  cases redactedContent with
  | none => exact ite_self _
  | some redacted =>
    have bare : bareData ⟨text, some redacted⟩ = if text.isEmpty then redacted else "" := rfl
    cases empty : redacted.isEmpty with
    | true =>
      have none : dataOf ⟨text, some redacted⟩ = none := Option.filter_eq_none_iff.mpr fun s own => by
        cases own
        rw [empty]
        exact Bool.false_ne_true
      rw [String.isEmpty_iff] at empty
      rw [bare, none, empty]
      exact ite_self _
    | false =>
      have some_data : dataOf ⟨text, some redacted⟩ = some redacted :=
        Option.filter_eq_some_iff.mpr ⟨rfl, by rw [empty]; rfl⟩
      rw [some_data] at unmixed
      rcases unmixed with none | never
      · rw [bare, some_data, show text = [] from none]
        rfl
      · cases never

theorem join_filterMap (reasoning : List ReasoningContentEvent)
    (unmixed : ∀ e ∈ reasoning, e.text = [] ∨ dataOf e = none) :
    String.join (reasoning.filterMap dataOf) = String.join (reasoning.map bareData) := by
  induction reasoning with
  | nil => rfl
  | cons e rest ih =>
    have later := ih fun e' mem => unmixed e' (List.mem_cons_of_mem e mem)
    rw [List.map_cons, String.join_cons, bareData_of_unmixed (unmixed e List.mem_cons_self), ← later]
    cases found : dataOf e with
    | none => rw [List.filterMap_cons_none found, Option.getD_none, String.empty_append]
    | some data => rw [List.filterMap_cons_some found, String.join_cons, Option.getD_some]

theorem redacted_agrees_iff (reasoning : List ReasoningContentEvent)
    (unmixed : ∀ e ∈ reasoning, e.text = [] ∨ dataOf e = none) :
    reasoning.filterMap dataOf = oneBlock (String.join (reasoning.map bareData)) ↔
      reasoning.countP (fun e => (dataOf e).isSome) ≤ 1 := by
  have filled : ∀ data ∈ reasoning.filterMap dataOf, data.isEmpty = false := by
    intro data mem
    obtain ⟨e, -, found⟩ := List.mem_filterMap.mp mem
    exact (Bool.not_eq_true' _).mp (Option.filter_eq_some_iff.mp found).2
  rw [← List.length_filterMap_eq_countP, ← join_filterMap reasoning unmixed]
  generalize reasoning.filterMap dataOf = blocks at filled ⊢
  have first (data : String) (rest : List String) (mem : data ∈ blocks) :
      (data ++ String.join rest).isEmpty = false := by
    rw [Bool.eq_false_iff]
    intro empty
    have some_data := filled data mem
    rw [(String.append_eq_empty_iff.mp (String.isEmpty_iff.mp empty)).1] at some_data
    cases some_data
  match blocks with
  | [] => exact iff_of_true rfl (Nat.zero_le 1)
  | [data] =>
    refine iff_of_true ?_ (Nat.le_refl 1)
    unfold oneBlock
    rw [String.join_cons, first data [] List.mem_cons_self, String.join_nil, String.append_empty]
    rfl
  | data :: next :: rest =>
    refine iff_of_false ?_ (by simp)
    unfold oneBlock
    rw [String.join_cons, first data _ List.mem_cons_self]
    intro never
    cases congrArg List.length never

def heard (env : StreamEnv) (enabled : Bool) (events : List Event) : Heard :=
  events.foldl (Heard.hear env enabled) {}

theorem onlyThinking_iff (env : StreamEnv) (enabled : Bool) (events : List Event) :
    (enabled && (heard env enabled events).reasoned && (heard env enabled events).text.isEmpty &&
      (heard env enabled events).redacted.isEmpty && !(heard env enabled events).called) = true ↔
    OnlyThinking enabled events := by
  have hears : Hears env enabled events {} (heard env enabled events) := hears_events events {}
  have text : (heard env enabled events).text = spoken events := text_foldl env events {}
  have called : (heard env enabled events).called = !(fragments events).isEmpty :=
    called_foldl env events {}
  have reasoned : (heard env enabled events).reasoned =
      (attended enabled events).any fun e => (dataOf e).isNone := hears.reasoned
  have redacted : (heard env enabled events).redacted =
      (attended enabled events).filterMap dataOf := hears.redacted
  rw [text, called, reasoned, redacted, Bool.not_not, Bool.and_eq_true, Bool.and_eq_true,
    Bool.and_eq_true, Bool.and_eq_true, List.isEmpty_iff, List.isEmpty_iff, List.isEmpty_iff,
    List.any_eq_true, List.filterMap_eq_nil_iff]
  constructor
  · rintro ⟨⟨⟨⟨-, e, mem, -⟩, silent⟩, bare⟩, uncalled⟩
    exact ⟨List.ne_nil_of_mem mem, bare, silent, uncalled⟩
  · rintro ⟨thinks, bare, silent, uncalled⟩
    obtain ⟨e, mem⟩ := List.exists_mem_of_ne_nil _ thinks
    refine ⟨⟨⟨⟨?_, e, mem, ?_⟩, silent⟩, bare⟩, uncalled⟩
    · cases enabled with
      | true => rfl
      | false => exact absurd rfl thinks
    · rw [bare e mem]
      rfl

theorem last_of_only (only : OnlyThinking enabled events) :
    (heard env enabled events).last enabled =
      { heard env enabled events with text := [' '], reason := some "max_tokens" } :=
  if_pos ((onlyThinking_iff env enabled events).mpr only)

theorem last_of_more (more : ¬ OnlyThinking enabled events) :
    (heard env enabled events).last enabled = heard env enabled events :=
  if_neg fun pads => more ((onlyThinking_iff env enabled events).mp pads)

theorem text_agrees (env : StreamEnv) (enabled : Bool) (events : List Event) :
    trimChars ((heard env enabled events).last enabled).text = trimChars (spoken events) := by
  by_cases only : OnlyThinking enabled events
  · have blank : trimChars [' '] = trimChars [] := by decide
    rw [last_of_only only, only.silent]
    exact blank
  · rw [last_of_more only, heard, text_foldl]
    rfl

theorem stopReason_agrees_iff (env : StreamEnv) (enabled : Bool) (events : List Event) :
    ((heard env enabled events).last enabled).stopReason = (lastReason env events).getD
        (if (fragments events).isEmpty then "end_turn" else "tool_use") ↔
      (OnlyThinking enabled events → lastReason env events = some "max_tokens") := by
  have hears : Hears env enabled events {} (heard env enabled events) := hears_events events {}
  have called : (heard env enabled events).called = !(fragments events).isEmpty :=
    called_foldl env events {}
  have reason : (heard env enabled events).reason = lastReason env events :=
    hears.reason.trans Option.or_none
  by_cases only : OnlyThinking enabled events
  · rw [last_of_only only, only.uncalled]
    show "max_tokens" = (lastReason env events).getD "end_turn" ↔ _
    constructor
    · intro same _
      cases set : lastReason env events with
      | none =>
        rw [set] at same
        exact absurd same (by decide)
      | some reason =>
        rw [set] at same
        exact congrArg some same.symm
    · intro exhausted
      rw [exhausted only]
      rfl
  · refine ⟨fun _ never => absurd never only, fun _ => ?_⟩
    rw [last_of_more only, Heard.stopReason, reason, called]
    cases (fragments events).isEmpty <;> rfl

theorem redacted_told (sent : List SseEvent) :
    (told sent).redacted = redactedOf (received sent) := by
  have contents := contents_after [] sent
  rw [List.map_nil, List.nil_append] at contents
  unfold redactedOf received
  rw [contents]
  clear contents
  induction sent with
  | nil => rfl
  | cons e sent ih =>
    have joins : (told (e :: sent)).redacted = (tells e).redacted ++ (told sent).redacted := rfl
    rw [joins, ih]
    cases e with
    | contentBlockStart index content => cases content <;> rfl
    | contentBlockDelta index delta => cases delta <;> rfl
    | messageStart _ _ _ | contentBlockStop _ | messageDelta _ _ | messageStop | error _ _ => rfl

theorem last_thinking (enabled : Bool) (h : Heard) : (h.last enabled).thinking = h.thinking ∧
    (h.last enabled).redacted = h.redacted := by
  unfold Heard.last
  split_ifs
  · exact ⟨rfl, rfl⟩
  · exact ⟨rfl, rfl⟩

/-- Where every call can be read and the text has neither tags nor leaks, the stream and the
response say the same if and only if the events are agreeable. -/
theorem agrees_iff (env : StreamEnv) (order : List String → List String)
    (perm : ∀ keys, (order keys).Perm keys) (req : NonStreamRequest) (messageId : String)
    (events : List Event) (whole : ¬ HasBroken env (fragments events))
    (unleaked : ¬ toolUseXmlPrefix <:+: spoken events)
    (untagged : ¬ thinkingStartTag <:+: spoken events)
    (fits : Fits (received (streamed env (newContext req.model messageId req.inputTokens
      req.thinkingEnabled req.toolNameMap req.cacheUsage) events).1)) :
    ∃ response, handleNonStreamRequest (withIdOrder env order perm) req events = .ok response ∧
      (Agrees env (streamed env (newContext req.model messageId req.inputTokens req.thinkingEnabled
        req.toolNameMap req.cacheUsage) events).1 response ↔
          Agreeable env order req.thinkingEnabled events) := by
  have conveys := conveys_streamed env events whole unleaked (fun _ => untagged) fits
  have calls := callReplies_streamed env events fits
  obtain ⟨response, answer, answered⟩ :=
    answered (withIdOrder env order perm) req events whole unleaked untagged
  refine ⟨response, answer, ?_⟩
  generalize (streamed env (newContext req.model messageId req.inputTokens req.thinkingEnabled
    req.toolNameMap req.cacheUsage) events).1 = sent at conveys calls
  have hears : Hears env req.thinkingEnabled events {} (heard env req.thinkingEnabled events) :=
    hears_events events {}
  obtain ⟨same_thinking, same_redacted⟩ :=
    last_thinking req.thinkingEnabled (heard env req.thinkingEnabled events)
  have thinking : contentOf .thinking (received sent) =
      (attended req.thinkingEnabled events).flatMap thoughtOf :=
    conveys.thinking.trans (same_thinking.trans hears.thinking)
  have redacted : redactedOf (received sent) =
      (attended req.thinkingEnabled events).filterMap dataOf := by
    rw [← redacted_told, conveys.redacted]
    exact same_redacted.trans hears.redacted
  have thinks : thinkingIn response = (attended req.thinkingEnabled events).flatMap (·.text) := by
    rw [answered.thinking]
    unfold attended
    split_ifs <;> rfl
  have withholds : redactedIn response =
      oneBlock (String.join ((attended req.thinkingEnabled events).map bareData)) := by
    rw [answered.redacted]
    unfold attended
    split_ifs <;> rfl
  have stops : some response.stopReason = some ((lastReason env events).getD
      (if (fragments events).isEmpty then "end_turn" else "tool_use")) :=
    congrArg some answered.stopReason
  have shows : trimChars (contentOf .text (received sent)) = trimChars (textIn response) := by
    rw [conveys.text, answered.text, trimChars_trimChars]
    exact text_agrees env req.thinkingEnabled events
  have reason : stopReasonIn sent = some response.stopReason ↔
      (OnlyThinking req.thinkingEnabled events → lastReason env events = some "max_tokens") := by
    rw [conveys.reason, stops, Option.some_inj]
    exact stopReason_agrees_iff env req.thinkingEnabled events
  have called : callReplies (received sent) = (callsIn response).map (callReply env) ↔
      (∀ id, (callsOf id (fragments events)).length ≤ 1) ∧
        env.idOrder (unfinished (fragments events)) = order (unfinished (fragments events)) := by
    rw [calls, answered.calls]
    exact calls_agree_iff whole
  constructor
  · rintro ⟨same_calls, same_thoughts, same_data, -, same_reason⟩
    obtain ⟨once, ordered⟩ := called.mp same_calls
    rw [thinking, thinks] at same_thoughts
    rw [redacted, withholds] at same_data
    have unmixed := (thinking_agrees_iff _).mp same_thoughts
    exact ⟨once, ordered, unmixed, (redacted_agrees_iff _ unmixed).mp same_data,
      reason.mp same_reason⟩
  · rintro ⟨once, ordered, unmixed, single, exhausted⟩
    refine ⟨called.mpr ⟨once, ordered⟩, ?_, ?_, shows, reason.mpr exhausted⟩
    · rw [thinking, thinks]
      exact (thinking_agrees_iff _).mpr unmixed
    · rw [redacted, withholds]
      exact (redacted_agrees_iff _ unmixed).mpr single

def NonStreamRequest.sample : NonStreamRequest where
  model := "claude-sonnet-4.5"
  messageId := "msg_1"
  inputTokens := 10
  thinkingEnabled := true
  toolNameMap := []
  cacheUsage := {}
  estimateOutputTokens := fun _ => 1

/-- Thinking in two parts with redacted data between them, a text, and two calls of which the second
comes in fragments. -/
def planned : List Event :=
  [.reasoningContent { text := "plan".toList }, .reasoningContent { redactedContent := some "blob" },
    .reasoningContent { text := "more".toList }, .assistantResponse "done".toList,
    .toolUse { name := "ExitPlanMode", toolUseId := "call_1", stop := true },
    .toolUse { name := "Read", toolUseId := "call_2" },
    .toolUse { name := "Read", toolUseId := "call_2", stop := true }]

theorem agreeable_planned : Agreeable StreamEnv.sample id true planned where
  once := by
    intro id
    show (segments (·.stop) ((fragments planned).filter fun e => e.toolUseId = id)).length ≤ 1
    by_cases first : "call_1" = id
    · subst first
      decide +kernel
    · by_cases second : "call_2" = id
      · subst second
        decide +kernel
      · have none : (fragments planned).filter (fun e => e.toolUseId = id) = [] := by
          rw [List.filter_eq_nil_iff]
          intro e mem
          have either : e.toolUseId = "call_1" ∨ e.toolUseId = "call_2" := by
            revert e
            decide +kernel
          rw [decide_eq_true_eq]
          rintro rfl
          exact either.elim (fun same => first same.symm) fun same => second same.symm
        rw [none]
        exact Nat.zero_le 1
  ordered := by decide +kernel
  unmixed := by decide +kernel
  single := by decide +kernel
  exhausted := fun only => absurd only.silent (by decide +kernel)

theorem agrees_planned :
    ∃ response, handleNonStreamRequest (withIdOrder StreamEnv.sample id List.Perm.refl)
        NonStreamRequest.sample planned = .ok response ∧
      Agrees StreamEnv.sample (streamed StreamEnv.sample
          (newContext "claude-sonnet-4.5" "msg_1" 10 true [] {}) planned).1 response := by
  obtain ⟨response, answer, agrees⟩ := agrees_iff StreamEnv.sample id List.Perm.refl
    NonStreamRequest.sample "msg_1" planned (by rw [hasBroken_iff StreamEnv.sample []]; decide +kernel)
    (by decide +kernel) (by decide +kernel) (by unfold Fits; decide +kernel)
  exact ⟨response, answer, agrees.mpr agreeable_planned⟩

/-- An answer of nothing but thinking ran out of tokens for the stream, and is a finished turn for
the response. -/
theorem thinking_alone_disagrees :
    ¬ ∀ (env : StreamEnv) (order : List String → List String)
      (perm : ∀ keys, (order keys).Perm keys) (req : NonStreamRequest) (messageId : String)
      (events : List Event), ¬ HasBroken env (fragments events) →
      ¬ toolUseXmlPrefix <:+: spoken events → ¬ thinkingStartTag <:+: spoken events →
        ∃ response, handleNonStreamRequest (withIdOrder env order perm) req events = .ok response ∧
          Agrees env (streamed env (newContext req.model messageId req.inputTokens
            req.thinkingEnabled req.toolNameMap req.cacheUsage) events).1 response := by
  intro all
  let alone : List Event := [.reasoningContent { text := "plan".toList }]
  have whole : ¬ HasBroken StreamEnv.sample (fragments alone) := by
    rw [hasBroken_iff StreamEnv.sample []]
    decide +kernel
  have unleaked : ¬ toolUseXmlPrefix <:+: spoken alone := by decide
  have untagged : ¬ thinkingStartTag <:+: spoken alone := by decide
  obtain ⟨response, answer, agrees⟩ := all StreamEnv.sample id List.Perm.refl
    NonStreamRequest.sample "msg_1" alone whole unleaked untagged
  obtain ⟨response', answer', told⟩ := answered (withIdOrder StreamEnv.sample id List.Perm.refl)
    NonStreamRequest.sample alone whole unleaked untagged
  cases answer.symm.trans answer'
  have exhausted : stopReasonIn (streamed StreamEnv.sample
      (newContext "claude-sonnet-4.5" "msg_1" 10 true [] {}) alone).1 = some "max_tokens" := by
    decide +kernel
  have finished : some response.stopReason = some "end_turn" := congrArg some told.stopReason
  exact absurd (exhausted.symm.trans (agrees.stopReason.trans finished)) (by decide)

end KiroRs.Stream.Agreement
