/- Path: KiroRs/WebSearch/Accounting
   source: src/anthropic/websearch_loop.rs
   digest: The usage record of a request that runs the web search loop, and when its credits are
   those of all rounds. -/

import KiroRs.WebSearch.Loop

set_option autoImplicit false
set_option relaxedAutoImplicit false

namespace KiroRs.WebSearch.Accounting

open KiroRs.Lib.Rounds
open KiroRs.Admin.UsageStats (UsageRecord)
open KiroRs.Converter.Conversion (ConversionResult)
open KiroRs.Converter.Requests (MessagesRequest)
open KiroRs.Converter.ToolNames (ToolCompatibilityMode)
open KiroRs.Stream.Events
open KiroRs.WebSearch.Rounds
open KiroRs.WebSearch.Loop

def recordOf : Effect → Option UsageRecord
  | .recorded r => some r
  | _ => none

/-- The usage records that were written. -/
def records (log : List Effect) : List UsageRecord := log.filterMap recordOf

def eventsOf : Effect → Option (List Event)
  | .received events => some events
  | _ => none

def receivedRounds (log : List Effect) : List (List Event) := log.filterMap eventsOf

def usageOf : Event → Option UInt64
  | .metering usage => some usage
  | _ => none

def roundCredits (env : SearchEnv) (events : List Event) : UInt64 :=
  (events.filterMap usageOf).foldl env.addF64 0

/-- The sum of the metering credits of all rounds. -/
def creditsSum (env : SearchEnv) (log : List Effect) : UInt64 :=
  (receivedRounds log).foldl (fun total events => env.addF64 total (roundCredits env events)) 0

/-- Exactly one record, with the credits of all rounds. -/
def Accounted (env : SearchEnv) (log : List Effect) : Prop :=
  ∃ r, records log = [r] ∧ r.credits = creditsSum env log

/-- A record keeps the number: it is positive and finite, or zero. -/
def Recordable (credits : UInt64) : Prop := recordedCredits credits = credits

variable {env : SearchEnv} {setting : LoopSetting} {replies : Nat → RoundReply}

@[simp] theorem records_append (log later : List Effect) :
    records (log ++ later) = records log ++ records later := List.filterMap_append

@[simp] theorem receivedRounds_append (log later : List Effect) :
    receivedRounds (log ++ later) = receivedRounds log ++ receivedRounds later :=
  List.filterMap_append

theorem records_of_exchange {log : List Effect} (exchange : ∀ x ∈ log, IsExchange x) :
    records log = [] := by
  apply List.filterMap_eq_nil_iff.mpr
  intro x mem
  have := exchange x mem
  cases x <;> first | rfl | cases this

theorem records_searched (uses : List DecodedToolUse) :
    records (uses.map fun t => .searched (query t)) = [] := by
  induction uses with
  | nil => rfl
  | cons t rest ih => exact ih

theorem receivedRounds_searched (uses : List DecodedToolUse) :
    receivedRounds (uses.map fun t => .searched (query t)) = [] := by
  induction uses with
  | nil => rfl
  | cons t rest ih => exact ih

@[simp] theorem recordedCredits_zero : recordedCredits 0 = 0 := rfl

theorem credits_decodeReasoning (outcome : RoundOutcome) (e : ReasoningContentEvent) :
    (decodeReasoning outcome e).credits = outcome.credits := by
  unfold decodeReasoning
  split_ifs
  · rfl
  · split <;> rfl

theorem credits_decodeToolUse (map : Converter.ToolNames.ToolNameMap) (d : Decoding)
    (e : ToolUseEvent) : (decodeToolUse env map d e).outcome.credits = d.outcome.credits := by
  unfold decodeToolUse
  dsimp only
  split <;> rfl

theorem credits_decodeEvent (model : String) (map : Converter.ToolNames.ToolNameMap) (d : Decoding)
    (event : Event) : (decodeEvent env model map d event).outcome.credits =
      (usageOf event).elim d.outcome.credits (env.addF64 d.outcome.credits) := by
  cases event with
  | reasoningContent e => exact credits_decodeReasoning d.outcome e
  | toolUse e => exact credits_decodeToolUse map d e
  | assistantResponse | code | contextUsage | metering | exception | error | unknown => rfl

theorem credits_foldl_decodeEvent (model : String) (map : Converter.ToolNames.ToolNameMap)
    (events : List Event) (d : Decoding) :
    (events.foldl (decodeEvent env model map) d).outcome.credits =
      (events.filterMap usageOf).foldl env.addF64 d.outcome.credits := by
  induction events generalizing d with
  | nil => rfl
  | cons event events ih =>
    rw [List.foldl_cons, ih, credits_decodeEvent]
    cases usage : usageOf event with
    | none => rw [List.filterMap_cons_none usage, Option.elim_none]
    | some credits => rw [List.filterMap_cons_some usage, Option.elim_some, List.foldl_cons]

theorem credits_roundOf (s : LoopState) (conversion : ConversionResult) (reply : StreamReply) :
    (roundOf env s conversion reply).credits = roundCredits env reply.events := by
  unfold roundOf decodeRound
  rw [fromToolAccumulatorFinish_credits]
  exact credits_foldl_decodeEvent _ _ _ _

/-- Behind the rounds so far nothing is recorded and the total holds their credits. -/
structure Totalled (env : SearchEnv) (s : LoopState) (log : List Effect) : Prop where
  unrecorded : records log = []
  total : s.totalCredits = creditsSum env log

theorem totalled_start (payload : MessagesRequest) :
    Totalled env { payload := payload } [] := ⟨rfl, rfl⟩

theorem Totalled.decoded {s : LoopState} {log : List Effect} (h : Totalled env s log)
    (conversion : ConversionResult) (reply : StreamReply) (body : String)
    (uses : List DecodedToolUse) :
    Totalled env (stateOf env s conversion reply) (log ++
      (.sent body :: .received reply.events :: uses.map fun t => .searched (query t))) := by
  constructor
  · rw [records_append, h.unrecorded]
    exact records_searched uses
  · have added : receivedRounds (.sent body :: .received reply.events ::
        uses.map fun t => .searched (query t)) = [reply.events] := by
      exact congrArg (reply.events :: ·) (receivedRounds_searched uses)
    unfold creditsSum
    rw [receivedRounds_append, added, List.foldl_append]
    change env.addF64 s.totalCredits (roundOf env s conversion reply).credits = _
    rw [h.total, credits_roundOf]
    rfl

theorem Totalled.step {i : Nat} {s s' : LoopState} {log : List Effect} (h : Totalled env s log)
    (goes_on : (roundStep env setting replies i s).2 = .again s') :
    Totalled env s' (log ++ (roundStep env setting replies i s).1) := by
  by_cases decodes : ∃ conversion reply,
      Decoded env setting.toSetting s.payload (replies i).call conversion reply
  · obtain ⟨conversion, reply, decoded⟩ := decodes
    cases search : shouldSearchRound i (roundOf env s conversion reply).toolUses with
    | false =>
      obtain ⟨body, eq⟩ := decoded.roundStep_finish search
      rw [eq] at goes_on
      cases goes_on
    | true =>
      obtain ⟨body, eq⟩ := decoded.roundStep_search search
      rw [eq] at goes_on ⊢
      cases searched : (searchAll env (replies i).mcp 0
          (roundOf env s conversion reply).toolUses).2 with
      | error e =>
        obtain ⟨t, before, -, failed⟩ := searchRound_error searched
        rw [failed] at goes_on
        cases goes_on
      | ok results =>
        rw [searchRound_ok searched] at goes_on ⊢
        cases goes_on
        have totalled := h.decoded conversion reply body (roundOf env s conversion reply).toolUses
        exact ⟨totalled.unrecorded, totalled.total⟩
  · obtain ⟨before, inputTokens, e, -, -, eq⟩ := roundStep_failed decodes
    rw [eq] at goes_on
    cases goes_on

theorem totalled_of_reaches {payload : MessagesRequest} {i : Nat} {s : LoopState}
    {log : List Effect}
    (reached : Reaches (roundStep env setting replies) { payload := payload } i s log) :
    Totalled env s log := by
  induction reached with
  | start => exact totalled_start payload
  | again _ goes_on ih => exact ih.step goes_on

theorem Totalled.stop {i : Nat} {s : LoopState} {log : List Effect}
    {b : Except LoopError WebSearchLoopSuccess} (h : Totalled env s log)
    (stops : (roundStep env setting replies i s).2 = .stop b) :
    ∃ r, records (log ++ (roundStep env setting replies i s).1) = [r] ∧
      ((∃ conversion reply,
          Decoded env setting.toSetting s.payload (replies i).call conversion reply) →
        r.credits = recordedCredits
          (creditsSum env (log ++ (roundStep env setting replies i s).1))) ∧
      ((¬ ∃ conversion reply,
          Decoded env setting.toSetting s.payload (replies i).call conversion reply) →
        r.credits = 0) := by
  by_cases decodes : ∃ conversion reply,
      Decoded env setting.toSetting s.payload (replies i).call conversion reply
  · obtain ⟨conversion, reply, decoded⟩ := decodes
    have closes : ∀ (body : String) (uses : List DecodedToolUse) (r : UsageRecord), r.credits = recordedCredits
          (stateOf env s conversion reply).totalCredits →
        (roundStep env setting replies i s).1 =
          (.sent body :: .received reply.events :: uses.map fun t => .searched (query t)) ++
            [.recorded r] →
        records (log ++ (roundStep env setting replies i s).1) = [r] ∧
          r.credits = recordedCredits
            (creditsSum env (log ++ (roundStep env setting replies i s).1)) := by
      intro body uses r credits eq
      have totalled := h.decoded conversion reply body uses
      rw [eq, ← List.append_assoc, records_append, totalled.unrecorded]
      refine ⟨rfl, ?_⟩
      rw [credits, totalled.total]
      unfold creditsSum
      rw [receivedRounds_append _ [.recorded r]]
      exact congrArg _ (congrArg _ (List.append_nil _).symm)
    cases search : shouldSearchRound i (roundOf env s conversion reply).toolUses with
    | false =>
      obtain ⟨body, eq⟩ := decoded.roundStep_finish search
      obtain ⟨one, credits⟩ := closes body [] _ rfl (by rw [eq]; rfl)
      exact ⟨_, one, fun _ => credits, fun never => absurd ⟨conversion, reply, decoded⟩ never⟩
    | true =>
      obtain ⟨body, eq⟩ := decoded.roundStep_search search
      cases searched : (searchAll env (replies i).mcp 0
          (roundOf env s conversion reply).toolUses).2 with
      | ok results =>
        rw [eq, searchRound_ok searched] at stops
        cases stops
      | error e =>
        obtain ⟨t, before, -, failed⟩ := searchRound_error searched
        obtain ⟨one, credits⟩ := closes body (t :: before) _ rfl (by rw [eq, failed]; rfl)
        exact ⟨_, one, fun _ => credits, fun never => absurd ⟨conversion, reply, decoded⟩ never⟩
  · obtain ⟨before, inputTokens, e, exchange, -, eq⟩ := roundStep_failed decodes
    rw [eq, records_append, h.unrecorded, records_append, records_of_exchange exchange]
    exact ⟨_, rfl, fun holds => absurd holds decodes, fun _ => rfl⟩

/-- Every request that runs the loop writes one record. Its credits are those of all rounds that
were decoded if and only if these add up to nothing, or to a number that a record keeps and no
round failed. -/
theorem accounted_iff (env : SearchEnv) (mode : ToolCompatibilityMode) (hook : UsageRecordHook)
    (cacheUsage : CacheUsage) (payload : MessagesRequest) (replies : Nat → RoundReply) :
    (∃ r, records (runWebSearchLoopInner env mode hook cacheUsage payload replies).1 = [r]) ∧
    (Accounted env (runWebSearchLoopInner env mode hook cacheUsage payload replies).1 ↔
      creditsSum env (runWebSearchLoopInner env mode hook cacheUsage payload replies).1 = 0 ∨
      Recordable (creditsSum env
        (runWebSearchLoopInner env mode hook cacheUsage payload replies).1) ∧
        ∀ i s log, Reaches (roundStep env
            (LoopSetting.start env mode hook cacheUsage payload) replies)
            { payload := payload } i s log →
          ∃ conversion reply, Decoded env
            (LoopSetting.start env mode hook cacheUsage payload).toSetting s.payload
            (replies i).call conversion reply) := by
  set setting := LoopSetting.start env mode hook cacheUsage payload with is_setting
  have below := roundStep_goesOnBelow env setting replies
  obtain ⟨i, s, log, b, reached, stops⟩ := exists_stop below { payload := payload }
  have ran : runWebSearchLoopInner env mode hook cacheUsage payload replies =
      (log ++ (roundStep env setting replies i s).1, b) := reached.rounds_of_stop below stops
  obtain ⟨r, one, decoded, failed⟩ := (totalled_of_reaches reached).stop stops
  rw [ran]
  refine ⟨⟨r, one⟩, ?_⟩
  have accounted_iff_credits : Accounted env (log ++ (roundStep env setting replies i s).1) ↔
      r.credits = creditsSum env (log ++ (roundStep env setting replies i s).1) := by
    constructor
    · rintro ⟨r', one', credits⟩
      rw [one] at one'
      cases one'
      exact credits
    · intro credits
      exact ⟨r, one, credits⟩
  rw [accounted_iff_credits]
  by_cases decodes : ∃ conversion reply,
      Decoded env setting.toSetting s.payload (replies i).call conversion reply
  · rw [decoded decodes]
    constructor
    · intro recordable
      refine .inr ⟨recordable, ?_⟩
      intro j t log' reached'
      by_contra fails
      obtain ⟨_, _, e, -, -, eq⟩ := roundStep_failed fails
      obtain ⟨rfl, rfl⟩ := reached.stop_unique reached' stops (congrArg Prod.snd eq)
      exact fails decodes
    · rintro (zero | ⟨recordable, -⟩)
      · rw [zero]
        rfl
      · exact recordable
  · rw [failed decodes]
    constructor
    · intro zero
      exact .inl zero.symm
    · rintro (zero | ⟨-, all⟩)
      · exact zero.symm
      · exact absurd (all i s log reached) decodes

private def question : MessagesRequest where
  model := "claude-sonnet-4-5"
  messages := [⟨"user", .string "what is new?"⟩]
  tools := some [{ name := "web_search" }, { name := "exec" }]

private def brokenReply : RoundReply where
  call := .ok { credentialId := 1, events := [.metering 0x3FF0000000000000], readError := true }
  mcp := fun _ => .error "unreachable"
  srvIds := fun _ => "srvtoolu_1"

/-- The credit of a round whose stream breaks off is not recorded. -/
theorem interrupted_round_unaccounted :
    ¬ ∀ (env : SearchEnv) (mode : ToolCompatibilityMode) (hook : UsageRecordHook)
      (cacheUsage : CacheUsage) (payload : MessagesRequest) (replies : Nat → RoundReply),
      Accounted env (runWebSearchLoopInner env mode hook cacheUsage payload replies).1 := by
  intro claim
  obtain ⟨r, one, credits⟩ := claim .sample .claudeCode { keyId := 1, model := "claude-sonnet-4-5" }
    {} question fun _ => brokenReply
  have recorded : (records (runWebSearchLoopInner .sample .claudeCode
      { keyId := 1, model := "claude-sonnet-4-5" } {} question
      fun _ => brokenReply).1).map (·.credits) = [0] := by decide +kernel
  have metered : creditsSum .sample (runWebSearchLoopInner .sample .claudeCode
      { keyId := 1, model := "claude-sonnet-4-5" } {} question
      fun _ => brokenReply).1 = 0x3FF0000000000000 := by decide +kernel
  rw [one, List.map_singleton, credits, metered] at recorded
  cases recorded

end KiroRs.WebSearch.Accounting
