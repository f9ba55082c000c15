/- Path: KiroRs/Delivery/Accounting
   source: src/anthropic/handlers.rs, src/anthropic/stream.rs
   digest: What is kept of an ended request, and what that has to do with what its client was
   sent. -/

import KiroRs.Delivery.Arrivals
import KiroRs.Stream.Buffered

set_option autoImplicit false
set_option relaxedAutoImplicit false

namespace KiroRs.Delivery.Accounting

open KiroRs.Lib.Emits
open KiroRs.Admin.TraceDb
open KiroRs.Stream.Events
open KiroRs.Stream.StateManager
open KiroRs.Stream.Context
open KiroRs.Stream.Buffered
open KiroRs.Delivery.FrameEvents
open KiroRs.Delivery.Arrivals

section Final

variable {env : StreamEnv} {c : StreamContext} {r : Sent} {errors : List SseEvent}

/-- Events of blocks, the one `message_delta` with the usage of the context that is left, the stop,
and then the errors. -/
def Ends (env : StreamEnv) (r : Sent) (errors : List SseEvent) : Prop :=
  ∃ body reason, r.1 = body ++ ([.messageDelta reason
      (usageOf (r.2.resolvedUsage env) r.2.outputTokens), .messageStop] ++ errors) ∧
    ∀ e ∈ body, isBlockEvent e = true

theorem Ends.behind {next : StreamContext → Sent} (plain : Plain c r)
    (ends : Ends env (next r.2) errors) : Ends env (r.andThen next) errors := by
  obtain ⟨body, reason, eq, blocks⟩ := ends
  refine ⟨r.1 ++ body, reason, ?_, List.forall_mem_append.mpr ⟨plain.events, blocks⟩⟩
  rw [Emit.andThen, eq, List.append_assoc]

theorem Ends.withError (ends : Ends env r []) (e : SseEvent) :
    Ends env (r.andThen fun c => ([e], c)) [e] := by
  obtain ⟨body, reason, eq, blocks⟩ := ends
  refine ⟨body, reason, ?_, blocks⟩
  rw [Emit.andThen, eq, List.append_nil, List.append_assoc]

theorem ends_sendFinal (inside : frame c.stateManager = (true, false, false)) :
    Ends env (c.sendFinal env) [] := by
  obtain ⟨-, delta, ended⟩ : c.stateManager.messageStarted = true ∧
      c.stateManager.messageDeltaSent = false ∧ c.stateManager.messageEnded = false := by
    simpa only [frame, Prod.mk.injEq] using inside
  let stopped := c.stateManager.stopOpen env fun _ => true
  have undelivered : stopped.2.messageDeltaSent = false := delta
  have running : stopped.2.messageEnded = false := ended
  have sent (usage : Usage) : (c.stateManager.generateFinalEvents env usage).1 =
      stopped.1 ++ [.messageDelta stopped.2.getStopReason usage, .messageStop] := by
    show (Emit.andThen (stopped.andThen fun m => m.sendMessageDelta usage)
      SseStateManager.sendMessageStop).1 = _
    simp only [Emit.andThen, SseStateManager.sendMessageDelta, undelivered,
      SseStateManager.sendMessageStop, running, Bool.false_eq_true, if_false,
      List.append_assoc, List.singleton_append]
  exact ⟨stopped.1, stopped.2.getStopReason, sent _,
    (plainCall_stopOpen (m := c.stateManager) env fun _ => true).events⟩

def failureEvents (c : StreamContext) : List SseEvent :=
  (c.toolJsonError.map fun err => SseEvent.error err.errorType err.message).toList

theorem ends_generateFinal (inside : frame c.stateManager = (true, false, false)) :
    Ends env (c.generateFinalEvents env) (failureEvents (c.generateFinalEvents env).2) := by
  have finished : Plain c ((c.finishTools env).andThen fun c => c.finishFilter env) :=
    Plain.andThen plain_finishTools plain_finishFilter
  have inside_of {d : StreamContext} (same : basis d = basis c) :
      frame d.stateManager = (true, false, false) := by
    simp only [basis, Prod.mk.injEq] at same
    rw [same.2.2.2.2, inside]
  rw [StreamContext.generateFinalEvents]
  generalize ((c.finishTools env).andThen fun c => c.finishFilter env) = r at finished ⊢
  have closed : Plain r.2 r.2.closeReasoningIfOpen := plain_closeReasoning
  have closed_error : r.2.closeReasoningIfOpen.2.toolJsonError = r.2.toolJsonError := by
    obtain ⟨m, extracted, same⟩ := StreamContext.closeReasoningIfOpen_frame r.2
    rw [same]
  cases broken : r.2.toolJsonError with
  | some err =>
    have inner : Ends env (r.2.closeReasoningIfOpen.andThen fun c => c.sendFinal env) [] :=
      Ends.behind closed (ends_sendFinal (inside_of (closed.basis.trans finished.basis)))
    have kept : (r.2.closeReasoningIfOpen.2.sendFinal env).2.toolJsonError = some err :=
      closed_error.trans broken
    refine Ends.behind finished ?_
    simp only [broken]
    rw [show failureEvents _ = [SseEvent.error err.errorType err.message] by
      simp only [failureEvents, Emit.andThen, broken, kept]
      rfl]
    exact inner.withError _
  | none =>
    have flushed : Plain r.2 ((r.2.closeReasoningIfOpen.andThen fun c => c.flushBuffer env).andThen
        fun c => c.padThinkingOnly env) :=
      Plain.andThen (Plain.andThen closed plain_flushBuffer) plain_padThinkingOnly
    have kept : ((r.2.closeReasoningIfOpen.andThen fun c => c.flushBuffer env).andThen
        fun c => c.padThinkingOnly env).2.toolJsonError = none :=
      (StreamContext.textFrame_padThinkingOnly env _).error.trans
        ((StreamContext.textFrame_flushBuffer env _).error.trans (closed_error.trans broken))
    refine Ends.behind finished ?_
    simp only [broken]
    rw [show failureEvents _ = [] by
      have sent (d : StreamContext) : (d.sendFinal env).2.toolJsonError = d.toolJsonError := rfl
      simp only [failureEvents]
      rw [show (Emit.andThen r _).2.toolJsonError = none by
        simp only [Emit.andThen, broken]
        exact (sent _).trans kept]
      rfl]
    exact Ends.behind flushed (ends_sendFinal (inside_of (flushed.basis.trans finished.basis)))

end Final

theorem running_shape (env : StreamEnv) (c : StreamContext) (events : List Event)
    (fresh : frame c.stateManager = (false, false, false)) :
    ∃ body, (c.running env events).1 = c.createMessageStartEvent env :: body ∧
      (∀ e ∈ body, isBlockEvent e = true) ∧
      frame (c.running env events).2.stateManager = (true, false, false) := by
  have unstarted : c.stateManager.messageStarted = false := congrArg Prod.fst fresh
  obtain ⟨blocks, first, plain, known⟩ := generateInitialEvents_shape env c unstarted
  have run := plain_events env (c.generateInitialEvents env).2 events
  have same := congrArg (fun b => b.2.2.2.2) (run.basis.trans (basis_reported known _))
  refine ⟨blocks ++ (emitAll (StreamContext.processKiroEvent env) events
    (c.generateInitialEvents env).2).1, ?_, List.forall_mem_append.mpr ⟨plain, run.events⟩, ?_⟩
  · rw [StreamContext.running, Emit.andThen, first]
    rfl
  · refine Eq.trans same ?_
    exact congrArg (Prod.mk true) (congrArg Prod.snd fresh)

/-- What `record_stream_usage` takes from the context. -/
def streamUsage (env : WireEnv) (c : StreamContext) : Usage :=
  usageOf (c.resolvedUsage env.toStreamEnv) c.outputTokens

structure Accounts where
  credentialId : Nat
  usage : Usage
  credits : UInt64
  status : String
  tracerUsage : Option Usage
  committed : Bool
  finalStatus : FinalStatus
  errorType : Option Outcome
  errorMessage : Option String
  interruptedAfterBytes : Option Nat

def Accounts.puts (a : Accounts) : List Put :=
  .record a.credentialId a.usage a.credits a.status :: ((a.tracerUsage.map Put.setUsage).toList ++
    ((if a.committed then [.commitSuccess] else []) ++
      [.finalize a.finalStatus a.errorType a.errorMessage a.interruptedAfterBytes]))

/-- The accounts of a body that was closed with the given context. -/
def accountsOf (env : WireEnv) (id : Nat) (c : StreamContext) (credits : UInt64) (bytes : Nat)
    (last : Arrival) : Accounts :=
  let accounts (status : String) (committed : Bool) (finalStatus : FinalStatus)
      (errorType : Option Outcome) (message : Option String) (after : Option Nat) : Accounts :=
    ⟨id, streamUsage env c, credits, status, some (streamUsage env c), committed, finalStatus,
      errorType, message, after⟩
  match last with
  | .failed error =>
    accounts "error" false .interrupted (some .streamInterrupted) (some error) (some bytes)
  | _ =>
    match c.toolJsonError with
    | some err => accounts "error" false .error (some .badRequest) (some err.message) none
    | none => accounts "success" true .success none none none

theorem notes_accounts (a : Accounts) : notes a.puts = a.puts ∧ items a.puts = [] := by
  obtain ⟨id, usage, credits, status, tracer, committed, final, type, message, bytes⟩ := a
  cases tracer <;> cases committed <;> exact ⟨rfl, rfl⟩

def isError : SseEvent → Bool
  | .error _ _ => true
  | _ => false

def toldUsage : SseEvent → Option Usage
  | .messageDelta _ usage => some usage
  | _ => none

/-- What the accounts of a request have to do with what arrived and with what was sent. -/
structure Accounts.Sound (env : WireEnv) (a : Accounts) (arrivals : List Arrival)
    (puts : List Put) : Prop where
  status : a.status = if a.committed then "success" else "error"
  committed_iff : a.committed = true ↔
    arrivals.getLast? = some .ended ∧ ∀ e ∈ sentEvents puts, isError e = false
  success_iff : a.finalStatus = .success ↔ a.committed = true
  interrupted_iff : a.finalStatus = .interrupted ↔
    ∃ error, arrivals.getLast? = some (.failed error)
  bytes : a.interruptedAfterBytes =
    if a.finalStatus = .interrupted then some (chunks arrivals).flatten.length else none
  told : (sentEvents puts).filterMap toldUsage = a.tracerUsage.toList
  usage : ∀ usage, a.tracerUsage = some usage → a.usage = usage
  credits : a.credits = metered env (bodyEvents env (chunks arrivals))

theorem filterMap_toldUsage {body : List SseEvent} (blocks : ∀ e ∈ body, isBlockEvent e = true) :
    body.filterMap toldUsage = [] := by
  rw [List.filterMap_eq_nil_iff]
  intro e mem
  have block := blocks e mem
  cases e <;> first | rfl | cases block

theorem isError_of_block {e : SseEvent} (block : isBlockEvent e = true) : isError e = false := by
  cases e <;> first | rfl | cases block

theorem streamed_told (env : StreamEnv) (c : StreamContext) (events : List Event)
    (fresh : frame c.stateManager = (false, false, false)) :
    (c.streamed env events).1.filterMap toldUsage = [usageOf
        ((c.streamed env events).2.resolvedUsage env) (c.streamed env events).2.outputTokens] ∧
      ((∀ e ∈ (c.streamed env events).1, isError e = false) ↔
        (c.streamed env events).2.toolJsonError = none) := by
  obtain ⟨body, first, blocks, inside⟩ := running_shape env c events fresh
  obtain ⟨last, reason, shape, finals⟩ : Ends env ((c.running env events).2.generateFinalEvents env)
      (failureEvents ((c.running env events).2.generateFinalEvents env).2) :=
    ends_generateFinal inside
  have sent : (c.streamed env events).1 =
      (c.running env events).1 ++ ((c.running env events).2.generateFinalEvents env).1 := rfl
  have left : (c.streamed env events).2 =
      ((c.running env events).2.generateFinalEvents env).2 := rfl
  rw [sent, left, first, shape]
  generalize ((c.running env events).2.generateFinalEvents env).2 = final
  have broken : (failureEvents final).filterMap toldUsage = [] := by
    unfold failureEvents
    cases final.toolJsonError <;> rfl
  constructor
  · rw [List.filterMap_append, List.filterMap_cons, List.filterMap_append, List.filterMap_append,
      filterMap_toldUsage blocks, filterMap_toldUsage finals, broken]
    rfl
  · constructor
    · intro none_wrong
      cases failure : final.toolJsonError with
      | none => rfl
      | some err =>
        have wrong := none_wrong (.error err.errorType err.message) (by
          simp only [failureEvents, failure, Option.map_some, Option.toList_some]
          simp)
        cases wrong
    · intro unbroken e mem
      simp only [failureEvents, unbroken, Option.map_none, Option.toList_none, List.append_nil,
        List.mem_append, List.mem_cons, List.not_mem_nil, or_false] at mem
      rcases mem with (rfl | mem) | mem | rfl | rfl
      · rfl
      · exact isError_of_block (blocks e mem)
      · exact isError_of_block (finals e mem)
      · rfl
      · rfl

/-- The accounts of a closed body are sound where the usage of the context that is left was told
once, and an error was sent if and only if a tool input broke. -/
theorem sound_accountsOf {env : WireEnv} {id : Nat} {final : StreamContext} {credits : UInt64}
    {arrivals : List Arrival} {puts : List Put} {last : Arrival}
    (last_eq : arrivals.getLast? = some last) (closes : last.closes = true)
    (told : (sentEvents puts).filterMap toldUsage = [streamUsage env final])
    (unbroken : (∀ e ∈ sentEvents puts, isError e = false) ↔ final.toolJsonError = none)
    (credits_eq : credits = metered env (bodyEvents env (chunks arrivals))) :
    (accountsOf env id final credits (chunks arrivals).flatten.length last).Sound env arrivals
      puts := by
  cases last with
  | failed error =>
    refine ⟨rfl, ⟨fun wrong => absurd wrong Bool.false_ne_true, fun both => ?_⟩,
      ⟨nofun, nofun⟩, ⟨fun _ => ⟨error, last_eq⟩, fun _ => rfl⟩, rfl, told,
      fun _ same => Option.some.inj same, credits_eq⟩
    rw [last_eq] at both
    cases both.1
  | ended =>
    have unfailed : ¬ ∃ error, arrivals.getLast? = some (.failed error) := by
      rintro ⟨error, wrong⟩
      rw [last_eq] at wrong
      cases wrong
    simp only [accountsOf]
    cases broken : final.toolJsonError with
    | some err =>
      refine ⟨rfl, ⟨fun wrong => absurd wrong Bool.false_ne_true, fun both => ?_⟩,
        ⟨nofun, nofun⟩, ⟨nofun, fun wrong => absurd wrong unfailed⟩, rfl, told,
        fun _ same => Option.some.inj same, credits_eq⟩
      have none := unbroken.mp both.2
      rw [broken] at none
      cases none
    | none =>
      exact ⟨rfl, ⟨fun _ => ⟨last_eq, unbroken.mpr broken⟩, fun _ => rfl⟩,
        ⟨fun _ => rfl, fun _ => rfl⟩, ⟨nofun, fun wrong => absurd wrong unfailed⟩, rfl, told,
        fun _ same => Option.some.inj same, credits_eq⟩
  | answered id => cases closes
  | refused error lastAttempt traceHint => cases closes
  | chunk bytes => cases closes
  | tick => cases closes

theorem sound_refused (env : WireEnv) (inputTokens : Int) (error type message : String)
    (lastAttempt : Option Outcome) (traceHint : String) :
    (Accounts.mk 0 ⟨inputTokens, 0, 0, 0⟩ 0 "error" none false .error lastAttempt (some error)
      none).Sound env [.refused error lastAttempt traceHint]
        [.record 0 ⟨inputTokens, 0, 0, 0⟩ 0 "error", .finalize .error lastAttempt (some error) none,
          .send (.event (.error type message))] := by
  refine ⟨rfl, ⟨nofun, fun both => ?_⟩, ⟨nofun, nofun⟩, ⟨nofun, fun both => ?_⟩, rfl, rfl, nofun,
    rfl⟩
  · cases both.1
  · obtain ⟨_, wrong⟩ := both
    cases wrong

end KiroRs.Delivery.Accounting
