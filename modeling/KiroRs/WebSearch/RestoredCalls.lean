/- Path: KiroRs/WebSearch/RestoredCalls
   source: src/anthropic/websearch_loop.rs, src/anthropic/stream.rs
   digest: The tool calls of a round under the names that the upstream gave them, and what the
   reverse map makes of these. -/

import KiroRs.WebSearch.Loop
import Mathlib.Data.List.Forall2

set_option autoImplicit false
set_option relaxedAutoImplicit false

namespace KiroRs.WebSearch.RestoredCalls

open KiroRs.Lib
open KiroRs.Converter.ToolNames
open KiroRs.Stream.Events
open KiroRs.Stream.ToolJson
open KiroRs.WebSearch.Rounds

/-- The calls of a round under the upstream's names: those that the empty map leaves. -/
def upstreamCalls (env : SearchEnv) (reply : StreamReply) : List DecodedToolUse :=
  (decodeRound env "" [] reply).toolUses

/-- The call under the name that the map gives for the upstream's. A name that the map does not
hold is kept, and so is its input. -/
structure Restores (map : ToolNameMap) (up call : DecodedToolUse) : Prop where
  id_eq : call.id = up.id
  name_eq : call.name = (Dicts.get map up.name).getD up.name
  unmapped : Dicts.get map up.name = none → call = up

variable {env : SearchEnv} {map : ToolNameMap}

theorem restores_restored (id kiroName : String) (input : Converter.Json.Value) :
    Restores map
      { id := id, name := (restoreToolUseForClient kiroName input []).1,
        input := (restoreToolUseForClient kiroName input []).2 }
      { id := id, name := (restoreToolUseForClient kiroName input map).1,
        input := (restoreToolUseForClient kiroName input map).2 } := by
  refine ⟨rfl, rfl, ?_⟩
  intro unmapped
  have none : Dicts.get map kiroName = none := unmapped
  simp only [restoreToolUseForClient, none, Dicts.get_nil]

inductive Pushed (map : ToolNameMap) : Except ToolJsonAccumulatorError (Option DecodedToolUse) →
    Except ToolJsonAccumulatorError (Option DecodedToolUse) → Prop where
  | pending : Pushed map (.ok none) (.ok none)
  | failed (e : ToolJsonAccumulatorError) : Pushed map (.error e) (.error e)
  | completed {up call : DecodedToolUse} (restores : Restores map up call) :
      Pushed map (.ok (some up)) (.ok (some call))

theorem push_restores (env : SearchEnv) (map : ToolNameMap) (acc : ToolJsonAccumulator)
    (e : ToolUseEvent) :
    Pushed map (acc.push env.toStreamEnv e []).1 (acc.push env.toStreamEnv e map).1 ∧
      (acc.push env.toStreamEnv e map).2 = (acc.push env.toStreamEnv e []).2 := by
  unfold ToolJsonAccumulator.push
  dsimp only
  split_ifs with going blank
  · exact ⟨.pending, rfl⟩
  · exact ⟨.completed (restores_restored _ _ _), rfl⟩
  · cases env.jsonFromStr (ToolJsonAccumulator.collect acc.buffers e).2 with
    | none => exact ⟨.failed _, rfl⟩
    | some input => exact ⟨.completed (restores_restored _ _ _), rfl⟩

theorem finish_restores (env : SearchEnv) (map : ToolNameMap) (acc : ToolJsonAccumulator) :
    (∃ e, (acc.finish env.toStreamEnv []).1 = .error e ∧
      (acc.finish env.toStreamEnv map).1 = .error e) ∨
    ∃ ups calls, (acc.finish env.toStreamEnv []).1 = .ok ups ∧
      (acc.finish env.toStreamEnv map).1 = .ok calls ∧ List.Forall₂ (Restores map) ups calls := by
  unfold ToolJsonAccumulator.finish
  dsimp only
  split
  · exact .inl ⟨_, rfl, rfl⟩
  · refine .inr ⟨_, _, rfl, rfl, ?_⟩
    rw [List.forall₂_map_left_iff, List.forall₂_map_right_iff, List.forall₂_same]
    intro p _
    exact restores_restored p.1 p.2.1 (.object [])

structure Alike (map : ToolNameMap) (d d' : Decoding) : Prop where
  accumulator : d'.toolAccumulator = d.toolAccumulator
  error : d'.outcome.toolJsonError = d.outcome.toolJsonError
  calls : List.Forall₂ (Restores map) d.outcome.toolUses d'.outcome.toolUses

theorem Alike.toolUse {d d' : Decoding} (h : Alike map d d') (e : ToolUseEvent) :
    Alike map (decodeToolUse env [] d e) (decodeToolUse env map d' e) := by
  have answers := push_restores env map d.toolAccumulator e
  cases ran : d.toolAccumulator.push env.toStreamEnv e [] with
  | mk up acc =>
    cases ran' : d.toolAccumulator.push env.toStreamEnv e map with
    | mk call acc' =>
      rw [ran, ran'] at answers
      obtain ⟨pushed, same⟩ := answers
      simp only [decodeToolUse, h.accumulator, ran, ran']
      cases pushed with
      | pending => exact ⟨same, h.error, h.calls⟩
      | failed e => exact ⟨same, rfl, h.calls⟩
      | completed restores =>
        exact ⟨same, h.error, List.rel_append h.calls (.cons restores .nil)⟩

theorem Alike.reasoning {d d' : Decoding} (h : Alike map d d') (e : ReasoningContentEvent) :
    Alike map { d with outcome := decodeReasoning d.outcome e }
      { d' with outcome := decodeReasoning d'.outcome e } := by
  obtain ⟨accumulator, error, calls⟩ := h
  unfold decodeReasoning
  split_ifs
  · exact ⟨accumulator, error, calls⟩
  · cases e.redactedContent <;> exact ⟨accumulator, error, calls⟩

theorem Alike.event {d d' : Decoding} {model model' : String} (h : Alike map d d')
    (event : Event) :
    Alike map (decodeEvent env model [] d event) (decodeEvent env model' map d' event) := by
  cases event with
  | toolUse e => exact h.toolUse e
  | reasoningContent e => exact h.reasoning e
  | assistantResponse | code | contextUsage | metering | exception | error | unknown =>
    exact ⟨h.accumulator, h.error, h.calls⟩

theorem Alike.events {d d' : Decoding} (h : Alike map d d') (env : SearchEnv)
    (model model' : String) (events : List Event) :
    Alike map (events.foldl (decodeEvent env model []) d)
      (events.foldl (decodeEvent env model' map) d') := by
  induction events generalizing d d' with
  | nil => exact h
  | cons event events ih => exact ih (h.event event)

theorem Alike.finish {d d' : Decoding} (h : Alike map d d') :
    List.Forall₂ (Restores map) (fromToolAccumulatorFinish env [] d).toolUses
      (fromToolAccumulatorFinish env map d').toolUses := by
  have same := h.error
  cases failed : d.outcome.toolJsonError with
  | some err =>
    rw [failed] at same
    simp only [fromToolAccumulatorFinish, failed, same]
    exact h.calls
  | none =>
    rw [failed] at same
    rcases finish_restores env map d.toolAccumulator with
      ⟨e, up, call⟩ | ⟨ups, calls, up, call, restores⟩
    · rw [← h.accumulator] at call
      simp only [fromToolAccumulatorFinish, failed, same, up, call]
      exact h.calls
    · rw [← h.accumulator] at call
      simp only [fromToolAccumulatorFinish, failed, same, up, call]
      exact List.rel_append h.calls restores

/-- The calls of a round are the upstream's, restored by the map. -/
theorem decodeRound_restores (env : SearchEnv) (model : String) (map : ToolNameMap)
    (reply : StreamReply) :
    List.Forall₂ (Restores map) (upstreamCalls env reply)
      (decodeRound env model map reply).toolUses := by
  have start : Alike map {} {} := ⟨rfl, rfl, .nil⟩
  have alike := start.events env "" model reply.events
  have finished : Alike map
      { reply.events.foldl (decodeEvent env "" []) {} with outcome.streamError := reply.readError }
      { reply.events.foldl (decodeEvent env model map) {} with
        outcome.streamError := reply.readError } :=
    ⟨alike.accumulator, alike.error, alike.calls⟩
  exact finished.finish

end KiroRs.WebSearch.RestoredCalls
