/- Path: KiroRs/Stream/ToolCalls
   source: src/anthropic/stream.rs
   digest: The calls that the fragments of a stream make up, and what the collector delivers of
   them. -/

import KiroRs.Lib.Segments
import KiroRs.Stream.ToolJson
import Mathlib.Logic.Function.Basic

set_option autoImplicit false
set_option relaxedAutoImplicit false

namespace KiroRs.Stream.ToolCalls

open KiroRs.Lib
open KiroRs.Lib.Segments
open KiroRs.Lib.Text (trim)
open KiroRs.Converter.Json
open KiroRs.Converter.ToolNames
open KiroRs.Stream.Events
open KiroRs.Stream.ToolJson
open KiroRs.Stream.ToolJson.ToolJsonAccumulator

def fragmentsOf (id : String) (fragments : List ToolUseEvent) : List ToolUseEvent :=
  fragments.filter fun e => e.toolUseId = id

/-- The calls of one id, each as its fragments: a stop ends a call. -/
def callsOf (id : String) (fragments : List ToolUseEvent) : List (List ToolUseEvent) :=
  segments (·.stop) (fragmentsOf id fragments)

def nameOf (call : List ToolUseEvent) : String :=
  ((call.map (·.name)).find? fun name => !name.isEmpty).getD ""

def inputOf (call : List ToolUseEvent) : String := String.join (call.map (·.input))

def isStopped (call : List ToolUseEvent) : Bool := call.any (·.stop)

def isBlankInput (call : List ToolUseEvent) : Bool := (trim (inputOf call)).isEmpty

def restored (map : ToolNameMap) (id name : String) (input : Value) : CompletedToolUse :=
  { id
    name := (restoreToolUseForClient name input map).1
    input := (restoreToolUseForClient name input map).2 }

/-- What a call comes to: its parsed input, or an empty one if there is no input. An unfinished
call that has some comes to nothing. -/
def delivery (env : StreamEnv) (map : ToolNameMap) (id : String) (call : List ToolUseEvent) :
    Option CompletedToolUse :=
  if isBlankInput call then some (restored map id (nameOf call) (.object []))
  else if isStopped call then (env.jsonFromStr (inputOf call)).map (restored map id (nameOf call))
  else none

/-- The complete calls of an id. -/
def expected (env : StreamEnv) (map : ToolNameMap) (id : String) (fragments : List ToolUseEvent) :
    List CompletedToolUse :=
  (callsOf id fragments).filterMap (delivery env map id)

/-- A call that nothing can be made of: it is cut off, or its input is no JSON. -/
def broken (env : StreamEnv) (call : List ToolUseEvent) : Bool :=
  !isBlankInput call && !(isStopped call && (env.jsonFromStr (inputOf call)).isSome)

def isPending (call : List ToolUseEvent) : Bool := isBlankInput call && !isStopped call

variable {env : StreamEnv} {map : ToolNameMap} {acc : ToolJsonAccumulator}

def pushed (env : StreamEnv) (map : ToolNameMap) :
    ToolJsonAccumulator → List ToolUseEvent → List CompletedToolUse
  | _, [] => []
  | acc, e :: rest =>
    (match (acc.push env e map).1 with
      | .ok completed => completed.toList
      | .error _ => []) ++ pushed env map (acc.push env e map).2 rest

def left (env : StreamEnv) (map : ToolNameMap) :
    ToolJsonAccumulator → List ToolUseEvent → ToolJsonAccumulator
  | acc, [] => acc
  | acc, e :: rest => left env map (acc.push env e map).2 rest

/-- Some input could not be parsed. -/
def failed (env : StreamEnv) (map : ToolNameMap) : ToolJsonAccumulator → List ToolUseEvent → Bool
  | _, [] => false
  | acc, e :: rest => !(acc.push env e map).1.isOk || failed env map (acc.push env e map).2 rest

def finished (env : StreamEnv) (map : ToolNameMap) (acc : ToolJsonAccumulator) :
    List CompletedToolUse :=
  match (acc.finish env map).1 with
  | .ok pending => pending
  | .error _ => []

def delivered (env : StreamEnv) (map : ToolNameMap) (fragments : List ToolUseEvent) :
    List CompletedToolUse :=
  pushed env map {} fragments ++
    if failed env map {} fragments then [] else finished env map (left env map {} fragments)

theorem left_append (first later : List ToolUseEvent) :
    left env map acc (first ++ later) = left env map (left env map acc first) later := by
  induction first generalizing acc with
  | nil => rfl
  | cons e first ih => exact ih

theorem failed_append (first later : List ToolUseEvent) :
    failed env map acc (first ++ later) =
      (failed env map acc first || failed env map (left env map acc first) later) := by
  induction first generalizing acc with
  | nil => rfl
  | cons e first ih =>
    show (!(acc.push env e map).1.isOk || failed env map _ (first ++ later)) =
      ((!(acc.push env e map).1.isOk || failed env map _ first) || _)
    rw [ih, Bool.or_assoc]
    rfl

/-- Under each id the collector holds the name and the input of an unfinished call. -/
structure Holds (acc : ToolJsonAccumulator) (pending : String → List ToolUseEvent) : Prop where
  sorted : Dicts.Sorted acc.buffers
  entry : ∀ id, Dicts.get acc.buffers id =
    if pending id = [] then none else some (nameOf (pending id), inputOf (pending id))
  unstopped : ∀ id, ∀ e ∈ pending id, e.stop = false
  own : ∀ id, ∀ e ∈ pending id, e.toolUseId = id

theorem holds_empty : Holds {} fun _ => [] where
  sorted := Dicts.sorted_nil
  entry := fun _ => rfl
  unstopped := by
    intro id e mem
    cases mem
  own := by
    intro id e mem
    cases mem

theorem nameOf_append_singleton (call : List ToolUseEvent) (e : ToolUseEvent) :
    nameOf (call ++ [e]) = if (nameOf call).isEmpty then e.name else nameOf call := by
  unfold nameOf
  rw [List.map_append, List.find?_append]
  cases found : (call.map (·.name)).find? fun name => !name.isEmpty with
  | some name =>
    have nonempty := List.find?_some found
    rw [Bool.not_eq_true'] at nonempty
    rw [Option.some_or, Option.getD_some, nonempty, if_neg Bool.false_ne_true]
  | none =>
    rw [Option.none_or, Option.getD_none, if_pos (by decide)]
    show (([e.name] : List String).find? fun name => !name.isEmpty).getD "" = e.name
    rw [List.find?_cons]
    cases empty : e.name.isEmpty with
    | false => rfl
    | true =>
      rw [String.isEmpty_iff] at empty
      rw [empty]
      rfl

theorem inputOf_append_singleton (call : List ToolUseEvent) (e : ToolUseEvent) :
    inputOf (call ++ [e]) = inputOf call ++ e.input := by
  unfold inputOf String.join
  rw [List.map_append, List.foldl_append]
  rfl

theorem Holds.collect {pending : String → List ToolUseEvent} (holds : Holds acc pending)
    (e : ToolUseEvent) :
    collect acc.buffers e =
      (nameOf (pending e.toolUseId ++ [e]), inputOf (pending e.toolUseId ++ [e])) := by
  unfold ToolJsonAccumulator.collect
  rw [holds.entry, nameOf_append_singleton, inputOf_append_singleton]
  by_cases first : pending e.toolUseId = []
  · rw [if_pos first, first]
    show (if e.name.isEmpty then e.name else e.name, "" ++ e.input) =
      (if (nameOf []).isEmpty then e.name else nameOf [], inputOf [] ++ e.input)
    rw [if_pos (show (nameOf []).isEmpty = true by decide)]
    split_ifs <;> rfl
  · rw [if_neg first]
    rfl

variable {pending : String → List ToolUseEvent} {e : ToolUseEvent}

theorem Holds.push_open (env : StreamEnv) (map : ToolNameMap) (holds : Holds acc pending)
    (is_open : e.stop = false) :
    ∃ acc', acc.push env e map = (.ok none, acc') ∧
      Holds acc' (Function.update pending e.toolUseId (pending e.toolUseId ++ [e])) := by
  refine ⟨⟨Dicts.insert acc.buffers e.toolUseId (nameOf (pending e.toolUseId ++ [e]),
    inputOf (pending e.toolUseId ++ [e]))⟩, ?_, ?_⟩
  · unfold push
    rw [holds.collect, is_open]
    rfl
  · constructor
    · exact holds.sorted.insert
    · intro id
      rw [Dicts.get_insert, Function.update_apply]
      by_cases here : id = e.toolUseId
      · rw [if_pos here, if_pos here, if_neg (by simp)]
      · rw [if_neg here, if_neg here]
        exact holds.entry id
    · intro id e' mem
      rw [Function.update_apply] at mem
      split_ifs at mem with here
      · rcases List.mem_append.mp mem with old | new
        · exact holds.unstopped _ e' old
        · rw [List.mem_singleton.mp new]
          exact is_open
      · exact holds.unstopped id e' mem
    · intro id e' mem
      rw [Function.update_apply] at mem
      split_ifs at mem with here
      · rw [here]
        rcases List.mem_append.mp mem with old | new
        · exact holds.own _ e' old
        · rw [List.mem_singleton.mp new]
      · exact holds.own id e' mem

/-- What the last fragment of a call gives: the call, if something can be made of it. -/
inductive Gives : Option CompletedToolUse →
    Except ToolJsonAccumulatorError (Option CompletedToolUse) → Prop
  | delivered (t : CompletedToolUse) : Gives (some t) (.ok (some t))
  | failed (err : ToolJsonAccumulatorError) : Gives none (.error err)

/-- A fragment with stop: the call is delivered if something can be made of it, and is gone. -/
theorem Holds.push_stop (env : StreamEnv) (map : ToolNameMap) (holds : Holds acc pending)
    (stopped : e.stop = true) :
    ∃ result acc', acc.push env e map = (result, acc') ∧
      Holds acc' (Function.update pending e.toolUseId []) ∧
      Gives (delivery env map e.toolUseId (pending e.toolUseId ++ [e])) result := by
  have removed : Holds ⟨Dicts.remove acc.buffers e.toolUseId⟩
      (Function.update pending e.toolUseId []) := by
    constructor
    · exact holds.sorted.remove
    · intro id
      rw [Dicts.get_remove, Function.update_apply]
      by_cases here : id = e.toolUseId
      · rw [if_pos here, if_pos here, if_pos rfl]
      · rw [if_neg here, if_neg here]
        exact holds.entry id
    · intro id e' mem
      rw [Function.update_apply] at mem
      split_ifs at mem
      · cases mem
      · exact holds.unstopped id e' mem
    · intro id e' mem
      rw [Function.update_apply] at mem
      split_ifs at mem
      · cases mem
      · exact holds.own id e' mem
  have all_stopped : isStopped (pending e.toolUseId ++ [e]) = true := by
    unfold isStopped
    rw [List.any_append, List.any_cons, stopped, Bool.true_or, Bool.or_true]
  refine ⟨(acc.push env e map).1, (acc.push env e map).2, rfl, ?_, ?_⟩
  · have gone : (acc.push env e map).2 = ⟨Dicts.remove acc.buffers e.toolUseId⟩ := by
      unfold push
      rw [stopped]
      dsimp only
      rw [if_neg (show ¬ (!true) = true by decide)]
      split_ifs
      · rfl
      · split <;> rfl
    rw [gone]
    exact removed
  · unfold push delivery isBlankInput
    rw [holds.collect, stopped, all_stopped]
    dsimp only
    rw [if_neg (show ¬ (!true) = true by decide)]
    generalize inputOf (pending e.toolUseId ++ [e]) = input
    generalize nameOf (pending e.toolUseId ++ [e]) = name
    cases (trim input).isEmpty with
    | true => exact .delivered _
    | false =>
      rw [if_neg Bool.false_ne_true, if_neg Bool.false_ne_true, if_pos rfl]
      cases env.jsonFromStr input with
      | some input => exact .delivered _
      | none => exact .failed _

theorem fragmentsOf_cons_self (rest : List ToolUseEvent) :
    fragmentsOf e.toolUseId (e :: rest) = e :: fragmentsOf e.toolUseId rest :=
  List.filter_cons_of_pos (by simp)

theorem fragmentsOf_cons_other {id : String} (other : e.toolUseId ≠ id)
    (rest : List ToolUseEvent) : fragmentsOf id (e :: rest) = fragmentsOf id rest :=
  List.filter_cons_of_neg (by simpa using other)

def stoppedCalls (fragments : List ToolUseEvent) : List (List ToolUseEvent) :=
  (segments (·.stop) fragments).filter isStopped

theorem isStopped_eq_false {call : List ToolUseEvent} :
    isStopped call = false ↔ ∀ e ∈ call, e.stop = false := by
  unfold isStopped
  rw [List.any_eq_false]
  simp only [Bool.not_eq_true]

theorem stoppedCalls_open {call : List ToolUseEvent} (is_open : ∀ e ∈ call, e.stop = false) :
    stoppedCalls call = [] := by
  unfold stoppedCalls
  by_cases nothing : call = []
  · rw [nothing]
    rfl
  · rw [segments_of_open is_open nothing]
    exact List.filter_cons_of_neg (by rw [isStopped_eq_false.mpr is_open]; simp)

theorem stoppedCalls_stop {call : List ToolUseEvent} (is_open : ∀ e ∈ call, e.stop = false)
    (stopped : e.stop = true) (rest : List ToolUseEvent) :
    stoppedCalls (call ++ e :: rest) = (call ++ [e]) :: stoppedCalls rest := by
  have whole : isStopped (call ++ [e]) = true := by
    unfold isStopped
    rw [List.any_append, List.any_cons, stopped, Bool.true_or, Bool.or_true]
  unfold stoppedCalls
  rw [segments_of_end is_open stopped]
  exact List.filter_cons_of_pos whole

theorem id_of_delivery {id : String} {call : List ToolUseEvent} {t : CompletedToolUse}
    (some_t : delivery env map id call = some t) : t.id = id := by
  unfold delivery at some_t
  split_ifs at some_t
  · cases some_t
    rfl
  · obtain ⟨input, -, rfl⟩ := Option.map_eq_some_iff.mp some_t
    rfl

/-- The delivered calls of each id are its stopped calls, in order. -/
theorem pushed_of_id (holds : Holds acc pending) (fragments : List ToolUseEvent) (id : String) :
    (pushed env map acc fragments).filter (fun t => t.id = id) =
      (stoppedCalls (pending id ++ fragmentsOf id fragments)).filterMap (delivery env map id) := by
  induction fragments generalizing acc pending with
  | nil =>
    show [] = _
    unfold fragmentsOf
    rw [List.filter_nil, List.append_nil, stoppedCalls_open (holds.unstopped id)]
    rfl
  | cons e rest ih =>
    unfold pushed
    rw [List.filter_append]
    cases stop : e.stop with
    | false =>
      obtain ⟨acc', eq, holds'⟩ := holds.push_open env map stop
      rw [eq, ih holds']
      show [].filter _ ++ _ = _
      rw [List.filter_nil, List.nil_append, Function.update_apply]
      by_cases here : id = e.toolUseId
      · rw [if_pos here, here, fragmentsOf_cons_self, List.append_assoc]
        rfl
      · rw [if_neg here, fragmentsOf_cons_other (Ne.symm here)]
    | true =>
      obtain ⟨result, acc', eq, holds', outcome⟩ := holds.push_stop env map stop
      rw [eq, ih holds', Function.update_apply]
      by_cases here : id = e.toolUseId
      · rw [if_pos here, here, fragmentsOf_cons_self, List.nil_append,
          stoppedCalls_stop (holds.unstopped _) stop, List.filterMap_cons]
        cases made : delivery env map e.toolUseId (pending e.toolUseId ++ [e]) with
        | some t =>
          rw [made] at outcome
          cases outcome
          show [t].filter _ ++ _ = _
          rw [List.filter_cons_of_pos (by simpa using id_of_delivery made)]
          rfl
        | none =>
          rw [made] at outcome
          cases outcome
          rfl
      · rw [if_neg here, fragmentsOf_cons_other (Ne.symm here)]
        have others : (match result with
            | .ok completed => completed.toList
            | .error _ => []).filter (fun t : CompletedToolUse => t.id = id) = [] := by
          cases made : delivery env map e.toolUseId (pending e.toolUseId ++ [e]) with
          | some t =>
            rw [made] at outcome
            cases outcome
            refine List.filter_cons_of_neg ?_
            rw [id_of_delivery made]
            simpa using Ne.symm here
          | none =>
            rw [made] at outcome
            cases outcome
            rfl
        rw [others, List.nil_append]

theorem failed_iff (holds : Holds acc pending) (fragments : List ToolUseEvent) :
    failed env map acc fragments = true ↔ ∃ id, ∃ call ∈ stoppedCalls
      (pending id ++ fragmentsOf id fragments), delivery env map id call = none := by
  induction fragments generalizing acc pending with
  | nil =>
    constructor
    · intro never
      cases never
    · rintro ⟨id, call, mem, -⟩
      unfold fragmentsOf at mem
      rw [List.filter_nil, List.append_nil, stoppedCalls_open (holds.unstopped id)] at mem
      cases mem
  | cons e rest ih =>
    unfold failed
    rw [Bool.or_eq_true]
    cases stop : e.stop with
    | false =>
      obtain ⟨acc', eq, holds'⟩ := holds.push_open env map stop
      have parsed : (!(acc.push env e map).1.isOk) = true ↔ False := by
        rw [eq]
        exact ⟨fun never => absurd never Bool.false_ne_true, False.elim⟩
      rw [parsed, false_or, eq, ih holds']
      refine exists_congr fun id => ?_
      rw [Function.update_apply]
      by_cases here : id = e.toolUseId
      · rw [if_pos here, here, fragmentsOf_cons_self, List.append_assoc]
        rfl
      · rw [if_neg here, fragmentsOf_cons_other (Ne.symm here)]
    | true =>
      obtain ⟨result, acc', eq, holds', outcome⟩ := holds.push_stop env map stop
      have unparsed : (!(acc.push env e map).1.isOk) = true ↔
          delivery env map e.toolUseId (pending e.toolUseId ++ [e]) = none := by
        rw [eq]
        cases made : delivery env map e.toolUseId (pending e.toolUseId ++ [e]) with
        | some t =>
          rw [made] at outcome
          cases outcome
          exact ⟨fun never => absurd never Bool.false_ne_true, fun never => nomatch never⟩
        | none =>
          rw [made] at outcome
          cases outcome
          exact ⟨fun _ => rfl, fun _ => rfl⟩
      rw [unparsed, eq, ih holds']
      constructor
      · rintro (here | ⟨id, call, mem, nothing⟩)
        · refine ⟨e.toolUseId, pending e.toolUseId ++ [e], ?_, here⟩
          rw [fragmentsOf_cons_self, stoppedCalls_stop (holds.unstopped _) stop]
          exact List.mem_cons_self
        · refine ⟨id, call, ?_, nothing⟩
          rw [Function.update_apply] at mem
          by_cases here : id = e.toolUseId
          · rw [if_pos here, here, List.nil_append] at mem
            rw [here, fragmentsOf_cons_self, stoppedCalls_stop (holds.unstopped _) stop]
            exact List.mem_cons_of_mem _ mem
          · rw [if_neg here] at mem
            rwa [fragmentsOf_cons_other (Ne.symm here)]
      · rintro ⟨id, call, mem, nothing⟩
        by_cases here : id = e.toolUseId
        · rw [here, fragmentsOf_cons_self, stoppedCalls_stop (holds.unstopped _) stop] at mem
          rw [here] at nothing
          rcases List.mem_cons.mp mem with rfl | later
          · exact .inl nothing
          · refine .inr ⟨e.toolUseId, call, ?_, nothing⟩
            rw [Function.update_self]
            exact later
        · rw [fragmentsOf_cons_other (Ne.symm here)] at mem
          refine .inr ⟨id, call, ?_, nothing⟩
          rw [Function.update_of_ne here]
          exact mem

theorem holds_left (holds : Holds acc pending) (fragments : List ToolUseEvent) :
    ∃ last, Holds (left env map acc fragments) last ∧ ∀ id,
      segments (·.stop) (pending id ++ fragmentsOf id fragments) =
        stoppedCalls (pending id ++ fragmentsOf id fragments) ++
          if last id = [] then [] else [last id] := by
  induction fragments generalizing acc pending with
  | nil =>
    refine ⟨pending, holds, fun id => ?_⟩
    unfold fragmentsOf
    rw [List.filter_nil, List.append_nil, stoppedCalls_open (holds.unstopped id)]
    split_ifs with nothing
    · rw [nothing]
      rfl
    · exact segments_of_open (holds.unstopped id) nothing
  | cons e rest ih =>
    unfold left
    cases stop : e.stop with
    | false =>
      obtain ⟨acc', eq, holds'⟩ := holds.push_open env map stop
      obtain ⟨last, holds_last, cut⟩ := ih holds'
      rw [eq]
      refine ⟨last, holds_last, fun id => ?_⟩
      have here_cut := cut id
      rw [Function.update_apply] at here_cut
      by_cases here : id = e.toolUseId
      · rw [if_pos here, List.append_assoc] at here_cut
        rw [here, fragmentsOf_cons_self]
        rw [here] at here_cut
        exact here_cut
      · rw [if_neg here] at here_cut
        rwa [fragmentsOf_cons_other (Ne.symm here)]
    | true =>
      obtain ⟨result, acc', eq, holds', -⟩ := holds.push_stop env map stop
      obtain ⟨last, holds_last, cut⟩ := ih holds'
      rw [eq]
      refine ⟨last, holds_last, fun id => ?_⟩
      have here_cut := cut id
      rw [Function.update_apply] at here_cut
      by_cases here : id = e.toolUseId
      · rw [if_pos here, List.nil_append] at here_cut
        rw [here, fragmentsOf_cons_self, segments_of_end (holds.unstopped _) stop,
          stoppedCalls_stop (holds.unstopped _) stop]
        rw [here] at here_cut
        rw [here_cut]
        rfl
      · rw [if_neg here] at here_cut
        rwa [fragmentsOf_cons_other (Ne.symm here)]

theorem mem_entries (holds : Holds acc pending) {p : String × String × String} :
    p ∈ entries env acc.buffers ↔
      pending p.1 ≠ [] ∧ p.2 = (nameOf (pending p.1), inputOf (pending p.1)) := by
  have listed : ∀ id, id ∈ env.idOrder (acc.buffers.map (·.1)) ↔ pending id ≠ [] := by
    intro id
    rw [(env.idOrder_perm _).mem_iff]
    have key : id ∈ Dicts.keys acc.buffers ↔ _ := Dicts.mem_keys_iff
    rw [holds.entry id] at key
    unfold Dicts.keys at key
    rw [key]
    split_ifs with nothing
    · simp [nothing]
    · simp [nothing]
  unfold entries
  rw [List.mem_filterMap]
  constructor
  · rintro ⟨id, mem, found⟩
    have there := (listed id).mp mem
    rw [holds.entry id, if_neg there, Option.map_some] at found
    cases found
    exact ⟨there, rfl⟩
  · rintro ⟨there, eq⟩
    refine ⟨p.1, (listed p.1).mpr there, ?_⟩
    rw [holds.entry p.1, if_neg there, Option.map_some, ← eq]

theorem ids_entries (env : StreamEnv) (d : Dicts.Dict (String × String)) :
    (entries env d).map (·.1) = env.idOrder (Dicts.keys d) := by
  have present : ∀ id ∈ env.idOrder (Dicts.keys d), (Dicts.get d id).isSome = true :=
    fun id mem => Dicts.mem_keys_iff.mp ((env.idOrder_perm _).mem_iff.mp mem)
  show ((env.idOrder (Dicts.keys d)).filterMap fun id =>
    (Dicts.get d id).map fun p => (id, p)).map (·.1) = _
  generalize env.idOrder (Dicts.keys d) = ids at present ⊢
  induction ids with
  | nil => rfl
  | cons id ids ih =>
    obtain ⟨p, found⟩ := Option.isSome_iff_exists.mp (present id List.mem_cons_self)
    have later := ih fun id' mem => present id' (List.mem_cons_of_mem id mem)
    rw [List.filterMap_cons, found]
    exact congrArg (id :: ·) later

theorem nodup_entries (holds : Holds acc pending) :
    ((entries env acc.buffers).map (·.1)).Nodup := by
  rw [ids_entries]
  exact (env.idOrder_perm _).nodup_iff.mpr holds.sorted.nodup

theorem longest_eq_none {l : List (String × String × String)} : longest l = none ↔ l = [] := by
  cases l with
  | nil => exact ⟨fun _ => rfl, fun _ => rfl⟩
  | cons p rest =>
    unfold longest
    constructor
    · intro never
      split at never
      · cases never
      · split_ifs at never
    · intro never
      cases never

theorem entries_eq_nil (env : StreamEnv) {d : Dicts.Dict (String × String)} :
    entries env d = [] ↔ d = [] := by
  constructor
  · intro nothing
    by_contra nonempty
    obtain ⟨p, rest, rfl⟩ := List.exists_cons_of_ne_nil nonempty
    unfold entries at nothing
    rw [List.filterMap_eq_nil_iff] at nothing
    have mem : p.1 ∈ env.idOrder ((p :: rest).map (·.1)) := by
      rw [(env.idOrder_perm _).mem_iff]
      exact List.mem_cons_self
    have found : Dicts.get (p :: rest) p.1 = some p.2 := by
      obtain ⟨k, v⟩ := p
      rw [Dicts.get_cons, if_pos rfl]
    have absent := nothing p.1 mem
    rw [found] at absent
    cases absent
  · rintro rfl
    have nothing : env.idOrder [] = [] := List.perm_nil.mp (env.idOrder_perm [])
    unfold entries
    rw [List.map_nil, nothing]
    rfl

theorem finish_empty (env : StreamEnv) {acc : ToolJsonAccumulator} (empty : acc.buffers = [])
    (map : ToolNameMap) : acc.finish env map = (.ok [], acc) := by
  obtain ⟨buffers⟩ := acc
  obtain rfl : buffers = [] := empty
  have no_entries : entries env [] = [] := (entries_eq_nil env).mpr rfl
  unfold ToolJsonAccumulator.finish
  dsimp only
  rw [List.filter_nil, no_entries]
  rfl

theorem blank_iff (holds : Holds acc pending) :
    (acc.buffers.filter fun p => !(trim p.2.2).isEmpty) = [] ↔
      ∀ id, pending id ≠ [] → isBlankInput (pending id) = true := by
  rw [List.filter_eq_nil_iff]
  constructor
  · intro all id there
    have mem : (id, nameOf (pending id), inputOf (pending id)) ∈ acc.buffers := by
      rw [Dicts.mem_iff_get holds.sorted.nodup, holds.entry id, if_neg there]
    simpa [isBlankInput] using all _ mem
  · rintro all ⟨id, p⟩ mem
    rw [Dicts.mem_iff_get holds.sorted.nodup, holds.entry id] at mem
    split_ifs at mem with nothing
    cases mem
    simpa [isBlankInput] using all id nothing

theorem finished_entries (holds : Holds acc pending)
    (all_blank : ∀ id, pending id ≠ [] → isBlankInput (pending id) = true) :
    finished env map acc = (entries env acc.buffers).map fun p =>
      restored map p.1 p.2.1 (.object []) := by
  have nothing_left := (longest_eq_none (l := entries env
    (acc.buffers.filter fun p => !(trim p.2.2).isEmpty))).mpr
      ((entries_eq_nil env).mpr ((blank_iff holds).mpr all_blank))
  have all_kept : (entries env acc.buffers).filter (fun p => (trim p.2.2).isEmpty) =
      entries env acc.buffers := by
    rw [List.filter_eq_self]
    intro p mem
    obtain ⟨there, eq⟩ := (mem_entries holds).mp mem
    rw [eq]
    exact all_blank p.1 there
  unfold finished finish
  dsimp only
  rw [nothing_left, all_kept]
  rfl

theorem finished_of_blank (holds : Holds acc pending)
    (all_blank : ∀ id, pending id ≠ [] → isBlankInput (pending id) = true) (id : String) :
    (finished env map acc).filter (fun t => t.id = id) =
      if pending id = [] then [] else [restored map id (nameOf (pending id)) (.object [])] := by
  have same_id : ((fun t : CompletedToolUse => decide (t.id = id)) ∘
      fun p : String × String × String => restored map p.1 p.2.1 (.object [])) =
      fun p => decide (p.1 = id) := rfl
  rw [finished_entries holds all_blank, List.filter_map, same_id]
  split_ifs with nothing
  · have absent : (entries env acc.buffers).filter (fun p => decide (p.1 = id)) = [] := by
      rw [List.filter_eq_nil_iff]
      intro p mem here
      rw [decide_eq_true_eq] at here
      refine ((mem_entries holds).mp mem).1 ?_
      rw [here]
      exact nothing
    rw [absent]
    rfl
  · have mem : (id, nameOf (pending id), inputOf (pending id)) ∈ entries env acc.buffers :=
      (mem_entries holds).mpr ⟨nothing, rfl⟩
    have one := filter_of_key (nodup_entries holds) mem
    rw [one]
    rfl

/-- Some call without input never got its stop. -/
def HasPending (fragments : List ToolUseEvent) : Prop :=
  ∃ id, ∃ call ∈ callsOf id fragments, isPending call = true

/-- Some call is cut off, or its input is no JSON. -/
def HasBroken (env : StreamEnv) (fragments : List ToolUseEvent) : Prop :=
  ∃ id, ∃ call ∈ callsOf id fragments, broken env call = true

variable {fragments : List ToolUseEvent}

theorem exists_last (env : StreamEnv) (map : ToolNameMap) (fragments : List ToolUseEvent) :
    ∃ last, Holds (left env map {} fragments) last ∧ ∀ id, callsOf id fragments =
      stoppedCalls (fragmentsOf id fragments) ++ if last id = [] then [] else [last id] :=
  holds_left holds_empty fragments

theorem delivery_unstopped {id : String} {call : List ToolUseEvent}
    (unstopped : isStopped call = false) :
    delivery env map id call =
      if isBlankInput call then some (restored map id (nameOf call) (.object [])) else none := by
  unfold delivery
  rw [unstopped]
  rfl

theorem delivery_eq_none (env : StreamEnv) (map : ToolNameMap) (id : String)
    (call : List ToolUseEvent) :
    delivery env map id call = none ↔ broken env call = true := by
  unfold delivery broken
  cases isBlankInput call with
  | true => simp
  | false =>
    cases isStopped call with
    | false => simp
    | true => cases env.jsonFromStr (inputOf call) <;> simp

theorem isOk_finish (env : StreamEnv) (map : ToolNameMap) (holds : Holds acc pending) :
    (acc.finish env map).1.isOk = true ↔
      ∀ id, pending id ≠ [] → isBlankInput (pending id) = true := by
  rw [← blank_iff holds, ← entries_eq_nil env, ← longest_eq_none]
  unfold finish
  dsimp only
  cases longest (entries env (acc.buffers.filter fun p => !(trim p.2.2).isEmpty)) with
  | some p => exact ⟨fun never => absurd never Bool.false_ne_true, fun never => nomatch never⟩
  | none => exact ⟨fun _ => rfl, fun _ => rfl⟩

theorem hasBroken_iff (env : StreamEnv) (map : ToolNameMap) (fragments : List ToolUseEvent) :
    HasBroken env fragments ↔ failed env map {} fragments = true ∨
      ((left env map {} fragments).finish env map).1.isOk = false := by
  obtain ⟨last, holds, cut⟩ := exists_last env map fragments
  constructor
  · rintro ⟨id, call, mem, is_broken⟩
    rw [cut id] at mem
    rcases List.mem_append.mp mem with stopped | unstopped
    · refine .inl ((failed_iff holds_empty fragments).mpr ⟨id, call, stopped, ?_⟩)
      exact (delivery_eq_none env map _ _).mpr is_broken
    · split_ifs at unstopped with nothing
      · cases unstopped
      · rw [List.mem_singleton.mp unstopped] at is_broken
        unfold broken at is_broken
        rw [Bool.and_eq_true, Bool.not_eq_true'] at is_broken
        refine .inr ?_
        by_contra finishes
        rw [Bool.not_eq_false, isOk_finish env map holds] at finishes
        rw [finishes id nothing] at is_broken
        exact absurd is_broken.1 (by decide)
  · rintro (unparsed | unfinished)
    · rw [failed_iff holds_empty] at unparsed
      obtain ⟨id, call, mem, nothing⟩ := unparsed
      refine ⟨id, call, ?_, (delivery_eq_none env map _ _).mp nothing⟩
      rw [cut id]
      exact List.mem_append_left _ mem
    · have not_all : ¬ ∀ id, last id ≠ [] → isBlankInput (last id) = true := by
        rw [← isOk_finish env map holds, unfinished]
        exact Bool.false_ne_true
      push Not at not_all
      obtain ⟨id, there, some_input⟩ := not_all
      refine ⟨id, last id, ?_, ?_⟩
      · rw [cut id, if_neg there]
        exact List.mem_append_right _ List.mem_cons_self
      · rw [← delivery_eq_none env map id,
          delivery_unstopped (isStopped_eq_false.mpr (holds.unstopped id)), if_neg some_input]

theorem delivered_of_unbroken (whole : ¬ HasBroken env fragments) (id : String) :
    (delivered env map fragments).filter (fun t => t.id = id) = expected env map id fragments := by
  obtain ⟨last, holds, cut⟩ := exists_last env map fragments
  rw [hasBroken_iff env map, not_or, Bool.not_eq_true, Bool.not_eq_false] at whole
  have all_blank := (isOk_finish env map holds).mp whole.2
  unfold delivered expected
  rw [whole.1, if_neg Bool.false_ne_true, List.filter_append, pushed_of_id holds_empty,
    finished_of_blank holds all_blank, List.nil_append, cut id, List.filterMap_append]
  split_ifs with nothing
  · rfl
  · rw [List.filterMap_cons, delivery_unstopped (isStopped_eq_false.mpr (holds.unstopped id)),
      if_pos (all_blank id nothing)]
    rfl

theorem delivered_of_broken (some_broken : HasBroken env fragments) :
    delivered env map fragments = pushed env map {} fragments := by
  unfold delivered
  rcases (hasBroken_iff env map fragments).mp some_broken with unparsed | unfinished
  · rw [if_pos unparsed, List.append_nil]
  · have nothing : finished env map (left env map {} fragments) = [] := by
      unfold finished
      cases outcome : ((left env map {} fragments).finish env map).1 with
      | ok pending =>
        rw [outcome] at unfinished
        cases unfinished
      | error err => rfl
    rw [nothing, ite_self, List.append_nil]

theorem delivered_prefix (env : StreamEnv) (map : ToolNameMap) (fragments : List ToolUseEvent)
    (id : String) :
    (delivered env map fragments).filter (fun t => t.id = id) <+:
      expected env map id fragments := by
  by_cases whole : HasBroken env fragments
  · obtain ⟨last, holds, cut⟩ := exists_last env map fragments
    rw [delivered_of_broken whole, pushed_of_id holds_empty, List.nil_append]
    unfold expected
    rw [cut id, List.filterMap_append]
    exact List.prefix_append _ _
  · rw [delivered_of_unbroken whole]

/-- The collector delivers every complete call, unless a call without input waits for its stop and
another call is broken. -/
theorem delivered_all_iff (env : StreamEnv) (map : ToolNameMap) :
    (∀ id, (delivered env map fragments).filter (fun t => t.id = id) =
      expected env map id fragments) ↔ ¬ (HasPending fragments ∧ HasBroken env fragments) := by
  constructor
  · rintro all ⟨⟨id, call, mem, is_pending⟩, some_broken⟩
    obtain ⟨last, holds, cut⟩ := exists_last env map fragments
    unfold isPending at is_pending
    rw [Bool.and_eq_true, Bool.not_eq_true'] at is_pending
    have waits : last id ≠ [] ∧ call = last id := by
      rw [cut id] at mem
      rcases List.mem_append.mp mem with stopped | unstopped
      · have stop := (List.mem_filter.mp stopped).2
        rw [is_pending.2] at stop
        cases stop
      · split_ifs at unstopped with nothing
        · cases unstopped
        · exact ⟨nothing, List.mem_singleton.mp unstopped⟩
    have lost := all id
    rw [delivered_of_broken some_broken, pushed_of_id holds_empty, List.nil_append] at lost
    unfold expected at lost
    rw [cut id, if_neg waits.1, List.filterMap_append, List.filterMap_cons, ← waits.2,
      delivery_unstopped is_pending.2, if_pos is_pending.1] at lost
    have lengths := congrArg List.length lost
    rw [List.length_append] at lengths
    simp at lengths
  · intro safe id
    by_cases some_broken : HasBroken env fragments
    · obtain ⟨last, holds, cut⟩ := exists_last env map fragments
      have nothing_waits : (if last id = [] then [] else [last id]).filterMap
          (delivery env map id) = [] := by
        split_ifs with nothing
        · rfl
        · have unstopped := isStopped_eq_false.mpr (holds.unstopped id)
          have some_input : isBlankInput (last id) = false := by
            by_contra blank
            rw [Bool.not_eq_false] at blank
            refine safe ⟨⟨id, last id, ?_, ?_⟩, some_broken⟩
            · rw [cut id, if_neg nothing]
              exact List.mem_append_right _ List.mem_cons_self
            · unfold isPending
              rw [blank, unstopped]
              rfl
          rw [List.filterMap_cons, delivery_unstopped unstopped, some_input]
          rfl
      rw [delivered_of_broken some_broken, pushed_of_id holds_empty, List.nil_append]
      unfold expected
      rw [cut id, List.filterMap_append, nothing_waits, List.append_nil]
    · exact delivered_of_unbroken some_broken id

end KiroRs.Stream.ToolCalls
