/- Path: KiroRs/Lib/Calls
   layer: library
   digest: Transcripts of calls and answers, the pairing of the two, and the repair that drops what
   stays unanswered. -/

import Mathlib.Data.List.Nodup

set_option autoImplicit false
set_option relaxedAutoImplicit false

namespace KiroRs.Lib.Calls

/-- One entry of a transcript: a call under an identifier, or an answer to one. -/
inductive Side (α : Type) where
  | call (id : α)
  | answer (id : α)
  deriving DecidableEq, Repr

variable {α : Type}

def Side.called : Side α → Option α
  | call id => some id
  | answer _ => none

def Side.answered : Side α → Option α
  | call _ => none
  | answer id => some id

def calls (l : List (Side α)) : List α := l.filterMap Side.called

def answers (l : List (Side α)) : List α := l.filterMap Side.answered

def AnswersFollow (l : List (Side α)) : Prop :=
  ∀ before id after, l = before ++ Side.answer id :: after → Side.call id ∈ before

/-- No call and no answer is an orphan or a duplicate. -/
structure Paired [DecidableEq α] (l : List (Side α)) : Prop where
  answered_once : ∀ id ∈ calls l, (answers l).count id = 1
  calls_distinct : (calls l).Nodup
  answers_follow : AnswersFollow l

@[simp] theorem calls_cons_call (id : α) (l : List (Side α)) :
    calls (.call id :: l) = id :: calls l := rfl

@[simp] theorem calls_cons_answer (id : α) (l : List (Side α)) :
    calls (.answer id :: l) = calls l := rfl

@[simp] theorem answers_cons_call (id : α) (l : List (Side α)) :
    answers (.call id :: l) = answers l := rfl

@[simp] theorem answers_cons_answer (id : α) (l : List (Side α)) :
    answers (.answer id :: l) = id :: answers l := rfl

@[simp] theorem calls_append (l l' : List (Side α)) : calls (l ++ l') = calls l ++ calls l' :=
  List.filterMap_append

@[simp] theorem answers_append (l l' : List (Side α)) :
    answers (l ++ l') = answers l ++ answers l' :=
  List.filterMap_append

@[simp] theorem calls_map_answer (ids : List α) : calls (ids.map Side.answer) = [] := by
  induction ids with
  | nil => rfl
  | cons id ids ih => simp [ih]

@[simp] theorem answers_map_answer (ids : List α) : answers (ids.map Side.answer) = ids := by
  induction ids with
  | nil => rfl
  | cons id ids ih => simp [ih]

theorem mem_calls {l : List (Side α)} {id : α} : id ∈ calls l ↔ Side.call id ∈ l := by
  unfold calls
  rw [List.mem_filterMap]
  constructor
  · rintro ⟨side, mem, eq⟩
    cases side with
    | call other =>
      cases eq
      exact mem
    | answer other => cases eq
  · intro mem
    exact ⟨_, mem, rfl⟩

/-- `AnswersFollow` read from the left, with the calls seen so far. -/
def FollowFrom (seen : List α) : List (Side α) → Prop
  | [] => True
  | .call id :: l => FollowFrom (id :: seen) l
  | .answer id :: l => id ∈ seen ∧ FollowFrom seen l

theorem followFrom_iff {seen : List α} {l : List (Side α)} :
    FollowFrom seen l ↔ ∀ before id after, l = before ++ Side.answer id :: after →
      id ∈ seen ∨ Side.call id ∈ before := by
  induction l generalizing seen with
  | nil => simp [FollowFrom]
  | cons side l ih =>
    cases side with
    | call other =>
      unfold FollowFrom
      rw [ih]
      constructor
      · intro h before id after eq
        cases before with
        | nil => cases eq
        | cons side before =>
          cases eq
          have found := h before id after rfl
          simp only [List.mem_cons, Side.call.injEq] at found ⊢
          tauto
      · intro h before id after eq
        have found := h (.call other :: before) id after (by rw [eq]; rfl)
        simp only [List.mem_cons, Side.call.injEq] at found ⊢
        tauto
    | answer other =>
      unfold FollowFrom
      rw [ih]
      constructor
      · rintro ⟨seen_other, h⟩ before id after eq
        cases before with
        | nil =>
          cases eq
          exact .inl seen_other
        | cons side before =>
          cases eq
          have found := h before id after rfl
          simp only [List.mem_cons] at found ⊢
          tauto
      · intro h
        constructor
        · simpa using h [] other l rfl
        · intro before id after eq
          have found := h (.answer other :: before) id after (by rw [eq]; rfl)
          simpa using found

theorem answersFollow_iff {l : List (Side α)} : AnswersFollow l ↔ FollowFrom [] l := by
  rw [followFrom_iff]
  simp [AnswersFollow]

theorem FollowFrom.mono {seen seen' : List α} {l : List (Side α)} (sub : ∀ id ∈ seen, id ∈ seen')
    (h : FollowFrom seen l) : FollowFrom seen' l := by
  rw [followFrom_iff] at h ⊢
  intro before id after eq
  exact (h before id after eq).imp_left (sub id)

theorem followFrom_append {seen : List α} {l l' : List (Side α)} :
    FollowFrom seen (l ++ l') ↔ FollowFrom seen l ∧ FollowFrom (calls l ++ seen) l' := by
  induction l generalizing seen with
  | nil => simp [FollowFrom, calls]
  | cons side l ih =>
    cases side with
    | call id =>
      simp only [List.cons_append, FollowFrom, ih]
      have same : ∀ other, other ∈ calls l ++ id :: seen ↔ other ∈ id :: calls l ++ seen := by
        intro other
        simp only [List.mem_append, List.mem_cons]
        tauto
      refine and_congr_right fun _ => ⟨?_, ?_⟩
      · exact FollowFrom.mono fun other => (same other).mp
      · exact FollowFrom.mono fun other => (same other).mpr
    | answer id =>
      simp only [List.cons_append, FollowFrom, ih, and_assoc]
      rfl

theorem followFrom_answers {seen ids : List α} :
    FollowFrom seen (ids.map Side.answer) ↔ ∀ id ∈ ids, id ∈ seen := by
  induction ids with
  | nil => simp [FollowFrom]
  | cons id ids ih => simp [FollowFrom, ih]

variable [DecidableEq α]

/-- Takes late answers in: the first one to each open call. Returns what was taken and the calls
that stay open. -/
def acceptLate : List α → List α → List α × List α
  | pending, [] => ([], pending)
  | pending, id :: late =>
    if id ∈ pending then
      let rest := acceptLate (pending.filter (· ≠ id)) late
      (id :: rest.1, rest.2)
    else acceptLate pending late

theorem mem_accepted {pending late : List α} {id : α} :
    id ∈ (acceptLate pending late).1 ↔ id ∈ pending ∧ id ∈ late := by
  induction late generalizing pending with
  | nil => simp [acceptLate]
  | cons other late ih =>
    unfold acceptLate
    split_ifs with mem
    · simp only [List.mem_cons, ih, List.mem_filter, decide_eq_true_eq]
      by_cases eq : id = other
      · subst eq
        simp [mem]
      · simp [eq]
    · rw [ih, List.mem_cons]
      constructor
      · rintro ⟨open_id, late_id⟩
        exact ⟨open_id, .inr late_id⟩
      · rintro ⟨open_id, rfl | late_id⟩
        · exact absurd open_id mem
        · exact ⟨open_id, late_id⟩

theorem mem_stillOpen {pending late : List α} {id : α} :
    id ∈ (acceptLate pending late).2 ↔ id ∈ pending ∧ id ∉ late := by
  induction late generalizing pending with
  | nil => simp [acceptLate]
  | cons other late ih =>
    unfold acceptLate
    split_ifs with mem
    · simp only [ih, List.mem_filter, decide_eq_true_eq, List.mem_cons]
      tauto
    · rw [ih, List.mem_cons]
      constructor
      · rintro ⟨open_id, late_id⟩
        refine ⟨open_id, ?_⟩
        rintro (rfl | late_other)
        · exact mem open_id
        · exact late_id late_other
      · rintro ⟨open_id, late_id⟩
        exact ⟨open_id, fun late_other => late_id (.inr late_other)⟩

theorem nodup_accepted {pending late : List α} : (acceptLate pending late).1.Nodup := by
  induction late generalizing pending with
  | nil => exact List.nodup_nil
  | cons other late ih =>
    unfold acceptLate
    split_ifs with mem
    · refine List.nodup_cons.mpr ⟨?_, ih⟩
      simp [mem_accepted]
    · exact ih

def unanswered (l : List (Side α)) : List α := (calls l).filter fun id => id ∉ answers l

def dropCalls (ids : List α) (l : List (Side α)) : List (Side α) :=
  l.filter fun side => side.called.all (· ∉ ids)

/-- The transcript behind which late answers are taken in, without the calls that still have no
answer. -/
def repaired (l : List (Side α)) (late : List α) : List (Side α) :=
  let taken := acceptLate (unanswered l) late
  dropCalls taken.2 l ++ taken.1.map Side.answer

@[simp] theorem dropCalls_cons_call (ids : List α) (id : α) (l : List (Side α)) :
    dropCalls ids (.call id :: l) =
      if id ∈ ids then dropCalls ids l else .call id :: dropCalls ids l := by
  unfold dropCalls
  split_ifs with mem
  · simp [Side.called, mem]
  · simp [Side.called, mem]

@[simp] theorem dropCalls_cons_answer (ids : List α) (id : α) (l : List (Side α)) :
    dropCalls ids (.answer id :: l) = .answer id :: dropCalls ids l := by
  simp [dropCalls, Side.called]

theorem calls_dropCalls {ids : List α} {l : List (Side α)} :
    calls (dropCalls ids l) = (calls l).filter (· ∉ ids) := by
  induction l with
  | nil => rfl
  | cons side l ih =>
    cases side with
    | call id =>
      by_cases mem : id ∈ ids
      · simp [mem, ih]
      · simp [mem, ih]
    | answer id => simp [ih]

theorem answers_dropCalls {ids : List α} {l : List (Side α)} :
    answers (dropCalls ids l) = answers l := by
  induction l with
  | nil => rfl
  | cons side l ih =>
    cases side with
    | call id =>
      by_cases mem : id ∈ ids
      · simp [mem, ih]
      · simp [mem, ih]
    | answer id => simp [ih]

/-- Dropping calls that nothing answers leaves every answer behind its call. -/
theorem followFrom_dropCalls {ids seen : List α} {l : List (Side α)}
    (open_ids : ∀ id ∈ answers l, id ∉ ids) :
    FollowFrom (seen.filter (· ∉ ids)) (dropCalls ids l) ↔ FollowFrom seen l := by
  induction l generalizing seen with
  | nil => exact Iff.rfl
  | cons side l ih =>
    cases side with
    | call id =>
      have ih := @ih (id :: seen) open_ids
      by_cases mem : id ∈ ids
      · simpa [mem, FollowFrom] using ih
      · simpa [mem, FollowFrom] using ih
    | answer id =>
      have here : id ∉ ids := open_ids id List.mem_cons_self
      have ih := @ih seen fun other mem => open_ids other (List.mem_cons_of_mem id mem)
      rw [dropCalls_cons_answer]
      unfold FollowFrom
      rw [ih, List.mem_filter]
      simp [here]

variable {l : List (Side α)} {late : List α}

theorem mem_orphans {id : α} :
    id ∈ (acceptLate (unanswered l) late).2 ↔ id ∈ calls l ∧ id ∉ answers l ∧ id ∉ late := by
  simp [mem_stillOpen, unanswered, and_assoc]

theorem calls_repaired :
    calls (repaired l late) = (calls l).filter fun id => id ∈ answers l ∨ id ∈ late := by
  simp only [repaired, calls_append, calls_map_answer, List.append_nil, calls_dropCalls]
  refine List.filter_congr fun id mem => ?_
  have : id ∉ (acceptLate (unanswered l) late).2 ↔ id ∈ answers l ∨ id ∈ late := by
    rw [mem_orphans]
    tauto
  simp [this]

theorem answers_repaired :
    answers (repaired l late) = answers l ++ (acceptLate (unanswered l) late).1 := by
  simp [repaired, answers_dropCalls]

theorem answersFollow_repaired : AnswersFollow (repaired l late) ↔ AnswersFollow l := by
  have kept : ∀ id ∈ answers l, id ∉ (acceptLate (unanswered l) late).2 := by
    intro id mem orphan
    exact (mem_orphans.mp orphan).2.1 mem
  rw [answersFollow_iff, answersFollow_iff]
  simp only [repaired, followFrom_append, followFrom_answers, List.append_nil]
  rw [← followFrom_dropCalls kept, List.filter_nil]
  refine and_iff_left ?_
  -- a late answer was taken in for a call that is there and stays
  intro id mem
  rw [mem_accepted, unanswered, List.mem_filter] at mem
  rw [calls_dropCalls, List.mem_filter]
  refine ⟨mem.1.1, ?_⟩
  simp only [decide_eq_true_eq, mem_orphans]
  tauto

theorem nodup_answers_repaired (distinct : (answers l).Nodup) :
    (answers (repaired l late)).Nodup := by
  rw [answers_repaired, List.nodup_append']
  refine ⟨distinct, nodup_accepted, ?_⟩
  intro id before after
  rw [mem_accepted, unanswered, List.mem_filter] at after
  exact absurd before (by simpa using after.1.2)

/-- The repair pairs a transcript up exactly when its own answers are distinct and stand behind
their calls, and no call that has an answer, in the transcript or late, is made twice. -/
theorem paired_repaired_iff :
    Paired (repaired l late) ↔ (answers l).Nodup ∧ AnswersFollow l ∧
      ((calls l).filter fun id => id ∈ answers l ∨ id ∈ late).Nodup := by
  constructor
  · rintro ⟨once, distinct, follow⟩
    rw [calls_repaired] at distinct once
    rw [answersFollow_repaired] at follow
    refine ⟨?_, follow, distinct⟩
    rw [List.nodup_iff_count_le_one]
    intro id
    by_cases mem : id ∈ answers l
    · have called : id ∈ calls l := by
        obtain ⟨side, side_mem, eq⟩ := List.mem_filterMap.mp mem
        cases side with
        | call other => cases eq
        | answer other =>
          cases eq
          obtain ⟨before, after, split⟩ := List.append_of_mem side_mem
          rw [mem_calls, split]
          exact List.mem_append_left _ (follow before id after split)
      have one := once id (List.mem_filter.mpr ⟨called, by simp [mem]⟩)
      rw [answers_repaired, List.count_append] at one
      omega
    · rw [List.count_eq_zero_of_not_mem mem]
      omega
  · rintro ⟨distinct, follow, called_once⟩
    refine ⟨?_, ?_, answersFollow_repaired.mpr follow⟩
    · intro id mem
      refine List.count_eq_one_of_mem (nodup_answers_repaired distinct) ?_
      rw [calls_repaired, List.mem_filter, decide_eq_true_eq] at mem
      rw [answers_repaired, List.mem_append, mem_accepted]
      by_cases answered : id ∈ answers l
      · exact .inl answered
      · refine .inr ⟨?_, ?_⟩
        · exact List.mem_filter.mpr ⟨mem.1, by simpa using answered⟩
        · exact mem.2.resolve_left answered
    · rw [calls_repaired]
      exact called_once

end KiroRs.Lib.Calls
