/- Path: KiroRs/Lib/WriteBehind
   layer: library
   digest: A memory whose image is kept in a file by writers that copy first and write later, and
   when the file is up to date once all of them are done. -/

import KiroRs.Lib.Traces
import Mathlib.Logic.Function.Basic

set_option autoImplicit false
set_option relaxedAutoImplicit false

namespace KiroRs.Lib.WriteBehind

open KiroRs.Lib.Traces

variable {σ α ι β : Type}

/-- Where a writer stands: nothing to write, a copy to be taken, or a copy to be written. -/
inductive Phase (β : Type) where
  | idle
  | due
  | writing (copy : β)

structure Store (σ ι β : Type) where
  memory : σ
  file : β
  phase : ι → Phase β

/-- What the writers can do to the memory, which of their actions they write down afterwards, and
what the file holds of a memory. -/
structure Protocol (σ α ι β : Type) where
  step : σ → α → Option σ
  mayAct : ι → α → Bool
  persists : σ → α → Bool
  image : σ → β

inductive Move (α ι : Type) where
  | act (i : ι) (a : α)
  | copy (i : ι)
  | write (i : ι)

/-- The copy and the write are two steps, and a writer does nothing else before both are done. -/
def Protocol.next [DecidableEq ι] (p : Protocol σ α ι β) (s : Store σ ι β) :
    Move α ι → Option (Store σ ι β)
  | .act i a =>
    match s.phase i with
    | .idle =>
      if p.mayAct i a then
        (p.step s.memory a).map fun memory =>
          { s with
            memory := memory
            phase := if p.persists s.memory a then Function.update s.phase i .due else s.phase }
      else none
    | _ => none
  | .copy i =>
    match s.phase i with
    | .due => some { s with phase := Function.update s.phase i (.writing (p.image s.memory)) }
    | _ => none
  | .write i =>
    match s.phase i with
    | .writing copy => some { s with file := copy, phase := Function.update s.phase i .idle }
    | _ => none

variable (p : Protocol σ α ι β)

def Brings (s : Store σ ι β) (i : ι) : Prop :=
  s.phase i = .due ∨ s.phase i = .writing (p.image s.memory)

def Covered (s : Store σ ι β) : Prop :=
  s.file = p.image s.memory ∨ ∃ i, Brings p s i

/-- No step changes the image without writing it down, and an old copy is written only while
another writer still brings the present image. -/
def InTurn (s : Store σ ι β) : Move α ι → Prop
  | .act _ a => ∀ memory, p.step s.memory a = some memory → p.persists s.memory a = false →
      p.image memory = p.image s.memory
  | .copy _ => True
  | .write i => ∀ copy, s.phase i = .writing copy → copy = p.image s.memory ∨
      ∃ j, j ≠ i ∧ Brings p s j

variable {p}

def Move.writer : Move α ι → ι
  | .act i _ | .copy i | .write i => i

/-- An action changes the memory, and begins a write at most. -/
theorem next_act [DecidableEq ι] {s s' : Store σ ι β} {i : ι} {a : α}
    (step : p.next s (.act i a) = some s') :
    p.mayAct i a = true ∧ p.step s.memory a = some s'.memory ∧ s'.file = s.file ∧
      s'.phase = if p.persists s.memory a then Function.update s.phase i .due else s.phase := by
  unfold Protocol.next at step
  dsimp only at step
  split at step
  · by_cases may : p.mayAct i a = true
    · rw [if_pos may] at step
      obtain ⟨memory, stepped, rfl⟩ := Option.map_eq_some_iff.mp step
      exact ⟨may, stepped, rfl, rfl⟩
    · rw [if_neg may] at step
      cases step
  · cases step

theorem next_copy [DecidableEq ι] {s s' : Store σ ι β} {i : ι}
    (step : p.next s (.copy i) = some s') :
    s' = { s with phase := Function.update s.phase i (.writing (p.image s.memory)) } := by
  unfold Protocol.next at step
  dsimp only at step
  split at step
  · cases step
    rfl
  · cases step

theorem next_write [DecidableEq ι] {s s' : Store σ ι β} {i : ι}
    (step : p.next s (.write i) = some s') : ∃ copy, s.phase i = .writing copy ∧
      s' = { s with file := copy, phase := Function.update s.phase i .idle } := by
  unfold Protocol.next at step
  dsimp only at step
  split at step
  · next copy stands =>
    cases step
    exact ⟨copy, stands, rfl⟩
  · cases step

theorem phase_next [DecidableEq ι] {s s' : Store σ ι β} {move : Move α ι} {j : ι}
    (other : move.writer ≠ j) (step : p.next s move = some s') : s'.phase j = s.phase j := by
  have ne : j ≠ move.writer := fun same => other same.symm
  cases move with
  | act i a =>
    obtain ⟨-, -, -, phase⟩ := next_act step
    rw [phase]
    split_ifs
    · exact Function.update_of_ne ne _ _
    · rfl
  | copy i =>
    rw [next_copy step]
    exact Function.update_of_ne ne _ _
  | write i =>
    obtain ⟨copy, -, rfl⟩ := next_write step
    exact Function.update_of_ne ne _ _

theorem phase_of_absent [DecidableEq ι] {start s : Store σ ι β}
    {trace : List (Store σ ι β × Move α ι)} (run : Run p.next start trace s) {j : ι}
    (absent : ∀ q ∈ trace, q.2.writer ≠ j) : s.phase j = start.phase j := by
  induction run with
  | nil => rfl
  | cons run step ih =>
    have last := phase_next (absent _ List.mem_cons_self) step
    exact last.trans (ih fun q mem => absent q (List.mem_cons_of_mem _ mem))

theorem Covered.next [DecidableEq ι] {s s' : Store σ ι β} {move : Move α ι} (covered : Covered p s)
    (turn : InTurn p s move) (step : p.next s move = some s') : Covered p s' := by
  cases move with
  | act i a =>
    obtain ⟨-, stepped, file, phase⟩ := next_act step
    cases persists : p.persists s.memory a with
    | true =>
      rw [persists, if_pos rfl] at phase
      refine .inr ⟨i, .inl ?_⟩
      rw [phase, Function.update_self]
    | false =>
      rw [persists, if_neg Bool.false_ne_true] at phase
      have same := turn s'.memory stepped persists
      unfold Covered Brings
      rw [same, file, phase]
      exact covered
  | copy i =>
    rw [next_copy step]
    refine .inr ⟨i, .inr ?_⟩
    dsimp only
    rw [Function.update_self]
  | write i =>
    obtain ⟨copy, stands, rfl⟩ := next_write step
    rcases turn copy stands with current | ⟨j, ne, brings⟩
    · exact .inl current
    · refine .inr ⟨j, ?_⟩
      unfold Brings at brings ⊢
      dsimp only
      rw [Function.update_of_ne ne]
      exact brings

def Quiet (s : Store σ ι β) : Prop := ∀ i, s.phase i = .idle

theorem Covered.saved {s : Store σ ι β} (covered : Covered p s) (quiet : Quiet s) :
    s.file = p.image s.memory := by
  rcases covered with saved | ⟨i, due | writing⟩
  · exact saved
  · rw [quiet i] at due
    cases due
  · rw [quiet i] at writing
    cases writing

theorem saved_of_inTurn [DecidableEq ι] {start s : Store σ ι β}
    {trace : List (Store σ ι β × Move α ι)} (init : start.file = p.image start.memory)
    (run : Run p.next start trace s) (turns : Guarded (InTurn p) trace) (quiet : Quiet s) :
    s.file = p.image s.memory := by
  have covered : Covered p s :=
    run.invariant_state (.inl init) (fun _ _ _ inv turn step => inv.next turn step) turns
  exact covered.saved quiet

end KiroRs.Lib.WriteBehind
