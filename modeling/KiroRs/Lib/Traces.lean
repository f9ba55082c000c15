/- Path: KiroRs/Lib/Traces
   layer: library
   digest: Runs of a step function with chosen actions, their traces and the induction rule for
   what holds along them. -/

import Mathlib.Data.List.Basic

set_option autoImplicit false
set_option relaxedAutoImplicit false

namespace KiroRs.Lib.Traces

variable {σ α : Type}

/-- A run from `start`: the state it reaches and its trace, newest step first. Every step of the
trace is kept with the state it was taken in. -/
inductive Run (step : σ → α → Option σ) (start : σ) : List (σ × α) → σ → Prop where
  | nil : Run step start [] start
  | cons {trace : List (σ × α)} {s s' : σ} {a : α} (run : Run step start trace s)
      (taken : step s a = some s') : Run step start ((s, a) :: trace) s'

def Guarded (guard : σ → α → Prop) (trace : List (σ × α)) : Prop :=
  ∀ p ∈ trace, guard p.1 p.2

theorem Guarded.tail {guard : σ → α → Prop} {p : σ × α} {trace : List (σ × α)}
    (h : Guarded guard (p :: trace)) : Guarded guard trace := by
  intro q mem
  exact h q (List.mem_cons_of_mem p mem)

theorem Guarded.head {guard : σ → α → Prop} {s : σ} {a : α} {trace : List (σ × α)}
    (h : Guarded guard ((s, a) :: trace)) : guard s a := h (s, a) List.mem_cons_self

variable {step : σ → α → Option σ} {start : σ}

/-- What holds at the start and is preserved by every guarded step, given the trace so far, holds
at the end of every guarded run. -/
theorem Run.invariant {guard : σ → α → Prop} {inv : List (σ × α) → σ → Prop} (init : inv [] start)
    (preserved : ∀ trace s a s', inv trace s → guard s a → step s a = some s' →
      inv ((s, a) :: trace) s')
    {trace : List (σ × α)} {s : σ} (run : Run step start trace s) (guarded : Guarded guard trace) :
    inv trace s := by
  induction run with
  | nil => exact init
  | cons run taken ih => exact preserved _ _ _ _ (ih guarded.tail) guarded.head taken

theorem Run.invariant_state {guard : σ → α → Prop} {inv : σ → Prop} (init : inv start)
    (preserved : ∀ s a s', inv s → guard s a → step s a = some s' → inv s')
    {trace : List (σ × α)} {s : σ} (run : Run step start trace s) (guarded : Guarded guard trace) :
    inv s := by
  induction run with
  | nil => exact init
  | cons run taken ih => exact preserved _ _ _ (ih guarded.tail) guarded.head taken

theorem Run.step_mem {trace : List (σ × α)} {s : σ} (run : Run step start trace s)
    {guard : σ → α → Prop} (guarded : Guarded guard trace) {t : σ} {a : α} (mem : (t, a) ∈ trace) :
    ∃ before t', Run step start before t ∧ Guarded guard before ∧ guard t a ∧
      step t a = some t' := by
  induction run with
  | nil => cases mem
  | cons run taken ih =>
      rcases List.mem_cons.mp mem with eq | mem
      · cases eq
        exact ⟨_, _, run, guarded.tail, guarded.head, taken⟩
      · exact ih guarded.tail mem

theorem Run.before {later earlier : List (σ × α)} {s t : σ} {a : α}
    (run : Run step start (later ++ (t, a) :: earlier) s) :
    Run step start earlier t ∧ ∃ t', step t a = some t' := by
  induction later generalizing s with
  | nil =>
    cases run with
    | cons run taken => exact ⟨run, _, taken⟩
  | cons p later ih =>
    cases run with
    | cons run taken => exact ih run

theorem Run.of_append {later earlier : List (σ × α)} {s : σ}
    (run : Run step start (later ++ earlier) s) : ∃ t, Run step start earlier t := by
  induction later generalizing s with
  | nil => exact ⟨s, run⟩
  | cons p later ih =>
    cases run with
    | cons run taken => exact ih run

theorem Run.trans {trace later : List (σ × α)} {s t : σ} (run : Run step start trace s)
    (goes_on : Run step s later t) : Run step start (later ++ trace) t := by
  induction goes_on with
  | nil => exact run
  | cons _ taken ih => exact ih.cons taken

def follow (step : σ → α → Option σ) (trace : List (σ × α)) (s : σ) :
    List α → Option (List (σ × α) × σ)
  | [] => some (trace, s)
  | a :: actions => (step s a).bind fun s' => follow step ((s, a) :: trace) s' actions

theorem follow_run {actions : List α} {trace : List (σ × α)} {s : σ}
    {reached : List (σ × α) × σ} (run : Run step start trace s)
    (followed : follow step trace s actions = some reached) :
    Run step start reached.1 reached.2 ∧
      ∀ p ∈ reached.1, p ∈ trace ∨ p.2 ∈ actions := by
  induction actions generalizing trace s with
  | nil =>
    cases followed
    exact ⟨run, fun p mem => .inl mem⟩
  | cons a actions ih =>
    obtain ⟨s', taken, rest⟩ := Option.bind_eq_some_iff.mp followed
    obtain ⟨reaches, each⟩ := ih (run.cons taken) rest
    refine ⟨reaches, fun p mem => ?_⟩
    rcases each p mem with before | later
    · rcases List.mem_cons.mp before with rfl | before
      · exact .inr List.mem_cons_self
      · exact .inl before
    · exact .inr (List.mem_cons_of_mem _ later)

theorem exists_run_of_follow {actions : List α} {check : List (σ × α) × σ → Bool}
    (checked : (follow step [] start actions).any check = true) :
    ∃ trace s, Run step start trace s ∧ (∀ p ∈ trace, p.2 ∈ actions) ∧ check (trace, s) = true := by
  obtain ⟨⟨trace, s⟩, followed, holds⟩ := (Option.any_eq_true _ _).mp checked
  obtain ⟨run, acts⟩ := follow_run .nil followed
  refine ⟨trace, s, run, fun p mem => ?_, holds⟩
  rcases acts p mem with never | listed
  · cases never
  · exact listed

end KiroRs.Lib.Traces
