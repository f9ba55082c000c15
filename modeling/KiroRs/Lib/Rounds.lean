/- Path: KiroRs/Lib/Rounds
   layer: library
   digest: A loop over numbered rounds, each of which goes on with a new state or stops with a
   result: the rounds it reaches, and why a loop whose last round stops never runs out of rounds. -/

import Mathlib.Data.List.Range

set_option autoImplicit false
set_option relaxedAutoImplicit false

namespace KiroRs.Lib.Rounds

variable {σ β ε : Type}

inductive Next (σ β : Type) where
  | again (s : σ)
  | stop (b : β)

/-- The rounds of the list up to the first that stops, with all they emit. `exit` follows the last
of them. -/
def rounds (step : Nat → σ → List ε × Next σ β) (exit : σ → List ε × β) :
    List Nat → σ → List ε × β
  | [], s => exit s
  | i :: rest, s =>
    match (step i s).2 with
    | .stop b => ((step i s).1, b)
    | .again s' => ((step i s).1 ++ (rounds step exit rest s').1, (rounds step exit rest s').2)

/-- A round that begins, by its number, its state and what was emitted before it. -/
inductive Reaches (step : Nat → σ → List ε × Next σ β) (start : σ) : Nat → σ → List ε → Prop where
  | start : Reaches step start 0 start []
  | again {i : Nat} {s s' : σ} {out : List ε} (reached : Reaches step start i s out)
      (goes_on : (step i s).2 = .again s') :
      Reaches step start (i + 1) s' (out ++ (step i s).1)

def GoesOnBelow (step : Nat → σ → List ε × Next σ β) (bound : Nat) : Prop :=
  ∀ i s s', (step i s).2 = .again s' → i < bound

variable {step : Nat → σ → List ε × Next σ β} {start : σ} {exit : σ → List ε × β} {bound : Nat}

theorem Reaches.le_bound {i : Nat} {s : σ} {out : List ε} (reached : Reaches step start i s out)
    (below : GoesOnBelow step bound) : i ≤ bound := by
  cases reached with
  | start => exact Nat.zero_le bound
  | again _ goes_on => exact below _ _ _ goes_on

theorem Reaches.rounds_eq {i : Nat} {s : σ} {out : List ε} (reached : Reaches step start i s out)
    (below : GoesOnBelow step bound) :
    rounds step exit (List.range (bound + 1)) start =
      (out ++ (rounds step exit (List.range' i (bound + 1 - i)) s).1,
        (rounds step exit (List.range' i (bound + 1 - i)) s).2) := by
  induction reached with
  | start => rw [List.range_eq_range', Nat.sub_zero, List.nil_append]
  | again reached goes_on ih =>
    rename_i i s s' out
    have lt := below i s s' goes_on
    have first : List.range' i (bound + 1 - i) = i :: List.range' (i + 1) (bound + 1 - (i + 1)) := by
      have length : bound + 1 - i = bound + 1 - (i + 1) + 1 := by omega
      rw [length, List.range'_succ]
    rw [ih, first, rounds, goes_on, List.append_assoc]

theorem Reaches.rounds_of_stop {i : Nat} {s : σ} {out : List ε} {b : β}
    (reached : Reaches step start i s out) (below : GoesOnBelow step bound)
    (stops : (step i s).2 = .stop b) :
    rounds step exit (List.range (bound + 1)) start = (out ++ (step i s).1, b) := by
  have le := reached.le_bound below
  have length : bound + 1 - i = bound - i + 1 := by omega
  rw [reached.rounds_eq below, length, List.range'_succ, rounds, stops]

theorem Reaches.unique {i : Nat} {s t : σ} {out out' : List ε} (first : Reaches step start i s out)
    (second : Reaches step start i t out') : s = t ∧ out = out' := by
  induction first generalizing t out' with
  | start =>
    cases second
    exact ⟨rfl, rfl⟩
  | again _ goes_on ih =>
    cases second with
    | again reached goes_on' =>
      obtain ⟨rfl, rfl⟩ := ih reached
      rw [goes_on] at goes_on'
      cases goes_on'
      exact ⟨rfl, rfl⟩

theorem Reaches.goes_on_of_lt {i j : Nat} {s t : σ} {out out' : List ε}
    (later : Reaches step start j t out') (earlier : Reaches step start i s out) (lt : i < j) :
    ∃ s', (step i s).2 = .again s' := by
  induction later with
  | start => exact absurd lt (Nat.not_lt_zero i)
  | again reached goes_on ih =>
    rcases Nat.lt_succ_iff_lt_or_eq.mp lt with before | rfl
    · exact ih before
    · obtain ⟨rfl, -⟩ := earlier.unique reached
      exact ⟨_, goes_on⟩

theorem Reaches.stop_unique {i j : Nat} {s t : σ} {out out' : List ε} {b c : β}
    (first : Reaches step start i s out) (second : Reaches step start j t out')
    (stops : (step i s).2 = .stop b) (stops' : (step j t).2 = .stop c) : i = j ∧ s = t := by
  rcases Nat.lt_trichotomy i j with lt | rfl | lt
  · obtain ⟨s', goes_on⟩ := second.goes_on_of_lt first lt
    rw [stops] at goes_on
    cases goes_on
  · exact ⟨rfl, (first.unique second).1⟩
  · obtain ⟨s', goes_on⟩ := first.goes_on_of_lt second lt
    rw [stops'] at goes_on
    cases goes_on

/-- A loop whose last round cannot go on stops in one of its rounds. -/
theorem exists_stop (below : GoesOnBelow step bound) (start : σ) :
    ∃ i s out b, Reaches step start i s out ∧ (step i s).2 = .stop b := by
  by_contra none
  push Not at none
  have reaches : ∀ n, ∃ s out, Reaches step start n s out := by
    intro n
    induction n with
    | zero => exact ⟨start, [], .start⟩
    | succ n ih =>
      obtain ⟨s, out, reached⟩ := ih
      cases next : (step n s).2 with
      | again s' => exact ⟨s', _, reached.again next⟩
      | stop b => exact absurd next (none n s out b reached)
  obtain ⟨s, out, reached⟩ := reaches (bound + 1)
  have := reached.le_bound below
  omega

end KiroRs.Lib.Rounds
