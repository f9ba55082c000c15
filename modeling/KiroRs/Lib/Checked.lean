/- Path: KiroRs/Lib/Checked
   layer: library
   digest: Indexing, slicing and machine-sized sums that stop with a fault where they are not defined,
   and when each of them goes through. -/

import Mathlib.Data.List.Basic
import Mathlib.Data.List.Range

set_option autoImplicit false
set_option relaxedAutoImplicit false

namespace KiroRs.Lib.Checked

inductive Fault where
  | outOfRange (position length : Nat)
  | overflow
  | lengthMismatch (expected actual : Nat)
  deriving DecidableEq, Repr

abbrev MayFault (α : Type) := Except Fault α

variable {α : Type}

def index (data : List α) (i : Nat) : MayFault α :=
  match data[i]? with
  | some a => .ok a
  | none => .error (.outOfRange i data.length)

/-- The half-open slice between two positions. -/
def range (data : List α) (i j : Nat) : MayFault (List α) :=
  if i ≤ j ∧ j ≤ data.length then .ok ((data.take j).drop i)
  else .error (.outOfRange j data.length)

/-- The data behind its first `n` elements. -/
def advance (data : List α) (n : Nat) : MayFault (List α) :=
  if n ≤ data.length then .ok (data.drop n) else .error (.outOfRange n data.length)

/-- A sum of words below `limit`. -/
def add (limit a b : Nat) : MayFault Nat := if a + b < limit then .ok (a + b) else .error .overflow

def minus (a b : Nat) : MayFault Nat := if b ≤ a then .ok (a - b) else .error .overflow

def indexes (data : List α) : List Nat → MayFault (List α)
  | [] => .ok []
  | i :: more => do
    let a ← index data i
    let rest ← indexes data more
    return a :: rest

variable {data : List α} {limit a b i j n : Nat}

theorem index_of_getElem? {x : α} (at_i : data[i]? = some x) : index data i = .ok x := by
  rw [index, at_i]

theorem index_of_lt (default : α) (inside : i < data.length) :
    index data i = .ok (data.getD i default) := by
  have at_i := List.getElem?_eq_getElem inside
  rw [index_of_getElem? at_i, List.getD_eq_getElem?_getD, at_i, Option.getD_some]

theorem range_of_le (data : List α) (ordered : i ≤ j) (inside : j ≤ data.length) :
    range data i j = .ok ((data.take j).drop i) := by
  rw [range, if_pos ⟨ordered, inside⟩]

theorem advance_of_le (inside : n ≤ data.length) : advance data n = .ok (data.drop n) := by
  rw [advance, if_pos inside]

theorem add_of_lt (fits : a + b < limit) : add limit a b = .ok (a + b) := by
  rw [add, if_pos fits]

theorem minus_of_le (le : b ≤ a) : minus a b = .ok (a - b) := by
  rw [minus, if_pos le]

theorem add_ok {c : Nat} (ok : add limit a b = .ok c) : c = a + b := by
  unfold add at ok
  split_ifs at ok
  cases ok
  rfl

/-- Consecutive positions inside the data read the slice they span. -/
theorem indexes_consecutive (data : List α) (w : Nat) (inside : i + w ≤ data.length) :
    indexes data (List.range' i w) = .ok ((data.take (i + w)).drop i) := by
  induction w generalizing i with
  | zero =>
    have empty : (data.take (i + 0)).drop i = [] := by
      rw [List.drop_eq_nil_iff, List.length_take]
      omega
    rw [List.range'_zero, indexes, empty]
  | succ w ih =>
    have first := List.getElem?_eq_getElem (show i < data.length by omega)
    have later := ih (i := i + 1) (by omega)
    have width : i + 1 + w = i + (w + 1) := by omega
    rw [width] at later
    have here : i < (data.take (i + (w + 1))).length := by
      rw [List.length_take]
      omega
    rw [List.range'_succ, indexes, index_of_getElem? first, later, List.drop_eq_getElem_cons here,
      List.getElem_take]
    rfl

end KiroRs.Lib.Checked
