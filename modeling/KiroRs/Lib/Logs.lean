/- Path: KiroRs/Lib/Logs
   layer: library
   digest: What the steps of a fold that may fail note along the way, and how much that can be. -/

import Mathlib.Data.List.Basic
import Mathlib.Data.List.Flatten
import Mathlib.Data.List.Forall2

set_option autoImplicit false
set_option relaxedAutoImplicit false

namespace KiroRs.Lib.Logs

variable {σ α β ε : Type}

def noted (step : σ → α → Except ε σ) (notes : σ → α → List β) : σ → List α → List β
  | _, [] => []
  | s, a :: l => notes s a ++
    match step s a with
    | .ok s' => noted step notes s' l
    | .error _ => []

/-- What is noted behind a computation, if it goes through. -/
def after (x : Except ε α) (notes : α → List β) : List β :=
  match x with
  | .ok a => notes a
  | .error _ => []

@[simp] theorem after_ok (a : α) (notes : α → List β) :
    after (.ok a : Except ε α) notes = notes a := rfl

@[simp] theorem after_error (e : ε) (notes : α → List β) :
    after (.error e : Except ε α) notes = [] := rfl

theorem after_of {x : Except ε α} {notes : α → List β} {P : List β → Prop} (none : P [])
    (each : ∀ a, x = .ok a → P (notes a)) : P (after x notes) := by
  cases x with
  | ok a => exact each a rfl
  | error e => exact none

variable {step : σ → α → Except ε σ} {notes : σ → α → List β}

/-- A state may owe notes that a later step makes up for. If no step notes more than was owed and
is allowed for its item, the fold notes, and owes in the end, no more than that. -/
theorem noted_sublist {owed : σ → List β} {allowed : α → List β}
    (taken : ∀ s a s', step s a = .ok s' → (notes s a ++ owed s').Sublist (owed s ++ allowed a))
    (failed : ∀ s a, (notes s a).Sublist (owed s ++ allowed a)) (l : List α) (s : σ) :
    (noted step notes s l ++ after (l.foldlM step s) owed).Sublist
      (owed s ++ l.flatMap allowed) := by
  induction l generalizing s with
  | nil =>
    have none : noted step notes s [] ++ after (([] : List α).foldlM step s) owed = owed s :=
      List.nil_append _
    rw [none, List.flatMap_nil, List.append_nil]
  | cons a l ih =>
    rw [List.flatMap_cons, ← List.append_assoc (owed s)]
    cases next : step s a with
    | error e =>
      have stopped : (a :: l).foldlM step s = .error e := by
        rw [List.foldlM_cons, next]
        rfl
      have all : noted step notes s (a :: l) = notes s a := by
        rw [noted, next]
        exact List.append_nil _
      rw [stopped, after_error, List.append_nil, all]
      exact (failed s a).trans (List.sublist_append_left _ _)
    | ok s' =>
      have goes : (a :: l).foldlM step s = l.foldlM step s' := by
        rw [List.foldlM_cons, next]
        rfl
      have all : noted step notes s (a :: l) = notes s a ++ noted step notes s' l := by
        rw [noted, next]
      rw [goes, all, List.append_assoc]
      have later := (List.Sublist.refl (notes s a)).append (ih s')
      have now := (taken s a s' next).append (List.Sublist.refl (l.flatMap allowed))
      rw [List.append_assoc] at now
      exact later.trans now

theorem noted_sublist_flatMap {allowed : α → List β}
    (each : ∀ s a, (notes s a).Sublist (allowed a)) (l : List α) (s : σ) :
    (noted step notes s l).Sublist (l.flatMap allowed) := by
  have taken : ∀ s a s', step s a = .ok s' →
      (notes s a ++ (fun _ : σ => ([] : List β)) s').Sublist
        ((fun _ : σ => ([] : List β)) s ++ allowed a) := by
    intro s a s' _
    rw [List.append_nil]
    exact each s a
  have all := noted_sublist taken each l s
  exact (List.sublist_append_left _ _).trans all

theorem noted_forall₂ {γ : Type} {R : β → γ → Prop} {out : σ → List γ}
    (each : ∀ s a s', step s a = .ok s' →
      ∃ new, out s' = out s ++ new ∧ List.Forall₂ R (notes s a) new)
    {l : List α} {s s' : σ} (ok : l.foldlM step s = .ok s') :
    ∃ new, out s' = out s ++ new ∧ List.Forall₂ R (noted step notes s l) new := by
  induction l generalizing s with
  | nil =>
    cases ok
    exact ⟨[], (List.append_nil _).symm, .nil⟩
  | cons a l ih =>
    rw [List.foldlM_cons] at ok
    cases next : step s a with
    | error e =>
      rw [next] at ok
      cases ok
    | ok t =>
      rw [next] at ok
      obtain ⟨first, out_t, answers⟩ := each s a t next
      obtain ⟨later, out_s', answers'⟩ := ih ok
      have all : noted step notes s (a :: l) = notes s a ++ noted step notes t l := by
        rw [noted, next]
      refine ⟨first ++ later, by rw [out_s', out_t, List.append_assoc], ?_⟩
      rw [all]
      exact List.rel_append answers answers'

end KiroRs.Lib.Logs
