/- Path: KiroRs/Lib/Results
   layer: library
   digest: Computations that may fail: what a success says about their parts, and the induction rule
   for a fold that may stop with an error. -/

import Mathlib.Data.List.Induction

set_option autoImplicit false
set_option relaxedAutoImplicit false

namespace KiroRs.Lib.Results

variable {ε α β σ : Type}

@[simp] theorem ok_bind (a : α) (f : α → Except ε β) : ((Except.ok a : Except ε α) >>= f) = f a :=
  rfl

theorem bind_ok {x : Except ε α} {f : α → Except ε β} {b : β} (ok : (x >>= f) = .ok b) :
    ∃ a, x = .ok a ∧ f a = .ok b := by
  cases x with
  | error e => cases ok
  | ok a => exact ⟨a, rfl, ok⟩

theorem map_ok {x : Except ε α} {f : α → β} {b : β} (ok : x.map f = .ok b) :
    ∃ a, x = .ok a ∧ f a = b := by
  cases x with
  | error e => cases ok
  | ok a =>
    cases ok
    exact ⟨a, rfl, rfl⟩

theorem foldlM_append_ok {step : σ → α → Except ε σ} {l l' : List α} {s s' : σ}
    (ok : (l ++ l').foldlM step s = .ok s') :
    ∃ mid, l.foldlM step s = .ok mid ∧ l'.foldlM step mid = .ok s' := by
  rw [List.foldlM_append] at ok
  exact bind_ok ok

/-- What holds at the start, of no items, and is kept by every successful step holds of all items
after a fold that succeeds. -/
theorem foldlM_invariant {step : σ → α → Except ε σ} (inv : List α → σ → Prop) {s : σ}
    (init : inv [] s)
    (preserved : ∀ done a s s', inv done s → step s a = .ok s' → inv (done ++ [a]) s')
    {l : List α} {s' : σ} (ok : l.foldlM step s = .ok s') : inv l s' := by
  induction l using List.reverseRecOn generalizing s' with
  | nil =>
    cases ok
    exact init
  | append_singleton l a ih =>
    obtain ⟨mid, first, last⟩ := foldlM_append_ok ok
    rw [List.foldlM_cons] at last
    obtain ⟨next, stepped, rest⟩ := bind_ok last
    cases rest
    exact preserved l a mid s' (ih first) stepped

theorem foldlM_appends {γ : Type} {step : σ → α → Except ε σ} (view : σ → List γ)
    (read : α → List γ)
    (appends : ∀ s a s', step s a = .ok s' → view s' = view s ++ read a) {l : List α} {s s' : σ}
    (ok : l.foldlM step s = .ok s') : view s' = view s ++ l.flatMap read := by
  refine foldlM_invariant (fun done s' => view s' = view s ++ done.flatMap read) ?_ ?_ ok
  · simp
  · intro done a mid next ih stepped
    rw [appends mid a next stepped, ih]
    simp

theorem foldlM_keeps {γ : Type} {step : σ → α → Except ε σ} (view : σ → γ)
    (keeps : ∀ s a s', step s a = .ok s' → view s' = view s) {l : List α} {s s' : σ}
    (ok : l.foldlM step s = .ok s') : view s' = view s := by
  refine foldlM_invariant (fun _ s' => view s' = view s) rfl ?_ ok
  intro done a mid next ih stepped
  rw [keeps mid a next stepped, ih]

theorem map_foldlM {τ : Type} {step : σ → α → Except ε σ} {step' : τ → α → Except ε τ}
    (view : σ → τ) (l : List α) (s : σ)
    (steps : ∀ s, ∀ a ∈ l, (step s a).map view = step' (view s) a) :
    (l.foldlM step s).map view = l.foldlM step' (view s) := by
  induction l generalizing s with
  | nil => rfl
  | cons a l ih =>
    have first := steps s a List.mem_cons_self
    rw [List.foldlM_cons, List.foldlM_cons, ← first]
    cases step s a with
    | error e => rfl
    | ok next => exact ih next fun s a mem => steps s a (List.mem_cons_of_mem _ mem)

theorem foldlM_flatMap (read : α → List β) (step : σ → β → Except ε σ) (l : List α) (s : σ) :
    (l.flatMap read).foldlM step s = l.foldlM (fun s a => (read a).foldlM step s) s := by
  induction l generalizing s with
  | nil => rfl
  | cons a l ih =>
    rw [List.flatMap_cons, List.foldlM_append, List.foldlM_cons]
    exact congrArg _ (funext ih)

end KiroRs.Lib.Results
