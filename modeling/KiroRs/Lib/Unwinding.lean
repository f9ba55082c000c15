/- Path: KiroRs/Lib/Unwinding
   source: none
   digest: Two runs that differ in foreign events only, and what an observer reads in them. -/

import Mathlib.Data.List.Basic

set_option autoImplicit false
set_option relaxedAutoImplicit false

namespace KiroRs.Lib.Unwinding

variable {State Event Output : Type}

/-- The runs share their events, up to `alike`, except for foreign ones that either may have on
its own. -/
inductive Differ (foreign : Event → Prop) (alike : Event → Event → Prop) :
    List Event → List Event → Prop where
  | done : Differ foreign alike [] []
  | shared {e e' : Event} {es es' : List Event} (same : alike e e')
      (rest : Differ foreign alike es es') : Differ foreign alike (e :: es) (e' :: es')
  | left {e : Event} {es es' : List Event} (own : foreign e) (rest : Differ foreign alike es es') :
      Differ foreign alike (e :: es) es'
  | right {e : Event} {es es' : List Event} (own : foreign e) (rest : Differ foreign alike es es') :
      Differ foreign alike es (e :: es')

variable {foreign foreign' : Event → Prop} {alike alike' : Event → Event → Prop}
  {es es' : List Event}

theorem Differ.mono (differ : Differ foreign alike es es')
    (own : ∀ e, e ∈ es ∨ e ∈ es' → foreign e → foreign' e)
    (both : ∀ e ∈ es, ∀ e', alike e e' → alike' e e') : Differ foreign' alike' es es' := by
  induction differ with
  | done => exact .done
  | shared same rest ih =>
    refine .shared (both _ List.mem_cons_self _ same) (ih ?_ ?_)
    · intro e mem is_foreign
      refine own e ?_ is_foreign
      exact mem.imp (List.mem_cons_of_mem _) (List.mem_cons_of_mem _)
    · exact fun e mem => both e (List.mem_cons_of_mem _ mem)
  | left is_foreign rest ih =>
    refine .left (own _ (.inl List.mem_cons_self) is_foreign) (ih ?_ ?_)
    · intro e mem is_foreign
      refine own e ?_ is_foreign
      exact mem.imp_left (List.mem_cons_of_mem _)
    · exact fun e mem => both e (List.mem_cons_of_mem _ mem)
  | right is_foreign rest ih =>
    refine .right (own _ (.inr List.mem_cons_self) is_foreign) (ih ?_ both)
    intro e mem is_foreign
    refine own e ?_ is_foreign
    exact mem.imp_right (List.mem_cons_of_mem _)

variable (step : State → Event → State) (output : State → Event → Option Output)
  (allowed : State → Event → Bool)

def outputs : State → List Event → List Output
  | _, [] => []
  | s, e :: es => (output s e).toList ++ outputs (step s e) es

def allowedRun : State → List Event → Bool
  | _, [] => true
  | s, e :: es => allowed s e && allowedRun (step s e) es

/-- A relation of states that shared events keep and show alike, and that foreign events keep
unseen. -/
structure Unwinds (foreign : Event → Prop) (alike : Event → Event → Prop)
    (r : State → State → Prop) : Prop where
  symm : ∀ {s s' : State}, r s s' → r s' s
  shared : ∀ {s s' : State} {e e' : Event}, r s s' → alike e e' → allowed s e = true →
    allowed s' e' = true → r (step s e) (step s' e') ∧ output s e = output s' e'
  foreign : ∀ {s s' : State} {e : Event}, r s s' → foreign e → allowed s e = true →
    r (step s e) s' ∧ output s e = none

variable {step output allowed} {r : State → State → Prop}

theorem Unwinds.outputs_eq (unwinds : Unwinds step output allowed foreign alike r)
    (differ : Differ foreign alike es es') {s s' : State} (start : r s s')
    (run : allowedRun step allowed s es = true) (run' : allowedRun step allowed s' es' = true) :
    outputs step output s es = outputs step output s' es' := by
  induction differ generalizing s s' with
  | done => rfl
  | shared same rest ih =>
    obtain ⟨ok, later⟩ := Bool.and_eq_true_iff.mp run
    obtain ⟨ok', later'⟩ := Bool.and_eq_true_iff.mp run'
    obtain ⟨next, read⟩ := unwinds.shared start same ok ok'
    simp only [outputs, read, ih next later later']
  | left is_foreign rest ih =>
    obtain ⟨ok, later⟩ := Bool.and_eq_true_iff.mp run
    obtain ⟨next, read⟩ := unwinds.foreign start is_foreign ok
    simp only [outputs, read, Option.toList_none, List.nil_append]
    exact ih next later run'
  | right is_foreign rest ih =>
    obtain ⟨ok', later'⟩ := Bool.and_eq_true_iff.mp run'
    obtain ⟨next, read⟩ := unwinds.foreign (unwinds.symm start) is_foreign ok'
    simp only [outputs, read, Option.toList_none, List.nil_append]
    exact ih (unwinds.symm next) run later'

end KiroRs.Lib.Unwinding
