/- Path: KiroRs/Lib/Emits
   layer: library
   digest: Steps that change a state and put out items, one after the other, and the invariant rule
   over what was put out so far and the state. -/

import Mathlib.Data.List.Basic

set_option autoImplicit false
set_option relaxedAutoImplicit false

namespace KiroRs.Lib.Emits

variable {ε σ α : Type}

abbrev Emit (ε σ : Type) := List ε × σ

/-- Nothing is put out. -/
def quiet (s : σ) : Emit ε σ := ([], s)

def Emit.andThen (r : Emit ε σ) (next : σ → Emit ε σ) : Emit ε σ :=
  (r.1 ++ (next r.2).1, (next r.2).2)

def emitAll (step : σ → α → Emit ε σ) : List α → σ → Emit ε σ
  | [], s => quiet s
  | a :: rest, s => (step s a).andThen (emitAll step rest)

/-- The guard holds before each step. -/
def Guarded (step : σ → α → Emit ε σ) (guard : σ → α → Prop) : List α → σ → Prop
  | [], _ => True
  | a :: rest, s => guard s a ∧ Guarded step guard rest (step s a).2

/-- The relation between what was put out and the state holds after the step. -/
def Leads (R : List ε → σ → Prop) (log : List ε) (r : Emit ε σ) : Prop := R (log ++ r.1) r.2

variable {R S : List ε → σ → Prop} {log : List ε} {r : Emit ε σ}

@[simp] theorem quiet_andThen (s : σ) (next : σ → Emit ε σ) : (quiet s).andThen next = next s := rfl

theorem andThen_assoc (r : Emit ε σ) (next last : σ → Emit ε σ) :
    (r.andThen next).andThen last = r.andThen fun s => (next s).andThen last := by
  unfold Emit.andThen
  rw [List.append_assoc]

theorem leads_quiet {s : σ} : Leads R log (quiet s) ↔ R log s := by
  unfold Leads quiet
  rw [List.append_nil]

theorem Leads.andThen {f : σ → Emit ε σ} (first : Leads R log r)
    (then_next : R (log ++ r.1) r.2 → Leads S (log ++ r.1) (f r.2)) :
    Leads S log (r.andThen f) := by
  have second := then_next first
  unfold Leads at second ⊢
  rwa [List.append_assoc] at second

theorem Leads.mono (leads : Leads R log r) (weaker : ∀ log s, R log s → S log s) :
    Leads S log r :=
  weaker _ _ leads

theorem emitAll_append (step : σ → α → Emit ε σ) (inputs later : List α) (s : σ) :
    emitAll step (inputs ++ later) s = (emitAll step inputs s).andThen (emitAll step later) := by
  induction inputs generalizing s with
  | nil => rfl
  | cons a rest ih =>
    show (step s a).andThen (emitAll step (rest ++ later)) = _
    rw [show emitAll step (a :: rest) s = (step s a).andThen (emitAll step rest) from rfl,
      andThen_assoc]
    exact congrArg (step s a).andThen (funext ih)

theorem emitAll_concat (step : σ → α → Emit ε σ) (inputs : List α) (a : α) (s : σ) :
    emitAll step (inputs ++ [a]) s = (emitAll step inputs s).andThen fun s => step s a := by
  induction inputs generalizing s with
  | nil =>
    show (step s a).andThen quiet = step s a
    unfold Emit.andThen quiet
    rw [List.append_nil]
  | cons b rest ih =>
    show (step s b).andThen (emitAll step (rest ++ [a])) = _
    rw [show emitAll step (b :: rest) s = (step s b).andThen (emitAll step rest) from rfl,
      andThen_assoc]
    exact congrArg (step s b).andThen (funext ih)

theorem guarded_concat {step : σ → α → Emit ε σ} {guard : σ → α → Prop} {inputs : List α} {a : α}
    {s : σ} : Guarded step guard (inputs ++ [a]) s ↔
      Guarded step guard inputs s ∧ guard (emitAll step inputs s).2 a := by
  induction inputs generalizing s with
  | nil => exact ⟨fun both => ⟨trivial, both.1⟩, fun both => ⟨both.2, trivial⟩⟩
  | cons b rest ih =>
    show guard s b ∧ Guarded step guard (rest ++ [a]) (step s b).2 ↔ _
    rw [ih, ← and_assoc]
    exact Iff.rfl

/-- What every guarded step preserves, a guarded run preserves. -/
theorem leads_emitAll {step : σ → α → Emit ε σ} {guard : σ → α → Prop}
    (preserved : ∀ log s a, R log s → guard s a → Leads R log (step s a)) (inputs : List α)
    {s : σ} (start : R log s) (guarded : Guarded step guard inputs s) :
    Leads R log (emitAll step inputs s) := by
  induction inputs generalizing log s with
  | nil => exact leads_quiet.mpr start
  | cons a rest ih =>
    obtain ⟨here, later⟩ := guarded
    exact (preserved log s a start here).andThen fun rel_here => ih rel_here later

end KiroRs.Lib.Emits
