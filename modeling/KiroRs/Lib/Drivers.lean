/- Path: KiroRs/Lib/Drivers
   layer: library
   digest: Machines that take inputs as they arrive, refuse some of them and put things out, and the
   invariant rule over what arrived, what was put out and the state. -/

import Mathlib.Data.List.Basic

set_option autoImplicit false
set_option relaxedAutoImplicit false

namespace KiroRs.Lib.Drivers

variable {σ α β : Type}

def drive (step : σ → α → Option (List β × σ)) : List α → σ → Option (List β × σ)
  | [], s => some ([], s)
  | a :: rest, s =>
    (step s a).bind fun here =>
      (drive step rest here.2).map fun later => (here.1 ++ later.1, later.2)

variable {step : σ → α → Option (List β × σ)} {s t : σ} {ins : List α} {outs : List β}

theorem drive_cons {a : α} {rest : List α} (run : drive step (a :: rest) s = some (outs, t)) :
    ∃ new s' later, step s a = some (new, s') ∧ drive step rest s' = some (later, t) ∧
      outs = new ++ later := by
  obtain ⟨⟨new, s'⟩, taken, run⟩ := Option.bind_eq_some_iff.mp run
  obtain ⟨⟨later, t'⟩, rest_run, eq⟩ := Option.map_eq_some_iff.mp run
  cases eq
  exact ⟨new, s', later, taken, rest_run, rfl⟩

theorem drive_invariant {I : List α → List β → σ → Prop} (init : I [] [] s)
    (kept : ∀ ins outs s a new s', I ins outs s → step s a = some (new, s') →
      I (ins ++ [a]) (outs ++ new) s')
    (run : drive step ins s = some (outs, t)) : I ins outs t := by
  have behind : ∀ before done s later, I before done s →
      drive step ins s = some (later, t) → I (before ++ ins) (done ++ later) t := by
    clear init run
    induction ins with
    | nil =>
      intro before done s later holds run
      cases run
      rwa [List.append_nil, List.append_nil]
    | cons a rest ih =>
      intro before done s later holds run
      obtain ⟨new, s', after, taken, rest_run, rfl⟩ := drive_cons run
      have next := ih _ _ s' after (kept before done s a new s' holds taken) rest_run
      rwa [List.append_assoc, List.singleton_append, List.append_assoc] at next
  exact behind [] [] s outs init run

theorem drive_embed {τ : Type} {outer : τ → α → Option (List β × τ)} {f : σ → τ}
    (inside : ∀ s a, outer (f s) a = (step s a).map fun r => (r.1, f r.2)) (ins : List α) (s : σ) :
    drive outer ins (f s) = (drive step ins s).map fun r => (r.1, f r.2) := by
  induction ins generalizing s with
  | nil => rfl
  | cons a rest ih =>
    rw [drive, drive, inside]
    cases step s a with
    | none => rfl
    | some here =>
      show (drive outer rest (f here.2)).map _ = ((drive step rest here.2).map _).map _
      rw [ih, Option.map_map, Option.map_map]
      rfl

theorem drive_beside {τ γ : Type} {other : τ → α → Option (List γ × τ)}
    {R : List α → List β → σ → List γ → τ → Prop} {t : τ} (init : R [] [] s [] t)
    (kept : ∀ ins outs s outs' t a, R ins outs s outs' t →
      (step s a = none ∧ other t a = none) ∨ ∃ new s' new' t', step s a = some (new, s') ∧
        other t a = some (new', t') ∧ R (ins ++ [a]) (outs ++ new) s' (outs' ++ new') t')
    (ins : List α) :
    (drive step ins s = none ∧ drive other ins t = none) ∨
      ∃ outs s' outs' t', drive step ins s = some (outs, s') ∧
        drive other ins t = some (outs', t') ∧ R ins outs s' outs' t' := by
  have behind : ∀ before done s done' t, R before done s done' t →
      (drive step ins s = none ∧ drive other ins t = none) ∨
        ∃ outs s' outs' t', drive step ins s = some (outs, s') ∧
          drive other ins t = some (outs', t') ∧
          R (before ++ ins) (done ++ outs) s' (done' ++ outs') t' := by
    clear init
    induction ins with
    | nil =>
      intro before done s done' t related
      refine Or.inr ⟨[], s, [], t, rfl, rfl, ?_⟩
      rwa [List.append_nil, List.append_nil, List.append_nil]
    | cons a rest ih =>
      intro before done s done' t related
      rcases kept before done s done' t a related with
        ⟨refused, refused'⟩ | ⟨new, s', new', t', taken, taken', next⟩
      · refine Or.inl ⟨?_, ?_⟩
        · rw [drive, refused, Option.bind_none]
        · rw [drive, refused', Option.bind_none]
      · rcases ih _ _ _ _ _ next with
          ⟨refused, refused'⟩ | ⟨outs, s₁, outs', t₁, run, run', related'⟩
        · refine Or.inl ⟨?_, ?_⟩
          · rw [drive, taken, Option.bind_some, refused, Option.map_none]
          · rw [drive, taken', Option.bind_some, refused', Option.map_none]
        · refine Or.inr ⟨new ++ outs, s₁, new' ++ outs', t₁, ?_, ?_, ?_⟩
          · rw [drive, taken, Option.bind_some, run, Option.map_some]
          · rw [drive, taken', Option.bind_some, run', Option.map_some]
          · rwa [List.append_assoc, List.singleton_append, List.append_assoc,
              List.append_assoc] at related'
  exact behind [] [] s [] t init

end KiroRs.Lib.Drivers
