/- Path: KiroRs/Lib/Edits
   layer: library
   digest: The change of the first element with a property, and of the element with a key. -/

import Mathlib.Data.List.Forall2
import Mathlib.Data.List.Nodup

set_option autoImplicit false
set_option relaxedAutoImplicit false

namespace KiroRs.Lib.Edits

variable {β κ : Type}

def modifyFirst (p : β → Bool) (f : β → β) : List β → Option (List β)
  | [] => none
  | b :: rest => if p b then some (f b :: rest) else (modifyFirst p f rest).map (b :: ·)

variable {p : β → Bool} {f : β → β} {l l' : List β}

theorem modifyFirst_eq_none : modifyFirst p f l = none ↔ ∀ b ∈ l, p b = false := by
  induction l with
  | nil => simp [modifyFirst]
  | cons b rest ih =>
    rw [modifyFirst, List.forall_mem_cons]
    cases fits : p b with
    | true => simp
    | false => simp [ih]

theorem map_modifyFirst {γ : Type} {view : β → γ} (same : ∀ b, view (f b) = view b)
    (found : modifyFirst p f l = some l') : l'.map view = l.map view := by
  induction l generalizing l' with
  | nil => cases found
  | cons b rest ih =>
    rw [modifyFirst] at found
    split_ifs at found with here
    · cases found
      rw [List.map_cons, List.map_cons, same]
    · obtain ⟨rest', inner, rfl⟩ := Option.map_eq_some_iff.mp found
      rw [List.map_cons, List.map_cons, ih inner]

variable [DecidableEq κ] {key : β → κ} {k : κ}

theorem modifyFirst_key (distinct : (l.map key).Nodup)
    (found : modifyFirst (fun b => key b = k) f l = some l') :
    l' = l.map fun b => if key b = k then f b else b := by
  induction l generalizing l' with
  | nil => cases found
  | cons b rest ih =>
    obtain ⟨own, distinct⟩ := List.nodup_cons.mp (List.map_cons .. ▸ distinct)
    rw [modifyFirst] at found
    split_ifs at found with here
    · have is : key b = k := of_decide_eq_true here
      cases found
      have each (c : β) (mem : c ∈ rest) : (if key c = k then f c else c) = c := by
        have ne : key c ≠ k := fun same => own (is.trans same.symm ▸ List.mem_map_of_mem mem)
        exact if_neg ne
      rw [List.map_cons, if_pos is, List.map_congr_left each, List.map_id']
    · have is_not : key b ≠ k := fun same => here (decide_eq_true same)
      obtain ⟨rest', inner, rfl⟩ := Option.map_eq_some_iff.mp found
      rw [List.map_cons, if_neg is_not, ← ih distinct inner]

theorem mem_modifyFirst (distinct : (l.map key).Nodup)
    (found : modifyFirst (fun b => key b = k) f l = some l') {b : β} :
    b ∈ l' ↔ (b ∈ l ∧ key b ≠ k) ∨ ∃ old ∈ l, key old = k ∧ b = f old := by
  rw [modifyFirst_key distinct found, List.mem_map]
  constructor
  · rintro ⟨old, mem, rfl⟩
    by_cases same : key old = k
    · exact Or.inr ⟨old, mem, same, if_pos same⟩
    · rw [if_neg same]
      exact Or.inl ⟨mem, same⟩
  · rintro (⟨mem, ne⟩ | ⟨old, mem, same, rfl⟩)
    · exact ⟨b, mem, if_neg ne⟩
    · exact ⟨old, mem, if_pos same⟩

end KiroRs.Lib.Edits
