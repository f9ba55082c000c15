/- Path: KiroRs/Lib/Weaving
   layer: library
   digest: A text that carries given pieces in their order with nothing but glue around them, and
   the items of a list that are met for the first time. -/

import Mathlib.Computability.Language
import Mathlib.Data.List.Nodup

set_option autoImplicit false
set_option relaxedAutoImplicit false

namespace KiroRs.Lib.Weaving

open scoped Computability

variable {α : Type} {glue : Language α} {pieces pieces' : List (List α)} {whole whole' : List α}

/-- The whole is made of the pieces in their order, with words of the glue around them. -/
inductive Woven (glue : Language α) : List (List α) → List α → Prop where
  | nil {g : List α} (mem : g ∈ glue∗) : Woven glue [] g
  | cons {g piece whole : List α} {pieces : List (List α)} (mem : g ∈ glue∗)
      (woven : Woven glue pieces whole) : Woven glue (piece :: pieces) (g ++ piece ++ whole)

theorem append_mem_kstar {g g' : List α} (mem : g ∈ glue∗) (mem' : g' ∈ glue∗) :
    g ++ g' ∈ glue∗ := by
  rw [← kstar_mul_kstar]
  exact Language.append_mem_mul mem mem'

theorem mem_kstar_of_mem {g : List α} (mem : g ∈ glue) : g ∈ glue∗ := by
  rw [Language.mem_kstar]
  exact ⟨[g], by simp, by simpa using mem⟩

theorem Woven.empty : Woven glue [] [] := .nil (Language.nil_mem_kstar glue)

theorem Woven.singleton (piece : List α) : Woven glue [piece] piece := by
  have woven : Woven glue [piece] ([] ++ piece ++ []) :=
    .cons (Language.nil_mem_kstar glue) .empty
  simpa using woven

theorem Woven.glue_append {g : List α} (mem : g ∈ glue∗) (h : Woven glue pieces whole) :
    Woven glue pieces (g ++ whole) := by
  cases h with
  | nil mem' => exact .nil (append_mem_kstar mem mem')
  | cons mem' woven =>
    rw [← List.append_assoc, ← List.append_assoc]
    exact .cons (append_mem_kstar mem mem') woven

theorem Woven.append (h : Woven glue pieces whole) (h' : Woven glue pieces' whole') :
    Woven glue (pieces ++ pieces') (whole ++ whole') := by
  induction h with
  | nil mem => exact h'.glue_append mem
  | cons mem _ ih =>
    rw [List.cons_append, List.append_assoc]
    exact .cons mem ih

theorem Woven.append_glue {g : List α} (h : Woven glue pieces whole) (mem : g ∈ glue∗) :
    Woven glue pieces (whole ++ g) := by
  have appended := h.append (.nil mem)
  rwa [List.append_nil] at appended

theorem Woven.sublist (h : Woven glue pieces whole) : pieces.flatten.Sublist whole := by
  induction h with
  | nil => exact List.nil_sublist _
  | cons _ _ ih =>
    rw [List.flatten_cons, List.append_assoc]
    exact (List.Sublist.append_left ih _).trans (List.sublist_append_right _ _)

variable {κ : Type} [DecidableEq κ] (key : α → κ)

def unseen (seen : List κ) : List α → List α
  | [] => []
  | a :: l => if key a ∈ seen then unseen seen l else a :: unseen (key a :: seen) l

variable {key} {seen seen' : List κ}

theorem unseen_congr (same : ∀ k, k ∈ seen ↔ k ∈ seen') (l : List α) :
    unseen key seen l = unseen key seen' l := by
  induction l generalizing seen seen' with
  | nil => rfl
  | cons a l ih =>
    unfold unseen
    by_cases mem : key a ∈ seen
    · rw [if_pos mem, if_pos ((same _).mp mem)]
      exact ih same
    · rw [if_neg mem, if_neg fun mem' => mem ((same _).mpr mem')]
      refine congrArg _ (ih fun k => ?_)
      rw [List.mem_cons, List.mem_cons, same]

theorem unseen_append (l l' : List α) :
    unseen key seen (l ++ l') = unseen key seen l ++ unseen key (seen ++ l.map key) l' := by
  induction l generalizing seen with
  | nil => simp [unseen]
  | cons a l ih =>
    rw [List.cons_append, unseen, unseen, ih, ih]
    by_cases mem : key a ∈ seen
    · rw [if_pos mem, if_pos mem]
      refine congrArg _ (unseen_congr (fun k => ?_) l')
      simp only [List.mem_append, List.map_cons, List.mem_cons]
      constructor
      · exact fun found => found.imp_right Or.inr
      · rintro (old | rfl | later)
        · exact .inl old
        · exact .inl mem
        · exact .inr later
    · rw [if_neg mem, if_neg mem, List.cons_append]
      refine congrArg _ (congrArg _ (unseen_congr (fun k => ?_) l'))
      simp only [List.mem_append, List.map_cons, List.mem_cons]
      tauto

theorem unseen_cons_seen (k : κ) (seen : List κ) (l : List α) :
    unseen key (k :: seen) l = (unseen key seen l).filter (key · ≠ k) := by
  induction l generalizing seen with
  | nil => rfl
  | cons a l ih =>
    unfold unseen
    by_cases mem : key a ∈ seen
    · rw [if_pos mem, if_pos (List.mem_cons_of_mem k mem)]
      exact ih seen
    · rw [if_neg mem]
      by_cases same : key a = k
      · rw [if_pos (by rw [same]; exact List.mem_cons_self),
          List.filter_cons_of_neg (by simpa using same), same, ← ih]
        exact unseen_congr (fun other => by simp) l
      · rw [if_neg (by simp [same, mem]), List.filter_cons_of_pos (by simpa using same), ← ih]
        refine congrArg _ (unseen_congr (fun other => ?_) l)
        simp only [List.mem_cons]
        tauto

/-- An item at first sight has a key of its own. -/
theorem unseen_keys (key : α → κ) (seen : List κ) (l : List α) :
    ((unseen key seen l).map key).Nodup ∧
      ∀ k, k ∈ (unseen key seen l).map key ↔ k ∈ l.map key ∧ k ∉ seen := by
  induction l generalizing seen with
  | nil => simp [unseen]
  | cons a l ih =>
    unfold unseen
    by_cases mem : key a ∈ seen
    · rw [if_pos mem]
      obtain ⟨nodup, keys⟩ := ih seen
      refine ⟨nodup, fun k => ?_⟩
      rw [keys, List.map_cons, List.mem_cons]
      constructor
      · exact fun found => ⟨.inr found.1, found.2⟩
      · rintro ⟨rfl | later, new⟩
        · exact absurd mem new
        · exact ⟨later, new⟩
    · rw [if_neg mem, List.map_cons]
      obtain ⟨nodup, keys⟩ := ih (key a :: seen)
      refine ⟨List.nodup_cons.mpr ⟨?_, nodup⟩, fun k => ?_⟩
      · intro again
        exact ((keys _).mp again).2 List.mem_cons_self
      · rw [List.mem_cons, keys, List.map_cons, List.mem_cons, List.mem_cons, not_or]
        constructor
        · rintro (rfl | ⟨later, -, new⟩)
          · exact ⟨.inl rfl, mem⟩
          · exact ⟨.inr later, new⟩
        · rintro ⟨rfl | later, new⟩
          · exact .inl rfl
          · by_cases same : k = key a
            · exact .inl same
            · exact .inr ⟨later, same, new⟩

end KiroRs.Lib.Weaving
