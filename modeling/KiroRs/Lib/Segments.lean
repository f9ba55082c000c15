/- Path: KiroRs/Lib/Segments
   layer: library
   digest: Lists cut into segments behind the items that end one, lists with only the first item of
   every key, and lists put together from parts some of which are left out. -/

import Mathlib.Data.List.Basic

set_option autoImplicit false
set_option relaxedAutoImplicit false

namespace KiroRs.Lib.Segments

variable {α β : Type}

def prepend (a : α) : List (List α) → List (List α)
  | [] => [[a]]
  | segment :: later => (a :: segment) :: later

/-- The list cut behind every item that ends a segment. -/
def segments (ends : α → Bool) : List α → List (List α)
  | [] => []
  | a :: rest => if ends a then [a] :: segments ends rest else prepend a (segments ends rest)

variable {ends : α → Bool} {l front rest : List α} {a : α}

theorem flatten_segments (l : List α) : (segments ends l).flatten = l := by
  induction l with
  | nil => rfl
  | cons a l ih =>
    unfold segments
    split_ifs
    · rw [List.flatten_cons, ih]
      rfl
    · cases cut : segments ends l with
      | nil =>
        rw [cut] at ih
        rw [← ih]
        rfl
      | cons segment later =>
        rw [cut] at ih
        rw [← ih]
        rfl

theorem segments_of_open (is_open : ∀ x ∈ l, ends x = false) (nonempty : l ≠ []) :
    segments ends l = [l] := by
  induction l with
  | nil => exact absurd rfl nonempty
  | cons a l ih =>
    unfold segments
    rw [is_open a List.mem_cons_self, if_neg Bool.false_ne_true]
    by_cases last : l = []
    · rw [last]
      rfl
    · rw [ih (fun x mem => is_open x (List.mem_cons_of_mem a mem)) last]
      rfl

theorem segments_of_end (is_open : ∀ x ∈ front, ends x = false) (here : ends a = true) :
    segments ends (front ++ a :: rest) = (front ++ [a]) :: segments ends rest := by
  induction front with
  | nil =>
    show segments ends (a :: rest) = _
    rw [segments, if_pos here]
    rfl
  | cons b front ih =>
    have later := ih fun x mem => is_open x (List.mem_cons_of_mem b mem)
    rw [List.cons_append, segments, is_open b List.mem_cons_self, if_neg Bool.false_ne_true, later]
    rfl

variable [DecidableEq β]

def firsts (key : α → β) : List α → List α
  | [] => []
  | a :: rest => a :: (firsts key rest).filter fun b => key b ≠ key a

variable {key : α → β}

theorem filter_firsts (k : β) (l : List α) :
    (firsts key l).filter (fun a => key a = k) = (l.filter fun a => key a = k).take 1 := by
  induction l with
  | nil => rfl
  | cons a l ih =>
    unfold firsts
    by_cases own : key a = k
    · have later : ((firsts key l).filter fun b => key b ≠ key a).filter (fun b => key b = k) =
          [] := by
        rw [List.filter_filter, List.filter_eq_nil_iff]
        intro b _ both
        simp [own] at both
      rw [List.filter_cons_of_pos (by simpa using own), later,
        List.filter_cons_of_pos (by simpa using own)]
      rfl
    · have kept : ((firsts key l).filter fun b => key b ≠ key a).filter (fun b => key b = k) =
          (firsts key l).filter fun b => key b = k := by
        rw [List.filter_filter]
        refine List.filter_congr fun b _ => ?_
        by_cases same : key b = k
        · have ne : k ≠ key a := fun eq => own eq.symm
          simp [same, ne]
        · simp [same]
      rw [List.filter_cons_of_neg (by simpa using own), kept, ih,
        List.filter_cons_of_neg (by simpa using own)]

theorem firsts_eq_self {l : List α}
    (short : ∀ k, (l.filter fun a => key a = k).length ≤ 1) : firsts key l = l := by
  induction l with
  | nil => rfl
  | cons a l ih =>
    have later : firsts key l = l := by
      refine ih fun k => Nat.le_trans ?_ (short k)
      exact ((List.sublist_cons_self a l).filter _).length_le
    have own := short (key a)
    rw [List.filter_cons_of_pos (by simp), List.length_cons] at own
    have nothing : l.filter (fun b => key b = key a) = [] :=
      List.length_eq_zero_iff.mp (by omega)
    rw [firsts, later]
    refine congrArg (a :: ·) (List.filter_eq_self.mpr fun b mem => ?_)
    simpa using List.filter_eq_nil_iff.mp nothing b mem

theorem firsts_sublist (l : List α) : (firsts key l).Sublist l := by
  induction l with
  | nil => exact List.Sublist.refl []
  | cons a l ih => exact (List.filter_sublist.trans ih).cons_cons a

theorem short_of_firsts {l : List α} (same : (firsts key l).length = l.length) (k : β) :
    (l.filter fun a => key a = k).length ≤ 1 := by
  have whole : firsts key l = l := (firsts_sublist l).eq_of_length same
  rw [← whole, filter_firsts, List.length_take]
  exact Nat.min_le_left ..

theorem firsts_append_singleton (l : List α) (a : α) :
    firsts key (l ++ [a]) =
      if l.any (fun b => key b = key a) then firsts key l else firsts key l ++ [a] := by
  induction l with
  | nil => rfl
  | cons b l ih =>
    rw [List.cons_append, firsts, ih, List.any_cons]
    by_cases later : l.any (fun b => key b = key a) = true
    · rw [if_pos later, later, Bool.or_true, if_pos rfl, firsts]
    · rw [if_neg later]
      rw [Bool.not_eq_true] at later
      rw [later, Bool.or_false, List.filter_append]
      by_cases here : key b = key a
      · have gone : [a].filter (fun x => key x ≠ key b) = [] := by
          simp [here]
        rw [gone, List.append_nil, if_pos (by simpa using here), firsts]
      · have kept : [a].filter (fun x => key x ≠ key b) = [a] := by
          have ne : key a ≠ key b := fun eq => here eq.symm
          simp [ne]
        rw [kept, if_neg (by simpa using here), firsts, List.cons_append]

theorem filter_of_key {l : List α} (nodup : (l.map key).Nodup) {a : α} (mem : a ∈ l) :
    l.filter (fun b => key b = key a) = [a] := by
  induction l with
  | nil => cases mem
  | cons b l ih =>
    rw [List.map_cons, List.nodup_cons] at nodup
    rcases List.mem_cons.mp mem with rfl | later
    · have none_later : l.filter (fun b => key b = key a) = [] := by
        rw [List.filter_eq_nil_iff]
        intro b mem_b same
        rw [decide_eq_true_eq] at same
        refine nodup.1 ?_
        rw [← same]
        exact List.mem_map_of_mem mem_b
      rw [List.filter_cons_of_pos (by simp), none_later]
    · have ne : key b ≠ key a := by
        intro same
        refine nodup.1 ?_
        rw [same]
        exact List.mem_map_of_mem later
      rw [List.filter_cons_of_neg (by simpa using ne), ih nodup.2 later]

variable {γ : Type} {f g : α → List γ} {parts : List α}

theorem length_flatMap_le (part : ∀ a ∈ parts, f a = g a ∨ f a = []) :
    (parts.flatMap f).length ≤ (parts.flatMap g).length := by
  induction parts with
  | nil => exact Nat.le_refl 0
  | cons a rest ih =>
    have later := ih fun b mem => part b (List.mem_cons_of_mem a mem)
    rw [List.flatMap_cons, List.flatMap_cons, List.length_append, List.length_append]
    rcases part a List.mem_cons_self with same | nothing
    · rw [same]
      omega
    · rw [nothing, List.length_nil]
      omega

/-- What is put together is the same only where no part is left out. -/
theorem flatMap_eq_iff (part : ∀ a ∈ parts, f a = g a ∨ f a = []) :
    parts.flatMap f = parts.flatMap g ↔ ∀ a ∈ parts, f a = g a := by
  constructor
  · intro whole
    induction parts with
    | nil =>
      intro a never
      cases never
    | cons a rest ih =>
      have later : ∀ b ∈ rest, f b = g b ∨ f b = [] :=
        fun b mem => part b (List.mem_cons_of_mem a mem)
      rw [List.flatMap_cons, List.flatMap_cons] at whole
      have here : f a = g a := by
        rcases part a List.mem_cons_self with same | nothing
        · exact same
        · have lengths := congrArg List.length whole
          have short := length_flatMap_le later
          rw [nothing, List.nil_append, List.length_append] at lengths
          rw [nothing]
          exact (List.length_eq_zero_iff.mp (by omega)).symm
      rw [here, List.append_cancel_left_eq] at whole
      exact List.forall_mem_cons.mpr ⟨here, ih later whole⟩
  · exact List.flatMap_congr

end KiroRs.Lib.Segments
