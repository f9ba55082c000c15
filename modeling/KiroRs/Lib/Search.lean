/- Path: KiroRs/Lib/Search
   layer: library
   digest: The first occurrence of a pattern in a list, and the tail of a list that more items could
   make into one. -/

import Mathlib.Data.List.Infix

set_option autoImplicit false
set_option relaxedAutoImplicit false

namespace KiroRs.Lib.Search

variable {α : Type} [DecidableEq α]

def splitFind (needle : List α) : List α → Option (List α × List α)
  | [] => if needle.isEmpty then some ([], []) else none
  | c :: t =>
    if needle.isPrefixOf (c :: t) then some ([], c :: t)
    else (splitFind needle t).map fun p => (c :: p.1, p.2)

/-- The list split before its longest tail that is a prefix of the pattern. -/
def splitPartial (needle : List α) : List α → List α × List α
  | [] => ([], [])
  | c :: t =>
    if (c :: t).isPrefixOf needle then ([], c :: t)
    else (c :: (splitPartial needle t).1, (splitPartial needle t).2)

variable {needle l a b x : List α}

theorem splitFind_eq_some (found : splitFind needle l = some (a, b)) :
    l = a ++ b ∧ needle <+: b := by
  induction l generalizing a b with
  | nil =>
    unfold splitFind at found
    split_ifs at found with empty
    cases found
    rw [List.isEmpty_iff.mp empty]
    exact ⟨rfl, List.nil_prefix⟩
  | cons c t ih =>
    unfold splitFind at found
    split_ifs at found with here
    · cases found
      exact ⟨rfl, List.isPrefixOf_iff_prefix.mp here⟩
    · obtain ⟨⟨a', b'⟩, later, eq⟩ := Option.map_eq_some_iff.mp found
      cases eq
      obtain ⟨split, pre⟩ := ih later
      exact ⟨by rw [split]; rfl, pre⟩

theorem splitFind_eq_none (proper : needle ≠ []) :
    splitFind needle l = none ↔ ¬ needle <:+: l := by
  induction l with
  | nil =>
    unfold splitFind
    rw [if_neg (by simpa using proper), List.infix_nil]
    simp [proper]
  | cons c t ih =>
    unfold splitFind
    rw [List.infix_cons_iff, not_or, ← ih, ← List.isPrefixOf_iff_prefix]
    split_ifs with here
    · simp [here]
    · simp [here]

/-- No occurrence begins before the first one. -/
theorem splitFind_first (found : splitFind needle l = some (a, b)) (proper : needle ≠ []) :
    ¬ needle <:+: a ++ needle.dropLast := by
  induction l generalizing a b with
  | nil =>
    unfold splitFind at found
    rw [if_neg (by simpa using proper)] at found
    cases found
  | cons c t ih =>
    unfold splitFind at found
    split_ifs at found with here
    · cases found
      intro inside
      have le := inside.length_le
      rw [List.nil_append, List.length_dropLast] at le
      have := List.length_pos_iff.mpr proper
      omega
    · obtain ⟨⟨a', b'⟩, later, eq⟩ := Option.map_eq_some_iff.mp found
      cases eq
      intro inside
      rw [List.cons_append, List.infix_cons_iff] at inside
      rcases inside with starts | inside
      · -- the occurrence would begin at `c`, in front of the one that was found
        refine here (List.isPrefixOf_iff_prefix.mpr ?_)
        obtain ⟨split, pre⟩ := splitFind_eq_some later
        rw [split]
        refine starts.trans ?_
        rw [List.cons_prefix_cons]
        exact ⟨rfl, (List.prefix_append_right_inj a').mpr ((List.dropLast_prefix _).trans pre)⟩
      · exact ih later inside

theorem splitFind_eq_some_iff (proper : needle ≠ []) : splitFind needle l = some (a, b) ↔
    l = a ++ b ∧ needle <+: b ∧ ¬ needle <:+: a ++ needle.dropLast := by
  constructor
  · intro found
    obtain ⟨split, pre⟩ := splitFind_eq_some found
    exact ⟨split, pre, splitFind_first found proper⟩
  · rintro ⟨rfl, pre, first⟩
    induction a with
    | nil =>
      cases b with
      | nil => exact absurd (List.prefix_nil.mp pre) proper
      | cons c t =>
        unfold splitFind
        exact if_pos (List.isPrefixOf_iff_prefix.mpr pre)
    | cons c a ih =>
      have not_here : ¬ needle.isPrefixOf (c :: (a ++ b)) = true := by
        intro here
        refine first ?_
        rw [List.isPrefixOf_iff_prefix] at here
        have long : needle.length ≤ (c :: (a ++ needle.dropLast)).length := by
          rw [List.length_cons, List.length_append, List.length_dropLast]
          omega
        have both : c :: (a ++ needle.dropLast) <+: c :: (a ++ b) := by
          rw [List.cons_prefix_cons]
          exact ⟨rfl, (List.prefix_append_right_inj a).mpr ((List.dropLast_prefix _).trans pre)⟩
        exact (List.prefix_of_prefix_length_le here both long).isInfix
      have rest := ih fun inside => first (List.infix_cons_iff.mpr (.inr inside))
      rw [List.cons_append, splitFind, if_neg not_here, rest]
      rfl

theorem splitFind_pass (pass : ∀ d, d ≠ [] → d <:+ a → ¬ needle <+: d ++ l) :
    splitFind needle (a ++ l) = (splitFind needle l).map fun p => (a ++ p.1, p.2) := by
  induction a with
  | nil => simp
  | cons c a ih =>
    have not_here : ¬ needle.isPrefixOf (c :: (a ++ l)) = true := by
      rw [List.isPrefixOf_iff_prefix]
      exact pass (c :: a) (List.cons_ne_nil c a) (List.suffix_refl _)
    rw [List.cons_append, splitFind, if_neg not_here,
      ih fun d some suffix => pass d some (suffix.trans (List.suffix_cons c a)), Option.map_map]
    rfl

theorem splitPartial_append (needle l : List α) :
    (splitPartial needle l).1 ++ (splitPartial needle l).2 = l := by
  induction l with
  | nil => rfl
  | cons c t ih =>
    unfold splitPartial
    split_ifs with pre
    · rfl
    · rw [List.cons_append, ih]

theorem splitPartial_begins (needle l : List α) : (splitPartial needle l).2 <+: needle := by
  induction l with
  | nil => exact List.nil_prefix
  | cons c t ih =>
    unfold splitPartial
    split_ifs with pre
    · exact List.isPrefixOf_iff_prefix.mp pre
    · exact ih

theorem splitPartial_longest (tail : b <:+ l) (begins : b <+: needle) :
    b <:+ (splitPartial needle l).2 := by
  induction l with
  | nil => exact tail
  | cons c t ih =>
    unfold splitPartial
    split_ifs with pre
    · exact tail
    · rcases List.suffix_cons_iff.mp tail with whole | later
      · rw [whole] at begins
        exact absurd (List.isPrefixOf_iff_prefix.mpr begins) pre
      · exact ih later

theorem splitFind_append (none_yet : ¬ needle <:+: l) : splitFind needle (l ++ x) =
    (splitFind needle ((splitPartial needle l).2 ++ x)).map
      fun p => ((splitPartial needle l).1 ++ p.1, p.2) := by
  induction l with
  | nil => simp [splitPartial]
  | cons c t ih =>
    rw [List.infix_cons_iff, not_or] at none_yet
    unfold splitPartial
    split_ifs with pre
    · simp
    · have not_here : ¬ needle.isPrefixOf (c :: (t ++ x)) = true := by
        rw [List.isPrefixOf_iff_prefix, ← List.cons_append]
        intro here
        rcases List.prefix_or_prefix_of_prefix here (List.prefix_append (c :: t) x) with h | h
        · exact none_yet.1 h
        · exact pre (List.isPrefixOf_iff_prefix.mpr h)
      rw [List.cons_append, splitFind, if_neg not_here, ih none_yet.2, Option.map_map]
      rfl

theorem splitPartial_resume (needle l x : List α) : splitPartial needle (l ++ x) =
    ((splitPartial needle l).1 ++ (splitPartial needle ((splitPartial needle l).2 ++ x)).1,
      (splitPartial needle ((splitPartial needle l).2 ++ x)).2) := by
  induction l with
  | nil => rfl
  | cons c t ih =>
    by_cases pre : (c :: t).isPrefixOf needle = true
    · have here : splitPartial needle (c :: t) = ([], c :: t) := by
        unfold splitPartial
        exact if_pos pre
      rw [here]
      rfl
    · have not_longer : ¬ (c :: (t ++ x)).isPrefixOf needle = true := by
        rw [List.isPrefixOf_iff_prefix, ← List.cons_append]
        intro longer
        exact pre (List.isPrefixOf_iff_prefix.mpr ((List.prefix_append (c :: t) x).trans longer))
      have here : splitPartial needle (c :: t) =
          (c :: (splitPartial needle t).1, (splitPartial needle t).2) := by
        conv_lhs => unfold splitPartial
        exact if_neg pre
      rw [here, List.cons_append]
      conv_lhs => unfold splitPartial
      rw [if_neg not_longer, ih]
      rfl

theorem splitPartial_pass (pass : ∀ d, d ≠ [] → d <:+ a → ¬ d ++ l <+: needle) :
    splitPartial needle (a ++ l) =
      (a ++ (splitPartial needle l).1, (splitPartial needle l).2) := by
  induction a with
  | nil => rfl
  | cons c a ih =>
    have not_here : ¬ (c :: (a ++ l)).isPrefixOf needle = true := by
      rw [List.isPrefixOf_iff_prefix]
      exact pass (c :: a) (List.cons_ne_nil c a) (List.suffix_refl _)
    rw [List.cons_append, splitPartial, if_neg not_here,
      ih fun d some suffix => pass d some (suffix.trans (List.suffix_cons c a))]
    rfl

theorem splitFind_extend (found : splitFind needle l = some (a, b)) (proper : needle ≠ []) :
    splitFind needle (l ++ x) = some (a, b ++ x) := by
  obtain ⟨split, pre, first⟩ := (splitFind_eq_some_iff proper).mp found
  refine (splitFind_eq_some_iff proper).mpr ⟨?_, pre.trans (List.prefix_append b x), first⟩
  rw [split, List.append_assoc]

theorem splitPartial_none_yet (none_yet : ¬ needle <:+: l) :
    (splitPartial needle l).2.length < needle.length := by
  have pre := splitPartial_begins needle l
  rcases Nat.lt_or_ge (splitPartial needle l).2.length needle.length with lt | ge
  · exact lt
  · have whole := pre.eq_of_length_le ge
    refine absurd ?_ none_yet
    rw [← splitPartial_append needle l, whole]
    exact (List.suffix_append _ _).isInfix

end KiroRs.Lib.Search
