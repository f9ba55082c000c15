/- Path: KiroRs/Lib/Seams
   layer: library
   digest: A text put together from segments, compared with another one up to the white space at
   the seams. -/

import Mathlib.Data.List.Forall2
import KiroRs.Lib.Text

set_option autoImplicit false
set_option relaxedAutoImplicit false

namespace KiroRs.Lib.Seams

open KiroRs.Lib.Text

def glue (text : List Char) : List (List Char) → List (List Char)
  | [] => [text]
  | segment :: rest => (text ++ segment) :: rest

theorem flatten_glue (text : List Char) (segments : List (List Char)) :
    (glue text segments).flatten = text ++ segments.flatten := by
  cases segments with
  | nil => rw [glue, List.flatten_singleton, List.flatten_nil, List.append_nil]
  | cons segment rest => rw [glue, List.flatten_cons, List.flatten_cons, List.append_assoc]

theorem glue_glue (a b : List Char) (segments : List (List Char)) :
    glue a (glue b segments) = glue (a ++ b) segments := by
  cases segments with
  | nil => rfl
  | cons segment rest =>
    show (a ++ (b ++ segment)) :: rest = (a ++ b ++ segment) :: rest
    rw [List.append_assoc]

theorem glue_nil {segments : List (List Char)} (some : segments ≠ []) :
    glue [] segments = segments := by
  cases segments with
  | nil => exact absurd rfl some
  | cons segment rest => rfl

theorem glue_ne_nil (text : List Char) (segments : List (List Char)) : glue text segments ≠ [] := by
  cases segments with
  | nil => exact List.cons_ne_nil _ _
  | cons segment rest => exact List.cons_ne_nil _ _

/-- The segments make up the text, but for white space at its ends and at the seams. -/
def Spells (segments : List (List Char)) (text : List Char) : Prop :=
  ∃ pieces : List (List Char), text = pieces.flatten ∧
    List.Forall₂ (fun segment piece => trimChars segment = trimChars piece) segments pieces

variable {segments more : List (List Char)} {a b x y text : List Char}

theorem spells_flatten (segments : List (List Char)) : Spells segments segments.flatten :=
  ⟨segments, rfl, List.forall₂_same.mpr fun _ _ => rfl⟩

theorem spells_nil_iff : Spells [] text ↔ text = [] := by
  constructor
  · rintro ⟨pieces, rfl, same⟩
    cases same
    rfl
  · rintro rfl
    exact spells_flatten []

theorem spells_cons_iff : Spells (a :: segments) text ↔
    ∃ piece rest, text = piece ++ rest ∧ trimChars a = trimChars piece ∧ Spells segments rest := by
  constructor
  · rintro ⟨pieces, rfl, same⟩
    cases same with
    | cons head tail => exact ⟨_, _, List.flatten_cons, head, _, rfl, tail⟩
  · rintro ⟨piece, rest, rfl, head, pieces, rfl, tail⟩
    exact ⟨piece :: pieces, List.flatten_cons.symm, .cons head tail⟩

theorem spells_singleton_iff : Spells [a] text ↔ trimChars a = trimChars text := by
  rw [spells_cons_iff]
  constructor
  · rintro ⟨piece, rest, rfl, same, none⟩
    rw [spells_nil_iff] at none
    rw [none, List.append_nil]
    exact same
  · intro same
    exact ⟨text, [], (List.append_nil _).symm, same, spells_nil_iff.mpr rfl⟩

theorem Spells.solid_eq (spells : Spells segments text) : solid text = solid segments.flatten := by
  induction segments generalizing text with
  | nil => rw [spells_nil_iff.mp spells, List.flatten_nil]
  | cons segment segments ih =>
    obtain ⟨piece, rest, rfl, same, later⟩ := spells_cons_iff.mp spells
    rw [List.flatten_cons, solid_append, solid_append, solid_eq_of_trimChars_eq same, ih later]

theorem Spells.cons (same : trimChars a = trimChars b) (spells : Spells segments text) :
    Spells (a :: segments) (b ++ text) :=
  spells_cons_iff.mpr ⟨b, text, rfl, same, spells⟩

theorem Spells.append (first : Spells segments x) (second : Spells more y) :
    Spells (segments ++ more) (x ++ y) := by
  obtain ⟨pieces, rfl, same⟩ := first
  obtain ⟨pieces', rfl, same'⟩ := second
  exact ⟨pieces ++ pieces', List.flatten_append.symm, List.rel_append same same'⟩

theorem Spells.blank_append (spells : Spells segments text) (some : segments ≠ [])
    (blank : isBlank b = true) : Spells segments (b ++ text) := by
  cases segments with
  | nil => exact absurd rfl some
  | cons segment segments =>
    obtain ⟨piece, rest, rfl, same, later⟩ := spells_cons_iff.mp spells
    refine spells_cons_iff.mpr ⟨b ++ piece, rest, (List.append_assoc ..).symm, ?_, later⟩
    rw [trimChars_blank_append blank]
    exact same

theorem Spells.append_blank (spells : Spells segments text) (some : segments ≠ [])
    (blank : isBlank b = true) : Spells segments (text ++ b) := by
  induction segments generalizing text with
  | nil => exact absurd rfl some
  | cons segment segments ih =>
    obtain ⟨piece, rest, rfl, same, later⟩ := spells_cons_iff.mp spells
    cases segments with
    | nil =>
      rw [spells_nil_iff] at later
      subst later
      refine spells_singleton_iff.mpr ?_
      rw [List.append_nil, trimChars_append_blank blank]
      exact same
    | cons next segments =>
      rw [List.append_assoc]
      exact .cons same (ih later (List.cons_ne_nil _ _))

theorem Spells.drop_front (blank : isBlank b = true) (spells : Spells segments (b ++ text)) :
    Spells segments text := by
  induction segments generalizing b with
  | nil =>
    rw [spells_nil_iff] at spells ⊢
    exact (List.append_eq_nil_iff.mp spells).2
  | cons segment segments ih =>
    obtain ⟨piece, rest, split, same, later⟩ := spells_cons_iff.mp spells
    rcases List.append_eq_append_iff.mp split with ⟨more, rfl, rfl⟩ | ⟨more, rfl, rfl⟩
    · rw [trimChars_blank_append blank] at same
      exact .cons same later
    · -- the first piece is part of the white space
      rw [isBlank_append, Bool.and_eq_true] at blank
      rw [trimChars_of_blank blank.1] at same
      exact .cons (b := []) same (ih blank.2 later)

theorem spells_blank (blank : isBlank segments.flatten = true) : Spells segments [] :=
  Spells.drop_front blank (by rw [List.append_nil]; exact spells_flatten segments)

/-- White space behind a text that shows as much as the segments before a seam can be left out.
The induction is over these segments. -/
theorem Spells.drop (blank : isBlank b = true) (here : solid x = solid segments.flatten)
    (spells : Spells (segments ++ more) (x ++ (b ++ y))) :
    Spells (segments ++ more) (x ++ y) := by
  induction segments generalizing x with
  | nil =>
    have blank_x := isBlank_of_solid here
    have behind := (spells.drop_front blank_x).drop_front blank
    cases more with
    | nil =>
      rw [List.append_nil, spells_nil_iff] at spells behind ⊢
      rw [(List.append_eq_nil_iff.mp spells).1, behind]
      rfl
    | cons next more => exact behind.blank_append (List.cons_ne_nil _ _) blank_x
  | cons segment segments ih =>
    rw [List.flatten_cons, solid_append] at here
    obtain ⟨piece, rest, split, same, later⟩ := spells_cons_iff.mp spells
    rw [solid_eq_of_trimChars_eq same] at here
    rcases List.append_eq_append_iff.mp split with ⟨d, rfl, eq⟩ | ⟨d, rfl, eq⟩
    · -- the first piece goes beyond `x`, by white space only
      rw [solid_append, List.append_assoc, List.self_eq_append_right,
        List.append_eq_nil_iff] at here
      have blank_d := isBlank_of_solid here.1
      rw [trimChars_append_blank blank_d] at same
      rcases List.append_eq_append_iff.mp eq with ⟨d', rfl, rfl⟩ | ⟨b', rfl, rfl⟩
      · rw [isBlank_append, Bool.and_eq_true] at blank_d
        rw [← List.append_assoc]
        refine .cons ?_ later
        rw [trimChars_append_blank blank_d.2]
        exact same
      · rw [isBlank_append, Bool.and_eq_true] at blank
        exact .cons same (later.drop_front blank.2)
    · rw [solid_append, List.append_cancel_left_eq] at here
      rw [List.append_assoc]
      exact .cons same (ih here (eq ▸ later))

end KiroRs.Lib.Seams
