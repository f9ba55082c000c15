/- Path: KiroRs/Lib/Text
   layer: library
   digest: The string tests of the source language's standard library: substrings, ASCII case,
   white space and trimming. -/

import Mathlib.Algebra.Order.Ring.Int
import Mathlib.Data.List.Infix
import Mathlib.Data.List.DropRight
import Mathlib.Data.List.Induction

set_option autoImplicit false
set_option relaxedAutoImplicit false

namespace KiroRs.Lib.Text

/-- The two full Unicode case maps. -/
structure CaseMaps where
  toLowercase : String → String
  toUppercase : String → String

def CaseMaps.ascii : CaseMaps := ⟨String.toLower, String.toUpper⟩

def contains (s needle : String) : Bool := decide (needle.toList <:+: s.toList)

def startsWith (s pre : String) : Bool := decide (pre.toList <+: s.toList)

def endsWith (s post : String) : Bool := decide (post.toList <:+ s.toList)

def eqIgnoreAsciiCase (s t : String) : Bool := s.toLower == t.toLower

/-- The Unicode property White_Space. -/
def isWhitespace (c : Char) : Bool :=
  let n := c.toNat
  (9 ≤ n && n ≤ 13) || n == 32 || n == 0x85 || n == 0xA0 || n == 0x1680 ||
    (0x2000 ≤ n && n ≤ 0x200A) || n == 0x2028 || n == 0x2029 || n == 0x202F || n == 0x205F ||
    n == 0x3000

def trimStart (t : List Char) : List Char := t.dropWhile isWhitespace

def trimEnd (t : List Char) : List Char := t.rdropWhile isWhitespace

def trimChars (t : List Char) : List Char := trimEnd (trimStart t)

def trim (s : String) : String := String.ofList (trimChars s.toList)

/-- `trim_end_matches` of one character. -/
def trimEndMatches (s : String) (c : Char) : String := String.ofList (s.toList.rdropWhile (· == c))

theorem utf8ByteSize_ofList (t : List Char) :
    (String.ofList t).utf8ByteSize = (t.map Char.utf8Size).sum := by
  induction t with
  | nil => rfl
  | cons c t ih =>
    rw [String.ofList_cons, String.utf8ByteSize_append, String.utf8ByteSize_singleton, ih]
    rfl

theorem utf8ByteSize_le (s : String) : s.utf8ByteSize ≤ 4 * s.toList.length := by
  have bound : ∀ t : List Char, (t.map Char.utf8Size).sum ≤ 4 * t.length := by
    intro t
    induction t with
    | nil => exact Nat.le_refl 0
    | cons c t ih =>
      have := c.utf8Size_le_four
      rw [List.map_cons, List.sum_cons, List.length_cons]
      omega
  rw [← String.ofList_toList (s := s), utf8ByteSize_ofList, String.toList_ofList]
  exact bound s.toList

/-- The text split before a byte position, if that is a character boundary within it. -/
def splitAtByte : List Char → Nat → Option (List Char × List Char)
  | t, 0 => some ([], t)
  | [], _ + 1 => none
  | c :: t, n + 1 =>
    if c.utf8Size ≤ n + 1 then
      (splitAtByte t (n + 1 - c.utf8Size)).map fun p => (c :: p.1, p.2)
    else none

/-- The length of a text in bytes. -/
def byteLength (t : List Char) : Nat := (t.map Char.utf8Size).sum

/-- A text can be cut exactly where a character ends. -/
theorem splitAtByte_isSome {t : List Char} {n : Nat} :
    (splitAtByte t n).isSome = true ↔ ∃ head tail, t = head ++ tail ∧ byteLength head = n := by
  induction t generalizing n with
  | nil =>
    cases n with
    | zero => exact ⟨fun _ => ⟨[], [], rfl, rfl⟩, fun _ => rfl⟩
    | succ n =>
      constructor
      · intro none
        cases none
      · rintro ⟨head, tail, split, length⟩
        rw [(List.append_eq_nil_iff.mp split.symm).1] at length
        cases length
  | cons c t ih =>
    cases n with
    | zero => exact ⟨fun _ => ⟨[], c :: t, rfl, rfl⟩, fun _ => rfl⟩
    | succ n =>
      have pos := c.utf8Size_pos
      rw [splitAtByte]
      by_cases fits : c.utf8Size ≤ n + 1
      · rw [if_pos fits, Option.isSome_map, ih]
        constructor
        · rintro ⟨head, tail, rfl, length⟩
          refine ⟨c :: head, tail, rfl, ?_⟩
          rw [byteLength] at length ⊢
          rw [List.map_cons, List.sum_cons, length]
          omega
        · rintro ⟨head, tail, split, length⟩
          cases head with
          | nil => cases length
          | cons d head =>
            cases split
            refine ⟨head, tail, rfl, ?_⟩
            rw [byteLength] at length ⊢
            rw [List.map_cons, List.sum_cons] at length
            omega
      · rw [if_neg fits]
        constructor
        · intro none
          cases none
        · rintro ⟨head, tail, split, length⟩
          cases head with
          | nil => cases length
          | cons d head =>
            cases split
            rw [byteLength, List.map_cons, List.sum_cons] at length
            omega

/-- The text is empty or white space only. -/
def isBlank (t : List Char) : Bool := t.all isWhitespace

/-- The characters of a text that are no white space. -/
def solid (t : List Char) : List Char := t.filter (!isWhitespace ·)

theorem isBlank_append {a b : List Char} : isBlank (a ++ b) = (isBlank a && isBlank b) :=
  List.all_append

@[simp] theorem solid_append (a b : List Char) : solid (a ++ b) = solid a ++ solid b :=
  List.filter_append ..

theorem solid_of_blank {t : List Char} (blank : isBlank t = true) : solid t = [] := by
  unfold solid
  rw [List.filter_eq_nil_iff]
  intro c mem
  simpa using List.all_eq_true.mp blank c mem

theorem isBlank_of_solid {t : List Char} (none : solid t = []) : isBlank t = true := by
  unfold solid at none
  rw [List.filter_eq_nil_iff] at none
  unfold isBlank
  rw [List.all_eq_true]
  intro c mem
  simpa using none c mem

theorem solid_trimStart (t : List Char) : solid (trimStart t) = solid t := by
  have blank : isBlank (t.takeWhile isWhitespace) = true :=
    List.all_eq_true.mpr fun _ mem => List.mem_takeWhile_imp mem
  have split : t.takeWhile isWhitespace ++ trimStart t = t := List.takeWhile_append_dropWhile
  conv_rhs => rw [← split, solid_append, solid_of_blank blank, List.nil_append]

theorem trimStart_blank_append {a b : List Char} (blank : isBlank a = true) :
    trimStart (a ++ b) = trimStart b :=
  List.dropWhile_append_of_pos (List.all_eq_true.mp blank)

theorem trimEnd_append_blank {a b : List Char} (blank : isBlank b = true) :
    trimEnd (a ++ b) = trimEnd a := by
  induction b using List.reverseRecOn with
  | nil => rw [List.append_nil]
  | append_singleton b c ih =>
    rw [isBlank_append, Bool.and_eq_true] at blank
    have space : isWhitespace c = true := by simpa [isBlank] using blank.2
    rw [← List.append_assoc, trimEnd, List.rdropWhile_concat_pos _ _ _ space]
    exact ih blank.1

theorem trimStart_of_blank {t : List Char} (blank : isBlank t = true) : trimStart t = [] := by
  have := trimStart_blank_append (b := []) blank
  rwa [List.append_nil] at this

theorem trimStart_append {a b : List Char} (solid_a : isBlank a = false) :
    trimStart (a ++ b) = trimStart a ++ b := by
  unfold trimStart
  rw [List.dropWhile_append, if_neg]
  intro empty
  have all : isBlank a = true := by
    unfold isBlank
    rw [List.all_eq_true]
    exact List.dropWhile_eq_nil_iff.mp (List.isEmpty_iff.mp empty)
  rw [all] at solid_a
  cases solid_a

@[simp] theorem trimChars_blank_append {a b : List Char} (blank : isBlank a = true) :
    trimChars (a ++ b) = trimChars b := by
  unfold trimChars
  rw [trimStart_blank_append blank]

@[simp] theorem trimChars_append_blank {a b : List Char} (blank : isBlank b = true) :
    trimChars (a ++ b) = trimChars a := by
  unfold trimChars
  cases blank_a : isBlank a with
  | true =>
    rw [trimStart_blank_append blank_a, trimStart_of_blank blank, trimStart_of_blank blank_a]
  | false => rw [trimStart_append blank_a, trimEnd_append_blank blank]

theorem trimChars_of_blank {t : List Char} (blank : isBlank t = true) : trimChars t = [] := by
  unfold trimChars
  rw [trimStart_of_blank blank]
  rfl

theorem exists_trimChars (t : List Char) :
    ∃ lead trail, isBlank lead = true ∧ isBlank trail = true ∧ t = lead ++ trimChars t ++ trail := by
  refine ⟨t.takeWhile isWhitespace, (trimStart t).rtakeWhile isWhitespace, ?_, ?_, ?_⟩
  · exact List.all_eq_true.mpr fun c mem => List.mem_takeWhile_imp mem
  · exact List.all_eq_true.mpr fun c mem => List.mem_rtakeWhile_imp mem
  · unfold trimChars trimEnd
    rw [List.append_assoc, List.rdropWhile_append_rtakeWhile, trimStart,
      List.takeWhile_append_dropWhile]

theorem trimChars_inside (t : List Char) : trimChars t <:+: t := by
  obtain ⟨lead, trail, -, -, eq⟩ := exists_trimChars t
  exact ⟨lead, trail, eq.symm⟩

theorem length_trimChars_le (t : List Char) : (trimChars t).length ≤ t.length :=
  (trimChars_inside t).length_le

@[simp] theorem solid_trimChars (t : List Char) : solid (trimChars t) = solid t := by
  obtain ⟨lead, trail, blank_lead, blank_trail, eq⟩ := exists_trimChars t
  conv_rhs => rw [eq]
  simp [solid_of_blank blank_lead, solid_of_blank blank_trail]

theorem solid_eq_of_trimChars_eq {a b : List Char} (eq : trimChars a = trimChars b) :
    solid a = solid b := by
  rw [← solid_trimChars a, eq, solid_trimChars]

theorem trimStart_cons {c : Char} {t : List Char} (solid_c : isWhitespace c = false) :
    trimStart (c :: t) = c :: t := by
  unfold trimStart
  rw [List.dropWhile_cons_of_neg (by simp [solid_c])]

theorem trimEnd_of_solid {t : List Char} (solid_t : ∀ c ∈ t, isWhitespace c = false) :
    trimEnd t = t := by
  unfold trimEnd
  rw [List.rdropWhile_eq_self_iff]
  intro nonempty
  simp [solid_t _ (List.getLast_mem nonempty)]

theorem trimChars_of_solid {t : List Char} (solid_t : ∀ c ∈ t, isWhitespace c = false) :
    trimChars t = t := by
  unfold trimChars
  cases t with
  | nil => rfl
  | cons c t => rw [trimStart_cons (solid_t c List.mem_cons_self), trimEnd_of_solid solid_t]

theorem isBlank_of_trimChars {t : List Char} (none : trimChars t = []) : isBlank t = true :=
  isBlank_of_solid (by rw [← solid_trimChars, none]; rfl)

@[simp] theorem trimChars_trimChars (t : List Char) : trimChars (trimChars t) = trimChars t := by
  obtain ⟨lead, trail, blank_lead, blank_trail, eq⟩ := exists_trimChars t
  conv_rhs => rw [eq, trimChars_append_blank blank_trail, trimChars_blank_append blank_lead]

theorem eq_nil_of_trimChars_append {t a b : List Char} (eq : trimChars t = a ++ b)
    (blank : isBlank b = true) : b = [] := by
  have idem := trimChars_trimChars t
  rw [eq, trimChars_append_blank blank] at idem
  have lengths := congrArg List.length idem
  have := length_trimChars_le a
  rw [List.length_append] at lengths
  exact List.length_eq_zero_iff.mp (by omega)

/-- A pattern that begins with no white space is not found across a blank front. -/
theorem infix_of_blank_append {needle a b : List Char} {c : Char} {rest : List Char}
    (head : needle = c :: rest) (solid_c : isWhitespace c = false) (blank : isBlank a = true)
    (inside : needle <:+: a ++ b) : needle <:+: b := by
  induction a with
  | nil => exact inside
  | cons d a ih =>
    have blank_parts : isWhitespace d = true ∧ isBlank a = true := by simpa [isBlank] using blank
    rw [List.cons_append, List.infix_cons_iff] at inside
    rcases inside with starts | inside
    · rw [head, List.cons_prefix_cons] at starts
      rw [starts.1, blank_parts.1] at solid_c
      cases solid_c
    · exact ih blank_parts.2 inside

theorem infix_of_append_blank {needle a b : List Char} {c : Char} {r : List Char}
    (last : needle = r ++ [c]) (solid_c : isWhitespace c = false) (blank : isBlank b = true)
    (inside : needle <:+: a ++ b) : needle <:+: a := by
  have blank_reverse : isBlank b.reverse = true := by
    unfold isBlank at blank ⊢
    rw [List.all_reverse]
    exact blank
  have head : needle.reverse = c :: r.reverse := by
    rw [last, List.reverse_append]
    rfl
  rw [← List.reverse_infix, List.reverse_append] at inside
  exact List.reverse_infix.mp (infix_of_blank_append head solid_c blank_reverse inside)

end KiroRs.Lib.Text
