/- Path: KiroRs/Lib/Slices
   layer: library
   digest: Texts cut at byte positions: a cut inside a character or behind the end stops the
   computation, and so does a loop that has no rounds left. -/

import KiroRs.Lib.Bytes
import KiroRs.Lib.Checked
import KiroRs.Lib.Search

set_option autoImplicit false
set_option relaxedAutoImplicit false

namespace KiroRs.Lib.Slices

open KiroRs.Lib.Bytes
open KiroRs.Lib.Checked (Fault MayFault)
open KiroRs.Lib.Search
open KiroRs.Lib.Text

/-- A computation with a result, a fault, or loops that do not end in their rounds. -/
abbrev Run (α : Type) := ExceptT Fault Option α

def exhausted {α : Type} : Run α := ExceptT.mk none

/-- A checked difference. -/
def checked {α : Type} (r : MayFault α) : Run α := ExceptT.mk (some r)

@[simp] theorem checked_ok {α : Type} (a : α) : checked (.ok a) = pure a := rfl

/-- The text split before a byte position, which has to be a character boundary. -/
def cut (t : List Char) (n : Nat) : Run (List Char × List Char) :=
  match splitAtByte t n with
  | some p => pure p
  | none => throw (.outOfRange n (byteLength t))

def upTo (t : List Char) (n : Nat) : Run (List Char) := Prod.fst <$> cut t n

def startFrom (t : List Char) (n : Nat) : Run (List Char) := Prod.snd <$> cut t n

def isCharBoundary (t : List Char) (n : Nat) : Bool := (splitAtByte t n).isSome

/-- The text behind a position, if that is a character boundary. -/
def getFrom (t : List Char) (n : Nat) : Option (List Char) := (splitAtByte t n).map Prod.snd

def bytes (t : List Char) : List UInt8 := t.flatMap String.utf8EncodeChar

def byteAt (t : List Char) (n : Nat) : Option UInt8 := (bytes t)[n]?

/-- Where the first occurrence of a pattern begins. -/
def find (needle t : List Char) : Option Nat :=
  (splitFind needle t).map fun p => byteLength p.1

variable {a b t needle : List Char} {c : Char} {n : Nat}

theorem splitAtByte_append (a b : List Char) :
    splitAtByte (a ++ b) (byteLength a) = some (a, b) := by
  induction a with
  | nil => cases b <;> rfl
  | cons c a ih =>
    obtain ⟨m, size⟩ := Nat.exists_eq_succ_of_ne_zero (Nat.ne_of_gt c.utf8Size_pos)
    have length : byteLength (c :: a) = m + byteLength a + 1 := by
      rw [byteLength_cons, size]
      omega
    have later : m + byteLength a + 1 - c.utf8Size = byteLength a := by omega
    rw [List.cons_append, length, splitAtByte, if_pos (by omega), later, ih]
    rfl

@[simp] theorem cut_append (a b : List Char) : cut (a ++ b) (byteLength a) = pure (a, b) := by
  rw [cut, splitAtByte_append]

@[simp] theorem upTo_append (a b : List Char) : upTo (a ++ b) (byteLength a) = pure a := by
  rw [upTo, cut_append, map_pure]

@[simp] theorem startFrom_append (a b : List Char) :
    startFrom (a ++ b) (byteLength a) = pure b := by
  rw [startFrom, cut_append, map_pure]

@[simp] theorem getFrom_append (a b : List Char) : getFrom (a ++ b) (byteLength a) = some b := by
  rw [getFrom, splitAtByte_append]
  rfl

theorem isCharBoundary_iff :
    isCharBoundary t n = true ↔ ∃ head tail, t = head ++ tail ∧ byteLength head = n :=
  splitAtByte_isSome

theorem isCharBoundary_append (a b : List Char) : isCharBoundary (a ++ b) (byteLength a) = true :=
  isCharBoundary_iff.mpr ⟨a, b, rfl, rfl⟩

theorem prefix_of_byteLength_le {a' b' : List Char} (same : a ++ b = a' ++ b')
    (le : byteLength a ≤ byteLength a') : a <+: a' := by
  rcases List.prefix_or_prefix_of_prefix (List.prefix_append a b)
    (same ▸ List.prefix_append a' b') with shorter | longer
  · exact shorter
  · obtain ⟨rest, rfl⟩ := longer
    rw [byteLength_append] at le
    have empty : rest = [] := by
      have short := length_le_byteLength rest
      exact List.length_eq_zero_iff.mp (by omega)
    rw [empty, List.append_nil]

/-- Between two boundaries of neighbouring characters there is none. -/
theorem not_isCharBoundary (behind : byteLength a < n)
    (before : n < byteLength a + c.utf8Size) : isCharBoundary (a ++ c :: b) n = false := by
  rw [Bool.eq_false_iff]
  intro boundary
  obtain ⟨head, tail, split, length⟩ := isCharBoundary_iff.mp boundary
  have longer : a <+: head := prefix_of_byteLength_le split (by omega)
  obtain ⟨more, rfl⟩ := longer
  rw [List.append_assoc, List.append_cancel_left_eq] at split
  cases more with
  | nil =>
    rw [List.append_nil] at length
    omega
  | cons d more =>
    cases split
    rw [byteLength_append, byteLength_cons] at length
    omega

@[simp] theorem bytes_append : bytes (a ++ b) = bytes a ++ bytes b := List.flatMap_append

@[simp] theorem length_bytes (t : List Char) : (bytes t).length = byteLength t := by
  induction t with
  | nil => rfl
  | cons c t ih =>
    rw [bytes, List.flatMap_cons, List.length_append, String.length_utf8EncodeChar, ← bytes, ih,
      byteLength_cons]

theorem byteAt_append (a b : List Char) : byteAt (a ++ b) (byteLength a) = (bytes b).head? := by
  rw [byteAt, bytes_append, ← length_bytes a, List.getElem?_append_right (Nat.le_refl _),
    Nat.sub_self, List.head?_eq_getElem?]

theorem byteAt_pred (a b : List Char) (some : 0 < byteLength a) :
    byteAt (a ++ b) (byteLength a - 1) = (bytes a).getLast? := by
  rw [byteAt, bytes_append, ← length_bytes a] at *
  rw [List.getElem?_append_left (by omega), List.getLast?_eq_getElem?]

theorem utf8EncodeChar_of_ascii (ascii : Ascii c) :
    String.utf8EncodeChar c = [UInt8.ofNat c.toNat] :=
  if_pos (Nat.le_of_lt_succ ascii)

theorem toNat_of_ascii (ascii : Ascii c) : (UInt8.ofNat c.toNat).toNat = c.toNat :=
  UInt8.toNat_ofNat_of_lt' (Nat.lt_trans ascii (by decide))

theorem le_of_mem_utf8EncodeChar (long : ¬ Ascii c) {byte : UInt8}
    (mem : byte ∈ String.utf8EncodeChar c) : 128 ≤ byte.toNat := by
  have more : 128 ≤ c.toNat := Nat.le_of_not_lt long
  have same : c.val.toNat = c.toNat := rfl
  unfold String.utf8EncodeChar at mem
  simp only [same] at mem
  split_ifs at mem with one two three
  · omega
  · simp only [List.mem_cons, List.not_mem_nil, or_false] at mem
    rcases mem with rfl | rfl <;> simp <;> omega
  · simp only [List.mem_cons, List.not_mem_nil, or_false] at mem
    rcases mem with rfl | rfl | rfl <;> simp <;> omega
  · simp only [List.mem_cons, List.not_mem_nil, or_false] at mem
    rcases mem with rfl | rfl | rfl | rfl <;> simp <;> omega

/-- A byte of a character is among those of ASCII characters just if the character is one of
them. -/
theorem contains_byte_iff {set : List Char} (ascii : ∀ c ∈ set, Ascii c) {byte : UInt8}
    (mem : byte ∈ String.utf8EncodeChar c) : (bytes set).contains byte = set.contains c := by
  rw [Bool.eq_iff_iff, List.contains_iff_mem, List.contains_iff_mem, bytes, List.mem_flatMap]
  constructor
  · rintro ⟨d, inside, of_d⟩
    have small : Ascii d := ascii d inside
    rw [utf8EncodeChar_of_ascii small, List.mem_singleton] at of_d
    by_cases short : Ascii c
    · rw [utf8EncodeChar_of_ascii short, List.mem_singleton, of_d] at mem
      have same := congrArg UInt8.toNat mem
      rw [toNat_of_ascii small, toNat_of_ascii short] at same
      rw [← Char.toNat_inj.mp same]
      exact inside
    · have high := le_of_mem_utf8EncodeChar short mem
      rw [of_d, toNat_of_ascii small] at high
      exact absurd high (Nat.not_le_of_lt small)
  · exact fun inside => ⟨c, inside, mem⟩

theorem find_eq_none : find needle t = none ↔ splitFind needle t = none := by
  rw [find, Option.map_eq_none_iff]

theorem find_of_splitFind (found : splitFind needle t = some (a, b)) :
    find needle t = some (byteLength a) := by
  rw [find, found]
  rfl

end KiroRs.Lib.Slices
