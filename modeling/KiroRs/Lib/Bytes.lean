/- Path: KiroRs/Lib/Bytes
   layer: library
   digest: The length of texts in bytes, beside their length in characters. -/

import Mathlib.Algebra.BigOperators.Group.List.Basic
import KiroRs.Lib.Text

set_option autoImplicit false
set_option relaxedAutoImplicit false

namespace KiroRs.Lib.Bytes

open KiroRs.Lib.Text

variable {t u : List Char} {c : Char}

@[simp] theorem byteLength_nil : byteLength [] = 0 := rfl

@[simp] theorem byteLength_cons : byteLength (c :: t) = c.utf8Size + byteLength t := by
  rw [byteLength, List.map_cons, List.sum_cons, ← byteLength]

@[simp] theorem byteLength_append : byteLength (t ++ u) = byteLength t + byteLength u := by
  rw [byteLength, List.map_append, List.sum_append, ← byteLength, ← byteLength]

theorem utf8ByteSize_eq (s : String) : s.utf8ByteSize = byteLength s.toList := by
  conv_lhs => rw [← String.ofList_toList (s := s)]
  exact utf8ByteSize_ofList _

theorem length_le_byteLength (t : List Char) : t.length ≤ byteLength t := by
  induction t with
  | nil => exact le_refl 0
  | cons c t ih =>
    have pos := c.utf8Size_pos
    rw [List.length_cons, byteLength_cons]
    omega

/-- Characters of one byte. -/
def Ascii (c : Char) : Prop := c.toNat < 128

instance (c : Char) : Decidable (Ascii c) := inferInstanceAs (Decidable (c.toNat < 128))

theorem utf8Size_eq_one_iff : c.utf8Size = 1 ↔ Ascii c := by
  rw [Char.utf8Size_eq_one_iff, UInt32.le_iff_toNat_le]
  exact Nat.lt_succ_iff.symm

/-- A text has no more bytes than characters exactly if it is ASCII. -/
theorem byteLength_le_length_iff : byteLength t ≤ t.length ↔ ∀ c ∈ t, Ascii c := by
  induction t with
  | nil => simp
  | cons c t ih =>
    have pos := c.utf8Size_pos
    have more := length_le_byteLength t
    rw [byteLength_cons, List.length_cons, List.forall_mem_cons, ← ih, ← utf8Size_eq_one_iff]
    constructor
    · intro le
      constructor
      · omega
      · omega
    · rintro ⟨one, le⟩
      omega

end KiroRs.Lib.Bytes
