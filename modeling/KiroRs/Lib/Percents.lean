/- Path: KiroRs/Lib/Percents
   layer: library
   digest: Percent encoding of the bytes of a text, and that decoding takes it back. -/

import KiroRs.Lib.Slices

set_option autoImplicit false
set_option relaxedAutoImplicit false

namespace KiroRs.Lib.Percents

open KiroRs.Lib.Bytes (Ascii)
open KiroRs.Lib.Slices (bytes bytes_append utf8EncodeChar_of_ascii)

/-- The characters that are never encoded. -/
def isUnreserved (c : Char) : Bool := c.isAlphanum || c == '-' || c == '_' || c == '.' || c == '~'

def hexDigits : List Char := "0123456789ABCDEF".toList

def hexDigit (n : Nat) : Char := hexDigits.getD n '0'

def charOf (b : UInt8) : Char := Char.ofNat b.toNat

def byteOf (c : Char) : UInt8 := UInt8.ofNat c.toNat

/-- A byte is its character, or the sign and two digits. -/
def encodeByte (b : UInt8) : List Char :=
  if b.toNat < 128 ∧ isUnreserved (charOf b) = true then [charOf b]
  else ['%', hexDigit (b.toNat / 16), hexDigit (b.toNat % 16)]

def encode (s : String) : String := String.ofList ((bytes s.toList).flatMap encodeByte)

def fromHexDigit (b : UInt8) : Option Nat :=
  let c := (charOf b).toUpper
  if c ∈ hexDigits then some (hexDigits.idxOf c) else none

/-- A sign that no two digits follow is kept. -/
def decodeBytes : List UInt8 → List UInt8
  | [] => []
  | b :: rest =>
    if charOf b = '%' then
      match rest with
      | first :: second :: later =>
        match fromHexDigit first, fromHexDigit second with
        | some high, some low => UInt8.ofNat (16 * high + low) :: decodeBytes later
        | _, _ => b :: decodeBytes (first :: second :: later)
      | short => b :: short
    else b :: decodeBytes rest

/-- `none` where the bytes are not UTF-8. -/
def decode (t : String) : Option String :=
  String.fromUTF8? (decodeBytes (bytes t.toList)).toByteArray

theorem forall_byte {p : UInt8 → Prop} (each : ∀ n < 256, p (UInt8.ofNat n)) (b : UInt8) : p b := by
  have here := each b.toNat b.toNat_lt_size
  rwa [UInt8.ofNat_toNat] at here

/-- What is written for a byte is ASCII, and it is read as the byte. -/
theorem encodeByte_ascii (b : UInt8) : ∀ c ∈ encodeByte b, Ascii c ∧
    (isUnreserved c = true ∨ c = '%') := by
  have each : ∀ n < 256, (encodeByte (UInt8.ofNat n)).all
      (fun c => decide (c.toNat < 128) && (isUnreserved c || c == '%')) = true := by
    decide +kernel
  intro c mem
  have all := List.all_eq_true.mp (forall_byte (p := fun b => (encodeByte b).all
    (fun c => decide (c.toNat < 128) && (isUnreserved c || c == '%')) = true) each b) c mem
  rw [Bool.and_eq_true, Bool.or_eq_true, beq_iff_eq, decide_eq_true_eq] at all
  exact all

theorem digits_read (b : UInt8) :
    fromHexDigit (byteOf (hexDigit (b.toNat / 16))) = some (b.toNat / 16) ∧
      fromHexDigit (byteOf (hexDigit (b.toNat % 16))) = some (b.toNat % 16) := by
  have each : ∀ n < 16, fromHexDigit (byteOf (hexDigit n)) = some n := by decide +kernel
  have small := b.toNat_lt_size
  exact ⟨each _ (by simp only [UInt8.size] at small; omega), each _ (Nat.mod_lt _ (by decide))⟩

theorem not_sign (b : UInt8) (kept : b.toNat < 128 ∧ isUnreserved (charOf b) = true) :
    byteOf (charOf b) = b ∧ charOf b ≠ '%' := by
  have each : ∀ n < 256, (UInt8.ofNat n).toNat < 128 ∧ isUnreserved (charOf (UInt8.ofNat n)) = true →
      byteOf (charOf (UInt8.ofNat n)) = UInt8.ofNat n ∧ charOf (UInt8.ofNat n) ≠ '%' := by
    decide +kernel
  exact forall_byte (p := fun b => b.toNat < 128 ∧ isUnreserved (charOf b) = true →
    byteOf (charOf b) = b ∧ charOf b ≠ '%') each b kept

theorem decodeBytes_other {b : UInt8} (other : charOf b ≠ '%') (rest : List UInt8) :
    decodeBytes (b :: rest) = b :: decodeBytes rest := by
  rcases rest with _ | ⟨first, _ | ⟨second, later⟩⟩ <;> simp [decodeBytes, other]

theorem decode_encodeByte (b : UInt8) (rest : List UInt8) :
    decodeBytes ((encodeByte b).map byteOf ++ rest) = b :: decodeBytes rest := by
  rw [encodeByte]
  split_ifs with kept
  · obtain ⟨same, other⟩ := not_sign b kept
    rw [List.map_singleton, List.singleton_append, same, decodeBytes_other other]
  · obtain ⟨high, low⟩ := digits_read b
    have sign : charOf (byteOf '%') = '%' := by decide
    have value : UInt8.ofNat (16 * (b.toNat / 16) + b.toNat % 16) = b := by
      rw [Nat.div_add_mod, UInt8.ofNat_toNat]
    rw [List.map_cons, List.map_cons, List.map_cons, List.map_nil, List.cons_append,
      List.cons_append, List.cons_append, List.nil_append, decodeBytes, if_pos sign]
    simp only [high, low, value]

theorem decode_encodeBytes (bs : List UInt8) :
    decodeBytes ((bs.flatMap encodeByte).map byteOf) = bs := by
  induction bs with
  | nil => rfl
  | cons b bs ih => rw [List.flatMap_cons, List.map_append, decode_encodeByte, ih]

theorem bytes_of_ascii {l : List Char} (ascii : ∀ c ∈ l, Ascii c) : bytes l = l.map byteOf := by
  induction l with
  | nil => rfl
  | cons c l ih =>
    obtain ⟨here, rest⟩ := List.forall_mem_cons.mp ascii
    rw [bytes, List.flatMap_cons, utf8EncodeChar_of_ascii here, List.map_cons, ← ih rest]
    rfl

theorem fromUTF8_bytes (s : String) : String.fromUTF8? (bytes s.toList).toByteArray = some s := by
  have same : (bytes s.toList).toByteArray = s.toByteArray := by
    conv_rhs => rw [← String.ofList_toList (s := s), String.toByteArray_ofList]
    rfl
  rw [same, String.fromUTF8?, dif_pos s.isValidUTF8]
  rfl

theorem encoded_mem (s : String) {c : Char} (mem : c ∈ (encode s).toList) :
    Ascii c ∧ (isUnreserved c = true ∨ c = '%') := by
  rw [encode, String.toList_ofList] at mem
  obtain ⟨b, -, here⟩ := List.mem_flatMap.mp mem
  exact encodeByte_ascii b c here

theorem decode_encode (s : String) : decode (encode s) = some s := by
  have ascii : ∀ c ∈ (encode s).toList, Ascii c := fun c mem => (encoded_mem s mem).1
  rw [decode, bytes_of_ascii ascii, encode, String.toList_ofList, decode_encodeBytes,
    fromUTF8_bytes]

theorem unreserved_ascii {c : Char} (kept : isUnreserved c = true) : Ascii c := by
  have same : c.val.toNat = c.toNat := rfl
  have upper : c.isUpper = decide ('A'.val ≤ c.val ∧ c.val ≤ 'Z'.val) := rfl
  have lower : c.isLower = (decide ('a'.val ≤ c.val) && decide (c.val ≤ 'z'.val)) := rfl
  have digit : c.isDigit = (decide ('0'.val ≤ c.val) && decide (c.val ≤ '9'.val)) := rfl
  have alphanum : c.isAlphanum = (c.isUpper || c.isLower || c.isDigit) := rfl
  simp only [isUnreserved, alphanum, upper, lower, digit, Bool.or_eq_true, Bool.and_eq_true,
    decide_eq_true_eq, beq_iff_eq, UInt32.le_iff_toNat_le, same] at kept
  rcases kept with ((((letter | digit) | rfl) | rfl) | rfl) | rfl
  · rcases letter with ⟨-, below⟩ | ⟨-, below⟩
    · exact lt_of_le_of_lt below (by decide)
    · exact lt_of_le_of_lt below (by decide)
  · exact lt_of_le_of_lt digit.2 (by decide)
  all_goals decide

theorem encodeByte_unreserved {c : Char} (kept : isUnreserved c = true) :
    encodeByte (byteOf c) = [c] := by
  have ascii := unreserved_ascii kept
  have back : (byteOf c).toNat = c.toNat := KiroRs.Lib.Slices.toNat_of_ascii ascii
  have same : charOf (byteOf c) = c := by
    rw [charOf, back, Char.ofNat_toNat]
  rw [encodeByte, same, back, if_pos ⟨ascii, kept⟩]

theorem encode_unreserved {s : String} (kept : ∀ c ∈ s.toList, isUnreserved c = true) :
    encode s = s := by
  have each : ∀ l : List Char, (∀ c ∈ l, isUnreserved c = true) →
      (l.map byteOf).flatMap encodeByte = l := by
    intro l
    induction l with
    | nil => exact fun _ => rfl
    | cons c l ih =>
      intro all
      obtain ⟨here, rest⟩ := List.forall_mem_cons.mp all
      rw [List.map_cons, List.flatMap_cons, encodeByte_unreserved here, ih rest]
      rfl
  rw [encode, bytes_of_ascii fun c mem => unreserved_ascii (kept c mem), each _ kept,
    String.ofList_toList]

end KiroRs.Lib.Percents
