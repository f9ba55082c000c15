/- Path: KiroRs/Lib/Received
   layer: library
   digest: What a lossy reading of received bytes makes of the ASCII text they begin with. -/

import KiroRs.Lib.Percents
import KiroRs.Lib.Wire

set_option autoImplicit false
set_option relaxedAutoImplicit false

namespace KiroRs.Lib.Received

open KiroRs.Lib.Bytes
open KiroRs.Lib.Percents (byteOf bytes_of_ascii fromUTF8_bytes)
open KiroRs.Lib.Slices
open KiroRs.Lib.Wire

variable {l t : List Char} {c : Char} {rest : List UInt8}

theorem bytes_toList (s : String) : bytes s.toList = utf8Bytes s := by
  have whole : (bytes s.toList).toByteArray = s.toByteArray := by
    conv_rhs => rw [← String.ofList_toList (s := s), String.toByteArray_ofList]
    rfl
  have data := congrArg (fun b => b.data.toList) whole
  rw [List.data_toByteArray] at data
  exact data

theorem bytes_of_fromUTF8 {bs : List UInt8} {s : String}
    (decoded : String.fromUTF8? ⟨bs.toArray⟩ = some s) : bytes s.toList = bs := by
  rw [bytes_toList]
  unfold String.fromUTF8? at decoded
  split_ifs at decoded
  cases decoded
  rfl

/-- A text whose bytes begin with that of an ASCII character begins with the character. -/
theorem cons_of_bytes (ascii : Ascii c) (same : bytes t = byteOf c :: rest) :
    ∃ back, t = c :: back ∧ bytes back = rest := by
  cases t with
  | nil => cases same
  | cons d back =>
    have first : byteOf c ∈ String.utf8EncodeChar d := by
      have begins : String.utf8EncodeChar d ++ bytes back = byteOf c :: rest := same
      cases encoded : String.utf8EncodeChar d with
      | nil =>
        have length := String.length_utf8EncodeChar d
        rw [encoded] at length
        exact absurd length (Nat.ne_of_lt d.utf8Size_pos)
      | cons b more =>
        rw [encoded, List.cons_append] at begins
        rw [(List.cons.inj begins).1]
        exact List.mem_cons_self
    have small : (byteOf c).toNat = c.toNat := toNat_of_ascii ascii
    have short : Ascii d := by
      by_contra long
      have large := le_of_mem_utf8EncodeChar long first
      rw [small] at large
      exact absurd ascii (Nat.not_lt.mpr large)
    rw [bytes, List.flatMap_cons, utf8EncodeChar_of_ascii short] at same
    obtain ⟨byte, behind⟩ := List.cons.inj same
    have code : d.toNat = c.toNat := by
      rw [← toNat_of_ascii short, ← small, byte]
    exact ⟨back, by rw [Char.toNat_inj.mp code], behind⟩

theorem append_of_bytes (ascii : ∀ c ∈ l, Ascii c) (same : bytes t = bytes l ++ rest) :
    ∃ back, t = l ++ back := by
  induction l generalizing t with
  | nil => exact ⟨t, rfl⟩
  | cons c l ih =>
    obtain ⟨here, later⟩ := List.forall_mem_cons.mp ascii
    rw [bytes_of_ascii ascii, List.map_cons, List.cons_append, ← bytes_of_ascii later] at same
    obtain ⟨back, rfl, behind⟩ := cons_of_bytes here same
    obtain ⟨back, rfl⟩ := ih later behind
    exact ⟨back, rfl⟩

theorem replaceInvalid_cons (ascii : Ascii c) (rest : List UInt8) :
    replaceInvalid (byteOf c :: rest) = c :: replaceInvalid rest := by
  have small : (byteOf c).toNat = c.toNat := toNat_of_ascii ascii
  have one : utf8Width (byteOf c) = 1 := by
    rw [utf8Width, if_pos]
    rw [UInt8.lt_iff_toNat_lt, small]
    exact ascii
  have alone : subpart (byteOf c) rest = 1 := by
    rw [subpart.eq_def, one]
    rfl
  have decoded : String.fromUTF8? ⟨[byteOf c].toArray⟩ = some (String.ofList [c]) := by
    have back := fromUTF8_bytes (String.ofList [c])
    have single : bytes [c] = [byteOf c] := bytes_of_ascii (List.forall_mem_singleton.mpr ascii)
    rw [String.toList_ofList, single] at back
    exact back
  rw [replaceInvalid, alone]
  simp only [List.take_succ_cons, List.take_zero, List.drop_succ_cons, List.drop_zero, decoded,
    String.toList_ofList, List.cons_append, List.nil_append]

theorem replaceInvalid_append (ascii : ∀ c ∈ l, Ascii c) (rest : List UInt8) :
    replaceInvalid (bytes l ++ rest) = l ++ replaceInvalid rest := by
  induction l with
  | nil => rfl
  | cons c l ih =>
    obtain ⟨here, later⟩ := List.forall_mem_cons.mp ascii
    rw [bytes_of_ascii ascii, List.map_cons, List.cons_append, replaceInvalid_cons here,
      ← bytes_of_ascii later, ih later, List.cons_append]

theorem fromUtf8Lossy_append (ascii : ∀ c ∈ l, Ascii c) (rest : List UInt8) :
    ∃ back, (fromUtf8Lossy (bytes l ++ rest)).toList = l ++ back := by
  rw [fromUtf8Lossy]
  cases decoded : String.fromUTF8? ⟨(bytes l ++ rest).toArray⟩ with
  | some s => exact append_of_bytes ascii (bytes_of_fromUTF8 decoded)
  | none => exact ⟨replaceInvalid rest, by rw [← replaceInvalid_append ascii]; simp⟩

theorem fromUtf8Lossy_bytes (l : List Char) : (fromUtf8Lossy (bytes l)).toList = l := by
  have read := fromUtf8Lossy_utf8Bytes (String.ofList l)
  rw [← bytes_toList, String.toList_ofList] at read
  rw [read, String.toList_ofList]

theorem length_bytes_of_ascii (ascii : ∀ c ∈ l, Ascii c) : (bytes l).length = l.length := by
  rw [bytes_of_ascii ascii, List.length_map]

theorem take_bytes (ascii : ∀ c ∈ l, Ascii c) (n : Nat) : (bytes l).take n = bytes (l.take n) := by
  rw [bytes_of_ascii ascii, bytes_of_ascii fun c mem => ascii c (List.mem_of_mem_take mem),
    List.map_take]

end KiroRs.Lib.Received
