/- Path: KiroRs/Lib/Wire
   layer: library
   digest: Big-endian fixed-width naturals and lossy UTF-8 decoding over lists of bytes. -/

import Mathlib.Data.List.Induction
import Mathlib.Tactic.Ring

set_option autoImplicit false
set_option relaxedAutoImplicit false

namespace KiroRs.Lib.Wire

abbrev Bytes := List UInt8

/-- The half-open slice `data[i..j]`; callers keep `i ≤ j ≤ data.length`. -/
def slice (data : Bytes) (i j : Nat) : Bytes := (data.take j).drop i

def beNat : Bytes → Nat := List.foldl (fun acc b => acc * 256 + b.toNat) 0

/-- The big-endian byte string of width `w` spelling `n` modulo `256 ^ w`. -/
def beBytes : Nat → Nat → Bytes
  | 0, _ => []
  | w + 1, n => beBytes w (n / 256) ++ [UInt8.ofNat n]

@[simp] theorem length_beBytes (w n : Nat) : (beBytes w n).length = w := by
  induction w generalizing n with
  | zero => rfl
  | succ w ih => simp [beBytes, ih]

theorem beNat_append_singleton (bs : Bytes) (b : UInt8) :
    beNat (bs ++ [b]) = beNat bs * 256 + b.toNat := by
  simp [beNat]

theorem beNat_beBytes (w n : Nat) : beNat (beBytes w n) = n % 256 ^ w := by
  induction w generalizing n with
  | zero => simp [beNat, beBytes, Nat.mod_one]
  | succ w ih =>
      have low : (UInt8.ofNat n).toNat = n % 256 := by simp
      rw [beBytes, beNat_append_singleton, ih, low, pow_succ, mul_comm (256 ^ w) 256,
        Nat.mod_mul, mul_comm]
      exact Nat.add_comm _ _

theorem beNat_beBytes_of_lt {w n : Nat} (h : n < 256 ^ w) : beNat (beBytes w n) = n := by
  rw [beNat_beBytes, Nat.mod_eq_of_lt h]

theorem beNat_lt (bs : Bytes) : beNat bs < 256 ^ bs.length := by
  induction bs using List.reverseRecOn with
  | nil => simp [beNat]
  | append_singleton bs b ih =>
      have hb : b.toNat < 256 := b.toNat_lt
      rw [beNat_append_singleton, List.length_append, List.length_singleton, pow_succ]
      omega

@[simp] theorem length_slice (data : Bytes) (i j : Nat) :
    (slice data i j).length = min j data.length - i := by
  simp [slice]

/-- A slice that ends inside the first part of an append does not see the rest. -/
theorem slice_append_left {pre post : Bytes} {i j : Nat} (h : j ≤ pre.length) :
    slice (pre ++ post) i j = slice pre i j := by
  rw [slice, slice, List.take_append_of_le_length h]

theorem slice_length_add (pre mid post : Bytes) :
    slice (pre ++ (mid ++ post)) pre.length (pre.length + mid.length) = mid := by
  rw [slice, ← List.append_assoc, ← List.length_append, List.take_left' rfl, List.drop_left' rfl]

def utf8Bytes (s : String) : Bytes := s.toUTF8.data.toList

/-- The number of bytes the leading character of an encoding announces, 0 for a byte that
cannot lead. -/
def utf8Width (b : UInt8) : Nat :=
  if b < 0x80 then 1
  else if 0xC2 ≤ b ∧ b ≤ 0xDF then 2
  else if 0xE0 ≤ b ∧ b ≤ 0xEF then 3
  else if 0xF0 ≤ b ∧ b ≤ 0xF4 then 4
  else 0

def isTail (b : UInt8) : Bool := 0x80 ≤ b && b ≤ 0xBF

def isSecond (lead second : UInt8) : Bool :=
  if lead = 0xE0 then 0xA0 ≤ second && second ≤ 0xBF
  else if lead = 0xED then 0x80 ≤ second && second ≤ 0x9F
  else if lead = 0xF0 then 0x90 ≤ second && second ≤ 0xBF
  else if lead = 0xF4 then 0x80 ≤ second && second ≤ 0x8F
  else isTail second

/-- The length of the longest prefix of a character's encoding, at least one byte: either the
whole character or the maximal invalid subpart that one U+FFFD replaces. -/
def subpart (lead : UInt8) (rest : Bytes) : Nat :=
  let w := utf8Width lead
  if w ≤ 1 then 1
  else
    match rest with
    | [] => 1
    | second :: more =>
        if isSecond lead second then 2 + ((more.take (w - 2)).takeWhile isTail).length else 1

private theorem subpart_pos (lead : UInt8) (rest : Bytes) : 0 < subpart lead rest := by
  unfold subpart
  grind

def replaceInvalid : Bytes → List Char
  | [] => []
  | b :: rest =>
      let n := subpart b rest
      let chunk := (b :: rest).take n
      let c := match String.fromUTF8? ⟨chunk.toArray⟩ with
        | some s => s.toList
        | none => ['\uFFFD']
      c ++ replaceInvalid ((b :: rest).drop n)
termination_by bs => bs.length
decreasing_by
  have := subpart_pos b rest
  simp only [List.length_drop, List.length_cons]
  omega

/-- `String::from_utf8_lossy`: a valid encoding is borrowed as it is, anything else is rebuilt
with replacement characters. -/
def fromUtf8Lossy (bs : Bytes) : String :=
  match String.fromUTF8? ⟨bs.toArray⟩ with
  | some s => s
  | none => String.ofList (replaceInvalid bs)

theorem fromUtf8Lossy_utf8Bytes (s : String) : fromUtf8Lossy (utf8Bytes s) = s := by
  have decoded : String.fromUTF8? ⟨(utf8Bytes s).toArray⟩ = some s := by
    unfold String.fromUTF8?
    rw [dif_pos]
    · simp [String.fromUTF8, utf8Bytes]
    · simpa [utf8Bytes] using s.isValidUTF8
  rw [fromUtf8Lossy, decoded]

def crcStep (c : UInt32) : UInt32 :=
  if c &&& 1 = 1 then (c >>> 1) ^^^ 0xEDB88320 else c >>> 1

def crc32IsoHdlc (data : Bytes) : UInt32 :=
  (data.foldl (fun c b => crcStep^[8] (c ^^^ b.toUInt32)) 0xFFFFFFFF) ^^^ 0xFFFFFFFF

example : crc32IsoHdlc (utf8Bytes "123456789") = 0xCBF43926 := by decide +kernel

end KiroRs.Lib.Wire
