/- Path: KiroRs/Lib/Base64
   layer: library
   digest: Texts of six bits a character, with the standard alphabet and padding and with the
   alphabet for URLs and none: their digits, and reading them back. -/

import Mathlib.Data.List.Basic
import Mathlib.Data.Nat.Bitwise

set_option autoImplicit false
set_option relaxedAutoImplicit false

namespace KiroRs.Lib.Base64

/-- What the two alphabets share. -/
def alphanumerics : List Char :=
  ['A', 'B', 'C', 'D', 'E', 'F', 'G', 'H', 'I', 'J', 'K', 'L', 'M', 'N', 'O', 'P', 'Q', 'R', 'S',
    'T', 'U', 'V', 'W', 'X', 'Y', 'Z', 'a', 'b', 'c', 'd', 'e', 'f', 'g', 'h', 'i', 'j', 'k', 'l',
    'm', 'n', 'o', 'p', 'q', 'r', 's', 't', 'u', 'v', 'w', 'x', 'y', 'z', '0', '1', '2', '3', '4',
    '5', '6', '7', '8', '9']

def urlAlphabet : List Char := alphanumerics ++ ['-', '_']

def standardAlphabet : List Char := alphanumerics ++ ['+', '/']

def standardDigit (n : Nat) : Char := standardAlphabet.getD n 'A'

/-- The character of a digit for URLs. -/
def digit (n : Nat) : Char := urlAlphabet.getD n 'A'

def value (c : Char) : Nat := urlAlphabet.idxOf c

/-- The digits of up to three bytes. Bits that are missing in the last digit are zero. -/
def digits : List UInt8 → List Nat
  | [] => []
  | [a] => [a.toNat / 4, a.toNat % 4 * 16]
  | [a, b] => [a.toNat / 4, a.toNat % 4 * 16 + b.toNat / 16, b.toNat % 16 * 4]
  | a :: b :: c :: rest =>
    a.toNat / 4 :: (a.toNat % 4 * 16 + b.toNat / 16) :: (b.toNat % 16 * 4 + c.toNat / 64) ::
      c.toNat % 64 :: digits rest

def undigits : List Nat → List UInt8
  | p :: q :: r :: s :: rest =>
    UInt8.ofNat (p * 4 + q / 16) :: UInt8.ofNat (q % 16 * 16 + r / 4) ::
      UInt8.ofNat (r % 4 * 64 + s) :: undigits rest
  | [p, q, r] => [UInt8.ofNat (p * 4 + q / 16), UInt8.ofNat (q % 16 * 16 + r / 4)]
  | [p, q] => [UInt8.ofNat (p * 4 + q / 16)]
  | _ => []

def decode (t : List Char) : List UInt8 := undigits (t.map value)

/-- The digits, padded to groups of four. -/
def encodeStandard (bs : List UInt8) : List Char :=
  (digits bs).map standardDigit ++ List.replicate ((3 - bs.length % 3) % 3) '='

/-- A text is read only if it is what its bytes are written as. -/
def decodeStandard (t : List Char) : Option (List UInt8) :=
  let bs := undigits ((t.filter (· ≠ '=')).map standardAlphabet.idxOf)
  if encodeStandard bs = t then some bs else none

theorem undigits_digits (bs : List UInt8) : undigits (digits bs) = bs := by
  induction bs using digits.induct with
  | case1 => rfl
  | case2 a =>
    have first : a.toNat / 4 * 4 + a.toNat % 4 * 16 / 16 = a.toNat := by omega
    rw [digits, undigits, first, UInt8.ofNat_toNat]
  | case3 a b =>
    have small := b.toNat_lt_size
    simp only [UInt8.size] at small
    have first : a.toNat / 4 * 4 + (a.toNat % 4 * 16 + b.toNat / 16) / 16 = a.toNat := by omega
    have second : (a.toNat % 4 * 16 + b.toNat / 16) % 16 * 16 + b.toNat % 16 * 4 / 4 = b.toNat := by
      omega
    rw [digits, undigits, first, second, UInt8.ofNat_toNat, UInt8.ofNat_toNat]
  | case4 a b c rest ih =>
    have smallb := b.toNat_lt_size
    have smallc := c.toNat_lt_size
    simp only [UInt8.size] at smallb smallc
    have first : a.toNat / 4 * 4 + (a.toNat % 4 * 16 + b.toNat / 16) / 16 = a.toNat := by omega
    have second : (a.toNat % 4 * 16 + b.toNat / 16) % 16 * 16 +
        (b.toNat % 16 * 4 + c.toNat / 64) / 4 = b.toNat := by omega
    have third : (b.toNat % 16 * 4 + c.toNat / 64) % 4 * 64 + c.toNat % 64 = c.toNat := by omega
    rw [digits, undigits, first, second, third, ih, UInt8.ofNat_toNat, UInt8.ofNat_toNat,
      UInt8.ofNat_toNat]

theorem digits_lt (bs : List UInt8) : ∀ n ∈ digits bs, n < 64 := by
  induction bs using digits.induct with
  | case1 => exact nofun
  | case2 a =>
    have small := a.toNat_lt_size
    simp only [UInt8.size] at small
    intro n mem
    simp only [digits, List.mem_cons, List.not_mem_nil, or_false] at mem
    omega
  | case3 a b =>
    have smalla := a.toNat_lt_size
    have smallb := b.toNat_lt_size
    simp only [UInt8.size] at smalla smallb
    intro n mem
    simp only [digits, List.mem_cons, List.not_mem_nil, or_false] at mem
    omega
  | case4 a b c rest ih =>
    have smalla := a.toNat_lt_size
    have smallb := b.toNat_lt_size
    have smallc := c.toNat_lt_size
    simp only [UInt8.size] at smalla smallb smallc
    intro n mem
    simp only [digits, List.mem_cons] at mem
    rcases mem with rfl | rfl | rfl | rfl | later
    · omega
    · omega
    · omega
    · omega
    · exact ih n later

theorem length_digits (bs : List UInt8) : (digits bs).length = (4 * bs.length + 2) / 3 := by
  induction bs using digits.induct with
  | case1 => rfl
  | case2 a => simp only [digits, List.length_cons, List.length_nil]
  | case3 a b => simp only [digits, List.length_cons, List.length_nil]
  | case4 a b c rest ih =>
    simp only [digits, List.length_cons, ih]
    omega

theorem length_encodeStandard (bs : List UInt8) :
    (encodeStandard bs).length = (bs.length + 2) / 3 * 4 := by
  rw [encodeStandard, List.length_append, List.length_map, length_digits, List.length_replicate]
  omega

theorem ascii_encodeStandard (bs : List UInt8) : ∀ c ∈ encodeStandard bs, c.utf8Size = 1 := by
  have all : ∀ c ∈ standardAlphabet, c.utf8Size = 1 := by
    have each : (standardAlphabet.all fun c => c.utf8Size == 1) = true := rfl
    exact fun c mem => eq_of_beq (List.all_eq_true.mp each c mem)
  intro c mem
  rcases List.mem_append.mp mem with mem | mem
  · obtain ⟨n, -, rfl⟩ := List.mem_map.mp mem
    rcases Nat.lt_or_ge n standardAlphabet.length with less | more
    · rw [standardDigit, List.getD_eq_getElem _ _ less]
      exact all _ (List.getElem_mem less)
    · rw [standardDigit, List.getD_eq_default _ _ more]
      rfl
  · rw [List.eq_of_mem_replicate mem]
    rfl

theorem digit_mem (n : Nat) : digit n ∈ urlAlphabet := by
  rcases Nat.lt_or_ge n urlAlphabet.length with less | more
  · rw [digit, List.getD_eq_getElem _ _ less]
    exact List.getElem_mem less
  · rw [digit, List.getD_eq_default _ _ more]
    decide

theorem value_digit {n : Nat} (small : n < 64) : value (digit n) = n := by
  have each : ∀ n < 64, value (digit n) = n := by decide +kernel
  exact each n small

theorem decode_digits (bs : List UInt8) : decode ((digits bs).map digit) = bs := by
  have same : ((digits bs).map digit).map value = digits bs := by
    rw [List.map_map]
    conv_rhs => rw [← List.map_id (digits bs)]
    exact List.map_congr_left fun n mem => value_digit (digits_lt bs n mem)
  rw [decode, same, undigits_digits]

end KiroRs.Lib.Base64
