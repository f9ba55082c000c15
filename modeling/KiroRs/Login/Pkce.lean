/- Path: KiroRs/Login/Pkce
   source: src/kiro/auth/social.rs
   digest: The verifier of a social login and its challenge: what their texts are, and what is read
   back from them. -/

import KiroRs.Lib.Base64
import KiroRs.Login.CallbackUrl

set_option autoImplicit false
set_option relaxedAutoImplicit false

namespace KiroRs.Login.Pkce

open KiroRs.Lib.Base64
open KiroRs.Lib.Percents (isUnreserved)
open KiroRs.Login.CallbackUrl

def chars : List Char := standardAlphabet

def charAt (n : Nat) : Char := chars.getD n 'A'

/-- One round of the loop, on a chunk of one to three bytes. -/
def encodeChunk (chunk : List UInt8) : List Char :=
  let b0 := (chunk.getD 0 0).toNat
  let b1 := if 1 < chunk.length then (chunk.getD 1 0).toNat else 0
  let b2 := if 2 < chunk.length then (chunk.getD 2 0).toNat else 0
  [charAt (b0 >>> 2), charAt (((b0 &&& 3) <<< 4) ||| (b1 >>> 4)),
    if 1 < chunk.length then charAt (((b1 &&& 0xf) <<< 2) ||| (b2 >>> 6)) else '=',
    if 2 < chunk.length then charAt (b2 &&& 0x3f) else '=']

/-- `data.chunks(3)`. -/
def chunks : List UInt8 → List (List UInt8)
  | a :: b :: c :: rest => [a, b, c] :: chunks rest
  | [] => []
  | short => [short]

def base64EncodeStandard (data : List UInt8) : List Char := (chunks data).flatMap encodeChunk

def base64urlEncode (data : List UInt8) : List Char :=
  let b64 := base64EncodeStandard data
  let b64 := b64.map fun c => if c = '+' then '-' else c
  let b64 := b64.map fun c => if c = '/' then '_' else c
  b64.filter (· ≠ '=')

/-- `generate_pkce` for the bytes that the system draws. The digest is from a crate. -/
def generatePkce (sha256 : List UInt8 → List UInt8) (bytes : List UInt8) :
    List Char × List Char :=
  let verifier := base64urlEncode bytes
  (verifier, base64urlEncode (sha256 (Lib.Slices.bytes verifier)))

theorem first_bits (n : Nat) : n >>> 2 = n / 4 := Nat.shiftRight_eq_div_pow n 2

theorem low_two (n : Nat) : n &&& 3 = n % 4 := Nat.and_two_pow_sub_one_eq_mod n 2

theorem low_four (n : Nat) : n &&& 0xf = n % 16 := Nat.and_two_pow_sub_one_eq_mod n 4

theorem low_six (n : Nat) : n &&& 0x3f = n % 64 := Nat.and_two_pow_sub_one_eq_mod n 6

theorem second_bits (a b : Nat) (small : b < 256) :
    ((a &&& 3) <<< 4) ||| (b >>> 4) = a % 4 * 16 + b / 16 := by
  have below : b / 2 ^ 4 < 2 ^ 4 := by omega
  rw [low_two, Nat.shiftRight_eq_div_pow, ← Nat.shiftLeft_add_eq_or_of_lt below,
    Nat.shiftLeft_eq]
  rfl

theorem third_bits (b c : Nat) (small : c < 256) :
    ((b &&& 0xf) <<< 2) ||| (c >>> 6) = b % 16 * 4 + c / 64 := by
  have below : c / 2 ^ 6 < 2 ^ 2 := by omega
  rw [low_four, Nat.shiftRight_eq_div_pow, ← Nat.shiftLeft_add_eq_or_of_lt below,
    Nat.shiftLeft_eq]
  rfl

theorem byte_lt (b : UInt8) : b.toNat < 256 := b.toNat_lt_size

/-- What `replace` and the filter make of a digit is the digit for URLs. -/
def forUrl (c : Char) : Char :=
  if (if c = '+' then '-' else c) = '/' then '_' else if c = '+' then '-' else c

theorem forUrl_charAt (n : Nat) : forUrl (charAt n) = digit n := by
  have alphabets : standardAlphabet.map forUrl = urlAlphabet := rfl
  rw [digit, ← alphabets]
  exact (List.getD_map ..).symm

theorem digit_ne_padding (n : Nat) : digit n ≠ '=' := by
  have unused : '=' ∉ urlAlphabet := by decide
  exact fun same => unused (same ▸ digit_mem n)

def urlChunk (chunk : List UInt8) : List Char := ((encodeChunk chunk).map forUrl).filter (· ≠ '=')

theorem base64urlEncode_eq (data : List UInt8) :
    base64urlEncode data = (chunks data).flatMap urlChunk := by
  have twice : ∀ l : List Char, ((l.map fun c => if c = '+' then '-' else c).map
      fun c => if c = '/' then '_' else c) = l.map forUrl := fun l => List.map_map
  rw [base64urlEncode, twice, base64EncodeStandard, List.map_flatMap, List.filter_flatMap]
  rfl

theorem filter_digits (l : List Nat) (pads : List Char) (padding : ∀ c ∈ pads, c = '=') :
    ((l.map charAt ++ pads).map forUrl).filter (· ≠ '=') = l.map digit := by
  induction l with
  | nil =>
    rw [List.map_nil, List.nil_append, List.map_nil, List.filter_eq_nil_iff]
    intro c mem
    obtain ⟨pad, here, rfl⟩ := List.mem_map.mp mem
    rw [padding pad here]
    decide
  | cons n l ih =>
    rw [List.map_cons, List.cons_append, List.map_cons, List.filter_cons, ih, forUrl_charAt,
      if_pos (decide_eq_true (digit_ne_padding n)), List.map_cons]

theorem encodeChunk_eq {chunk : List UInt8} (nonempty : chunk ≠ []) (short : chunk.length ≤ 3) :
    encodeChunk chunk = (digits chunk).map charAt ++ List.replicate (3 - chunk.length) '=' := by
  match chunk, nonempty, short with
  | [a], _, _ =>
    have second := second_bits a.toNat 0 (by decide)
    rw [Nat.zero_div, Nat.add_zero] at second
    rw [digits, encodeChunk]
    exact congrArg₂ (fun p q => [charAt p, charAt q, '=', '=']) (first_bits a.toNat) second
  | [a, b], _, _ =>
    have second := second_bits a.toNat b.toNat (byte_lt b)
    have third := third_bits b.toNat 0 (by decide)
    rw [Nat.zero_div, Nat.add_zero] at third
    rw [digits, encodeChunk, ← first_bits, ← second, ← third]
    rfl
  | [a, b, c], _, _ =>
    have second := second_bits a.toNat b.toNat (byte_lt b)
    have third := third_bits b.toNat c.toNat (byte_lt c)
    rw [digits, encodeChunk, ← first_bits, ← second, ← third, ← low_six]
    rfl

theorem urlChunk_eq {chunk : List UInt8} (nonempty : chunk ≠ []) (short : chunk.length ≤ 3) :
    urlChunk chunk = (digits chunk).map digit := by
  rw [urlChunk, encodeChunk_eq nonempty short]
  exact filter_digits (digits chunk) _ fun c mem => List.eq_of_mem_replicate mem

/-- The text is the digits of the bytes in the alphabet for URLs. -/
theorem base64urlEncode_digits (data : List UInt8) :
    base64urlEncode data = (digits data).map digit := by
  rw [base64urlEncode_eq]
  induction data using digits.induct with
  | case1 => rfl
  | case2 a =>
    rw [chunks, List.flatMap_singleton, @urlChunk_eq [a] (List.cons_ne_nil _ _) (Nat.le_add_left 1 2)]
    all_goals simp
  | case3 a b =>
    rw [chunks, List.flatMap_singleton, @urlChunk_eq [a, b] (List.cons_ne_nil _ _) (Nat.le_succ 2)]
    all_goals simp
  | case4 a b c rest ih =>
    rw [chunks, List.flatMap_cons, ih, urlChunk_eq (List.cons_ne_nil _ _) (le_refl 3), digits,
      ← List.map_append]
    rw [digits.eq_4]
    rfl

theorem digit_unreserved (n : Nat) : isUnreserved (digit n) = true := by
  have each : urlAlphabet.all isUnreserved = true := rfl
  exact List.all_eq_true.mp each _ (digit_mem n)

theorem base64urlEncode_unreserved (data : List UInt8) :
    ∀ c ∈ base64urlEncode data, isUnreserved c = true := by
  rw [base64urlEncode_digits]
  intro c mem
  obtain ⟨n, -, rfl⟩ := List.mem_map.mp mem
  exact digit_unreserved n

theorem decode_base64urlEncode (data : List UInt8) : decode (base64urlEncode data) = data := by
  rw [base64urlEncode_digits, decode_digits]

theorem length_base64urlEncode (data : List UInt8) :
    (base64urlEncode data).length = (4 * data.length + 2) / 3 := by
  rw [base64urlEncode_digits, List.length_map, length_digits]

/-- Both texts have as many characters as a verifier may have, and none that a URL would encode.
The verifier is worth all bytes that were drawn, and the challenge is the digest of its text. -/
theorem generatePkce_pair {sha256 : List UInt8 → List UInt8} {bytes : List UInt8}
    (digest : ∀ text, (sha256 text).length = 32) (drawn : bytes.length = 32) :
    ((generatePkce sha256 bytes).1.length = 43 ∧ (generatePkce sha256 bytes).2.length = 43) ∧
      (∀ c ∈ (generatePkce sha256 bytes).1 ++ (generatePkce sha256 bytes).2,
        isUnreserved c = true) ∧
      decode (generatePkce sha256 bytes).1 = bytes ∧
      decode (generatePkce sha256 bytes).2 =
        sha256 (Lib.Slices.bytes (generatePkce sha256 bytes).1) := by
  refine ⟨⟨?_, ?_⟩, fun c mem => ?_, decode_base64urlEncode bytes, decode_base64urlEncode _⟩
  · rw [generatePkce, length_base64urlEncode, drawn]
  · rw [generatePkce, length_base64urlEncode, digest]
  · rcases List.mem_append.mp mem with verifier | challenge
    · exact base64urlEncode_unreserved _ c verifier
    · exact base64urlEncode_unreserved _ c challenge

def zerosSha256 (text : List UInt8) : List UInt8 :=
  if text = Lib.Slices.bytes (List.replicate 43 'A') then
    [15, 0, 115, 133, 182, 249, 212, 183, 238, 178, 116, 134, 5, 175, 225, 169, 132, 160, 163, 191,
      163, 240, 20, 208, 158, 42, 120, 76, 233, 229, 205, 26]
  else List.replicate 32 0

theorem length_zerosSha256 (text : List UInt8) : (zerosSha256 text).length = 32 := by
  rw [zerosSha256]
  split_ifs <;> rfl

theorem generatePkce_pair_zeros :
    String.ofList (generatePkce zerosSha256 (List.replicate 32 0)).2 =
        "DwBzhbb51LfusnSGBa_hqYSgo7-j8BTQnip4TOnlzRo" ∧
      decode (generatePkce zerosSha256 (List.replicate 32 0)).1 = List.replicate 32 0 :=
  ⟨by decide +kernel,
    (generatePkce_pair length_zerosSha256 (List.length_replicate ..)).2.2.1⟩

end KiroRs.Login.Pkce
