/- Path: KiroRs/Images/Convergence
   source: src/image_resize.rs
   digest: The processing of an image ends, decodes only what the limits allow, and keeps to the
   byte budget exactly for the budgets that the length estimate does not undercut. -/

import Mathlib.Data.Bool.AllAny
import Mathlib.Data.List.GetD
import Mathlib.Data.UInt
import KiroRs.Images.Resize
import KiroRs.Lib.Base64
import KiroRs.Lib.Bytes
import KiroRs.Lib.Results

set_option autoImplicit false
set_option relaxedAutoImplicit false

namespace KiroRs.Images.Convergence

open KiroRs.Lib.Base64 (ascii_encodeStandard decodeStandard encodeStandard length_encodeStandard)
open KiroRs.Lib.Bytes
open KiroRs.Lib.Logs
open KiroRs.Lib.Results
open KiroRs.Lib.Text (byteLength)
open KiroRs.Images.Resize

variable {base64 : Base64} {codec : Codec} {cfg : ResizeConfig} {format dataBase64 : String}

theorem exists_succ {n fuel : Nat} (more : n < fuel) : ∃ rest, fuel = rest + 1 :=
  Nat.exists_eq_succ_of_ne_zero (Nat.ne_of_gt (Nat.zero_lt_of_lt more))

theorem toNat_loweredQuality (quality : UInt8) :
    (loweredQuality quality).toNat = max (quality.toNat - 10) 35 := by
  have floor : minJpegQuality.toNat = 35 := rfl
  rw [loweredQuality, UInt8.toNat_max, floor]
  split_ifs with ten
  · rw [UInt8.toNat_sub_of_le _ _ ten]
    rfl
  · have below : ¬ 10 ≤ quality.toNat := fun le => ten (UInt8.le_iff_toNat_le.mpr le)
    have zero : (0 : UInt8).toNat = 0 := rfl
    omega

theorem not_le_minJpegQuality {quality : UInt8} (high : ¬ quality ≤ minJpegQuality) :
    35 < quality.toNat := by
  rw [UInt8.le_iff_toNat_le] at high
  exact Nat.lt_of_not_le high

theorem not_le_minLongSide {curLong : UInt32} (large : ¬ curLong ≤ minLongSide) :
    256 < curLong.toNat := by
  rw [UInt32.le_iff_toNat_le] at large
  exact Nat.lt_of_not_le large

theorem lowerQuality_ends (cfg : ResizeConfig) (encodeAt : UInt8 → Except String Bytes)
    (quality : UInt8) : ∃ r, ∀ fuel, quality.toNat < fuel →
      lowerQuality cfg encodeAt fuel quality = some r := by
  induction bound : quality.toNat using Nat.strong_induction_on generalizing quality with
  | _ n ih =>
    cases encoded : encodeAt quality with
    | error e =>
      refine ⟨.error (.encode e), fun fuel more => ?_⟩
      obtain ⟨rest, rfl⟩ := exists_succ more
      rw [lowerQuality, encoded]
    | ok out =>
      by_cases stop : (fitsBudget cfg out || quality ≤ minJpegQuality) = true
      · refine ⟨.ok (out, quality), fun fuel more => ?_⟩
        obtain ⟨rest, rfl⟩ := exists_succ more
        rw [lowerQuality, encoded]
        exact if_pos stop
      · have high : 35 < quality.toNat := by
          refine not_le_minJpegQuality fun low => stop ?_
          rw [decide_eq_true low, Bool.or_true]
        have lowered := toNat_loweredQuality quality
        obtain ⟨r, ends⟩ := ih (loweredQuality quality).toNat (by omega) _ rfl
        refine ⟨r, fun fuel more => ?_⟩
        obtain ⟨rest, rfl⟩ := exists_succ more
        rw [lowerQuality, encoded]
        dsimp only
        rw [if_neg stop]
        exact ends rest (by omega)

theorem toNat_shrunk_lt {curLong : UInt32} (large : 256 < curLong.toNat) :
    (max (codec.shrunk curLong) minLongSide).toNat < curLong.toNat := by
  have floor : minLongSide.toNat = 256 := rfl
  have less := codec.shrunk_lt curLong (UInt32.lt_iff_toNat_lt.mpr large)
  rw [UInt32.lt_iff_toNat_lt] at less
  rw [UInt32.toNat_max, floor]
  omega

theorem lowerLongSide_ends (codec : Codec) (cfg : ResizeConfig)
    (encodeFor : UInt32 → UInt8 → Except String Bytes) (curLong : UInt32) :
    ∃ r, ∀ fuel, curLong.toNat + cfg.jpegQuality.toNat < fuel →
      lowerLongSide codec cfg encodeFor fuel curLong = some r := by
  induction bound : curLong.toNat using Nat.strong_induction_on generalizing curLong with
  | _ n ih =>
    obtain ⟨inner, inner_ends⟩ := lowerQuality_ends cfg (encodeFor curLong) cfg.jpegQuality
    cases inner with
    | error e =>
      refine ⟨.error e, fun fuel more => ?_⟩
      obtain ⟨rest, rfl⟩ := exists_succ more
      rw [lowerLongSide, inner_ends (rest + 1) (by omega)]
    | ok encoded =>
      obtain ⟨out, quality⟩ := encoded
      by_cases stop : (fitsBudget cfg out || curLong ≤ minLongSide) = true
      · refine ⟨.ok ⟨out, quality, curLong⟩, fun fuel more => ?_⟩
        obtain ⟨rest, rfl⟩ := exists_succ more
        rw [lowerLongSide, inner_ends (rest + 1) (by omega)]
        exact if_pos stop
      · have large : 256 < curLong.toNat := by
          refine not_le_minLongSide fun small => stop ?_
          rw [decide_eq_true small, Bool.or_true]
        have less : (max (codec.shrunk curLong) minLongSide).toNat < curLong.toNat :=
          toNat_shrunk_lt large
        obtain ⟨r, ends⟩ := ih _ (bound ▸ less) _ rfl
        refine ⟨r, fun fuel more => ?_⟩
        obtain ⟨rest, rfl⟩ := exists_succ more
        rw [lowerLongSide, inner_ends (rest + 1) (by omega)]
        dsimp only
        rw [if_neg stop]
        exact ends rest (by omega)

def Ends {α : Type} (run : Nat → Option α) : Prop :=
  ∃ enough outcome, ∀ fuel, enough ≤ fuel → run fuel = some outcome

theorem shrinkStatic_ends (base64 : Base64) (codec : Codec) (cfg : ResizeConfig)
    (format dataBase64 : String) : Ends (shrinkStatic base64 codec cfg format dataBase64) := by
  unfold shrinkStatic
  cases readForShrinking base64 codec cfg format dataBase64 with
  | error e => exact ⟨0, .error e, fun _ _ => rfl⟩
  | ok read =>
    obtain ⟨raw, w, h⟩ := read
    dsimp only
    cases codec.decode (guessFormat format) raw with
    | error e => exact ⟨0, .error (.decode e), fun _ _ => rfl⟩
    | ok size =>
      obtain ⟨width, height⟩ := size
      obtain ⟨r, ends⟩ := lowerLongSide_ends codec cfg
        (fun curLong quality => codec.encode (guessFormat format) raw
          (targetSize codec (max w width) (max h height) curLong) quality)
        (initialLong cfg (max w width) (max h height))
      exact ⟨_, r, fun fuel more => ends fuel (Nat.lt_of_succ_le more)⟩

theorem maybeShrinkImage_ends (base64 : Base64) (codec : Codec) (cfg : ResizeConfig)
    (format dataBase64 : String) : Ends (maybeShrinkImage base64 codec cfg format dataBase64) := by
  unfold maybeShrinkImage
  dsimp only
  cases route base64 codec cfg format.toLower dataBase64 with
  | error e => exact ⟨0, .error e, fun _ _ => rfl⟩
  | ok way =>
    cases way with
    | pass => exact ⟨0, _, fun _ _ => rfl⟩
    | shrink =>
      obtain ⟨enough, outcome, ends⟩ :=
        shrinkStatic_ends base64 codec cfg format.toLower dataBase64
      refine ⟨enough, outcome.map (·.image base64 dataBase64), fun fuel more => ?_⟩
      dsimp only
      rw [shrinkStaticImage, ends fuel more]
      rfl

theorem checkedRaw_ok {raw : Bytes} (ok : checkedRaw base64 cfg dataBase64 = .ok raw) :
    raw.length ≤ cfg.maxDecodedBytes := by
  obtain ⟨_, -, rest⟩ := bind_ok ok
  obtain ⟨read, -, rest⟩ := bind_ok rest
  split_ifs at rest with large
  cases rest
  exact Nat.le_of_not_lt large

theorem readDimensionsFromRaw_ok {raw : Bytes} {w h : UInt32}
    (ok : readDimensionsFromRaw codec cfg format raw = .ok (some (w, h))) :
    codec.dimensions (guessFormat format) raw = some (w, h) ∧
      w.toNat * h.toNat ≤ cfg.maxPixels := by
  unfold readDimensionsFromRaw at ok
  split at ok
  · cases ok
  · rename_i w' h' probed
    obtain ⟨_, checked, rest⟩ := bind_ok ok
    cases rest
    unfold validatePixelCount at checked
    split_ifs at checked with many
    exact ⟨probed, Nat.le_of_not_lt many⟩

theorem readForShrinking_ok {raw : Bytes} {w h : UInt32}
    (ok : readForShrinking base64 codec cfg format dataBase64 = .ok (raw, w, h)) :
    checkedRaw base64 cfg dataBase64 = .ok raw ∧
      codec.dimensions (guessFormat format) raw = some (w, h) ∧
      w.toNat * h.toNat ≤ cfg.maxPixels := by
  obtain ⟨read, checked, rest⟩ := bind_ok ok
  obtain ⟨probed, dimensions, rest⟩ := bind_ok rest
  cases probed with
  | none => cases rest
  | some size =>
    obtain ⟨w', h'⟩ := size
    cases rest
    exact ⟨checked, readDimensionsFromRaw_ok dimensions⟩

theorem pixelsDecoded_within {raw : Bytes}
    (mem : raw ∈ pixelsDecoded base64 codec cfg format dataBase64) :
    raw.length ≤ cfg.maxDecodedBytes ∧ ∃ w h,
      codec.dimensions (guessFormat format.toLower) raw = some (w, h) ∧
        w.toNat * h.toNat ≤ cfg.maxPixels := by
  revert mem
  unfold pixelsDecoded
  refine after_of (P := fun noted => raw ∈ noted → _) (fun none => by cases none) fun way _ => ?_
  cases way with
  | pass => exact fun none => by cases none
  | shrink =>
    refine after_of (P := fun noted => raw ∈ noted → _) (fun none => by cases none) ?_
    intro read ok mem
    obtain ⟨raw', w, h⟩ := read
    rw [List.mem_singleton.mp mem]
    obtain ⟨checked, probed, few⟩ := readForShrinking_ok ok
    exact ⟨checkedRaw_ok checked, w, h, probed, few⟩

def AtFloor (final : Encoded) : Prop :=
  final.quality ≤ minJpegQuality ∧ final.curLong ≤ minLongSide

theorem lowerQuality_ok {encodeAt : UInt8 → Except String Bytes} {fuel : Nat}
    {start quality : UInt8} {out : Bytes}
    (ran : lowerQuality cfg encodeAt fuel start = some (.ok (out, quality))) :
    encodeAt quality = .ok out ∧ (fitsBudget cfg out = true ∨ quality ≤ minJpegQuality) ∧
      (start ≤ minJpegQuality → quality ≤ minJpegQuality) := by
  induction fuel generalizing start with
  | zero => cases ran
  | succ fuel ih =>
    rw [lowerQuality] at ran
    cases encoded : encodeAt start with
    | error e =>
      rw [encoded] at ran
      cases ran
    | ok first =>
      rw [encoded] at ran
      dsimp only at ran
      split_ifs at ran with stop
      · cases ran
        rw [Bool.or_eq_true, decide_eq_true_eq] at stop
        exact ⟨encoded, stop, id⟩
      · obtain ⟨last, stopped, -⟩ := ih ran
        refine ⟨last, stopped, fun low => ?_⟩
        rw [decide_eq_true low, Bool.or_true] at stop
        exact absurd rfl stop

theorem lowerLongSide_ok {encodeFor : UInt32 → UInt8 → Except String Bytes} {fuel : Nat}
    {start : UInt32} {final : Encoded}
    (ran : lowerLongSide codec cfg encodeFor fuel start = some (.ok final)) :
    encodeFor final.curLong final.quality = .ok final.out ∧
      (fitsBudget cfg final.out = true ∨ AtFloor final) ∧
      (cfg.jpegQuality ≤ minJpegQuality → start ≤ minLongSide → AtFloor final) := by
  induction fuel generalizing start with
  | zero => cases ran
  | succ fuel ih =>
    rw [lowerLongSide] at ran
    split at ran
    · cases ran
    · cases ran
    · rename_i out quality inner
      obtain ⟨encoded, stopped, low⟩ := lowerQuality_ok inner
      split_ifs at ran with stop
      · cases ran
        refine ⟨encoded, ?_, fun low_start small => ⟨low low_start, small⟩⟩
        rw [Bool.or_eq_true, decide_eq_true_eq] at stop
        rcases stopped with fits | floor
        · exact .inl fits
        · exact stop.imp_right fun small => ⟨floor, small⟩
      · obtain ⟨last, stopped', -⟩ := ih ran
        refine ⟨last, stopped', fun _ small => ?_⟩
        rw [decide_eq_true small, Bool.or_true] at stop
        exact absurd rfl stop

theorem initialLong_le {w h : UInt32} (small : cfg.maxLongSide ≤ minLongSide) :
    initialLong cfg w h ≤ minLongSide := by
  have floor : minLongSide.toNat = 256 := rfl
  have one : (1 : UInt32).toNat = 1 := rfl
  rw [UInt32.le_iff_toNat_le, floor] at small ⊢
  rw [initialLong, UInt32.toNat_max, UInt32.toNat_min, one]
  omega

def base64Length (n : Nat) : Nat := (n + 2) / 3 * 4

def Undercut (maxBytes : Nat) : Prop :=
  ∃ n ≤ isizeMax, saturatingMul n 4 / 3 ≤ maxBytes ∧ maxBytes < base64Length n

theorem undercut_iff {maxBytes : Nat} (small : maxBytes < 2 ^ 62) :
    Undercut maxBytes ↔ maxBytes % 4 ≠ 0 := by
  unfold Undercut base64Length saturatingMul usizeMax isizeMax
  constructor
  · rintro ⟨n, short, fits, long⟩ multiple
    omega
  · intro rest
    refine ⟨maxBytes / 4 * 3 + 1, ?_, ?_, ?_⟩
    · omega
    · omega
    · omega

/-- What is expected of the processing of one image. -/
structure Keeps (base64 : Base64) (codec : Codec) (cfg : ResizeConfig)
    (format dataBase64 : String) : Prop where
  ends : Ends (maybeShrinkImage base64 codec cfg format dataBase64)
  decodes : ∀ raw ∈ pixelsDecoded base64 codec cfg format dataBase64,
    raw.length ≤ cfg.maxDecodedBytes ∧ ∃ w h,
      codec.dimensions (guessFormat format.toLower) raw = some (w, h) ∧
        w.toNat * h.toNat ≤ cfg.maxPixels
  fits : cfg.enabled = true → ∀ fuel image,
    maybeShrinkImage base64 codec cfg format dataBase64 fuel = some (.ok image) →
    (image.wasResized = false ∧ image.dataBase64 = dataBase64 ∧
      dataBase64.utf8ByteSize ≤ cfg.maxBytes) ∨
    (image.wasResized = true ∧ image.format = "jpeg" ∧
      (image.dataBase64.utf8ByteSize ≤ cfg.maxBytes ∨
        ∃ final, shrinkStatic base64 codec cfg format.toLower dataBase64 fuel =
          some (.ok final) ∧ AtFloor final))

/-- Some text gets to the encoder: one of an image larger than the long side, or one over the
budget and within the limits. -/
def Reencodes (base64 : Base64) (cfg : ResizeConfig) : Prop :=
  cfg.maxLongSide.toNat < 2 ^ 32 - 1 ∨
    ∃ dataBase64 raw, cfg.maxBytes < dataBase64.utf8ByteSize ∧
      checkedRaw base64 cfg dataBase64 = .ok raw

/-- The budget is not undercut, or no encoding above the floors is ever made. -/
def Tight (base64 : Base64) (cfg : ResizeConfig) : Prop :=
  cfg.enabled = true → Undercut cfg.maxBytes → Reencodes base64 cfg →
    cfg.jpegQuality ≤ minJpegQuality ∧ cfg.maxLongSide ≤ minLongSide

theorem tight_of_multiple (small : cfg.maxBytes < 2 ^ 62) (multiple : cfg.maxBytes % 4 = 0) :
    Tight base64 cfg :=
  fun _ undercut _ => absurd multiple ((undercut_iff small).mp undercut)

theorem routeLarge_ok (ok : routeLarge base64 codec cfg format dataBase64 = .ok .pass) :
    dataBase64.utf8ByteSize ≤ cfg.maxBytes := by
  by_cases gif : format = "gif"
  · rw [routeLarge, if_pos gif] at ok
    obtain ⟨_, -, rest⟩ := bind_ok ok
    split_ifs at rest with large
    exact Nat.le_of_not_lt large
  · rw [routeLarge, if_neg gif] at ok
    cases ok

/-- With resizing on, what passes is small, and what is shrunk is over the budget or larger than
the long side. -/
theorem route_ok {way : Route} (enabled : cfg.enabled = true)
    (ok : route base64 codec cfg format dataBase64 = .ok way) :
    (way = .pass → dataBase64.utf8ByteSize ≤ cfg.maxBytes) ∧
      (way = .shrink → cfg.maxBytes < dataBase64.utf8ByteSize ∨
        cfg.maxLongSide.toNat < 2 ^ 32 - 1) := by
  obtain ⟨_, -, rest⟩ := bind_ok ok
  rw [if_neg (by rw [enabled]; decide)] at rest
  have large : routeLarge base64 codec cfg format dataBase64 = .ok way →
      way = .pass → dataBase64.utf8ByteSize ≤ cfg.maxBytes := by
    rintro ok rfl
    exact routeLarge_ok ok
  split_ifs at rest with small
  · refine ⟨fun _ => small, fun shrink => .inr ?_⟩
    obtain ⟨probed, -, rest⟩ := bind_ok rest
    cases probed with
    | none =>
      cases rest
      cases shrink
    | some size =>
      obtain ⟨w, h⟩ := size
      dsimp only at rest
      split_ifs at rest with within
      · cases rest
        cases shrink
      · rw [UInt32.le_iff_toNat_le, UInt32.toNat_max] at within
        have w_lt := w.toNat_lt
        have h_lt := h.toNat_lt
        omega
  · exact ⟨large rest, fun _ => .inl (Nat.lt_of_not_le small)⟩

theorem shrinkStatic_ok {fuel : Nat} {final : Encoded}
    (ran : shrinkStatic base64 codec cfg format dataBase64 fuel = some (.ok final)) :
    final.out.length ≤ isizeMax ∧ (∃ raw, checkedRaw base64 cfg dataBase64 = .ok raw) ∧
      (fitsBudget cfg final.out = true ∨ AtFloor final) ∧
      (cfg.jpegQuality ≤ minJpegQuality → cfg.maxLongSide ≤ minLongSide → AtFloor final) := by
  unfold shrinkStatic at ran
  cases read : readForShrinking base64 codec cfg format dataBase64 with
  | error e =>
    rw [read] at ran
    cases ran
  | ok found =>
    obtain ⟨raw, w, h⟩ := found
    rw [read] at ran
    dsimp only at ran
    cases decoded : codec.decode (guessFormat format) raw with
    | error e =>
      rw [decoded] at ran
      cases ran
    | ok size =>
      obtain ⟨width, height⟩ := size
      rw [decoded] at ran
      obtain ⟨encoded, stopped, floor⟩ := lowerLongSide_ok ran
      refine ⟨codec.encode_length _ _ _ _ _ encoded, ⟨raw, (readForShrinking_ok read).1⟩, stopped,
        fun low small => floor low (initialLong_le small)⟩

theorem keeps_of_tight (tight : Tight base64 cfg) (codec : Codec) (format dataBase64 : String) :
    Keeps base64 codec cfg format dataBase64 := by
  refine ⟨maybeShrinkImage_ends base64 codec cfg format dataBase64,
    fun raw => pixelsDecoded_within, fun enabled fuel image ran => ?_⟩
  unfold maybeShrinkImage at ran
  cases routed : route base64 codec cfg format.toLower dataBase64 with
  | error e =>
    dsimp only at ran
    rw [routed] at ran
    cases ran
  | ok way =>
    dsimp only at ran
    rw [routed] at ran
    obtain ⟨passes, shrinks⟩ := route_ok enabled routed
    cases way with
    | pass =>
      cases ran
      exact .inl ⟨rfl, rfl, passes rfl⟩
    | shrink =>
      obtain ⟨outcome, static, same⟩ := Option.map_eq_some_iff.mp ran
      cases outcome with
      | error e => cases same
      | ok final =>
        cases same
        obtain ⟨short, ⟨raw, checked⟩, stopped, floor⟩ := shrinkStatic_ok static
        refine .inr ⟨rfl, rfl, ?_⟩
        have reencodes : Reencodes base64 cfg := by
          rcases shrinks rfl with large | long
          · exact .inr ⟨dataBase64, raw, large, checked⟩
          · exact .inl long
        have length : (base64.encode final.out).utf8ByteSize = base64Length final.out.length :=
          base64.encode_length final.out
        rcases stopped with fits | at_floor
        · by_cases within : base64Length final.out.length ≤ cfg.maxBytes
          · exact .inl (length.trans_le within)
          · -- the estimate fits and the base64 does not: the budget is undercut
            have undercut : Undercut cfg.maxBytes :=
              ⟨_, short, of_decide_eq_true fits, Nat.lt_of_not_le within⟩
            obtain ⟨low, small⟩ := tight enabled undercut reencodes
            exact .inr ⟨final, static, floor low small⟩
        · exact .inr ⟨final, static, at_floor⟩

theorem keeps_default (codec : Codec) (format dataBase64 : String) :
    Keeps base64 codec .default format dataBase64 :=
  keeps_of_tight (tight_of_multiple (by decide) (by decide)) codec format dataBase64

/-- A codec that finds images of one size and encodes each into so many bytes. -/
def constant (w h : UInt32) (n : Nat) (short : n ≤ isizeMax) : Codec where
  guessFormat _ := none
  dimensions _ _ := some (w, h)
  decode _ _ := .ok (w, h)
  encode _ _ _ _ := .ok (List.replicate n 0)
  scaledTo _ w h := (w, h)
  shrunk n := n / 2
  shrunk_lt n large := by
    rw [UInt32.lt_iff_toNat_lt] at large ⊢
    have two : (2 : UInt32).toNat = 2 := rfl
    rw [UInt32.toNat_div, two]
    omega
  encode_length := by
    intro _ _ _ _ out encoded
    cases encoded
    rw [List.length_replicate]
    exact short

theorem toNat_succ_of_lt {curLong : UInt32} (less : curLong.toNat < 2 ^ 32 - 1) :
    (curLong + 1).toNat = curLong.toNat + 1 := by
  have one : (1 : UInt32).toNat = 1 := rfl
  rw [UInt32.toNat_add, one, Nat.mod_eq_of_lt (by omega)]

theorem le_of_initialLong_le {w h : UInt32} (wide : 256 < w.toNat ∨ cfg.maxLongSide < w)
    (small : initialLong cfg w h ≤ minLongSide) : cfg.maxLongSide ≤ minLongSide := by
  have floor : minLongSide.toNat = 256 := rfl
  rw [UInt32.lt_iff_toNat_lt] at wide
  rw [UInt32.le_iff_toNat_le, floor] at small ⊢
  rw [initialLong, UInt32.toNat_max, UInt32.toNat_min, UInt32.toNat_max] at small
  omega

theorem lowerLongSide_first {encodeFor : UInt32 → UInt8 → Except String Bytes} {curLong : UInt32}
    {out : Bytes} (encoded : encodeFor curLong cfg.jpegQuality = .ok out)
    (fits : fitsBudget cfg out = true) (fuel : Nat) :
    lowerLongSide codec cfg encodeFor (fuel + 1) curLong =
      some (.ok ⟨out, cfg.jpegQuality, curLong⟩) := by
  have inner : lowerQuality cfg (encodeFor curLong) (fuel + 1) cfg.jpegQuality =
      some (.ok (out, cfg.jpegQuality)) := by
    rw [lowerQuality, encoded]
    exact if_pos (by rw [fits, Bool.true_or])
  rw [lowerLongSide, inner]
  exact if_pos (by rw [fits, Bool.true_or])

section Undercut

variable {w h : UInt32} {n : Nat} {short : n ≤ isizeMax} {raw : Bytes}

theorem readDimensionsFromRaw_constant (few : ¬ cfg.maxPixels < w.toNat * h.toNat) (raw : Bytes) :
    readDimensionsFromRaw (constant w h n short) cfg format raw = .ok (some (w, h)) := by
  simp only [readDimensionsFromRaw, constant, validatePixelCount, if_neg few]
  rfl

theorem shrinkStatic_constant (few : ¬ cfg.maxPixels < w.toNat * h.toNat)
    (checked : checkedRaw base64 cfg dataBase64 = .ok raw)
    (fits : saturatingMul n 4 / 3 ≤ cfg.maxBytes) (fuel : Nat) :
    shrinkStatic base64 (constant w h n short) cfg format dataBase64 (fuel + 1) =
      some (.ok ⟨List.replicate n 0, cfg.jpegQuality, initialLong cfg w h⟩) := by
  have read : readForShrinking base64 (constant w h n short) cfg format dataBase64 =
      .ok (raw, w, h) := by
    simp only [readForShrinking, checked, bind, Except.bind, readDimensionsFromRaw_constant few]
  have estimate : fitsBudget cfg (List.replicate n 0) = true := by
    rw [fitsBudget, List.length_replicate]
    exact decide_eq_true fits
  have same : ∀ side : UInt32, max side side = side := fun side =>
    UInt32.toNat_inj.mp ((UInt32.toNat_max side side).trans (Nat.max_self _))
  rw [shrinkStatic, read]
  dsimp only [constant]
  rw [same, same]
  exact lowerLongSide_first rfl estimate fuel

theorem not_keeps (enabled : cfg.enabled = true) (few : ¬ cfg.maxPixels < w.toNat * h.toNat)
    (routed : route base64 (constant w h n short) cfg "png" dataBase64 = .ok .shrink)
    (checked : checkedRaw base64 cfg dataBase64 = .ok raw)
    (fits : saturatingMul n 4 / 3 ≤ cfg.maxBytes) (long : cfg.maxBytes < base64Length n)
    (high : ¬ (cfg.jpegQuality ≤ minJpegQuality ∧ initialLong cfg w h ≤ minLongSide)) :
    ¬ Keeps base64 (constant w h n short) cfg "png" dataBase64 := by
  intro keeps
  have lower : "png".toLower = "png" := by
    rw [← String.toList_inj]
    change ("png".map Char.toLower).toList = _
    rw [String.toList_map]
    rfl
  have static : shrinkStatic base64 (constant w h n short) cfg "png" dataBase64 1 =
      some (.ok ⟨List.replicate n 0, cfg.jpegQuality, initialLong cfg w h⟩) :=
    shrinkStatic_constant few checked fits 0
  have ran : maybeShrinkImage base64 (constant w h n short) cfg "png" dataBase64 1 =
      some (.ok (Encoded.image base64 dataBase64
        ⟨List.replicate n 0, cfg.jpegQuality, initialLong cfg w h⟩)) := by
    dsimp only [maybeShrinkImage]
    rw [lower, routed]
    dsimp only
    rw [shrinkStaticImage, static]
    rfl
  rcases keeps.fits enabled 1 _ ran with ⟨kept, -⟩ | ⟨-, -, within | ⟨final, reached, floor⟩⟩
  · cases kept
  · have length : (base64.encode (List.replicate n 0)).utf8ByteSize = base64Length n := by
      rw [base64.encode_length, List.length_replicate]
      rfl
    exact Nat.lt_irrefl _ (long.trans_le (length.symm.trans_le within))
  · rw [lower, static] at reached
    cases reached
    exact high floor

end Undercut

theorem route_large (enabled : cfg.enabled = true) {raw : Bytes}
    (checked : checkedRaw base64 cfg dataBase64 = .ok raw)
    (large : cfg.maxBytes < dataBase64.utf8ByteSize) :
    route base64 codec cfg "png" dataBase64 = .ok .shrink := by
  obtain ⟨_, valid, -⟩ := bind_ok checked
  have on : ¬ cfg.enabled = false := by
    rw [enabled]
    decide
  have png : ¬ "png" = "gif" := by decide
  simp only [route, valid, bind, Except.bind, if_neg on, if_neg (Nat.not_le_of_lt large),
    routeLarge, if_neg png]

theorem checkedRaw_empty (base64 : Base64) (cfg : ResizeConfig) :
    checkedRaw base64 cfg "" = .ok [] := by
  have estimate : estimatedDecodedLen "" = 0 := by decide
  have empty : "".utf8ByteSize = 0 := rfl
  have valid : validateBase64Limits cfg "" = .ok () := by
    rw [validateBase64Limits, estimate, empty, if_neg (Nat.not_lt_zero _),
      if_neg (Nat.not_lt_zero _)]
  simp only [checkedRaw, valid, base64.decode_empty, bind, Except.bind, Except.mapError,
    List.length_nil, if_neg (Nat.not_lt_zero cfg.maxDecodedBytes)]

theorem route_wide (enabled : cfg.enabled = true) {raw : Bytes}
    (checked : checkedRaw base64 cfg dataBase64 = .ok raw)
    (more : cfg.maxLongSide.toNat < 2 ^ 32 - 1) {h : UInt32} {n : Nat} {short : n ≤ isizeMax}
    (few : ¬ cfg.maxPixels < (cfg.maxLongSide + 1).toNat * h.toNat) :
    route base64 (constant (cfg.maxLongSide + 1) h n short) cfg "png" dataBase64 = .ok .shrink := by
  by_cases small : dataBase64.utf8ByteSize ≤ cfg.maxBytes
  · obtain ⟨_, valid, -⟩ := bind_ok checked
    have on : ¬ cfg.enabled = false := by
      rw [enabled]
      decide
    have png : ¬ "png" = "gif" := by decide
    have probed : readDimensionsFromRaw (constant (cfg.maxLongSide + 1) h n short) cfg "png" raw =
        .ok (some (cfg.maxLongSide + 1, h)) := readDimensionsFromRaw_constant few raw
    have wide : ¬ max (cfg.maxLongSide + 1) h ≤ cfg.maxLongSide := by
      rw [UInt32.le_iff_toNat_le, UInt32.toNat_max, toNat_succ_of_lt more]
      omega
    simp only [route, valid, bind, Except.bind, if_neg on, if_pos small, peekDimensionsChecked,
      checked, probed, if_neg wide, routeLarge, if_neg png]
  · exact route_large enabled checked (Nat.lt_of_not_le small)

theorem tight_of_keeps
    (keeps : ∀ codec format dataBase64, Keeps base64 codec cfg format dataBase64) :
    Tight base64 cfg := by
  rintro enabled ⟨n, short, fits, long⟩ reencodes
  by_contra high
  rcases reencodes with more | ⟨dataBase64, raw, large, checked⟩
  · have checked := checkedRaw_empty base64 cfg
    have routed : route base64 (constant (cfg.maxLongSide + 1) 0 n short) cfg "png" "" =
        .ok .shrink := route_wide enabled checked more (Nat.not_lt_zero _)
    refine not_keeps enabled (Nat.not_lt_zero _) routed checked fits long ?_ (keeps _ _ _)
    rintro ⟨low, small⟩
    refine high ⟨low, le_of_initialLong_le (.inr ?_) small⟩
    rw [UInt32.lt_iff_toNat_lt, toNat_succ_of_lt more]
    exact Nat.lt_succ_self _
  · have routed : route base64 (constant 257 0 n short) cfg "png" dataBase64 = .ok .shrink :=
      route_large enabled checked large
    refine not_keeps enabled (Nat.not_lt_zero _) routed checked fits long ?_ (keeps _ _ _)
    rintro ⟨low, small⟩
    exact high ⟨low, le_of_initialLong_le (.inl (by decide)) small⟩

theorem byteLength_encodeStandard (bytes : Bytes) :
    byteLength (encodeStandard bytes) = base64Length bytes.length := by
  have short : byteLength (encodeStandard bytes) ≤ (encodeStandard bytes).length :=
    byteLength_le_length_iff.mpr fun c mem =>
      utf8Size_eq_one_iff.mp (ascii_encodeStandard bytes c mem)
  rw [base64Length, ← length_encodeStandard]
  exact Nat.le_antisymm short (length_le_byteLength _)

def standard : Base64 where
  decode text := (decodeStandard text.toList).elim (.error "Invalid symbol") .ok
  encode bytes := String.ofList (encodeStandard bytes)
  encode_length bytes := by
    rw [utf8ByteSize_eq, String.toList_ofList]
    exact byteLength_encodeStandard bytes
  decode_empty := rfl

def header : String := "iVBORw0KGgoAAAANSUhEUgAABiEAAAAB"

end KiroRs.Images.Convergence
