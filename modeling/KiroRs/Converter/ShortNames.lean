/- Path: KiroRs/Converter/ShortNames
   source: src/anthropic/converter.rs
   digest: How long shortened tool names are, and what the reverse map of a list of names gives. -/

import Mathlib.Data.Bool.AllAny
import KiroRs.Converter.NameRoundTrip
import KiroRs.Lib.Bytes

set_option autoImplicit false
set_option relaxedAutoImplicit false

namespace KiroRs.Converter.ShortNames

open KiroRs.Lib
open KiroRs.Lib.Bytes
open KiroRs.Lib.Text (byteLength)
open KiroRs.Converter.Json
open KiroRs.Converter.Models
open KiroRs.Converter.ToolNames
open KiroRs.Converter.NameRoundTrip (HashesDistinct shortenToolName_inj)

/-- Digests are written in lower case hexadecimal digits. -/
def HexDigests (env : Env) : Prop :=
  ∀ s, ∀ c ∈ (env.sha256Hex s).toList, c ∈ "0123456789abcdef".toList

/-- The map after `map_tool_name` of each name in turn. -/
def recorded (env : Env) (names : List String) : ToolNameMap :=
  names.foldl (fun map name => (mapToolName env name map).2) []

/-- No name is the shortened form of another one that is too long. -/
def Apart (env : Env) (names : List String) : Prop :=
  ∀ a ∈ names, ∀ b ∈ names, toolNameMaxLen < b.utf8ByteSize → a ≠ b → a ≠ shortenToolName env b

/-- What is expected of the names sent in place of the given ones, and of their reverse map. -/
structure Faithful (env : Env) (names : List String) : Prop where
  fits : ∀ name ∈ names, ∀ map, (mapToolName env name map).1.utf8ByteSize ≤ toolNameMaxLen
  records : ∀ name ∈ names, ∀ map, (mapToolName env name map).1 ≠ name →
    Dicts.get (mapToolName env name map).2 (mapToolName env name map).1 = some name
  injective : HashesDistinct env names → Apart env names → ∀ a ∈ names, ∀ b ∈ names,
    ∀ map map', (mapToolName env a map).1 = (mapToolName env b map').1 → a = b
  restores : HashesDistinct env names → Apart env names → ∀ name ∈ names, ∀ map input,
    (restoreToolUseForClient (mapToolName env name map).1 input (recorded env names)).1 = name

/-- The name is not too long, or the 54 characters kept of it are 54 bytes. -/
def Shortens (name : String) : Prop :=
  name.utf8ByteSize ≤ toolNameMaxLen ∨ ∀ c ∈ name.toList.take (toolNameMaxLen - 1 - 8), Ascii c

instance (name : String) : Decidable (Shortens name) :=
  haveI := List.decidableBAll Ascii (name.toList.take (toolNameMaxLen - 1 - 8))
  inferInstanceAs (Decidable (_ ∨ _))

variable {env : Env} {name : String} {names : List String} {map : ToolNameMap}

theorem mapToolName_short (short : name.utf8ByteSize ≤ toolNameMaxLen) :
    mapToolName env name map = (name, map) := if_pos short

theorem mapToolName_long (long : toolNameMaxLen < name.utf8ByteSize) :
    mapToolName env name map =
      (shortenToolName env name, Dicts.insert map (shortenToolName env name) name) :=
  if_neg (Nat.not_le_of_lt long)

theorem ascii_digest (hex : HexDigests env) (s : String) {c : Char}
    (mem : c ∈ (env.sha256Hex s).toList) : Ascii c := by
  have digits : ∀ c ∈ "0123456789abcdef".toList, Ascii c :=
    List.all_iff_forall_prop.mp (by decide)
  exact digits c (hex s c mem)

theorem utf8ByteSize_shortenToolName (hex : HexDigests env) (name : String) :
    (shortenToolName env name).utf8ByteSize =
      byteLength (name.toList.take (toolNameMaxLen - 1 - 8)) + 9 := by
  have length : ((env.sha256Hex name).toList.take 8).length = 8 := by
    rw [List.length_take, String.length_toList, env.sha256Hex_length]
    rfl
  have digits : byteLength ((env.sha256Hex name).toList.take 8) ≤
      ((env.sha256Hex name).toList.take 8).length := by
    refine byteLength_le_length_iff.mpr fun c mem => ?_
    exact ascii_digest hex name (List.mem_of_mem_take mem)
  have least := length_le_byteLength ((env.sha256Hex name).toList.take 8)
  have underscore : Char.utf8Size '_' = 1 := rfl
  rw [utf8ByteSize_eq, shortenToolName, String.toList_ofList, byteLength_append, byteLength_cons,
    underscore]
  omega

theorem shortenToolName_fits_iff (hex : HexDigests env) (long : toolNameMaxLen < name.utf8ByteSize) :
    (shortenToolName env name).utf8ByteSize ≤ toolNameMaxLen ↔
      ∀ c ∈ name.toList.take (toolNameMaxLen - 1 - 8), Ascii c := by
  rw [utf8ByteSize_shortenToolName hex, ← byteLength_le_length_iff, List.length_take]
  rw [utf8ByteSize_eq] at long
  simp only [toolNameMaxLen] at long ⊢
  constructor
  · intro fits
    by_cases many : 54 ≤ name.toList.length
    · omega
    · rw [List.take_of_length_le (by omega)] at fits
      omega
  · intro ascii
    omega

theorem mapToolName_fits_iff (hex : HexDigests env) :
    (mapToolName env name map).1.utf8ByteSize ≤ toolNameMaxLen ↔ Shortens name := by
  by_cases short : name.utf8ByteSize ≤ toolNameMaxLen
  · rw [mapToolName_short short]
    exact iff_of_true short (.inl short)
  · have long := Nat.lt_of_not_le short
    rw [mapToolName_long long, shortenToolName_fits_iff hex long]
    exact (or_iff_right short).symm

theorem records_changed (changed : (mapToolName env name map).1 ≠ name) :
    Dicts.get (mapToolName env name map).2 (mapToolName env name map).1 = some name := by
  by_cases short : name.utf8ByteSize ≤ toolNameMaxLen
  · rw [mapToolName_short short] at changed
    exact absurd rfl changed
  · rw [mapToolName_long (Nat.lt_of_not_le short)]
    exact Dicts.get_insert_self

theorem mapToolName_inj (distinct : HashesDistinct env names) (apart : Apart env names)
    {a b : String} (mem_a : a ∈ names) (mem_b : b ∈ names) {map map' : ToolNameMap}
    (same : (mapToolName env a map).1 = (mapToolName env b map').1) : a = b := by
  by_contra ne
  by_cases short_a : a.utf8ByteSize ≤ toolNameMaxLen
  · rw [mapToolName_short short_a] at same
    by_cases short_b : b.utf8ByteSize ≤ toolNameMaxLen
    · rw [mapToolName_short short_b] at same
      exact ne same
    · have long_b := Nat.lt_of_not_le short_b
      rw [mapToolName_long long_b] at same
      exact apart a mem_a b mem_b long_b ne same
  · have long_a := Nat.lt_of_not_le short_a
    rw [mapToolName_long long_a] at same
    by_cases short_b : b.utf8ByteSize ≤ toolNameMaxLen
    · rw [mapToolName_short short_b] at same
      exact apart b mem_b a mem_a long_a (Ne.symm ne) same.symm
    · have long_b := Nat.lt_of_not_le short_b
      rw [mapToolName_long long_b] at same
      exact ne (distinct a mem_a b mem_b long_a long_b (shortenToolName_inj same))

theorem recorded_snoc : recorded env (names ++ [name]) = (mapToolName env name
    (recorded env names)).2 := List.foldl_concat ..

theorem get_recorded {key : String} (found : Dicts.get (recorded env names) key = some name) :
    name ∈ names ∧ toolNameMaxLen < name.utf8ByteSize ∧ shortenToolName env name = key := by
  induction names using List.reverseRecOn with
  | nil => cases found
  | append_singleton earlier last ih =>
    rw [recorded_snoc] at found
    have later : Dicts.get (recorded env earlier) key = some name →
        name ∈ earlier ++ [last] ∧ toolNameMaxLen < name.utf8ByteSize ∧
          shortenToolName env name = key := by
      intro before
      exact ⟨List.mem_append_left _ (ih before).1, (ih before).2⟩
    by_cases short : last.utf8ByteSize ≤ toolNameMaxLen
    · rw [mapToolName_short short] at found
      exact later found
    · have long := Nat.lt_of_not_le short
      rw [mapToolName_long long, Dicts.get_insert] at found
      split_ifs at found with here
      · cases found
        exact ⟨List.mem_append_right _ (List.mem_singleton_self _), long, here.symm⟩
      · exact later found

theorem isSome_recorded (mem : name ∈ names) (long : toolNameMaxLen < name.utf8ByteSize) :
    (Dicts.get (recorded env names) (shortenToolName env name)).isSome = true := by
  induction names using List.reverseRecOn with
  | nil => cases mem
  | append_singleton earlier last ih =>
    rw [recorded_snoc]
    rcases List.mem_append.mp mem with before | here
    · have kept := ih before
      by_cases short : last.utf8ByteSize ≤ toolNameMaxLen
      · rwa [mapToolName_short short]
      · rw [mapToolName_long (Nat.lt_of_not_le short), Dicts.get_insert]
        split_ifs
        · rfl
        · exact kept
    · rw [← List.mem_singleton.mp here, mapToolName_long long, Dicts.get_insert_self]
      rfl

theorem restores_name (distinct : HashesDistinct env names) (apart : Apart env names)
    (mem : name ∈ names) (map : ToolNameMap) (input : Value) :
    (restoreToolUseForClient (mapToolName env name map).1 input (recorded env names)).1 = name := by
  have entry : ∀ key, (restoreToolUseForClient key input (recorded env names)).1 =
      (Dicts.get (recorded env names) key).getD key := fun _ => rfl
  rw [entry]
  by_cases short : name.utf8ByteSize ≤ toolNameMaxLen
  · rw [mapToolName_short short]
    cases found : Dicts.get (recorded env names) name with
    | none => rfl
    | some other =>
      obtain ⟨other_mem, long, shortened⟩ := get_recorded found
      by_contra ne
      exact apart name mem other other_mem long (Ne.symm ne) shortened.symm
  · have long := Nat.lt_of_not_le short
    rw [mapToolName_long long]
    obtain ⟨other, found⟩ := Option.isSome_iff_exists.mp (isSome_recorded mem long)
    obtain ⟨other_mem, other_long, shortened⟩ := get_recorded found
    rw [found]
    exact distinct other other_mem name mem other_long long (shortenToolName_inj shortened)

/-- The names are mapped as expected exactly if each that is too long keeps ASCII characters
only. -/
theorem faithful_iff (hex : HexDigests env) (names : List String) :
    Faithful env names ↔ ∀ name ∈ names, Shortens name := by
  constructor
  · intro faithful name mem
    exact (mapToolName_fits_iff hex).mp (faithful.fits name mem [])
  · intro shortens
    refine ⟨fun name mem map => (mapToolName_fits_iff hex).mpr (shortens name mem), ?_, ?_, ?_⟩
    · exact fun name _ map changed => records_changed changed
    · exact fun distinct apart a mem_a b mem_b map map' same =>
        mapToolName_inj distinct apart mem_a mem_b same
    · exact fun distinct apart name mem map input => restores_name distinct apart mem map input

def digesting (text digest : String) (long : digest.length = 64) : Env :=
  { Conversion.Env.sample with
    sha256Hex := fun s => if s = text then digest else String.ofList (List.replicate 64 '0')
    sha256Hex_length := by
      intro s
      split_ifs
      · exact long
      · rw [String.length_ofList, List.length_replicate] }

def queryTool : String := String.ofList (List.replicate 22 '查')

def queryEnv : Env :=
  digesting queryTool "c1073b35cf27b91ede5bd87a3305370ca650b29d58c3eb222aa04a9ef7c990b3" (by decide)

/-- The shortened form of a name of few wide characters is longer than the name. -/
theorem not_faithful_query : ¬ Faithful queryEnv [queryTool] := by
  intro faithful
  have fits := faithful.fits queryTool List.mem_cons_self []
  revert fits
  decide +kernel

def pluginTool : String := "mcp__aaaaaaaaaaaaaaaaaaaaaaaaaaaaaaaaaaaaaaaaaaaaaaaaaaaaaaaaaaaa"

def pluginEnv : Env :=
  digesting pluginTool "9235d79b4b93b28eef9193f6d40e361101b23952fcff36f84145f7e27e9684e6"
    (by decide)

theorem faithful_iff_plugin : Faithful pluginEnv ["get_weather", pluginTool] := by
  have hex : HexDigests pluginEnv := by
    intro s c mem
    simp only [pluginEnv, digesting] at mem
    split_ifs at mem
    · exact List.all_iff_forall_prop.mp (by decide) c mem
    · rw [String.toList_ofList] at mem
      rw [List.eq_of_mem_replicate mem]
      decide
  exact (faithful_iff hex _).mpr (by decide +kernel)

end KiroRs.Converter.ShortNames
