/- Path: KiroRs/Converter/ReadWindows
   source: src/anthropic/converter.rs
   digest: The lines that a `Read` selects, before and after its window is rewritten. -/

import KiroRs.Converter.ToolNames
import Mathlib.Data.Set.Basic

set_option autoImplicit false
set_option relaxedAutoImplicit false

namespace KiroRs.Converter.ReadWindows

open KiroRs.Lib
open KiroRs.Lib.Dicts (Dict)
open KiroRs.Converter.Json
open KiroRs.Converter.ToolNames

variable {obj out : Dict Value} {key other : String}

/-- A first line and a number of lines. Without a first line the window starts at line one,
without a number it has no end. -/
structure ClientWindow where
  offset : Option Int
  limit : Option Int
  deriving DecidableEq

def ClientWindow.start (w : ClientWindow) : Int := w.offset.getD 1

def ClientWindow.lines (w : ClientWindow) : Set Int :=
  {n | 1 ≤ n ∧ w.start ≤ n ∧ ∀ limit, w.limit = some limit → n < w.start + limit}

/-- A first and a last line, with the same meaning of one that is missing. -/
structure KiroWindow where
  startLine : Option Int
  endLine : Option Int
  deriving DecidableEq

def KiroWindow.start (w : KiroWindow) : Int := w.startLine.getD 1

def KiroWindow.lines (w : KiroWindow) : Set Int :=
  {n | 1 ≤ n ∧ w.start ≤ n ∧ ∀ last, w.endLine = some last → n ≤ last}

variable {w : ClientWindow} {v : KiroWindow} {n : Int}

theorem ClientWindow.mem_lines : n ∈ w.lines ↔
    1 ≤ n ∧ w.start ≤ n ∧ ∀ limit, w.limit = some limit → n < w.start + limit :=
  Iff.rfl

theorem KiroWindow.mem_lines : n ∈ v.lines ↔
    1 ≤ n ∧ v.start ≤ n ∧ ∀ last, v.endLine = some last → n ≤ last :=
  Iff.rfl

/-- The window by its last line, over the integers. -/
def ClientWindow.toKiro (w : ClientWindow) : KiroWindow where
  startLine := w.offset
  endLine := w.limit.map fun limit => w.start + limit - 1

/-- The window by its number of lines, over the integers. -/
def KiroWindow.toClient (w : KiroWindow) : ClientWindow where
  offset := w.startLine
  limit := w.endLine.map fun last => last - w.start + 1

theorem ClientWindow.lines_toKiro (w : ClientWindow) : w.toKiro.lines = w.lines := by
  obtain ⟨offset, limit⟩ := w
  ext n
  rw [KiroWindow.mem_lines, mem_lines]
  cases limit with
  | none => simp [toKiro, start, KiroWindow.start]
  | some limit =>
    simp only [toKiro, start, KiroWindow.start, Option.map_some, Option.some.injEq, forall_eq']
    omega

theorem KiroWindow.lines_toClient (w : KiroWindow) : w.toClient.lines = w.lines := by
  obtain ⟨startLine, endLine⟩ := w
  ext n
  rw [ClientWindow.mem_lines, mem_lines]
  cases endLine with
  | none => simp [toClient, start, ClientWindow.start]
  | some last =>
    simp only [toClient, start, ClientWindow.start, Option.map_some, Option.some.injEq, forall_eq']
    omega

theorem ClientWindow.toClient_toKiro (w : ClientWindow) : w.toKiro.toClient = w := by
  obtain ⟨offset, limit⟩ := w
  cases limit with
  | none => rfl
  | some limit =>
    simp only [toKiro, KiroWindow.toClient, start, KiroWindow.start, Option.map_some]
    congr 2
    omega

theorem KiroWindow.toKiro_toClient (w : KiroWindow) : w.toClient.toKiro = w := by
  obtain ⟨startLine, endLine⟩ := w
  cases endLine with
  | none => rfl
  | some last =>
    simp only [toClient, ClientWindow.toKiro, start, ClientWindow.start, Option.map_some]
    congr 2
    omega

def integer : Value → Option Int
  | .number (.posInt n) => some n.toNat
  | .number (.negInt n) => some n.toInt
  | _ => none

def integerField (obj : Dict Value) (key : String) : Option Int := (Dicts.get obj key).bind integer

/-- The field is absent or an integer. -/
def IntegerOrAbsent (obj : Dict Value) (key : String) : Prop :=
  ∀ v, Dicts.get obj key = some v → (integer v).isSome

theorem integerOrAbsent_iff :
    IntegerOrAbsent obj key ↔ ((Dicts.get obj key).all fun v => (integer v).isSome) = true := by
  unfold IntegerOrAbsent
  cases Dicts.get obj key <;> simp

def machineField (obj : Dict Value) (key : String) : Option Int64 :=
  (Dicts.get obj key).bind optionalNumber

def clientWindow (obj : Dict Value) : ClientWindow where
  offset := integerField obj "offset"
  limit := integerField obj "limit"

def kiroWindow (obj : Dict Value) : KiroWindow where
  startLine := integerField obj "start_line"
  endLine := integerField obj "end_line"

def lastLine (offset limit : Option Int64) : Option Int64 :=
  limit.map fun limit => match offset with
    | some start => start + limit - 1
    | none => limit

/-- The number of lines as the code computes it. -/
def lineCount (first last : Option Int64) : Option Int64 :=
  (last.map fun last => match first with
    | some start => last - start + 1
    | none => last).filter (0 < ·)

def insertNumber (out : Dict Value) (key : String) : Option Int64 → Dict Value
  | some n => Dicts.insert out key (Value.ofI64 n)
  | none => out

theorem get_insertNumber {n : Option Int64} : Dicts.get (insertNumber out key n) other =
    if other = key then (n.map Value.ofI64).or (Dicts.get out other) else Dicts.get out other := by
  cases n with
  | none => simp [insertNumber]
  | some n =>
    rw [insertNumber, Dicts.get_insert]
    rfl

theorem readWindowToKiro_eq : readWindowToKiro obj out =
    insertNumber (insertNumber out "start_line" (machineField obj "offset")) "end_line"
      (lastLine (machineField obj "offset") (machineField obj "limit")) := by
  unfold readWindowToKiro lastLine machineField
  cases (Dicts.get obj "offset").bind optionalNumber <;>
    cases (Dicts.get obj "limit").bind optionalNumber <;> rfl

theorem readWindowFromKiro_eq : readWindowFromKiro obj out =
    insertNumber (insertNumber out "offset" (machineField obj "start_line")) "limit"
      (lineCount (machineField obj "start_line") (machineField obj "end_line")) := by
  unfold readWindowFromKiro lineCount machineField
  cases (Dicts.get obj "start_line").bind optionalNumber <;>
    cases (Dicts.get obj "end_line").bind optionalNumber
  case none.none | some.none => rfl
  all_goals
    simp only [Option.map_some, Option.filter_some, decide_eq_true_eq]
    split_ifs <;> rfl

/-- The integer is one of 64 bits with a sign. -/
def InI64 (n : Int) : Prop := -2 ^ 63 ≤ n ∧ n < 2 ^ 63

theorem inI64_toInt (n : Int64) : InI64 n.toInt := ⟨n.le_toInt, n.toInt_lt⟩

theorem bmod_eq_iff : n.bmod (2 ^ 64) = n ↔ InI64 n := by
  rw [Int.bmod_eq_iff (by decide)]
  unfold InI64
  omega

theorem toInt_add_iff {a b : Int64} : (a + b).toInt = a.toInt + b.toInt ↔
    InI64 (a.toInt + b.toInt) := by
  rw [Int64.toInt_add, bmod_eq_iff]

theorem toInt_sub_iff {a b : Int64} : (a - b).toInt = a.toInt - b.toInt ↔
    InI64 (a.toInt - b.toInt) := by
  rw [Int64.toInt_sub, bmod_eq_iff]

theorem toInt_toInt64 (n : UInt64) : n.toInt64.toInt = (n.toNat : Int).bmod (2 ^ 64) :=
  BitVec.toInt_eq_toNat_bmod _

theorem toNat_toUInt64 {n : Int64} (natural : 0 ≤ n) : (n.toUInt64.toNat : Int) = n.toInt := by
  have wrapped := toInt_toInt64 n.toUInt64
  rw [Int64.toInt64_toUInt64] at wrapped
  have positive : 0 ≤ n.toInt := Int64.le_iff_toInt_le.mp natural
  have bounded := n.toUInt64.toNat_lt
  rw [wrapped] at positive ⊢
  symm
  rw [bmod_eq_iff]
  unfold InI64
  rw [Int.bmod_def] at positive
  split_ifs at positive <;> omega

@[simp] theorem optionalNumber_posInt (n : UInt64) :
    optionalNumber (.number (.posInt n)) = some n.toInt64 := by
  unfold optionalNumber Value.asI64 Value.asU64
  by_cases small : n ≤ 9223372036854775807
  · simp [small]
  · simp [small]

@[simp] theorem optionalNumber_negInt (n : Int64) : optionalNumber (.number (.negInt n)) = some n :=
  rfl

@[simp] theorem optionalNumber_ofI64 (n : Int64) : optionalNumber (Value.ofI64 n) = some n := by
  unfold Value.ofI64
  split_ifs <;> simp

@[simp] theorem integer_ofI64 (n : Int64) : integer (Value.ofI64 n) = some n.toInt := by
  unfold Value.ofI64
  split_ifs with natural
  · simp only [integer, toNat_toUInt64 natural]
  · rfl

theorem optionalNumber_integer {value : Value} (is : integer value = some n) :
    ∃ m, optionalNumber value = some m ∧ m.toInt = n.bmod (2 ^ 64) := by
  unfold integer at is
  split at is
  case h_1 m =>
    cases is
    exact ⟨_, optionalNumber_posInt m, toInt_toInt64 m⟩
  case h_2 m =>
    cases is
    exact ⟨_, optionalNumber_negInt m, (bmod_eq_iff.mpr (inI64_toInt m)).symm⟩
  case h_3 => cases is

theorem machineField_exact (integral : IntegerOrAbsent obj key) :
    (machineField obj key).map Int64.toInt = integerField obj key ↔
      ∀ n, integerField obj key = some n → InI64 n := by
  unfold machineField integerField
  cases held : Dicts.get obj key with
  | none => simp
  | some value =>
    obtain ⟨n, is⟩ := Option.isSome_iff_exists.mp (integral value held)
    obtain ⟨m, reads, wrapped⟩ := optionalNumber_integer is
    simp only [Option.bind_some, reads, is, Option.map_some, wrapped, Option.some.injEq,
      forall_eq', bmod_eq_iff]

/-- Nothing that the code computes of the window wraps. -/
structure ExactToKiro (obj : Dict Value) : Prop where
  offset : (machineField obj "offset").map Int64.toInt = integerField obj "offset"
  limit : (machineField obj "limit").map Int64.toInt = integerField obj "limit"
  sum : ∀ start limit, machineField obj "offset" = some start →
    machineField obj "limit" = some limit →
      (start + limit).toInt = start.toInt + limit.toInt ∧
        (start + limit - 1).toInt = (start + limit).toInt - 1

structure FitsToKiro (w : ClientWindow) : Prop where
  offset : ∀ n, w.offset = some n → InI64 n
  limit : ∀ n, w.limit = some n → InI64 n
  sum : ∀ start limit, w.offset = some start → w.limit = some limit →
    InI64 (start + limit) ∧ InI64 (start + limit - 1)

theorem exactToKiro_iff (offset : IntegerOrAbsent obj "offset")
    (limit : IntegerOrAbsent obj "limit") :
    ExactToKiro obj ↔ FitsToKiro (clientWindow obj) := by
  have one : (1 : Int64).toInt = 1 := rfl
  constructor
  · intro exact'
    refine ⟨(machineField_exact offset).mp exact'.offset,
      (machineField_exact limit).mp exact'.limit, fun start count at_offset at_limit => ?_⟩
    have read_offset := exact'.offset.trans at_offset
    have read_limit := exact'.limit.trans at_limit
    obtain ⟨s, at_s, rfl⟩ := Option.map_eq_some_iff.mp read_offset
    obtain ⟨l, at_l, rfl⟩ := Option.map_eq_some_iff.mp read_limit
    obtain ⟨sum, pred⟩ := exact'.sum s l at_s at_l
    refine ⟨toInt_add_iff.mp sum, ?_⟩
    rw [← sum, ← pred]
    exact inI64_toInt _
  · intro fits
    have exact_offset := (machineField_exact offset).mpr fits.offset
    have exact_limit := (machineField_exact limit).mpr fits.limit
    refine ⟨exact_offset, exact_limit, fun s l at_s at_l => ?_⟩
    rw [at_s] at exact_offset
    rw [at_l] at exact_limit
    obtain ⟨sum, pred⟩ := fits.sum _ _ exact_offset.symm exact_limit.symm
    have added := toInt_add_iff.mpr sum
    refine ⟨added, ?_⟩
    rw [← added] at pred
    exact toInt_sub_iff.mpr (by rw [one]; exact pred)

/-- The upstream's form of a `Read`. -/
def readToKiro (obj : Dict Value) : Dict Value :=
  explain obj "Read" (readWindowToKiro obj (copyFirst obj "path" ["file_path", "path"] []))

theorem mapToolInputToKiro_read : mapToolInputToKiro .claudeCode "Read" (.object obj) =
    if (Dicts.get obj "pages").any fun v => !v.isNull then
      .error { toolName := "Read", reason := readPagesReason }
    else .ok (.object (readToKiro obj)) := by
  have fields : mapToolInputToKiro .claudeCode "Read" (.object obj) =
      (mapFieldsToKiro "Read" obj).map Value.object := rfl
  rw [fields]
  simp only [mapFieldsToKiro]
  split_ifs <;> rfl

theorem of_mapToolInputToKiro {kiro : Dict Value}
    (mapped : mapToolInputToKiro .claudeCode "Read" (.object obj) = .ok (.object kiro)) :
    kiro = readToKiro obj := by
  rw [mapToolInputToKiro_read] at mapped
  split_ifs at mapped
  cases mapped
  rfl

@[simp] theorem get_start_line : Dicts.get (readToKiro obj) "start_line" =
    (machineField obj "offset").map Value.ofI64 := by
  unfold readToKiro
  rw [get_explain (by decide), readWindowToKiro_eq]
  simp [get_insertNumber, get_copyFirst]

@[simp] theorem get_end_line : Dicts.get (readToKiro obj) "end_line" =
    (lastLine (machineField obj "offset") (machineField obj "limit")).map Value.ofI64 := by
  unfold readToKiro
  rw [get_explain (by decide), readWindowToKiro_eq]
  simp [get_insertNumber, get_copyFirst]

/-- The client's form of a `Read`. -/
def readFromKiro (kiro : Dict Value) : Dict Value :=
  readWindowFromKiro kiro (copyFirst kiro "file_path" ["path", "file_path"] [])

theorem mapToolInputFromKiro_read (kiro : Dict Value) :
    mapToolInputFromKiro "Read" (.object kiro) = .object (readFromKiro kiro) :=
  rfl

@[simp] theorem get_offset : Dicts.get (readFromKiro obj) "offset" =
    (machineField obj "start_line").map Value.ofI64 := by
  unfold readFromKiro
  rw [readWindowFromKiro_eq]
  simp [get_insertNumber, get_copyFirst]

@[simp] theorem get_limit : Dicts.get (readFromKiro obj) "limit" =
    (lineCount (machineField obj "start_line") (machineField obj "end_line")).map Value.ofI64 := by
  unfold readFromKiro
  rw [readWindowFromKiro_eq]
  simp [get_insertNumber, get_copyFirst]

theorem mapToolInputToKiro_readFromKiro (kiro : Dict Value) :
    mapToolInputToKiro .claudeCode "Read" (.object (readFromKiro kiro)) =
      .ok (.object (readToKiro (readFromKiro kiro))) := by
  have pages : Dicts.get (readFromKiro kiro) "pages" = none := by
    unfold readFromKiro
    rw [readWindowFromKiro_eq]
    simp [get_insertNumber, get_copyFirst]
  rw [mapToolInputToKiro_read, pages]
  rfl

@[simp] theorem bind_integer (n : Option Int64) :
    (n.map Value.ofI64).bind integer = n.map Int64.toInt := by
  cases n <;> simp

@[simp] theorem bind_optionalNumber (n : Option Int64) :
    (n.map Value.ofI64).bind optionalNumber = n := by
  cases n <;> simp

theorem kiroWindow_readToKiro : kiroWindow (readToKiro obj) =
    { startLine := (machineField obj "offset").map Int64.toInt
      endLine := (lastLine (machineField obj "offset") (machineField obj "limit")).map
        Int64.toInt } := by
  simp [kiroWindow, integerField]

theorem clientWindow_readFromKiro : clientWindow (readFromKiro obj) =
    { offset := (machineField obj "start_line").map Int64.toInt
      limit := (lineCount (machineField obj "start_line") (machineField obj "end_line")).map
        Int64.toInt } := by
  simp [clientWindow, integerField]

theorem ExactToKiro.window (exact' : ExactToKiro obj) :
    kiroWindow (readToKiro obj) = (clientWindow obj).toKiro := by
  have last : (lastLine (machineField obj "offset") (machineField obj "limit")).map Int64.toInt =
      (integerField obj "limit").map fun limit =>
        (integerField obj "offset").getD 1 + limit - 1 := by
    rw [← exact'.offset, ← exact'.limit]
    cases at_limit : machineField obj "limit" with
    | none => rfl
    | some l =>
      cases at_offset : machineField obj "offset" with
      | none =>
        simp only [lastLine, Option.map_some, Option.map_none, Option.getD_none, Option.some.injEq]
        omega
      | some s =>
        obtain ⟨sum, pred⟩ := exact'.sum s l at_offset at_limit
        simp only [lastLine, Option.map_some, Option.getD_some, Option.some.injEq]
        rw [pred, sum]
  rw [kiroWindow_readToKiro, exact'.offset, last]
  rfl

theorem lineCount_lastLine (offset limit : Option Int64) :
    lineCount offset (lastLine offset limit) = limit.filter (0 < ·) := by
  cases limit with
  | none => rfl
  | some limit =>
    cases offset with
    | none => rfl
    | some start =>
      have cancel : start + limit - 1 - start + 1 = limit := by grind
      simp only [lineCount, lastLine, Option.map_some, cancel]

/-- The way to the upstream computes exactly and keeps the lines, and the way back from there
gives the window again unless it was empty. -/
structure KeptToKiro (obj : Dict Value) : Prop extends ExactToKiro obj where
  lines : ∀ kiro, mapToolInputToKiro .claudeCode "Read" (.object obj) = .ok (.object kiro) →
    (kiroWindow kiro).lines = (clientWindow obj).lines
  inverse : ∀ kiro, mapToolInputToKiro .claudeCode "Read" (.object obj) = .ok (.object kiro) →
    (clientWindow obj).lines.Nonempty →
      ∃ back, mapToolInputFromKiro "Read" (.object kiro) = .object back ∧
        clientWindow back = clientWindow obj

theorem clientWindow_back (exact' : ExactToKiro obj)
    (nonempty : (clientWindow obj).lines.Nonempty) :
    clientWindow (readFromKiro (readToKiro obj)) = clientWindow obj := by
  have positive : ∀ limit, machineField obj "limit" = some limit → 0 < limit := by
    intro limit at_limit
    obtain ⟨n, selected⟩ := nonempty
    obtain ⟨_, started, ended⟩ := ClientWindow.mem_lines.mp selected
    have below := ended limit.toInt (by
      show integerField obj "limit" = _
      rw [← exact'.limit, at_limit]
      rfl)
    rw [Int64.lt_iff_toInt_lt]
    show (0 : Int) < limit.toInt
    omega
  have kept : (machineField obj "limit").filter (0 < ·) = machineField obj "limit" := by
    cases at_limit : machineField obj "limit" with
    | none => rfl
    | some limit => simp [positive limit at_limit]
  have start : machineField (readToKiro obj) "start_line" = machineField obj "offset" := by
    rw [machineField, get_start_line, bind_optionalNumber]
  have last : machineField (readToKiro obj) "end_line" =
      lastLine (machineField obj "offset") (machineField obj "limit") := by
    rw [machineField, get_end_line, bind_optionalNumber]
  rw [clientWindow_readFromKiro, start, last, lineCount_lastLine, kept, exact'.offset, exact'.limit]
  rfl

theorem keptToKiro_iff (offset : IntegerOrAbsent obj "offset")
    (limit : IntegerOrAbsent obj "limit") :
    KeptToKiro obj ↔ FitsToKiro (clientWindow obj) := by
  rw [← exactToKiro_iff offset limit]
  constructor
  · exact KeptToKiro.toExactToKiro
  · intro exact'
    refine { exact' with lines := fun kiro mapped => ?_, inverse := fun kiro mapped nonempty => ?_ }
    · rw [of_mapToolInputToKiro mapped, exact'.window, ClientWindow.lines_toKiro]
    · rw [of_mapToolInputToKiro mapped]
      exact ⟨_, mapToolInputFromKiro_read _, clientWindow_back exact' nonempty⟩

structure ExactFromKiro (kiro : Dict Value) : Prop where
  start_line : (machineField kiro "start_line").map Int64.toInt = integerField kiro "start_line"
  end_line : (machineField kiro "end_line").map Int64.toInt = integerField kiro "end_line"
  difference : ∀ start last, machineField kiro "start_line" = some start →
    machineField kiro "end_line" = some last →
      (last - start).toInt = last.toInt - start.toInt ∧
        (last - start + 1).toInt = (last - start).toInt + 1

structure FitsFromKiro (v : KiroWindow) : Prop where
  start_line : ∀ n, v.startLine = some n → InI64 n
  end_line : ∀ n, v.endLine = some n → InI64 n
  difference : ∀ start last, v.startLine = some start → v.endLine = some last →
    InI64 (last - start) ∧ InI64 (last - start + 1)

theorem exactFromKiro_iff {kiro : Dict Value} (start_line : IntegerOrAbsent kiro "start_line")
    (end_line : IntegerOrAbsent kiro "end_line") :
    ExactFromKiro kiro ↔ FitsFromKiro (kiroWindow kiro) := by
  have one : (1 : Int64).toInt = 1 := rfl
  constructor
  · intro exact'
    refine ⟨(machineField_exact start_line).mp exact'.start_line,
      (machineField_exact end_line).mp exact'.end_line, fun first last at_first at_last => ?_⟩
    obtain ⟨s, at_s, rfl⟩ := Option.map_eq_some_iff.mp (exact'.start_line.trans at_first)
    obtain ⟨e, at_e, rfl⟩ := Option.map_eq_some_iff.mp (exact'.end_line.trans at_last)
    obtain ⟨difference, succ⟩ := exact'.difference s e at_s at_e
    refine ⟨toInt_sub_iff.mp difference, ?_⟩
    rw [← difference, ← succ]
    exact inI64_toInt _
  · intro fits
    have exact_start := (machineField_exact start_line).mpr fits.start_line
    have exact_end := (machineField_exact end_line).mpr fits.end_line
    refine ⟨exact_start, exact_end, fun s e at_s at_e => ?_⟩
    rw [at_s] at exact_start
    rw [at_e] at exact_end
    obtain ⟨difference, succ⟩ := fits.difference _ _ exact_start.symm exact_end.symm
    have subtracted := toInt_sub_iff.mpr difference
    refine ⟨subtracted, ?_⟩
    rw [← subtracted] at succ
    exact toInt_add_iff.mpr (by rw [one]; exact succ)

/-- The number of lines as an integer, which is dropped unless it is positive. -/
theorem ExactFromKiro.window {kiro : Dict Value} (exact' : ExactFromKiro kiro) :
    clientWindow (readFromKiro kiro) =
      { offset := (kiroWindow kiro).toClient.offset
        limit := (kiroWindow kiro).toClient.limit.filter (0 < ·) } := by
  have count : (lineCount (machineField kiro "start_line") (machineField kiro "end_line")).map
      Int64.toInt = (((integerField kiro "end_line").map fun last =>
        last - (integerField kiro "start_line").getD 1 + 1).filter (0 < ·)) := by
    rw [← exact'.start_line, ← exact'.end_line]
    cases at_last : machineField kiro "end_line" with
    | none => rfl
    | some e =>
      have filtered : ∀ count : Int64, ((some count).filter (0 < ·)).map Int64.toInt =
          (some count.toInt).filter (0 < ·) := by
        intro count
        have positive : (0 < count) ↔ (0 : Int) < count.toInt := Int64.lt_iff_toInt_lt
        simp only [Option.filter_some, decide_eq_true_eq, positive]
        split_ifs <;> rfl
      cases at_first : machineField kiro "start_line" with
      | none =>
        simp only [lineCount, Option.map_some, Option.map_none, Option.getD_none, filtered]
        congr 2
        omega
      | some s =>
        obtain ⟨difference, succ⟩ := exact'.difference s e at_first at_last
        simp only [lineCount, Option.map_some, Option.getD_some, filtered]
        rw [succ, difference]
  rw [clientWindow_readFromKiro, exact'.start_line, count]
  rfl

structure KeptFromKiro (kiro : Dict Value) : Prop extends ExactFromKiro kiro where
  lines : ∀ back, mapToolInputFromKiro "Read" (.object kiro) = .object back →
    (clientWindow back).lines = (kiroWindow kiro).lines
  inverse : ∀ back, mapToolInputFromKiro "Read" (.object kiro) = .object back →
    (kiroWindow kiro).lines.Nonempty →
      ∃ again, mapToolInputToKiro .claudeCode "Read" (.object back) = .ok (.object again) ∧
        kiroWindow again = kiroWindow kiro

theorem lastLine_lineCount {first last : Option Int64}
    (positive : ∀ e, last = some e → ∃ count, lineCount first last = some count) :
    lastLine first (lineCount first last) = last := by
  cases last with
  | none => rfl
  | some e =>
    obtain ⟨count, counted⟩ := positive e rfl
    rw [counted]
    obtain ⟨computed, -⟩ := Option.filter_eq_some_iff.mp counted
    cases computed
    cases first with
    | none => rfl
    | some s =>
      have cancel : s + (e - s + 1) - 1 = e := by grind
      simp only [lastLine, Option.map_some, cancel]

theorem kiroWindow_again {kiro : Dict Value} (exact' : ExactFromKiro kiro)
    (started : ∀ last, (kiroWindow kiro).endLine = some last → (kiroWindow kiro).start ≤ last) :
    kiroWindow (readToKiro (readFromKiro kiro)) = kiroWindow kiro := by
  have counted : ∀ e, machineField kiro "end_line" = some e → ∃ count,
      lineCount (machineField kiro "start_line") (machineField kiro "end_line") = some count := by
    intro e at_e
    have ended : (kiroWindow kiro).endLine = some e.toInt := by
      show integerField kiro "end_line" = _
      rw [← exact'.end_line, at_e]
      rfl
    have below := started e.toInt ended
    have limit := congrArg ClientWindow.limit exact'.window
    rw [clientWindow_readFromKiro] at limit
    simp only [KiroWindow.toClient, ended, Option.map_some, Option.filter_some] at limit
    rw [if_pos (decide_eq_true (by omega))] at limit
    obtain ⟨count, counted, -⟩ := Option.map_eq_some_iff.mp limit
    exact ⟨count, counted⟩
  have offset : machineField (readFromKiro kiro) "offset" = machineField kiro "start_line" := by
    rw [machineField, get_offset, bind_optionalNumber]
  have limit : machineField (readFromKiro kiro) "limit" =
      lineCount (machineField kiro "start_line") (machineField kiro "end_line") := by
    rw [machineField, get_limit, bind_optionalNumber]
  rw [kiroWindow_readToKiro, offset, limit, lastLine_lineCount counted, exact'.start_line,
    exact'.end_line]
  rfl

theorem lines_of_empty {kiro : Dict Value} {last : Int} (exact' : ExactFromKiro kiro)
    (ended : (kiroWindow kiro).endLine = some last) (before : last < (kiroWindow kiro).start) :
    (clientWindow (readFromKiro kiro)).lines ≠ (kiroWindow kiro).lines := by
  intro same
  have dropped : (clientWindow (readFromKiro kiro)).limit = none := by
    rw [exact'.window]
    simp only [KiroWindow.toClient, ended, Option.map_some, Option.filter_some]
    rw [if_neg (by simp only [decide_eq_true_eq]; omega)]
  have start : (clientWindow (readFromKiro kiro)).start = (kiroWindow kiro).start := by
    rw [exact'.window]
    rfl
  have selected : max 1 (kiroWindow kiro).start ∈ (clientWindow (readFromKiro kiro)).lines := by
    rw [ClientWindow.mem_lines, dropped, start]
    refine ⟨le_max_left _ _, le_max_right _ _, fun limit none => ?_⟩
    cases none
  rw [same] at selected
  obtain ⟨_, started, inside⟩ := KiroWindow.mem_lines.mp selected
  have bounded := inside last ended
  omega

theorem keptFromKiro_iff {kiro : Dict Value} (start_line : IntegerOrAbsent kiro "start_line")
    (end_line : IntegerOrAbsent kiro "end_line") :
    KeptFromKiro kiro ↔ FitsFromKiro (kiroWindow kiro) ∧
      ∀ last, (kiroWindow kiro).endLine = some last → (kiroWindow kiro).start ≤ last := by
  rw [← exactFromKiro_iff start_line end_line]
  constructor
  · intro kept
    refine ⟨kept.toExactFromKiro, fun last ended => ?_⟩
    by_contra before
    exact lines_of_empty kept.toExactFromKiro ended (by omega)
      (kept.lines _ (mapToolInputFromKiro_read kiro))
  · rintro ⟨exact', started⟩
    refine { exact' with lines := fun back mapped => ?_, inverse := fun back mapped _ => ?_ }
    · rw [mapToolInputFromKiro_read] at mapped
      cases mapped
      have window : clientWindow (readFromKiro kiro) = (kiroWindow kiro).toClient := by
        rw [exact'.window]
        cases ended : (kiroWindow kiro).endLine with
        | none => simp only [KiroWindow.toClient, ended, Option.map_none, Option.filter_none]
        | some last =>
          have below := started last ended
          simp only [KiroWindow.toClient, ended, Option.map_some, Option.filter_some]
          rw [if_pos (decide_eq_true (by omega))]
      rw [window, KiroWindow.lines_toClient]
    · rw [mapToolInputFromKiro_read] at mapped
      cases mapped
      exact ⟨_, mapToolInputToKiro_readFromKiro kiro, kiroWindow_again exact' started⟩

/-- The window survives in both directions exactly when its numbers and the ends and counts made
of them are signed integers of 64 bits and the upstream's window does not end before it starts. -/
theorem read_windows_kept {obj kiro : Dict Value} (offset : IntegerOrAbsent obj "offset")
    (limit : IntegerOrAbsent obj "limit") (start_line : IntegerOrAbsent kiro "start_line")
    (end_line : IntegerOrAbsent kiro "end_line") :
    KeptToKiro obj ∧ KeptFromKiro kiro ↔
      FitsToKiro (clientWindow obj) ∧ FitsFromKiro (kiroWindow kiro) ∧
        ∀ last, (kiroWindow kiro).endLine = some last → (kiroWindow kiro).start ≤ last := by
  rw [keptToKiro_iff offset limit, keptFromKiro_iff start_line end_line]

/-- Five lines from the tenth on, and the same window by its last line. -/
theorem read_windows_kept_ten :
    KeptToKiro [("limit", .number (.posInt 5)), ("offset", .number (.posInt 10))] ∧
      KeptFromKiro [("end_line", .number (.posInt 14)), ("start_line", .number (.posInt 10))] := by
  refine (read_windows_kept ?_ ?_ ?_ ?_).mpr ⟨⟨?_, ?_, ?_⟩, ⟨?_, ?_, ?_⟩, ?_⟩
  case refine_1 | refine_2 | refine_3 | refine_4 =>
    exact integerOrAbsent_iff.mpr (by decide +kernel)
  all_goals
    intros
    simp_all [clientWindow, kiroWindow, KiroWindow.start, integerField, Dicts.get_cons, integer,
      InI64]
    try omega

/-- An empty window of the upstream, from line five to line four, becomes all lines from line
five on. -/
theorem empty_window_opens :
    mapToolInputFromKiro "Read"
        (.object [("end_line", .number (.posInt 4)), ("start_line", .number (.posInt 5))]) =
      .object [("offset", .number (.posInt 5))] ∧
      IntegerOrAbsent [("end_line", .number (.posInt 4)), ("start_line", .number (.posInt 5))]
        "start_line" ∧
      IntegerOrAbsent [("end_line", .number (.posInt 4)), ("start_line", .number (.posInt 5))]
        "end_line" ∧
      ¬KeptFromKiro [("end_line", .number (.posInt 4)), ("start_line", .number (.posInt 5))] := by
  have first : IntegerOrAbsent
      [("end_line", .number (.posInt 4)), ("start_line", .number (.posInt 5))] "start_line" :=
    integerOrAbsent_iff.mpr (by decide +kernel)
  have last : IntegerOrAbsent
      [("end_line", .number (.posInt 4)), ("start_line", .number (.posInt 5))] "end_line" :=
    integerOrAbsent_iff.mpr (by decide +kernel)
  refine ⟨by rfl, first, last, fun kept => ?_⟩
  have started := ((keptFromKiro_iff first last).mp kept).2 4 (by decide +kernel)
  exact absurd started (by decide +kernel)

end KiroRs.Converter.ReadWindows
