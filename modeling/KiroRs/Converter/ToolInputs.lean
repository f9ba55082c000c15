/- Path: KiroRs/Converter/ToolInputs
   source: src/anthropic/converter.rs
   digest: Which fields of a tool's input come back from the upstream's form of it. -/

import KiroRs.Converter.ReadWindows
import Mathlib.Data.List.Nodup

set_option autoImplicit false
set_option relaxedAutoImplicit false

namespace KiroRs.Converter.ToolInputs

open KiroRs.Lib
open KiroRs.Lib.Dicts (Dict)
open KiroRs.Converter.Json
open KiroRs.Converter.ToolNames
open KiroRs.Converter.ReadWindows
  (machineField readToKiro readFromKiro mapToolInputToKiro_read mapToolInputFromKiro_read
    lastLine lineCount lineCount_lastLine get_insertNumber readWindowToKiro_eq readWindowFromKiro_eq
    get_start_line get_end_line get_offset get_limit bind_optionalNumber)

variable {obj out : Dict Value} {key other : String} {keys : List String}

/-- A field of the client's tool that is read again on the way back: its name, the spellings that
are looked for before and after it on the way up, and those that are on the way back. -/
structure CarriedField where
  before : List String
  name : String
  after : List String
  upstream : List String

def CarriedField.spellings (f : CarriedField) : List String := f.before ++ f.name :: f.after

def carriedFields : String → List CarriedField
  | "Write" =>
    [⟨[], "content", ["text"], ["text", "content"]⟩,
      ⟨[], "file_path", ["path"], ["path", "file_path"]⟩]
  | "Edit" =>
    [⟨[], "new_string", ["newStr"], ["newStr", "new_string"]⟩,
      ⟨[], "old_string", ["oldStr"], ["oldStr", "old_string"]⟩,
      ⟨[], "file_path", ["path"], ["path", "file_path"]⟩]
  | "Bash" => [⟨[], "timeout", [], ["timeout"]⟩, ⟨[], "command", [], ["command"]⟩]
  | "Read" => [⟨[], "file_path", ["path"], ["path", "file_path"]⟩]
  | "Glob" => [⟨[], "pattern", ["query"], ["query", "pattern"]⟩]
  | "Grep" =>
    [⟨["caseSensitive"], "case_sensitive", [], ["caseSensitive", "case_sensitive"]⟩,
      ⟨[], "glob", ["includePattern"], ["includePattern", "glob"]⟩,
      ⟨[], "pattern", ["query"], ["query", "pattern"]⟩]
  | "LS" => [⟨[], "path", [], ["path"]⟩]
  | "WebSearch" => [⟨[], "query", [], ["query"]⟩]
  | _ => []

def readBack (fields : List CarriedField) (kiro : Dict Value) (out : Dict Value) : Dict Value :=
  fields.foldr (fun f out => copyFirst kiro f.name f.upstream out) out

theorem mapFieldsFromKiro_eq {clientName : String} {kiro : Dict Value}
    (counterpart : (claudeCodeToolNameToKiro clientName).isSome) :
    mapFieldsFromKiro clientName kiro =
      if clientName = "Read" then readWindowFromKiro kiro (readBack (carriedFields "Read") kiro [])
      else readBack (carriedFields clientName) kiro [] := by
  rcases counterpart_cases counterpart with rfl | rfl | rfl | rfl | rfl | rfl | rfl | rfl
  all_goals rfl

theorem given_readBack {fields : List CarriedField} {kiro : Dict Value}
    (nodup : (fields.map (·.name)).Nodup) :
    given (readBack fields kiro out) key =
      match fields.find? (·.name = key) with
      | some f => (nonNull (takeFirst kiro f.upstream)).or (given out key)
      | none => given out key := by
  induction fields with
  | nil => rfl
  | cons f rest ih =>
    obtain ⟨absent, nodup⟩ := List.nodup_cons.mp nodup
    have step : given (readBack (f :: rest) kiro out) key =
        if key = f.name then (nonNull (takeFirst kiro f.upstream)).or
          (given (readBack rest kiro out) f.name)
        else given (readBack rest kiro out) key := given_copyFirst
    rw [step, List.find?_cons]
    by_cases eq : f.name = key
    · have unread : rest.find? (·.name = key) = none := by
        rw [List.find?_eq_none]
        intro g mem same
        refine absent (List.mem_map.mpr ⟨g, mem, ?_⟩)
        exact (of_decide_eq_true same).trans eq.symm
      rw [if_pos eq.symm, eq, ih nodup, unread]
      simp only [decide_true]
    · rw [if_neg (Ne.symm eq), ih nodup]
      simp only [eq, decide_false]

theorem find_name {fields : List CarriedField} (nodup : (fields.map (·.name)).Nodup)
    {f : CarriedField} (mem : f ∈ fields) : fields.find? (·.name = f.name) = some f := by
  rcases found : fields.find? (·.name = f.name) with _ | g
  · have missed := List.find?_eq_none.mp found f mem
    simp at missed
  · have same : g.name = f.name := by simpa using List.find?_some found
    rw [found, List.inj_on_of_nodup_map nodup (List.mem_of_find?_eq_some found) mem same]

section Agreement

variable {fields : List CarriedField} {back : Dict Value} {P : String → Prop}

theorem comes_as_given {f : CarriedField}
    (before : (given obj f.name).isSome → ∀ other ∈ f.before, Dicts.get obj other = none)
    (others : ∀ other, other ∈ f.before ∨ other ∈ f.after → given obj other = none) :
    nonNull (takeFirst obj f.spellings) = given obj f.name := by
  unfold CarriedField.spellings
  by_cases some : (given obj f.name).isSome
  · rw [takeFirst_append, takeFirst_eq_none.mpr (before some), Option.none_or, takeFirst_cons]
    rcases held : Dicts.get obj f.name with _ | v
    · rw [given, held] at some
      cases some
    · rw [Option.some_or, given, held]
  · rw [Option.not_isSome_iff_eq_none] at some
    rw [some]
    rcases found : takeFirst obj (f.before ++ f.name :: f.after) with _ | v
    · rfl
    · obtain ⟨other, mem, at_other⟩ := exists_of_takeFirst found
      rw [← at_other]
      rcases List.mem_append.mp mem with front | behind
      · exact others other (Or.inl front)
      · rcases List.mem_cons.mp behind with rfl | behind
        · exact some
        · exact others other (Or.inr behind)

theorem agree_iff (nodup : (fields.map (·.name)).Nodup) (names : ∀ f ∈ fields, P f.name)
    (apart : ∀ f ∈ fields, ∀ other, other ∈ f.before ∨ other ∈ f.after →
      P other ∧ other ∉ fields.map (·.name))
    (comes : ∀ key, P key → given back key =
      match fields.find? (·.name = key) with
      | some f => nonNull (takeFirst obj f.spellings)
      | none => none) :
    (∀ key, P key → given back key = given obj key) ↔
      (∀ key, P key → (given obj key).isSome → key ∈ fields.map (·.name)) ∧
      ∀ f ∈ fields, (given obj f.name).isSome → ∀ other ∈ f.before, Dicts.get obj other = none := by
  have at_field : ∀ f ∈ fields, given back f.name = nonNull (takeFirst obj f.spellings) := by
    intro f mem
    rw [comes f.name (names f mem), find_name nodup mem]
  have elsewhere : ∀ key, P key → key ∉ fields.map (·.name) → given back key = none := by
    intro key interest absent
    have unread : fields.find? (·.name = key) = none := by
      rw [List.find?_eq_none]
      intro f mem same
      exact absent (List.mem_map.mpr ⟨f, mem, of_decide_eq_true same⟩)
    rw [comes key interest, unread]
  constructor
  · intro same
    have known : ∀ key, P key → (given obj key).isSome → key ∈ fields.map (·.name) := by
      intro key interest some
      by_contra absent
      rw [← same key interest, elsewhere key interest absent] at some
      cases some
    refine ⟨known, fun f mem some => ?_⟩
    rw [← takeFirst_eq_none]
    rcases found : takeFirst obj f.before with _ | v
    · rfl
    · -- the spelling in front would come back in the field's place
      exfalso
      have first := at_field f mem
      rw [same f.name (names f mem), CarriedField.spellings, takeFirst_append, found,
        Option.some_or] at first
      obtain ⟨other, mem_other, at_other⟩ := exists_of_takeFirst found
      obtain ⟨interest, absent⟩ := apart f mem other (Or.inl mem_other)
      refine absent (known other interest ?_)
      unfold given
      rw [at_other, ← first]
      exact some
  · rintro ⟨known, before⟩ key interest
    by_cases listed : key ∈ fields.map (·.name)
    · obtain ⟨f, mem, rfl⟩ := List.mem_map.mp listed
      rw [at_field f mem]
      refine comes_as_given (before f mem) fun other spelled => ?_
      obtain ⟨interest, absent⟩ := apart f mem other spelled
      by_contra held
      exact absent (known other interest (Option.isSome_iff_ne_none.mpr held))
    · rw [elsewhere key interest listed]
      by_contra held
      exact listed (known key interest (Option.isSome_iff_ne_none.mpr (Ne.symm held)))

end Agreement

def SameFields (back obj : Dict Value) : Prop :=
  ∀ key, key ≠ "explanation" → given back key = given obj key

/-- The input is refused, or comes back as it was up to nulls and the explanation. -/
def KeptOrRefused (clientName : String) (obj : Dict Value) : Prop :=
  ∀ v, mapToolInputToKiro .claudeCode clientName (.object obj) = .ok v →
    ∃ back, mapToolInputFromKiro clientName v = .object back ∧ SameFields back obj

def carriedNames (clientName : String) : List String :=
  (carriedFields clientName).map (·.name) ++
    if clientName = "Read" then ["offset", "limit"] else []

/-- The input gives nothing but what comes back. -/
structure Carried (clientName : String) (obj : Dict Value) : Prop where
  known : ∀ key, key ≠ "explanation" → (given obj key).isSome → key ∈ carriedNames clientName
  /-- `Grep` looks for the upstream's spelling first. -/
  unshadowed : clientName = "Grep" → (given obj "case_sensitive").isSome →
    Dicts.get obj "caseSensitive" = none
  offset : clientName = "Read" → ∀ v, given obj "offset" = some v → ∃ n, v = Value.ofI64 n
  limit : clientName = "Read" → ∀ v, given obj "limit" = some v → ∃ n, 0 < n ∧ v = Value.ofI64 n

/-- `Read` refuses pages. -/
def refused (clientName : String) (obj : Dict Value) : Bool :=
  clientName == "Read" && (given obj "pages").isSome

theorem upstream_kept {clientName : String} {kiro : Dict Value}
    (counterpart : (claudeCodeToolNameToKiro clientName).isSome)
    (mapped : mapFieldsToKiro clientName obj = .ok kiro) :
    ∀ f ∈ carriedFields clientName,
      nonNull (takeFirst kiro f.upstream) = nonNull (takeFirst obj f.spellings) := by
  by_cases read : clientName = "Read"
  · subst read
    simp only [mapFieldsToKiro] at mapped
    split_ifs at mapped
    cases mapped
    simp [carriedFields, CarriedField.spellings, get_copyFirst, get_explain, readWindowToKiro_eq,
      get_insertNumber]
  · rcases counterpart_cases counterpart with rfl | rfl | rfl | rfl | rfl | rfl | rfl | rfl
    case inr.inr.inr.inl => exact absurd rfl read
    all_goals
      cases mapped
      simp [carriedFields, CarriedField.spellings, get_copyFirst, get_explain,
        get_includeIgnoredToKiro]

theorem nodup_carriedFields {clientName : String}
    (counterpart : (claudeCodeToolNameToKiro clientName).isSome) :
    ((carriedFields clientName).map (·.name)).Nodup := by
  rcases counterpart_cases counterpart with rfl | rfl | rfl | rfl | rfl | rfl | rfl | rfl
  all_goals decide

theorem spellings_apart {clientName : String}
    (counterpart : (claudeCodeToolNameToKiro clientName).isSome) :
    ∀ f ∈ carriedFields clientName, ∀ other, other ∈ f.before ∨ other ∈ f.after →
      other ∉ (carriedFields clientName).map (·.name) ∧
        other ≠ "explanation" ∧ other ≠ "offset" ∧ other ≠ "limit" := by
  have each : ∀ f ∈ carriedFields clientName, ∀ other ∈ f.before ++ f.after,
      other ∉ (carriedFields clientName).map (·.name) ∧
        other ≠ "explanation" ∧ other ≠ "offset" ∧ other ≠ "limit" := by
    rcases counterpart_cases counterpart with rfl | rfl | rfl | rfl | rfl | rfl | rfl | rfl
    all_goals decide
  exact fun f mem other spelled => each f mem other (List.mem_append.mpr spelled)

theorem name_apart {clientName : String}
    (counterpart : (claudeCodeToolNameToKiro clientName).isSome) :
    ∀ f ∈ carriedFields clientName,
      f.name ≠ "explanation" ∧ f.name ≠ "offset" ∧ f.name ≠ "limit" := by
  rcases counterpart_cases counterpart with rfl | rfl | rfl | rfl | rfl | rfl | rfl | rfl
  all_goals decide

theorem before_eq_nil {clientName : String} (other : clientName ≠ "Grep") :
    ∀ f ∈ carriedFields clientName, f.before = [] := by
  unfold carriedFields
  split
  case h_6 => exact absurd rfl other
  all_goals simp

theorem mapToolInputToKiro_object {clientName : String}
    (counterpart : (claudeCodeToolNameToKiro clientName).isSome) :
    mapToolInputToKiro .claudeCode clientName (.object obj) =
      (mapFieldsToKiro clientName obj).map Value.object := by
  unfold mapToolInputToKiro
  rw [if_neg (by decide), if_neg (by
    simp [Option.isNone_iff_eq_none, Option.isSome_iff_ne_none.mp counterpart])]

theorem mapToolInputFromKiro_object {clientName : String} {kiro : Dict Value}
    (counterpart : (claudeCodeToolNameToKiro clientName).isSome) :
    mapToolInputFromKiro clientName (.object kiro) =
      .object (mapFieldsFromKiro clientName kiro) := by
  unfold mapToolInputFromKiro
  rw [if_neg (by simp [Option.isNone_iff_eq_none, Option.isSome_iff_ne_none.mp counterpart])]

theorem mapFieldsToKiro_ok {clientName : String} (other : clientName ≠ "Read") :
    ∃ kiro, mapFieldsToKiro clientName obj = .ok kiro := by
  unfold mapFieldsToKiro
  split
  case h_4 => exact absurd rfl other
  all_goals exact ⟨_, rfl⟩

theorem comes_of_mapped {clientName : String} {kiro : Dict Value}
    (counterpart : (claudeCodeToolNameToKiro clientName).isSome)
    (mapped : mapFieldsToKiro clientName obj = .ok kiro) (key : String) :
    given (readBack (carriedFields clientName) kiro []) key =
      match (carriedFields clientName).find? (·.name = key) with
      | some f => nonNull (takeFirst obj f.spellings)
      | none => none := by
  rw [given_readBack (nodup_carriedFields counterpart)]
  cases found : (carriedFields clientName).find? (·.name = key) with
  | none => rfl
  | some f =>
    have kept := upstream_kept counterpart mapped f (List.mem_of_find?_eq_some found)
    simp only [kept]
    cases nonNull (takeFirst obj f.spellings) <;> rfl

theorem before_iff {clientName : String} : (∀ f ∈ carriedFields clientName,
      (given obj f.name).isSome → ∀ other ∈ f.before, Dicts.get obj other = none) ↔
    (clientName = "Grep" → (given obj "case_sensitive").isSome →
      Dicts.get obj "caseSensitive" = none) := by
  by_cases grep : clientName = "Grep"
  · subst grep
    simp [carriedFields]
  · constructor
    · intro _ is
      exact absurd is grep
    · intro _ f mem _ other spelled
      rw [before_eq_nil grep f mem] at spelled
      cases spelled

theorem kept_iff_of_plain {clientName : String} (plain : clientName ≠ "Read")
    (counterpart : (claudeCodeToolNameToKiro clientName).isSome) :
    KeptOrRefused clientName obj ↔ Carried clientName obj := by
  obtain ⟨kiro, mapped⟩ : ∃ kiro, mapFieldsToKiro clientName obj = .ok kiro :=
    mapFieldsToKiro_ok plain
  have comes : ∀ key, key ≠ "explanation" →
      given (mapFieldsFromKiro clientName kiro) key =
        match (carriedFields clientName).find? (·.name = key) with
        | some f => nonNull (takeFirst obj f.spellings)
        | none => none := by
    intro key _
    rw [mapFieldsFromKiro_eq counterpart, if_neg plain]
    exact comes_of_mapped counterpart mapped key
  have agree := agree_iff (nodup_carriedFields counterpart)
    (fun f mem => (name_apart counterpart f mem).1)
    (fun f mem other spelled => ⟨(spellings_apart counterpart f mem other spelled).2.1,
      (spellings_apart counterpart f mem other spelled).1⟩) comes
  have names : carriedNames clientName = (carriedFields clientName).map (·.name) := by
    unfold carriedNames
    rw [if_neg plain, List.append_nil]
  rw [before_iff] at agree
  constructor
  · intro kept
    obtain ⟨back, returned, same⟩ := kept (.object kiro) (by
      rw [mapToolInputToKiro_object counterpart, mapped]
      rfl)
    rw [mapToolInputFromKiro_object counterpart] at returned
    cases returned
    obtain ⟨known, unshadowed⟩ := agree.mp same
    refine ⟨?_, unshadowed, fun is => absurd is plain, fun is => absurd is plain⟩
    rw [names]
    exact known
  · intro carried v answered
    rw [mapToolInputToKiro_object counterpart, mapped] at answered
    cases answered
    refine ⟨_, mapToolInputFromKiro_object counterpart, agree.mpr ⟨?_, carried.unshadowed⟩⟩
    rw [← names]
    exact carried.known

theorem ofI64_not_null (n : Int64) : (Value.ofI64 n).isNull = false := by
  unfold Value.ofI64
  split_ifs <;> rfl

@[simp] theorem nonNull_map_ofI64 (n : Option Int64) :
    nonNull (n.map Value.ofI64) = n.map Value.ofI64 := by
  cases n with
  | none => rfl
  | some n =>
    rw [Option.map_some, nonNull_some, ofI64_not_null]
    rfl

theorem number_kept_iff (passes : Int64 → Bool) :
    ((machineField obj key).filter passes).map Value.ofI64 = given obj key ↔
      ∀ v, given obj key = some v → ∃ n, passes n = true ∧ v = Value.ofI64 n := by
  constructor
  · intro same v held
    rw [held] at same
    obtain ⟨n, kept, rfl⟩ := Option.map_eq_some_iff.mp same
    exact ⟨n, (Option.filter_eq_some_iff.mp kept).2, rfl⟩
  · intro integral
    unfold machineField
    cases held : Dicts.get obj key with
    | none => simp [given, held]
    | some v =>
      have gives : given obj key = if v.isNull then none else some v := by
        rw [given, held, nonNull_some]
      by_cases null : v.isNull = true
      · have unread : optionalNumber v = none := by
          cases v <;> first | rfl | cases null
        rw [gives, if_pos null, Option.bind_some, unread]
        rfl
      · rw [if_neg null] at gives
        obtain ⟨n, passed, rfl⟩ := integral v gives
        rw [gives]
        simp [Option.filter_some, passed]

theorem given_back_offset : given (readFromKiro (readToKiro obj)) "offset" =
    ((machineField obj "offset").filter fun _ => true).map Value.ofI64 := by
  have start : machineField (readToKiro obj) "start_line" = machineField obj "offset" := by
    rw [machineField, get_start_line, bind_optionalNumber]
  rw [given, get_offset, start, nonNull_map_ofI64]
  cases machineField obj "offset" <;> rfl

theorem given_back_limit : given (readFromKiro (readToKiro obj)) "limit" =
    ((machineField obj "limit").filter (0 < ·)).map Value.ofI64 := by
  have start : machineField (readToKiro obj) "start_line" = machineField obj "offset" := by
    rw [machineField, get_start_line, bind_optionalNumber]
  have last : machineField (readToKiro obj) "end_line" =
      lastLine (machineField obj "offset") (machineField obj "limit") := by
    rw [machineField, get_end_line, bind_optionalNumber]
  rw [given, get_limit, start, last, lineCount_lastLine, nonNull_map_ofI64]

theorem given_back_other {kiro : Dict Value} (offset : key ≠ "offset") (limit : key ≠ "limit") :
    given (readFromKiro kiro) key = given (readBack (carriedFields "Read") kiro []) key := by
  unfold given readFromKiro
  rw [readWindowFromKiro_eq, get_insertNumber, if_neg limit, get_insertNumber, if_neg offset]
  rfl

theorem isSome_given :
    (given obj key).isSome = (Dicts.get obj key).any fun v => !v.isNull := by
  unfold given nonNull
  cases Dicts.get obj key with
  | none => rfl
  | some v => cases null : v.isNull <;> simp [null]

theorem mapFieldsToKiro_read (whole : (given obj "pages").isSome = false) :
    mapFieldsToKiro "Read" obj = .ok (readToKiro obj) := by
  rw [isSome_given] at whole
  simp only [mapFieldsToKiro, whole, Bool.false_eq_true, if_false]
  rfl

theorem same_read_iff (whole : (given obj "pages").isSome = false) :
    SameFields (readFromKiro (readToKiro obj)) obj ↔ Carried "Read" obj := by
  have counterpart : (claudeCodeToolNameToKiro "Read").isSome := rfl
  have agree : (∀ key, key ≠ "explanation" ∧ key ≠ "offset" ∧ key ≠ "limit" →
      given (readFromKiro (readToKiro obj)) key = given obj key) ↔ _ := agree_iff
    (nodup_carriedFields counterpart) (name_apart counterpart)
    (fun f mem other spelled => ⟨(spellings_apart counterpart f mem other spelled).2,
      (spellings_apart counterpart f mem other spelled).1⟩)
    (fun key interest => by
      rw [given_back_other interest.2.1 interest.2.2]
      exact comes_of_mapped counterpart (mapFieldsToKiro_read whole) key)
  rw [before_iff] at agree
  have at_offset : given (readFromKiro (readToKiro obj)) "offset" = given obj "offset" ↔
      ∀ v, given obj "offset" = some v → ∃ n, true = true ∧ v = Value.ofI64 n := by
    rw [given_back_offset]
    exact number_kept_iff fun _ => true
  have at_limit : given (readFromKiro (readToKiro obj)) "limit" = given obj "limit" ↔
      ∀ v, given obj "limit" = some v → ∃ n, decide (0 < n) = true ∧ v = Value.ofI64 n := by
    rw [given_back_limit]
    exact number_kept_iff (0 < ·)
  constructor
  · intro same
    obtain ⟨known, unshadowed⟩ := agree.mp fun key interest => same key interest.1
    refine ⟨fun key ne some => ?_, unshadowed, fun _ v held => ?_, fun _ v held => ?_⟩
    · by_cases window : key = "offset" ∨ key = "limit"
      · rcases window with rfl | rfl <;> decide
      · rw [not_or] at window
        exact List.mem_append_left _ (known key ⟨ne, window⟩ some)
    · obtain ⟨n, -, is⟩ := at_offset.mp (same "offset" (by decide)) v held
      exact ⟨n, is⟩
    · obtain ⟨n, positive, is⟩ := at_limit.mp (same "limit" (by decide)) v held
      exact ⟨n, of_decide_eq_true positive, is⟩
  · intro carried key ne
    by_cases offset : key = "offset"
    · subst offset
      refine at_offset.mpr fun v held => ?_
      obtain ⟨n, is⟩ := carried.offset rfl v held
      exact ⟨n, rfl, is⟩
    by_cases limit : key = "limit"
    · subst limit
      refine at_limit.mpr fun v held => ?_
      obtain ⟨n, positive, is⟩ := carried.limit rfl v held
      exact ⟨n, decide_eq_true positive, is⟩
    refine agree.mpr ⟨fun key interest some => ?_, carried.unshadowed⟩ key ⟨ne, offset, limit⟩
    have mem := carried.known key interest.1 some
    simp only [carriedNames, if_pos, List.mem_append, List.mem_cons, List.not_mem_nil, or_false,
      interest.2.1, interest.2.2] at mem
    exact mem

theorem kept_read_iff : KeptOrRefused "Read" obj ↔
    (given obj "pages").isSome ∨ Carried "Read" obj := by
  cases pages : (given obj "pages").isSome with
  | true =>
    refine iff_of_true (fun v answered => ?_) (Or.inl rfl)
    rw [mapToolInputToKiro_read, ← isSome_given, pages, if_pos rfl] at answered
    cases answered
  | false =>
    have mapped : mapToolInputToKiro .claudeCode "Read" (.object obj) =
        .ok (.object (readToKiro obj)) := by
      rw [mapToolInputToKiro_read, ← isSome_given, pages, if_neg Bool.false_ne_true]
    rw [or_iff_right Bool.false_ne_true, ← same_read_iff pages]
    constructor
    · intro kept
      obtain ⟨back, returned, same⟩ := kept _ mapped
      rw [mapToolInputFromKiro_read] at returned
      cases returned
      exact same
    · intro same v answered
      rw [mapped] at answered
      cases answered
      exact ⟨_, mapToolInputFromKiro_read _, same⟩

/-- The input of a tool comes back or is refused exactly when it gives nothing but what comes
back, or asks `Read` for pages. -/
theorem kept_iff_carried {clientName : String}
    (counterpart : (claudeCodeToolNameToKiro clientName).isSome) :
    KeptOrRefused clientName obj ↔ refused clientName obj ∨ Carried clientName obj := by
  by_cases read : clientName = "Read"
  · subst read
    rw [kept_read_iff]
    simp [refused]
  · rw [kept_iff_of_plain read counterpart]
    simp [refused, read]

theorem kept_window : KeptOrRefused "Read" [("file_path", .string "/a"),
    ("limit", .number (.posInt 5)), ("offset", .number (.posInt 10))] := by
  refine (kept_iff_carried (by rfl)).mpr (Or.inr ⟨fun key _ some => ?_, ?_, ?_, ?_⟩)
  · by_contra absent
    simp [carriedNames, carriedFields] at absent
    simp [given, Dicts.get_cons, absent] at some
  · intro grep
    exact absurd grep (by decide)
  · intro _ v held
    cases held
    exact ⟨10, rfl⟩
  · intro _ v held
    cases held
    exact ⟨5, by decide, rfl⟩

/-- An `Edit` of every occurrence comes back as an `Edit` of one. -/
theorem replace_all_dropped :
    (mapToolInputToKiro .claudeCode "Edit" (.object [("file_path", .string "/a"),
      ("new_string", .string "y"), ("old_string", .string "x"), ("replace_all", .bool true)])).map
        (mapToolInputFromKiro "Edit") = .ok (.object [("file_path", .string "/a"),
          ("new_string", .string "y"), ("old_string", .string "x")]) ∧
    ¬KeptOrRefused "Edit" [("file_path", .string "/a"), ("new_string", .string "y"),
      ("old_string", .string "x"), ("replace_all", .bool true)] := by
  refine ⟨by rfl, fun kept => ?_⟩
  have carried := (kept_iff_of_plain (by decide) (by rfl)).mp kept
  exact absurd (carried.known "replace_all" (by decide) (by rfl)) (by decide)

end KiroRs.Converter.ToolInputs
