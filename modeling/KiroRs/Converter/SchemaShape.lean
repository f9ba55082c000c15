/- Path: KiroRs/Converter/SchemaShape
   source: src/anthropic/converter.rs
   digest: The shape of a rewritten tool schema, at its top and at every depth. -/

import KiroRs.Converter.Schema
import Mathlib.Algebra.Order.Field.Rat
import Mathlib.Tactic.Linarith
import Mathlib.Tactic.Positivity

set_option autoImplicit false
set_option relaxedAutoImplicit false

namespace KiroRs.Converter.SchemaShape

open KiroRs.Lib
open KiroRs.Lib.Dicts (Dict)
open KiroRs.Converter.Json
open KiroRs.Converter.Schema

def toRat : Number → ℚ
  | .posInt n => n.toNat
  | .negInt n => n.toInt
  | .float m e => m * 2 ^ e

/-- The entry may not stand in a schema that the upstream is to accept. -/
def Forbidden (key : String) (value : Value) : Prop :=
  key = "$schema" ∨
  (key = "exclusiveMinimum" ∨ key = "exclusiveMaximum") ∧ (∃ n, value = .number n) ∨
  (key = "minimum" ∨ key = "maximum") ∧
    ∃ n, value = .number n ∧ (toRat n < -2147483648 ∨ 2147483647 < toRat n)

theorem exceedsI32_iff (n : Number) :
    exceedsI32 n = true ↔ toRat n < -2147483648 ∨ 2147483647 < toRat n := by
  cases n with
  | posInt n =>
    simp only [exceedsI32, toRat, decide_eq_true_eq, UInt64.lt_iff_toNat_lt]
    have natural : (0 : ℚ) ≤ (n.toNat : ℚ) := Nat.cast_nonneg _
    constructor
    · intro above
      right
      exact_mod_cast above
    · rintro (below | above)
      · linarith
      · exact_mod_cast above
  | negInt n =>
    simp only [exceedsI32, toRat, Bool.or_eq_true, decide_eq_true_eq, Int64.lt_iff_toInt_lt]
    have below : ((n.toInt : ℚ) < -2147483648) ↔ n.toInt < -2147483648 := by norm_cast
    have above : ((2147483647 : ℚ) < n.toInt) ↔ 2147483647 < n.toInt := by norm_cast
    rw [below, above, or_comm]
    rfl
  | float m e =>
    by_cases natural : 0 ≤ e
    · obtain ⟨k, rfl⟩ := Int.eq_ofNat_of_zero_le natural
      have value : (m : ℚ) * 2 ^ (k : ℤ) = ((m * 2 ^ k : ℤ) : ℚ) := by
        rw [zpow_natCast]
        push_cast
        rfl
      simp only [exceedsI32, toRat, natural, if_true, Bool.or_eq_true, decide_eq_true_eq, value,
        Int.toNat_natCast]
      rw [or_comm]
      norm_cast
    · obtain ⟨k, rfl⟩ : ∃ k : Nat, e = -k := ⟨(-e).toNat, by omega⟩
      have positive : (0 : ℚ) < 2 ^ k := by positivity
      have value : (m : ℚ) * 2 ^ (-(k : ℤ)) = m / 2 ^ k := by
        rw [zpow_neg, zpow_natCast, div_eq_mul_inv]
      simp only [exceedsI32, toRat, natural, if_false, Bool.or_eq_true, decide_eq_true_eq, value,
        neg_neg, Int.toNat_natCast, lt_div_iff₀ positive, div_lt_iff₀ positive]
      rw [or_comm]
      norm_cast

theorem droppedKeyword_iff {key : String} {value : Value} :
    droppedKeyword key value = true ↔ Forbidden key value := by
  unfold droppedKeyword Forbidden
  by_cases schema : key = "$schema"
  · simp [schema]
  by_cases exclusive : key = "exclusiveMinimum" ∨ key = "exclusiveMaximum"
  · rcases exclusive with rfl | rfl <;> cases value <;> simp [Value.isNumber]
  by_cases bound : key = "minimum" ∨ key = "maximum"
  · rcases bound with rfl | rfl <;> cases value <;> simp [exceedsI32_iff]
  rw [not_or] at exclusive bound
  simp [schema, exclusive, bound]

/-- The keywords whose value is a list of schemas. -/
def combinators : List String := ["oneOf", "anyOf", "allOf"]

mutual

/-- No schema that the value is made of contains a forbidden entry. -/
def Clean : Value → Prop
  | .object fields => CleanFields fields
  | _ => True

def CleanFields : List (String × Value) → Prop
  | [] => True
  | (key, value) :: rest =>
    ¬Forbidden key value ∧
    (if key = "properties" then CleanProperties value
      else if key = "items" then CleanItems value
      else if key = "additionalProperties" then Clean value
      else if key ∈ combinators then CleanBranches value
      else True) ∧
    CleanFields rest

def CleanProperties : Value → Prop
  | .object props => CleanEach props
  | _ => True

def CleanEach : List (String × Value) → Prop
  | [] => True
  | (_, value) :: rest => Clean value ∧ CleanEach rest

def CleanItems : Value → Prop
  | .object fields => CleanFields fields
  | .array branches => CleanAll branches
  | _ => True

def CleanBranches : Value → Prop
  | .array branches => CleanAll branches
  | _ => True

def CleanAll : List Value → Prop
  | [] => True
  | value :: rest => Clean value ∧ CleanAll rest

end

/-- The schemas that the value of a keyword is made of are clean. -/
def CleanAt (key : String) (value : Value) : Prop :=
  if key = "properties" then CleanProperties value
  else if key = "items" then CleanItems value
  else if key = "additionalProperties" then Clean value
  else if key ∈ combinators then CleanBranches value
  else True

theorem cleanFields_iff {fields : List (String × Value)} :
    CleanFields fields ↔ ∀ p ∈ fields, ¬Forbidden p.1 p.2 ∧ CleanAt p.1 p.2 := by
  induction fields with
  | nil => simp [CleanFields]
  | cons p rest ih =>
    obtain ⟨key, value⟩ := p
    rw [CleanFields, ih, List.forall_mem_cons, and_assoc]
    rfl

mutual

/-- What the rewriting of a property's schema leaves as it is, is clean. -/
def CleanAside : Value → Prop
  | .object fields => CleanAsideFields fields
  | _ => True

def CleanAsideFields : List (String × Value) → Prop
  | [] => True
  | (key, value) :: rest =>
    (if key = "properties" then CleanAsideProperties value
      else if key = "items" then CleanAsideItems value
      else if key = "additionalProperties" then Clean value
      else if key ∈ combinators then CleanBranches value
      else True) ∧
    CleanAsideFields rest

def CleanAsideProperties : Value → Prop
  | .object props => CleanAsideEach props
  | _ => True

def CleanAsideEach : List (String × Value) → Prop
  | [] => True
  | (_, value) :: rest => CleanAside value ∧ CleanAsideEach rest

def CleanAsideItems : Value → Prop
  | .object fields => CleanAsideFields fields
  | .array branches => CleanAll branches
  | _ => True

end

theorem forbidden_key {key : String} {value : Value} (forbidden : Forbidden key value) :
    key ≠ "properties" ∧ key ≠ "items" ∧ key ≠ "additionalProperties" ∧ key ∉ combinators := by
  unfold Forbidden at forbidden
  rcases forbidden with rfl | ⟨rfl | rfl, -⟩ | ⟨rfl | rfl, -⟩ <;> decide

theorem not_forbidden {key : String} {value : Value}
    (plain : key ∈ ["properties", "items", "additionalProperties"]) : ¬Forbidden key value := by
  intro forbidden
  obtain ⟨properties, items, additional, -⟩ := forbidden_key forbidden
  simp [properties, items, additional] at plain

theorem normalizeKeywords_properties {props rest : List (String × Value)} :
    normalizeKeywords (("properties", .object props) :: rest) =
      ("properties", .object (normalizeEach props)) :: normalizeKeywords rest := by
  simp [normalizeKeywords, droppedKeyword]

theorem normalizeKeywords_dropped {key : String} {value : Value} {rest : List (String × Value)}
    (dropped : droppedKeyword key value = true) :
    normalizeKeywords ((key, value) :: rest) = normalizeKeywords rest := by
  cases value <;> simp [normalizeKeywords, dropped]

theorem normalizeKeywords_items {value : Value} {rest : List (String × Value)} :
    normalizeKeywords (("items", value) :: rest) =
      ("items", normalizePropertySchema value) :: normalizeKeywords rest := by
  cases value <;> simp [normalizeKeywords, droppedKeyword]

theorem normalizeKeywords_other {key : String} {value : Value} {rest : List (String × Value)}
    (kept : ¬droppedKeyword key value = true) (properties : key ≠ "properties")
    (items : key ≠ "items") :
    normalizeKeywords ((key, value) :: rest) = (key, value) :: normalizeKeywords rest := by
  cases value <;> simp [normalizeKeywords, kept, properties, items]

mutual

theorem clean_normalize : ∀ v : Value, Clean (normalizePropertySchema v) ↔ CleanAside v
  | .object fields => by
    rw [normalizePropertySchema, Clean, CleanAside]
    exact cleanFields_normalize fields
  | .null => by simp [normalizePropertySchema, Clean, CleanAside]
  | .bool b => by simp [normalizePropertySchema, Clean, CleanAside]
  | .number n => by simp [normalizePropertySchema, Clean, CleanAside]
  | .string s => by simp [normalizePropertySchema, Clean, CleanAside]
  | .array items => by simp [normalizePropertySchema, Clean, CleanAside]

theorem cleanFields_normalize : ∀ fields : List (String × Value),
    CleanFields (normalizeKeywords fields) ↔ CleanAsideFields fields
  | [] => by simp [normalizeKeywords, CleanFields, CleanAsideFields]
  | (key, value) :: rest => by
    have ih := cleanFields_normalize rest
    have below := cleanItems_normalize value
    have within := cleanProperties_normalize value
    by_cases dropped : droppedKeyword key value = true
    · obtain ⟨properties, items, additional, branches⟩ :=
        forbidden_key (droppedKeyword_iff.mp dropped)
      rw [normalizeKeywords_dropped dropped, ih, CleanAsideFields, if_neg properties, if_neg items,
        if_neg additional, if_neg branches, true_and]
    · have kept := mt droppedKeyword_iff.mpr dropped
      by_cases properties : key = "properties"
      · subst properties
        cases value with
        | object props =>
          rw [normalizeKeywords_properties, CleanFields, CleanAsideFields, ih, if_pos rfl,
            if_pos rfl, CleanProperties, CleanAsideProperties, within props rfl]
          exact and_iff_right (not_forbidden (by decide))
        | _ => simp [normalizeKeywords, droppedKeyword, CleanAsideFields, CleanAsideProperties, ih]
      · by_cases items : key = "items"
        · subst items
          rw [normalizeKeywords_items, CleanFields, CleanAsideFields, ih, if_neg properties,
            if_neg properties, if_pos rfl, if_pos rfl, below]
          exact and_iff_right (not_forbidden (by decide))
        · rw [normalizeKeywords_other dropped properties items, CleanFields,
            CleanAsideFields, ih, if_neg properties, if_neg properties, if_neg items, if_neg items]
          exact and_iff_right kept

theorem cleanProperties_normalize : ∀ v : Value, ∀ props, v = .object props →
    (CleanEach (normalizeEach props) ↔ CleanAsideEach props)
  | .object fields, _, rfl => cleanEach_normalize fields

theorem cleanItems_normalize : ∀ v : Value,
    CleanItems (normalizePropertySchema v) ↔ CleanAsideItems v
  | .object fields => by
    rw [normalizePropertySchema, CleanItems, CleanAsideItems]
    exact cleanFields_normalize fields
  | .null => by simp [normalizePropertySchema, CleanItems, CleanAsideItems]
  | .bool b => by simp [normalizePropertySchema, CleanItems, CleanAsideItems]
  | .number n => by simp [normalizePropertySchema, CleanItems, CleanAsideItems]
  | .string s => by simp [normalizePropertySchema, CleanItems, CleanAsideItems]
  | .array items => by simp [normalizePropertySchema, CleanItems, CleanAsideItems]

theorem cleanEach_normalize : ∀ props : List (String × Value),
    CleanEach (normalizeEach props) ↔ CleanAsideEach props
  | [] => by simp [normalizeEach, CleanEach, CleanAsideEach]
  | (key, value) :: rest => by
    rw [normalizeEach, CleanEach, CleanAsideEach, clean_normalize value, cleanEach_normalize rest]

end

mutual

theorem normalizePropertySchema_idem : ∀ v : Value,
    normalizePropertySchema (normalizePropertySchema v) = normalizePropertySchema v
  | .object fields => by
    rw [normalizePropertySchema, normalizePropertySchema, normalizeKeywords_idem fields]
  | .null => by simp [normalizePropertySchema]
  | .bool b => by simp [normalizePropertySchema]
  | .number n => by simp [normalizePropertySchema]
  | .string s => by simp [normalizePropertySchema]
  | .array items => by simp [normalizePropertySchema]

theorem normalizeKeywords_idem : ∀ fields : List (String × Value),
    normalizeKeywords (normalizeKeywords fields) = normalizeKeywords fields
  | [] => by simp [normalizeKeywords]
  | (key, value) :: rest => by
    have ih := normalizeKeywords_idem rest
    have below := normalizePropertySchema_idem value
    have within := normalizeProperties_idem value
    by_cases dropped : droppedKeyword key value = true
    · rw [normalizeKeywords_dropped dropped, ih]
    by_cases properties : key = "properties"
    · subst properties
      cases value with
      | object props =>
        rw [normalizeKeywords_properties, normalizeKeywords_properties, ih, within props rfl]
      | _ => simp [normalizeKeywords, droppedKeyword, ih]
    by_cases items : key = "items"
    · subst items
      rw [normalizeKeywords_items, normalizeKeywords_items, ih, below]
    · rw [normalizeKeywords_other dropped properties items,
        normalizeKeywords_other dropped properties items, ih]

theorem normalizeProperties_idem : ∀ v : Value, ∀ props, v = .object props →
    normalizeEach (normalizeEach props) = normalizeEach props
  | .object fields, _, rfl => normalizeEach_idem fields

theorem normalizeEach_idem : ∀ props : List (String × Value),
    normalizeEach (normalizeEach props) = normalizeEach props
  | [] => by simp [normalizeEach]
  | (key, value) :: rest => by
    rw [normalizeEach, normalizeEach, normalizePropertySchema_idem value, normalizeEach_idem rest]

end

def objectVariant (obj : Dict Value) (combinator : String) : Option (Dict Value) :=
  match Dicts.get obj combinator with
  | some (.array variants) =>
    match variants.find? isObjectVariant with
    | some (.object m) => some m
    | _ => none
  | _ => none

/-- The list up to its first member that has properties. -/
def upToProperties : List (Dict Value) → List (Dict Value)
  | [] => []
  | m :: rest => if Dicts.containsKey m "properties" then [m] else m :: upToProperties rest

/-- The variants that a schema without properties takes fields from, of these combinators. -/
def suppliers (obj : Dict Value) (combinators : List String) : List (Dict Value) :=
  if Dicts.containsKey obj "properties" then []
  else upToProperties (combinators.filterMap (objectVariant obj))

def adoptedKeys : List String := ["properties", "required", "additionalProperties", "description"]

/-- What the top has for one of the adopted keys: its own, or the first supplier's. -/
def adopted (obj : Dict Value) (key : String) : Option Value :=
  (Dicts.get obj key).or ((suppliers obj combinators).findSome? fun m => Dicts.get m key)

variable {obj m : Dict Value} {key other combinator : String} {keys : List String}

theorem get_adoptKeys : Dicts.get (adoptKeys m obj keys) other =
    if other ∈ keys then (Dicts.get obj other).or (Dicts.get m other) else Dicts.get obj other := by
  unfold adoptKeys
  induction keys generalizing obj with
  | nil => simp
  | cons key keys ih =>
    rw [List.foldl_cons, ih]
    cases held : Dicts.get m key with
    | none =>
      by_cases eq : other = key
      · subst eq
        simp [held]
      · simp [eq]
    | some v =>
      simp only [Dicts.get_orInsert]
      by_cases eq : other = key
      · subst eq
        cases Dicts.get obj other <;> simp [held]
      · simp [eq]

theorem stripCombinator_eq {has : Bool} : stripCombinator has obj combinator =
    if has || Dicts.containsKey (Dicts.remove obj combinator) "properties" then
      Dicts.remove obj combinator
    else match objectVariant obj combinator with
      | some m => adoptKeys m (Dicts.remove obj combinator) adoptedKeys
      | none => Dicts.remove obj combinator := by
  cases value : Dicts.get obj combinator with
  | none => simp [stripCombinator, objectVariant, value]
  | some v =>
    cases v with
    | array variants =>
      cases found : variants.find? isObjectVariant with
      | none => simp [stripCombinator, objectVariant, value, found]
      | some variant => cases variant <;>
          simp [stripCombinator, objectVariant, value, found, adoptedKeys]
    | _ => simp [stripCombinator, objectVariant, value]

/-- The first supplier among the variants, when they are asked in order. -/
def supplied (has : Bool) (obj : Dict Value) (variants : List (Dict Value)) (key : String) :
    Option Value :=
  if has || Dicts.containsKey obj "properties" then none
  else (upToProperties variants).findSome? fun m => Dicts.get m key

theorem get_stripCombinator {has : Bool} (apart : combinator ∉ adoptedKeys) :
    Dicts.get (stripCombinator has obj combinator) other =
      if other = combinator then none
      else if other ∈ adoptedKeys ∧ (has || Dicts.containsKey obj "properties") = false then
        (Dicts.get obj other).or ((objectVariant obj combinator).bind fun m => Dicts.get m other)
      else Dicts.get obj other := by
  have properties : Dicts.containsKey (Dicts.remove obj combinator) "properties" =
      Dicts.containsKey obj "properties" := by
    unfold Dicts.containsKey
    rw [Dicts.get_remove_ne]
    rintro rfl
    exact apart (by decide)
  rw [stripCombinator_eq, properties]
  by_cases eq : other = combinator
  · subst eq
    rw [if_pos rfl]
    split_ifs
    · exact Dicts.get_remove_self
    · split
      · rw [get_adoptKeys, if_neg apart, Dicts.get_remove_self]
      · exact Dicts.get_remove_self
  · rw [if_neg eq]
    cases blocked : has || Dicts.containsKey obj "properties" with
    | true => simp [Dicts.get_remove_ne eq]
    | false =>
      cases objectVariant obj combinator with
      | none => simp [Dicts.get_remove_ne eq]
      | some m => simp [get_adoptKeys, Dicts.get_remove_ne eq]

theorem get_strip {has : Bool} {names : List String} (nodup : names.Nodup)
    (apart : ∀ name ∈ names, name ∉ adoptedKeys) :
    Dicts.get (names.foldl (stripCombinator has) obj) key =
      if key ∈ names then none
      else if key ∈ adoptedKeys then
        (Dicts.get obj key).or (supplied has obj (names.filterMap (objectVariant obj)) key)
      else Dicts.get obj key := by
  induction names generalizing obj with
  | nil =>
    simp only [List.foldl_nil, List.not_mem_nil, if_false, List.filterMap_nil]
    unfold supplied upToProperties
    split_ifs <;> simp
  | cons name rest ih =>
    obtain ⟨absent, nodup⟩ := List.nodup_cons.mp nodup
    have plain := apart name (List.mem_cons_self ..)
    have variants : ∀ other ∈ rest,
        objectVariant (stripCombinator has obj name) other = objectVariant obj other := by
      intro other mem
      have ne : other ≠ name := fun eq => absent (eq ▸ mem)
      unfold objectVariant
      rw [get_stripCombinator plain, if_neg ne,
        if_neg fun adoptable => apart other (List.mem_cons_of_mem _ mem) adoptable.1]
    rw [List.foldl_cons, ih nodup fun other mem => apart other (List.mem_cons_of_mem _ mem),
      List.filterMap_congr variants]
    by_cases eq : key = name
    · subst eq
      simp [get_stripCombinator plain, absent, plain]
    have ne_properties : "properties" ≠ name := by
      rintro rfl
      exact plain (by decide)
    by_cases later : key ∈ rest
    · simp [later]
    by_cases adoptable : key ∈ adoptedKeys
    · rw [if_neg later, if_pos adoptable, if_neg (by simp [eq, later]), if_pos adoptable,
        get_stripCombinator plain, if_neg eq]
      cases blocked : has || Dicts.containsKey obj "properties" with
      | true =>
        have still : (has || Dicts.containsKey (stripCombinator has obj name) "properties") =
            true := by
          rw [Dicts.containsKey, get_stripCombinator plain, if_neg ne_properties,
            if_neg (by simp [blocked])]
          exact blocked
        simp [supplied, blocked, still]
      | false =>
        obtain ⟨rfl, own⟩ := Bool.or_eq_false_iff.mp blocked
        have own : Dicts.get obj "properties" = none := by
          simpa [Dicts.containsKey] using own
        rw [if_pos ⟨adoptable, rfl⟩]
        have next : Dicts.get (stripCombinator false obj name) "properties" =
            (objectVariant obj name).bind fun m => Dicts.get m "properties" := by
          rw [get_stripCombinator plain, if_neg ne_properties, if_pos ⟨by decide, blocked⟩, own,
            Option.none_or]
        cases variant : objectVariant obj name with
        | none => simp [supplied, Dicts.containsKey, own, next, variant]
        | some m =>
          cases inner : Dicts.get m "properties" with
          | none =>
            simp only [supplied, Dicts.containsKey, own, next, variant, inner, upToProperties,
              Option.bind_some, Option.isSome_none, Bool.or_self, Bool.false_eq_true, if_false,
              List.filterMap_cons_some variant, List.findSome?_cons]
            cases Dicts.get obj key <;> cases Dicts.get m key <;> rfl
          | some props =>
            simp [supplied, Dicts.containsKey, own, next, variant, inner, upToProperties]
    · simp [get_stripCombinator plain, eq, later, adoptable]

theorem get_stripTopLevelCombinators : Dicts.get (stripTopLevelCombinators obj) key =
    if key ∈ combinators then none
    else if key ∈ adoptedKeys then adopted obj key
    else Dicts.get obj key := by
  have fold : Dicts.get (stripTopLevelCombinators obj) key = if key ∈ combinators then none
      else if key ∈ adoptedKeys then
        (Dicts.get obj key).or (supplied (Dicts.containsKey obj "properties") obj
          (combinators.filterMap (objectVariant obj)) key)
      else Dicts.get obj key := get_strip (by decide) (by decide)
  have supply : supplied (Dicts.containsKey obj "properties") obj
      (combinators.filterMap (objectVariant obj)) key =
        (suppliers obj combinators).findSome? fun m => Dicts.get m key := by
    unfold supplied suppliers
    rw [Bool.or_self]
    split_ifs <;> rfl
  rw [fold, supply]
  rfl

theorem sorted_stripCombinator {has : Bool} (sorted : Dicts.Sorted obj) :
    Dicts.Sorted (stripCombinator has obj combinator) := by
  have adopts : ∀ (m : Dict Value) (keys : List String) (d : Dict Value), Dicts.Sorted d →
      Dicts.Sorted (adoptKeys m d keys) := by
    intro m keys
    induction keys with
    | nil => exact fun d sorted => sorted
    | cons key keys ih =>
      intro d sorted
      refine ih _ ?_
      dsimp only
      split
      · exact sorted.orInsert
      · exact sorted
  rw [stripCombinator_eq]
  split_ifs
  · exact sorted.remove
  · split
    · exact adopts _ _ _ sorted.remove
    · exact sorted.remove

theorem sorted_stripTopLevelCombinators (sorted : Dicts.Sorted obj) :
    Dicts.Sorted (stripTopLevelCombinators obj) :=
  sorted_stripCombinator (sorted_stripCombinator (sorted_stripCombinator sorted))

theorem adopted_remove (plain : key ≠ "$schema") :
    adopted (Dicts.remove obj "$schema") key = adopted obj key := by
  have variants : ∀ name ∈ combinators,
      objectVariant (Dicts.remove obj "$schema") name = objectVariant obj name := by
    intro name mem
    unfold objectVariant
    rw [Dicts.get_remove_ne]
    rintro rfl
    exact absurd mem (by decide)
  unfold adopted suppliers Dicts.containsKey
  rw [Dicts.get_remove_ne plain, Dicts.get_remove_ne (by decide), List.filterMap_congr variants]

/-- The schema before its fields are completed. -/
def stripped (obj : Dict Value) : Dict Value :=
  stripTopLevelCombinators (Dicts.remove obj "$schema")

theorem get_stripped : Dicts.get (stripped obj) key =
    if key = "$schema" ∨ key ∈ combinators then none
    else if key ∈ adoptedKeys then adopted obj key
    else Dicts.get obj key := by
  unfold stripped
  rw [get_stripTopLevelCombinators]
  by_cases schema : key = "$schema"
  · subst schema
    rw [if_neg (by decide), if_neg (by decide), Dicts.get_remove_self, if_pos (Or.inl rfl)]
  · rw [adopted_remove schema, Dicts.get_remove_ne schema]
    simp [schema]

def propertiesOf : Option Value → Dict Value
  | some (.object props) => normalizeEach props
  | _ => []

def requiredOf : Option Value → List Value
  | some (.array arr) => arr.filterMap fun v => v.asStr.map Value.string
  | _ => []

/-- A boolean or an object, which any other value gives way to `true` for. -/
def additionalOf : Option Value → Value
  | some (.bool b) => .bool b
  | some (.object fields) => .object fields
  | _ => .bool true

def typed (obj : Dict Value) : Dict Value :=
  if (Dicts.get obj "type").bind Value.asStr = some "object" then obj
  else Dicts.insert obj "type" (.string "object")

def topFields (obj : Dict Value) : Dict Value :=
  let obj := typed (stripped obj)
  let obj := Dicts.insert obj "properties" (.object (propertiesOf (Dicts.get obj "properties")))
  let obj := Dicts.insert obj "required" (.array (requiredOf (Dicts.get obj "required")))
  match Dicts.get obj "additionalProperties" with
  | some (.bool _) => obj
  | some (.object _) => obj
  | _ => Dicts.insert obj "additionalProperties" (.bool true)

theorem normalizeJsonSchema_object :
    normalizeJsonSchema (.object obj) = .object (topFields obj) := by
  unfold normalizeJsonSchema topFields typed propertiesOf requiredOf
  rfl

theorem get_typed : Dicts.get (typed obj) key =
    if key = "type" then some (.string "object") else Dicts.get obj key := by
  unfold typed
  split_ifs with is eq eq
  · subst eq
    obtain ⟨v, held, string⟩ := Option.bind_eq_some_iff.mp is
    cases v <;> cases string
    exact held
  · rfl
  · rw [eq, Dicts.get_insert_self]
  · exact Dicts.get_insert_ne eq

theorem get_adoptable (adoptable : key ∈ adoptedKeys) :
    Dicts.get (typed (stripped obj)) key = adopted obj key := by
  have plain : key ≠ "type" ∧ ¬(key = "$schema" ∨ key ∈ combinators) := by
    revert adoptable
    unfold adoptedKeys combinators
    simp only [List.mem_cons, List.not_mem_nil, or_false]
    rintro (rfl | rfl | rfl | rfl) <;> decide
  rw [get_typed, if_neg plain.1, get_stripped, if_neg plain.2, if_pos adoptable]

theorem get_topFields : Dicts.get (topFields obj) key =
    if key = "additionalProperties" then some (additionalOf (adopted obj key))
    else if key = "required" then some (.array (requiredOf (adopted obj key)))
    else if key = "properties" then some (.object (propertiesOf (adopted obj key)))
    else Dicts.get (typed (stripped obj)) key := by
  have completed : ∀ d : Dict Value,
      Dicts.get (match Dicts.get d "additionalProperties" with
        | some (.bool _) => d
        | some (.object _) => d
        | _ => Dicts.insert d "additionalProperties" (.bool true)) key =
      if key = "additionalProperties" then some (additionalOf (Dicts.get d key))
      else Dicts.get d key := by
    intro d
    by_cases eq : key = "additionalProperties"
    · subst eq
      rw [if_pos rfl]
      cases held : Dicts.get d "additionalProperties" with
      | none => simp [additionalOf]
      | some v => cases v <;> simp [additionalOf, held]
    · rw [if_neg eq]
      split
      · rfl
      · rfl
      · exact Dicts.get_insert_ne eq
  unfold topFields
  dsimp only
  rw [completed]
  by_cases additional : key = "additionalProperties"
  · subst additional
    rw [if_pos rfl, if_pos rfl, Dicts.get_insert_ne (by decide), Dicts.get_insert_ne (by decide),
      get_adoptable (by decide)]
  · rw [if_neg additional, if_neg additional, Dicts.get_insert]
    by_cases required : key = "required"
    · subst required
      rw [if_pos rfl, if_pos rfl, Dicts.get_insert_ne (by decide), get_adoptable (by decide)]
    · rw [if_neg required, if_neg required, Dicts.get_insert]
      by_cases properties : key = "properties"
      · subst properties
        rw [if_pos rfl, if_pos rfl, get_adoptable (by decide)]
      · rw [if_neg properties, if_neg properties]

theorem sorted_topFields (sorted : Dicts.Sorted obj) : Dicts.Sorted (topFields obj) := by
  have stripped_sorted : Dicts.Sorted (stripped obj) :=
    sorted_stripTopLevelCombinators sorted.remove
  have typed_sorted : Dicts.Sorted (typed (stripped obj)) := by
    unfold typed
    split_ifs
    · exact stripped_sorted
    · exact stripped_sorted.insert
  unfold topFields
  dsimp only
  split
  · exact typed_sorted.insert.insert
  · exact typed_sorted.insert.insert
  · exact typed_sorted.insert.insert.insert

/-- The top of a schema has the form that the upstream asks for. -/
structure TopShape (schema : Value) : Prop where
  type_object : schema.get "type" = some (.string "object")
  properties : ∃ props, schema.get "properties" = some (.object props)
  required : ∃ names : List String, schema.get "required" = some (.array (names.map .string))
  additional : (∃ b, schema.get "additionalProperties" = some (.bool b)) ∨
    ∃ fields, schema.get "additionalProperties" = some (.object fields)
  plain : ∀ key ∈ "$schema" :: combinators, schema.get key = none

theorem requiredOf_eq (value : Option Value) :
    ∃ names : List String, requiredOf value = names.map .string := by
  unfold requiredOf
  split
  · case _ arr =>
    refine ⟨arr.filterMap Value.asStr, ?_⟩
    rw [List.map_filterMap]
  · exact ⟨[], rfl⟩

theorem topShape_topFields : TopShape (.object (topFields obj)) := by
  obtain ⟨names, required⟩ := requiredOf_eq (adopted obj "required")
  refine ⟨?_, ⟨propertiesOf (adopted obj "properties"), ?_⟩, ⟨names, ?_⟩, ?_, fun key mem => ?_⟩
  · show Dicts.get (topFields obj) "type" = _
    simp [get_topFields, get_typed]
  · show Dicts.get (topFields obj) "properties" = _
    simp [get_topFields]
  · show Dicts.get (topFields obj) "required" = _
    simp [get_topFields, required]
  · have held : Dicts.get (topFields obj) "additionalProperties" =
        some (additionalOf (adopted obj "additionalProperties")) := by
      simp [get_topFields]
    simp only [Value.get, held, additionalOf]
    split
    · exact Or.inl ⟨_, rfl⟩
    · exact Or.inr ⟨_, rfl⟩
    · exact Or.inl ⟨true, rfl⟩
  · show Dicts.get (topFields obj) key = none
    have gone : key = "$schema" ∨ key ∈ combinators := List.mem_cons.mp mem
    have plain : key ≠ "additionalProperties" ∧ key ≠ "required" ∧ key ≠ "properties" ∧
        key ≠ "type" := by
      revert mem
      unfold combinators
      simp only [List.mem_cons, List.not_mem_nil, or_false]
      rintro (rfl | rfl | rfl | rfl) <;> decide
    rw [get_topFields, if_neg plain.1, if_neg plain.2.1, if_neg plain.2.2.1, get_typed,
      if_neg plain.2.2.2, get_stripped, if_pos gone]

theorem topShape_normalize (schema : Value) : TopShape (normalizeJsonSchema schema) := by
  cases schema with
  | object obj =>
    rw [normalizeJsonSchema_object]
    exact topShape_topFields
  | _ =>
    refine ⟨by rfl, ⟨[], by rfl⟩, ⟨[], by rfl⟩, Or.inl ⟨true, by rfl⟩, fun key mem => ?_⟩
    revert mem
    unfold combinators
    simp only [List.mem_cons, List.not_mem_nil, or_false]
    rintro (rfl | rfl | rfl | rfl) <;> rfl

theorem stripCombinator_eq_self {has : Bool} (absent : Dicts.get obj combinator = none) :
    stripCombinator has obj combinator = obj := by
  have none : objectVariant obj combinator = none := by
    unfold objectVariant
    rw [absent]
  rw [stripCombinator_eq, none, Dicts.remove_eq_self absent]
  split_ifs <;> rfl

theorem stripped_eq_self (plain : ∀ key ∈ "$schema" :: combinators, Dicts.get obj key = none) :
    stripped obj = obj := by
  unfold stripped stripTopLevelCombinators
  rw [Dicts.remove_eq_self (plain "$schema" (by decide))]
  simp only [List.foldl_cons, List.foldl_nil]
  rw [stripCombinator_eq_self (plain "oneOf" (by decide)),
    stripCombinator_eq_self (plain "anyOf" (by decide)),
    stripCombinator_eq_self (plain "allOf" (by decide))]

theorem propertiesOf_idem (value : Option Value) :
    propertiesOf (some (.object (propertiesOf value))) = propertiesOf value := by
  show normalizeEach (propertiesOf value) = propertiesOf value
  unfold propertiesOf
  split
  · exact normalizeEach_idem _
  · rfl

theorem requiredOf_idem (value : Option Value) :
    requiredOf (some (.array (requiredOf value))) = requiredOf value := by
  obtain ⟨names, eq⟩ := requiredOf_eq value
  rw [eq, requiredOf, List.filterMap_map]
  exact congrFun List.filterMap_eq_map names

theorem topFields_idem (sorted : Dicts.Sorted obj) : topFields (topFields obj) = topFields obj := by
  have shape : TopShape (.object (topFields obj)) := topShape_topFields
  have ordered := sorted_topFields sorted
  have same : typed (stripped (topFields obj)) = topFields obj := by
    rw [stripped_eq_self shape.plain, typed, if_pos]
    show (Dicts.get (topFields obj) "type").bind Value.asStr = some "object"
    rw [show Dicts.get (topFields obj) "type" = _ from shape.type_object]
    rfl
  have properties : Dicts.get (topFields obj) "properties" =
      some (.object (propertiesOf (adopted obj "properties"))) := by
    simp [get_topFields]
  have required : Dicts.get (topFields obj) "required" =
      some (.array (requiredOf (adopted obj "required"))) := by
    simp [get_topFields]
  have unfolded : topFields (topFields obj) = _ := topFields.eq_1 (topFields obj)
  rw [unfolded, same, properties, propertiesOf_idem, ordered.insert_eq_self properties, required,
    requiredOf_idem, ordered.insert_eq_self required]
  rcases shape.additional with ⟨b, held⟩ | ⟨fields, held⟩
  · rw [show Dicts.get (topFields obj) "additionalProperties" = _ from held]
  · rw [show Dicts.get (topFields obj) "additionalProperties" = _ from held]

/-- What the rewriting does not look at is clean already: the entries of the top itself and its
items, an adopted `additionalProperties`, and what it passes over inside the properties. -/
structure NothingMissed (obj : Dict Value) : Prop where
  top : ∀ key value, key ≠ "$schema" → Dicts.get obj key = some value → ¬Forbidden key value
  items : ∀ value, Dicts.get obj "items" = some value → CleanItems value
  properties : ∀ props, adopted obj "properties" = some (.object props) → CleanAsideEach props
  additional : ∀ value, adopted obj "additionalProperties" = some value → Clean value

theorem forbidden_plain {value : Value} (forbidden : Forbidden key value) :
    key ≠ "type" ∧ key ∉ adoptedKeys := by
  unfold Forbidden at forbidden
  rcases forbidden with rfl | ⟨rfl | rfl, -⟩ | ⟨rfl | rfl, -⟩ <;> decide

theorem get_topFields_plain (plain : key ≠ "$schema" ∧ key ≠ "type" ∧ key ∉ adoptedKeys ∧
    key ∉ combinators) : Dicts.get (topFields obj) key = Dicts.get obj key := by
  obtain ⟨schema, type_, adopted, branches⟩ := plain
  have ne : ∀ name ∈ adoptedKeys, key ≠ name := fun name mem eq => adopted (eq ▸ mem)
  rw [get_topFields, if_neg (ne _ (by decide)), if_neg (ne _ (by decide)),
    if_neg (ne _ (by decide)), get_typed, if_neg type_, get_stripped,
    if_neg (not_or.mpr ⟨schema, branches⟩), if_neg adopted]

theorem cleanEach_propertiesOf {value : Option Value} : CleanEach (propertiesOf value) ↔
    ∀ props, value = some (.object props) → CleanAsideEach props := by
  unfold propertiesOf
  split
  · rw [cleanEach_normalize]
    simp
  · case _ other => exact iff_of_true trivial fun props eq => (other props eq).elim

theorem clean_additionalOf {value : Option Value} : Clean (additionalOf value) ↔
    ∀ v, value = some v → Clean v := by
  cases value with
  | none => simp [additionalOf, Clean]
  | some v => cases v <;> simp [additionalOf, Clean]

theorem clean_topFields (sorted : Dicts.Sorted obj) :
    Clean (.object (topFields obj)) ↔ NothingMissed obj := by
  have entries : Clean (.object (topFields obj)) ↔ ∀ key value,
      Dicts.get (topFields obj) key = some value → ¬Forbidden key value ∧ CleanAt key value := by
    rw [Clean, cleanFields_iff]
    constructor
    · intro clean key value held
      exact clean (key, value) ((Dicts.mem_iff_get (sorted_topFields sorted).nodup).mpr held)
    · rintro clean ⟨key, value⟩ mem
      exact clean key value ((Dicts.mem_iff_get (sorted_topFields sorted).nodup).mp mem)
  have properties : Dicts.get (topFields obj) "properties" =
      some (.object (propertiesOf (adopted obj "properties"))) := by
    simp [get_topFields]
  have additional : Dicts.get (topFields obj) "additionalProperties" =
      some (additionalOf (adopted obj "additionalProperties")) := by
    simp [get_topFields]
  have items : Dicts.get (topFields obj) "items" = Dicts.get obj "items" :=
    get_topFields_plain (by decide)
  rw [entries]
  constructor
  · intro clean
    refine ⟨fun key value schema held forbidden => ?_, fun value held => ?_, ?_, ?_⟩
    · obtain ⟨-, -, -, branches⟩ := forbidden_key forbidden
      obtain ⟨type_, adopted⟩ := forbidden_plain forbidden
      refine (clean key value ?_).1 forbidden
      rw [get_topFields_plain ⟨schema, type_, adopted, branches⟩, held]
    · exact (clean "items" value (items.trans held)).2
    · exact cleanEach_propertiesOf.mp (clean _ _ properties).2
    · exact clean_additionalOf.mp (clean _ _ additional).2
  · intro missed key value held
    constructor
    · intro forbidden
      obtain ⟨-, -, -, branches⟩ := forbidden_key forbidden
      obtain ⟨type_, adopted⟩ := forbidden_plain forbidden
      by_cases schema : key = "$schema"
      · have gone : Dicts.get (topFields obj) key = none :=
          topShape_topFields.plain key (by rw [schema]; decide)
        rw [gone] at held
        cases held
      · rw [get_topFields_plain ⟨schema, type_, adopted, branches⟩] at held
        exact missed.top key value schema held forbidden
    · unfold CleanAt
      split_ifs with is_properties is_items is_additional branches
      · subst is_properties
        rw [properties] at held
        cases held
        exact cleanEach_propertiesOf.mpr missed.properties
      · subst is_items
        exact missed.items value (items.symm.trans held)
      · subst is_additional
        rw [additional] at held
        cases held
        exact clean_additionalOf.mpr missed.additional
      · have gone : Dicts.get (topFields obj) key = none :=
          topShape_topFields.plain key (List.mem_cons_of_mem _ branches)
        rw [gone] at held
        cases held

/-- What stands for a schema that is no object. -/
theorem clean_empty : Clean (.obj [("type", .string "object"), ("properties", .object []),
    ("required", .array []), ("additionalProperties", .bool true)]) := by
  have sorted : Value.obj [("type", .string "object"), ("properties", .object []),
      ("required", .array []), ("additionalProperties", .bool true)] =
    .object [("additionalProperties", .bool true), ("properties", .object []),
      ("required", .array []), ("type", .string "object")] := by rfl
  rw [sorted, Clean, cleanFields_iff]
  simp [Forbidden, CleanAt, Clean, CleanProperties, CleanEach, combinators]

/-- A rewritten schema has the upstream's form at its top and a second rewriting changes nothing;
it is clean at every depth exactly when the rewriting missed nothing. -/
theorem normalizeJsonSchema_clean_iff {schema : Value}
    (ordered : ∀ obj, schema = .object obj → Dicts.Sorted obj) :
    (TopShape (normalizeJsonSchema schema) ∧ Clean (normalizeJsonSchema schema) ∧
      normalizeJsonSchema (normalizeJsonSchema schema) = normalizeJsonSchema schema) ↔
      ∀ obj, schema = .object obj → NothingMissed obj := by
  rw [and_iff_right (topShape_normalize schema)]
  cases schema with
  | object obj =>
    have sorted := ordered obj rfl
    have idem : normalizeJsonSchema (normalizeJsonSchema (.object obj)) =
        normalizeJsonSchema (.object obj) := by
      rw [normalizeJsonSchema_object, normalizeJsonSchema_object, topFields_idem sorted]
    rw [and_iff_left idem, normalizeJsonSchema_object, clean_topFields sorted]
    constructor
    · rintro missed other eq
      cases eq
      exact missed
    · exact fun missed => missed obj rfl
  | _ =>
    exact iff_of_true ⟨clean_empty, by rfl⟩ fun obj eq => by cases eq

theorem sorted_singleton {p : String × Value} : Dicts.Sorted [p] := List.pairwise_singleton _ _

/-- A bound on a property's values is dropped. -/
theorem exclusive_bound_dropped : Clean (normalizeJsonSchema (.object [("properties",
    .object [("a", .object [("exclusiveMinimum", .number (.posInt 0))])])])) := by
  refine ((normalizeJsonSchema_clean_iff fun obj is => ?_).mpr fun obj is => ?_).2.1
  · cases is
    exact sorted_singleton
  · cases is
    refine ⟨fun key value _ held => ?_, fun value held => ?_, fun props held => ?_,
      fun value held => ?_⟩
    · simp only [Dicts.get_cons, Dicts.get_nil] at held
      split_ifs at held with eq
      rw [eq]
      exact not_forbidden (by decide)
    · cases held
    · cases held
      simp [CleanAsideEach, CleanAside, CleanAsideFields, combinators]
    · cases held

/-- The same bound inside a property's `anyOf` stays. -/
theorem nested_bound_kept :
    ¬Clean (normalizeJsonSchema (.object [("properties", .object [("a", .object [("anyOf",
      .array [.object [("exclusiveMinimum", .number (.posInt 0))]])])])])) := by
  rw [normalizeJsonSchema_object, clean_topFields sorted_singleton]
  intro missed
  have aside := missed.properties _ (by rfl)
  simp [CleanAsideEach, CleanAside, CleanAsideFields, combinators, CleanBranches, CleanAll, Clean,
    CleanFields, Forbidden] at aside

end KiroRs.Converter.SchemaShape
